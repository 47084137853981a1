import KineticGrid.Proofs.Space.Builds
import KineticGrid.Sweep.Accumulate
import KineticGrid.Sweep.Average
import KineticGrid.Sweep.Reduction
import KineticGrid.Sweep.Staging
/-!
# Bins and passes in the two builds

Main statements: bins are built, cells are accumulated, averaged and staged, and sums are planned
and carried out in the same way by both builds, unless the checked one stops.
-/

namespace KineticGrid

/-! ## Bins -/

namespace Bins

variable {S : Type} (p : Particles S)

theorem reserveStarts_refines (cells : Nat) :
    Checked.Refines (reserveStarts .debug cells) (reserveStarts .release cells) :=
  (Build.word_refines _).bind fun _ => .refl _

theorem tableSize_refines (counts : List UInt32) :
    Checked.Refines (tableSize .debug counts) (tableSize .release counts) :=
  .foldlM (fun _ _ => Build.word_refines _) _ _

theorem tableRow_refines (width : Nat) (raw : Array UInt32) (count : UInt32) (cell : Nat) :
    Fallible.Refines (tableRow .debug width raw count cell)
      (tableRow .release width raw count cell) := by
  unfold tableRow
  refine .ite (fun _ => .refl _) fun _ => ?_
  refine (Fallible.Refines.lift (Build.word_refines _)).bind fun start => ?_
  exact (Fallible.Refines.lift (Build.word_refines _)).bind fun stop => .refl _

theorem ofLists_refines (lists : List (List UInt32)) :
    Fallible.Refines (ofLists .debug p lists) (ofLists .release p lists) :=
  (Fallible.Refines.lift (reserveStarts_refines _)).bind fun _ => .refl _

theorem ofTable_refines (memory : Nat) (counts : List UInt32) (width : Nat) (raw : Array UInt32) :
    Fallible.Refines (ofTable .debug memory p counts width raw)
      (ofTable .release memory p counts width raw) := by
  unfold ofTable
  refine .ite (fun _ => .refl _) fun _ => ?_
  refine (Fallible.Refines.lift (tableSize_refines counts)).bind fun total => ?_
  refine (Fallible.Refines.lift (reserveStarts_refines _)).bind fun _ => ?_
  refine RefinesUnless.bind (.refl _) fun _ => ?_
  refine RefinesUnless.bind (.mapM (fun cell => ?_) _) fun cells => .refl _
  exact (tableRow_refines _ _ _ _).bind fun row => .refl _

end Bins

/-! ## Passes -/

section

variable {S A : Type} [Arith A] [Storage S A]

theorem RefinesUnless.fill {α : Type} (block : Nat) {f g : Nat → Checked α}
    (h : ∀ slot, Checked.Refines (f slot) (g slot)) (n : Nat) :
    Checked.Refines (Groups.fill block f n) (Groups.fill block g n) := by
  have hfrom (group n : Nat) :
      Checked.Refines (Groups.fillFrom block f group n) (Groups.fillFrom block g group n) := by
    induction n using Nat.strongRecOn generalizing group with
    | ind n ih =>
      unfold Groups.fillFrom
      split
      · exact .refl _
      · refine RefinesUnless.bind (.mapM (fun place => h _) _) fun items => ?_
        exact (ih (n - block) (by omega) (group + 1)).bind fun rest => .refl _
  exact hfrom 0 n

namespace Cells

theorem accumulate_refines (level : Level) (e : Executor) (requested : Nat) (p : Particles S)
    (bins : Bins) (cells : Cells S) :
    Outcome.Refines (cells.accumulate ⟨.debug, level⟩ e requested p bins)
      (cells.accumulate ⟨.release, level⟩ e requested p bins) :=
  .refl _

theorem average_refines (level : Level) (e : Executor) (requested : Nat) (d : Dimension)
    (cells : Cells S) :
    Outcome.Refines (cells.average ⟨.debug, level⟩ e requested d)
      (cells.average ⟨.release, level⟩ e requested d) :=
  .refl _

theorem totalsAt_refines (grid : Grid) (box : Box) (cells : Cells S) (slot : Nat) :
    Checked.Refines (cells.totalsAt .debug grid box slot)
      (cells.totalsAt .release grid box slot) := by
  unfold totalsAt
  refine (box.coords_refines slot).bind fun c => ?_
  exact (grid.slot_refines c).bind fun c => .refl _

theorem stageInto_refines (level : Level) (e : Executor) (requested : Nat) (grid : Grid)
    (box : Box) (cells : Cells S) (n : Nat) :
    Outcome.Refines (cells.stageInto ⟨.debug, level⟩ e requested grid box n)
      (cells.stageInto ⟨.release, level⟩ e requested grid box n) := by
  unfold stageInto
  refine (Outcome.Refines.liftChecked grid.size_refines).bind fun n => ?_
  refine Outcome.Refines.bind (.refl _) fun _ => ?_
  refine (Outcome.Refines.liftChecked grid.size_refines).bind fun n => ?_
  refine Outcome.Refines.bind (.refl _) fun _ => ?_
  refine (Outcome.Refines.liftChecked box.size_refines).bind fun n => ?_
  refine Outcome.Refines.bind (.refl _) fun _ => ?_
  refine Outcome.Refines.bind (.refl _) fun _ => ?_
  refine Outcome.Refines.bind (.refl _) fun block => ?_
  exact .run level .stage (.fill block (cells.totalsAt_refines grid box) _)

theorem stage_refines (level : Level) (e : Executor) (requested : Nat) (grid : Grid) (box : Box)
    (cells : Cells S) :
    Outcome.Refines (cells.stage ⟨.debug, level⟩ e requested grid box)
      (cells.stage ⟨.release, level⟩ e requested grid box) := by
  unfold stage
  refine (Outcome.Refines.liftChecked box.size_refines).bind fun n => ?_
  exact Outcome.Refines.bind (.refl _) fun _ => cells.stageInto_refines level e requested grid box n

end Cells

end

/-! ## Sums -/

section

variable {W A : Type} [Letter W] [Arith A] [Encoding W A]

namespace Totals

theorem add_refines (t u : Totals A) : Checked.Refines (t.add .debug u) (t.add .release u) :=
  (Build.add64_refines _ _).bind fun _ => .refl _

theorem sum_refines (items : List (Totals A)) :
    Checked.Refines (sum .debug items) (sum .release items) :=
  .foldlM add_refines _ _

end Totals

namespace Reduction

omit [Arith A] in
theorem scratchSize_refines (r : Reduction) :
    Checked.Refines (r.scratchSize W A .debug) (r.scratchSize W A .release) :=
  Build.word_refines _

omit [Arith A] in
variable (W A) in
theorem make_refines (level : Level) (e : Executor) (items requested : Nat) :
    Outcome.Refines (make W A ⟨.debug, level⟩ e items requested)
      (make W A ⟨.release, level⟩ e items requested) := by
  unfold make
  refine Outcome.Refines.bind (.refl _) fun block => .ite (fun _ => ?_) fun _ => .refl _
  refine (Outcome.Refines.liftChecked (scratchSize_refines _)).bind fun bytes => ?_
  exact .refl _

theorem partialSum_refines (slot : List W) (group : List (Totals A)) :
    Checked.Refines (partialSum .debug slot group) (partialSum .release slot group) :=
  (Totals.sum_refines group).bind fun _ => .refl _

theorem work_refines (block : Nat) (input : List (Totals A)) (used : List W) :
    Checked.Refines (work .debug block input used) (work .release block input used) := by
  unfold work
  refine RefinesUnless.bind (.mapM (fun group => partialSum_refines _ _) _) fun written => ?_
  exact (Totals.sum_refines _).bind fun total => .refl _

theorem execute_refines (level : Level) (r : Reduction) (input : List (Totals A))
    (scratch : List W) :
    Outcome.Refines (r.execute ⟨.debug, level⟩ input scratch)
      (r.execute ⟨.release, level⟩ input scratch) := by
  unfold execute
  refine Outcome.Refines.bind (.refl _) fun _ => ?_
  refine (Outcome.Refines.liftChecked r.scratchSize_refines).bind fun required => ?_
  refine .ite (fun _ => .refl _) fun _ => ?_
  exact (Outcome.Refines.run level .reduce (work_refines _ _ _)).bind fun result => .refl _

end Reduction

end

end KineticGrid
