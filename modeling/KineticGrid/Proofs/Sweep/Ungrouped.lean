import KineticGrid.Arith.Exact
import KineticGrid.Proofs.Ghost.Packing
import KineticGrid.Proofs.Space.Order
import KineticGrid.Proofs.Sweep.Passes
import KineticGrid.Proofs.Sweep.Summing
/-!
# Passes without groups

Averaging, staging and packing treat every item on its own. Main statement: under every limit of the
executor and for every request of at least one item, these passes give what a plain map over their
cells gives, and a request of no items is the only one that is refused.
-/

namespace KineticGrid

variable {S A V E α : Type}

/-! ## Limits and requests -/

/-- Groups make no difference to a pass: under every limit, every request of at least one item leads
to the same value, and a request of none is refused and leaves what there was. -/
structure Ungrouped (pass : Pass) (run : Executor → Nat → Outcome α) (value : α) : Prop where
  result_eq : ∀ (e : Executor) limit requested, requested ≠ 0 →
    (run (e.withMaxBlock limit) requested).result = .ok value
  result_zero : ∀ (e : Executor) limit,
    (run (e.withMaxBlock limit) 0).result = .error (.error (.zeroBlock pass))
  kept : ∀ (e : Executor) limit old, (run (e.withMaxBlock limit) 0).valueD old = old

/-- A pass that only looks for a group size before it works, and then works to the same end for all
sizes, is one without groups. -/
theorem Ungrouped.of {m : Mode} {pass : Pass} {run : Executor → Nat → Outcome α} {value : α}
    {work : Nat → Fallible α}
    (hrun : ∀ e requested, (run e requested).result =
      (e.block m pass requested).result >>= work)
    (hwork : ∀ block, 0 < block → work block = .ok value) : Ungrouped pass run value := by
  have hzero (e : Executor) : (run e 0).result = .error (.error (.zeroBlock pass)) := by
    rw [hrun, e.result_block_zero]
    rfl
  constructor
  case result_eq =>
    intro e limit requested hrequested
    have hlimit := (e.withMaxBlock limit).limit_pos pass
    rw [hrun, Executor.result_block _ _ _ hrequested, ok_bind]
    exact hwork _ (by omega)
  case result_zero => exact fun e limit => hzero _
  case kept =>
    intro e limit old
    rw [Outcome.valueD, hzero]

/-! ## Averaging -/

private theorem zipWith_left {as : Array V} {bs : Array E} (f : V → α) (h : as.size = bs.size) :
    as.zipWith (fun a _ => f a) bs = as.map f := by
  apply Array.ext
  · simp [h]
  · simp

private theorem zipWith_right {as : Array V} {bs : Array E} (f : E → α) (h : as.size = bs.size) :
    as.zipWith (fun _ b => f b) bs = bs.map f := by
  rw [Array.zipWith_comm]
  exact zipWith_left f h.symm

namespace Cells

variable [Arith A] [Storage S A]

/-- Every cell has become what `averageCell` makes of it; its mass, energy and count are the old
ones. -/
structure Averaged (d : Dimension) (cells averages : Cells S) : Prop where
  size_motion : averages.motion.size = cells.motion.size
  size_heat : averages.heat.size = cells.heat.size
  cell_eq : ∀ (i : Nat) v h, cells.motion[i]? = some v → cells.heat[i]? = some h →
    averages.motion[i]? = some (averageCell d v h).1 ∧
    averages.heat[i]? = some (averageCell d v h).2
  mass_eq : averages.motion.map Motion.mass = cells.motion.map Motion.mass
  energy_eq : averages.heat.map Heat.energy = cells.heat.map Heat.energy
  count_eq : averages.heat.map Heat.count = cells.heat.map Heat.count

theorem averaged (d : Dimension) {cells : Cells S} (h : cells.motion.size = cells.heat.size) :
    cells.Averaged d (cells.averages d) where
  size_motion := by simp [averages, h]
  size_heat := by simp [averages, h]
  cell_eq i v e hv he := by simp [averages, Array.getElem?_zipWith, hv, he]
  mass_eq := by
    rw [averages, Array.map_zipWith]
    exact zipWith_left Motion.mass h
  energy_eq := by
    rw [averages, Array.map_zipWith]
    exact zipWith_right Heat.energy h
  count_eq := by
    rw [averages, Array.map_zipWith]
    exact zipWith_right Heat.count h

end Cells

/-! ## Cells of a box -/

def Box.Reads (g : Grid) (r : Box) (s i : Nat) : Prop :=
  ∀ b : Build, r.coords b s >>= g.slot b = .ok i

namespace Box

variable {g : Grid} {r : Box}

theorem reads (hg : g.extent.volume < wordSize) (hr : r.Within g.extent) {s : Nat}
    (hs : s < r.shape.volume) : r.Reads g s (g.extent.slot (r.cellAt s)) :=
  fun _ => slot_eq hr hg hs

theorem Reads.unique {s i j : Nat} (hi : r.Reads g s i) (hj : r.Reads g s j) : i = j :=
  Except.ok.inj ((hi .debug).symm.trans (hj .debug))

/-- A cell that is read lies in the box. -/
theorem Reads.exists_contains (hg : g.extent.volume < wordSize) (hr : r.Within g.extent)
    {s i : Nat} (hs : s < r.shape.volume) (h : r.Reads g s i) :
    ∃ c, r.contains c = true ∧ g.slot .debug c = .ok i := by
  obtain ⟨c, hc, hslot⟩ := exists_of_bind_eq_ok (h .debug)
  obtain ⟨c', hc', _, hfound⟩ := (numbered (b := .debug) hg hr).coords_eq s hs
  obtain rfl := Except.ok.inj (hc.symm.trans hc')
  refine ⟨c, ?_, hslot⟩
  by_contra hout
  rw [slot?, if_neg hout] at hfound
  cases hfound

/-- Every cell of a box inside the grid has exactly one slot in the box. -/
theorem existsUnique_slot (hg : g.extent.volume < wordSize) (hr : r.Within g.extent) {c : Coords}
    (hc : r.contains c = true) :
    ∃! s, s < r.shape.volume ∧ ∀ b, r.coords b s = .ok c := by
  have hnumbered (b : Build) : r.Numbered b g := numbered hg hr
  have hslot (b : Build) : r.slot? b c = .ok (some (r.slotAt (c.map UInt32.toNat))) := by
    rw [slot?_eq (Nat.lt_of_le_of_lt hr.volume_le hg), if_pos (contains_iff.1 hc)]
  refine ⟨r.slotAt (c.map UInt32.toNat), ⟨?_, fun b => ?_⟩, ?_⟩
  · exact ((hnumbered .debug).coords_of_slot _ _ (hslot .debug)).1
  · exact ((hnumbered b).coords_of_slot _ _ (hslot b)).2
  · rintro s ⟨hs, hcoords⟩
    obtain ⟨c', hc', _, hslot'⟩ := (hnumbered .debug).coords_eq s hs
    obtain rfl := Except.ok.inj ((hcoords .debug).symm.trans hc')
    exact Option.some.inj (Except.ok.inj (hslot'.symm.trans (hslot .debug)))

end Box

/-! ## Staging -/

namespace Cells

/-- Two sets of cells are the same inside a box. -/
def SameIn (g : Grid) (r : Box) (cells cells' : Cells S) : Prop :=
  ∀ c i, r.contains c = true → g.slot .debug c = .ok i →
    cells'.motion[i]? = cells.motion[i]? ∧ cells'.heat[i]? = cells.heat[i]?

variable [Arith A] [Storage S A] {g : Grid} {r : Box} {cells cells' : Cells S}

structure Staged (g : Grid) (r : Box) (cells : Cells S) (out : List (Totals A)) : Prop where
  length_eq : out.length = r.shape.volume
  totals_eq : ∀ s < r.shape.volume, ∃ i v h, r.Reads g s i ∧ cells.motion[i]? = some v ∧
    cells.heat[i]? = some h ∧ out[s]? = some (Totals.ofCell v h)

theorem exists_staged (hg : g.extent.volume < wordSize) (hr : r.Within g.extent)
    (hmotion : cells.motion.size = g.extent.volume) (hheat : cells.heat.size = g.extent.volume) :
    ∃ out : List (Totals A), cells.Staged g r out ∧
      ∀ m, Ungrouped .stage
        (fun e requested => cells.stageInto m e requested g r r.shape.volume) out := by
  have hstaged (s : Nat) (hs : s < r.shape.volume) :
      ∃ t : Totals A, (∃ i v h, r.Reads g s i ∧ cells.motion[i]? = some v ∧
          cells.heat[i]? = some h ∧ t = Totals.ofCell v h) ∧
        ∀ b, cells.totalsAt b g r s = .ok t := by
    have hlt := Extent.slot_lt (hr.has (Box.has_cellAt hs))
    have hv := Array.getElem?_eq_getElem (hmotion ▸ hlt)
    have hh := Array.getElem?_eq_getElem (hheat ▸ hlt)
    exact ⟨_, ⟨_, _, _, Box.reads hg hr hs, hv, hh, rfl⟩, fun _ => totalsAt_eq hg hr hs hv hh⟩
  obtain ⟨out, hlength, hout, hall⟩ := exists_mapM_range hstaged
  refine ⟨out, ⟨hlength, fun s hs => ?_⟩, fun m => ?_⟩
  · obtain ⟨_, ht, i, v, h, hi, hv, hh, rfl⟩ := hall s hs
    exact ⟨i, v, h, hi, hv, hh, ht⟩
  · refine .of (fun e requested => result_stageInto m e hg hr hmotion hheat) fun block hblock => ?_
    rw [Groups.fill_eq hblock, hout, Executor.result_run]
    rfl

/-- Only the cells of the box have a part in what is staged. -/
theorem Staged.eq_of_sameIn {out out' : List (Totals A)} (hg : g.extent.volume < wordSize)
    (hr : r.Within g.extent) (h : cells.Staged g r out) (h' : cells'.Staged g r out')
    (hsame : cells.SameIn g r cells') : out' = out := by
  apply List.ext_getElem?
  intro s
  by_cases hs : s < r.shape.volume
  · obtain ⟨i, v, e, hi, hv, he, hout⟩ := h.totals_eq s hs
    obtain ⟨j, v', e', hj, hv', he', hout'⟩ := h'.totals_eq s hs
    obtain rfl := hi.unique hj
    obtain ⟨c, hc, hslot⟩ := hi.exists_contains hg hr hs
    obtain ⟨hmotion, hheat⟩ := hsame c i hc hslot
    obtain rfl := Option.some.inj (hv'.symm.trans (hmotion.trans hv))
    obtain rfl := Option.some.inj (he'.symm.trans (hheat.trans he))
    rw [hout, hout']
  · have hlength := h.length_eq
    have hlength' := h'.length_eq
    rw [List.getElem?_eq_none (by omega), List.getElem?_eq_none (by omega)]

end Cells

/-! ## Packing -/

/-- A buffer holds the packed values of the cells of a box, in slot order, and from the end of the
box on what it held before. -/
structure Box.PackedInto (op : Transfer V E) (g : Grid) (cells : Array V) (r : Box)
    (old new : List E) : Prop where
  length_eq : new.length = old.length
  value_eq : ∀ s < r.shape.volume, ∃ i v, r.Reads g s i ∧ cells[i]? = some v ∧
    new[s]? = some (op.pack v)
  rest_eq : ∀ s, r.shape.volume ≤ s → new[s]? = old[s]?

theorem Box.Packed.into {op : Transfer V E} {g : Grid} {cells : Array V} {r : Box}
    {values old : List E} (h : r.Packed op g.extent cells values) (hg : g.extent.volume < wordSize)
    (hr : r.Within g.extent) (hold : r.shape.volume ≤ old.length) :
    r.PackedInto op g cells old (values ++ old.drop values.length) where
  length_eq := by
    have hlength := h.length_eq
    rw [List.length_append, List.length_drop]
    omega
  value_eq s hs := by
    obtain ⟨v, hv, hvalue⟩ := h.value s hs
    refine ⟨_, v, reads hg hr hs, hv, ?_⟩
    rw [List.getElem?_append_left (by rw [h.length_eq]; exact hs), hvalue]
  rest_eq s hs := by
    have hlength := h.length_eq
    rw [List.getElem?_append_right (by omega), List.getElem?_drop]
    congr 1
    omega

theorem Slabs.Valid.exists_packedInto {s : Slabs} (h : s.Valid)
    (hg : s.grid.extent.volume < wordSize) (op : Transfer V E) {cells : Array V}
    (hcells : cells.size = s.grid.extent.volume) {left right : List E}
    (hl : s.left.shape.volume ≤ left.length) (hr : s.right.shape.volume ≤ right.length) :
    ∃ left' right', s.left.PackedInto op s.grid cells left left' ∧
      s.right.PackedInto op s.grid cells right right' ∧
      ∀ m, Ungrouped .pack (fun e requested => s.pack m e requested op cells left right)
        (left', right') := by
  obtain ⟨l, hpl, hleft⟩ := Box.exists_pack op hg h.left hcells
  obtain ⟨r, hpr, hright⟩ := Box.exists_pack op hg h.right hcells
  refine ⟨_, _, hpl.into hg h.left hl, hpr.into hg h.right hr, fun m => ?_⟩
  refine .of (fun e _ => h.result_pack_eq hg m e hcells hl hr) fun block hblock => ?_
  rw [hleft _ _ hblock, ok_bind, hright _ _ hblock, ok_bind, Executor.result_run]
  rfl

/-! ## All three -/

/-- Averaging, staging and packing are maps over their cells: under every limit and for every
request of at least one item they give the same, cell by cell, and only a request of no items is
refused. Staging takes every cell of the box once and looks at no other cell. -/
theorem passes_are_maps [Arith A] [Storage S A] :
    (∀ (d : Dimension) (cells : Cells S), cells.motion.size = cells.heat.size →
      ∃ averages, cells.Averaged d averages ∧
        ∀ m, Ungrouped .finalize (fun e requested => cells.average m e requested d) averages) ∧
    (∀ (g : Grid) (r : Box) (cells : Cells S), g.extent.volume < wordSize → r.fitsIn g = true →
      cells.motion.size = g.extent.volume → cells.heat.size = g.extent.volume →
      ∃ out : List (Totals A), cells.Staged g r out ∧
        (∀ m, Ungrouped .stage
          (fun e requested => cells.stageInto m e requested g r r.shape.volume) out) ∧
        (∀ c, r.contains c = true → ∃! s, s < r.shape.volume ∧ ∀ b, r.coords b s = .ok c) ∧
        ∀ cells' : Cells S, cells'.motion.size = g.extent.volume →
          cells'.heat.size = g.extent.volume → cells.SameIn g r cells' →
          ∀ m, Ungrouped .stage
            (fun e requested => cells'.stageInto m e requested g r r.shape.volume) out) ∧
    ∀ (op : Transfer V E) (s : Slabs) (cells : Array V) (left right : List E),
      s.grid.extent.volume < wordSize → s.validate .debug = .ok () →
      cells.size = s.grid.extent.volume → s.left.shape.volume ≤ left.length →
      s.right.shape.volume ≤ right.length →
      ∃ left' right', s.left.PackedInto op s.grid cells left left' ∧
        s.right.PackedInto op s.grid cells right right' ∧
        ∀ m, Ungrouped .pack (fun e requested => s.pack m e requested op cells left right)
          (left', right') := by
  refine ⟨?_, ?_, ?_⟩
  · intro d cells hsizes
    refine ⟨cells.averages d, Cells.averaged d hsizes, fun m => ?_⟩
    exact .of (fun e _ => Cells.result_average_eq m e d hsizes) fun _ _ => rfl
  · intro g r cells hg hfits hmotion hheat
    have hr := Box.fitsIn_iff.1 hfits
    obtain ⟨out, hstaged, hout⟩ := Cells.exists_staged (A := A) hg hr hmotion hheat
    refine ⟨out, hstaged, hout, fun c hc => Box.existsUnique_slot hg hr hc, ?_⟩
    intro cells' hmotion' hheat' hsame
    obtain ⟨out', hstaged', hout'⟩ := Cells.exists_staged (A := A) hg hr hmotion' hheat'
    obtain rfl := hstaged.eq_of_sameIn hg hr hstaged' hsame
    exact hout'
  · intro op s cells left right hg hvalid hcells hl hr
    exact ((Slabs.validate_eq_ok_iff hg).1 hvalid).exists_packedInto hg op hcells hl hr

theorem passes_are_maps_three :
    let g : Grid := ⟨⟨3, 1, 1⟩⟩
    let r : Box := ⟨⟨1, 0, 0⟩, ⟨2, 1, 1⟩⟩
    let cells : Cells Rat := ⟨#[⟨.fill 0, 0⟩, ⟨⟨6, 0, 0⟩, 3⟩, ⟨⟨0, 4, 0⟩, 2⟩],
      #[⟨0, 0, 0⟩, ⟨12, 0, 3⟩, ⟨4, 0, 1⟩]⟩
    let cells' : Cells Rat := ⟨#[⟨.fill 5, 1⟩, ⟨⟨6, 0, 0⟩, 3⟩, ⟨⟨0, 4, 0⟩, 2⟩],
      #[⟨1, 1, 2⟩, ⟨12, 0, 3⟩, ⟨4, 0, 1⟩]⟩
    let s : Slabs := ⟨g, ⟨⟨0, 0, 0⟩, ⟨1, 1, 1⟩⟩, ⟨⟨2, 0, 0⟩, ⟨1, 1, 1⟩⟩⟩
    (∃ averages, (∀ m e, (cells.average m (.withMaxBlock e 0) 9 .three).result = .ok averages) ∧
      averages.motion[1]? = some ⟨⟨2, 0, 0⟩, 3⟩ ∧ averages.heat[1]? = some ⟨12, 2, 3⟩) ∧
    (∃ out, (∀ m e, (cells.stageInto m (.withMaxBlock e 2) 9 g r 2).result = .ok out) ∧
      (∀ m e, (cells'.stageInto m (.withMaxBlock e 1) 9 g r 2).result = .ok out) ∧
      out[1]? = some ⟨⟨0, 8, 0⟩, 4, 0, 0⟩) ∧
    ∃ left right, (∀ m e, (s.pack m (.withMaxBlock e 3) 9 .copy #[10, 20, 30] [7, 7] [7]).result =
        .ok (left, right)) ∧
      left[0]? = some 10 ∧ left[1]? = some 7 ∧ right[0]? = some 30 := by
  intro g r cells cells' s
  obtain ⟨haverage, hstage, hpack⟩ := passes_are_maps (S := Rat) (A := Rat) (V := Nat) (E := Nat)
  have hg : g.extent.volume < wordSize := by decide
  have hfits : r.fitsIn g = true := by decide
  have hr := Box.fitsIn_iff.1 hfits
  have hvalid : s.Valid := (Slabs.validate_eq_ok_iff (b := .debug) (s := s) hg).1 rfl
  refine ⟨?_, ?_, ?_⟩
  · obtain ⟨averages, haveraged, hrun⟩ := haverage .three cells rfl
    obtain ⟨hmotion, hheat⟩ := haveraged.cell_eq 1 _ _ rfl rfl
    refine ⟨averages, fun m e => (hrun m).result_eq e 0 9 (by decide), ?_, ?_⟩
    · rw [hmotion]
      decide +kernel
    · rw [hheat]
      decide +kernel
  · obtain ⟨out, hstaged, hrun, honce, hothers⟩ := hstage g r cells hg hfits rfl rfl
    have hsame : cells.SameIn g r cells' := by
      intro c i hc hslot
      obtain ⟨k, ⟨hk, hcoords⟩, _⟩ := honce c hc
      have hread := Box.reads hg hr hk .debug
      rw [hcoords, ok_bind, hslot] at hread
      obtain rfl := Except.ok.inj hread
      have hvolume : r.shape.volume = 2 := by decide
      obtain rfl | rfl : k = 0 ∨ k = 1 := by omega
      · decide +kernel
      · decide +kernel
    obtain ⟨i, v, h, hi, hv, hh, hout⟩ := hstaged.totals_eq 1 (by decide)
    obtain rfl : i = 2 := (hi.unique (Box.reads hg hr (by decide))).trans (by decide)
    obtain rfl := Option.some.inj hv
    obtain rfl := Option.some.inj hh
    refine ⟨out, fun m e => (hrun m).result_eq e 2 9 (by decide),
      fun m e => (hothers cells' rfl rfl hsame m).result_eq e 1 9 (by decide), ?_⟩
    rw [hout]
    decide +kernel
  · obtain ⟨left, right, hleft, hright, hrun⟩ :=
      hpack .copy s #[10, 20, 30] [7, 7] [7] hg rfl rfl (by decide) (by decide)
    obtain ⟨i, v, hi, hv, hfirst⟩ := hleft.value_eq 0 (by decide)
    obtain ⟨j, w, hj, hw, hlast⟩ := hright.value_eq 0 (by decide)
    obtain rfl : i = 0 := (hi.unique (Box.reads hg hvalid.left (by decide))).trans (by decide)
    obtain rfl : j = 2 := (hj.unique (Box.reads hg hvalid.right (by decide))).trans (by decide)
    obtain rfl := Option.some.inj hv
    obtain rfl := Option.some.inj hw
    exact ⟨left, right, fun m e => (hrun m).result_eq e 3 9 (by decide), hfirst,
      hleft.rest_eq 1 (by decide), hlast⟩

end KineticGrid
