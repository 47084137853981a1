import KineticGrid.Domain.Basic
import KineticGrid.Proofs.Ghost.Builds
import KineticGrid.Proofs.Ghost.Transaction
/-!
# Operations in the two builds

Every operation, with any input, as a program of either build. Main statement: whatever the checked
build goes through without a stop, the other build goes through as well, with the same calls, the
same payloads, the same value or error, and the same cells and buffers afterwards.
-/

namespace KineticGrid

variable {W S A V E σ α : Type}

/-- An operation with its input, by what it may change (nothing, where that is `Unit`) and what it
returns. Inputs are arbitrary: grids of any extents, boxes and slab pairs that do not fit,
topologies without room, slots, buffers and group sizes of any size. -/
inductive Operation (W S A V E : Type) : Type → Type → Type where
  | gridSize (g : Grid) : Operation W S A V E Unit Nat
  | gridSlot (g : Grid) (c : Coords) : Operation W S A V E Unit Nat
  | gridCoords (g : Grid) (slot : Nat) : Operation W S A V E Unit Coords
  | gridContains (g : Grid) (c : Coords) : Operation W S A V E Unit Bool
  | gridBox (g : Grid) : Operation W S A V E Unit Box
  | boxSize (r : Box) : Operation W S A V E Unit Nat
  | boxIsEmpty (r : Box) : Operation W S A V E Unit Bool
  | boxCoords (r : Box) (slot : Nat) : Operation W S A V E Unit Coords
  | boxSlot (r : Box) (c : Coords) : Operation W S A V E Unit (Option Nat)
  | boxCells (r : Box) (n : Nat) : Operation W S A V E Unit (List Coords)
  | boxMeets (r s : Box) : Operation W S A V E Unit Bool
  | boxFitsIn (r : Box) (g : Grid) : Operation W S A V E Unit Bool
  | slabsSize (s : Slabs) : Operation W S A V E Unit Nat
  | slabsIsEmpty (s : Slabs) : Operation W S A V E Unit Bool
  | slabsValidate (s : Slabs) : Operation W S A V E Unit Unit
  | slabsAssert (s : Slabs) : Operation W S A V E Unit Unit
  | topologyMake (dims ghost : Vec3 UInt32) : Operation W S A V E Unit Topology
  | topologyUndivided (dims : Vec3 UInt32) : Operation W S A V E Unit Topology
  | topologySize (t : Topology) : Operation W S A V E Unit Nat
  | topologyOwned (t : Topology) : Operation W S A V E Unit Box
  | topologyIsDecomposed (t : Topology) (a : Axis) : Operation W S A V E Unit Bool
  | topologyGhostSlabs (t : Topology) (a : Axis) : Operation W S A V E Unit Slabs
  | topologyBoundarySlabs (t : Topology) (a : Axis) : Operation W S A V E Unit Slabs
  | topologyValidate (t : Topology) : Operation W S A V E Unit Unit
  | topologyAssert (t : Topology) : Operation W S A V E Unit Unit
  | binsOfTable (memory : Nat) (p : Particles S) (counts : List UInt32) (width : Nat)
    (raw : Array UInt32) : Operation W S A V E Unit Bins
  | binsOfLists (p : Particles S) (lists : List (List UInt32)) : Operation W S A V E Unit Bins
  | accumulate (e : Executor) (requested : Nat) (p : Particles S) (bins : Bins)
    (cells : Cells S) : Operation W S A V E (Cells S) Unit
  | average (e : Executor) (requested : Nat) (d : Dimension) (cells : Cells S) :
    Operation W S A V E (Cells S) Unit
  | stage (e : Executor) (requested : Nat) (grid : Grid) (box : Box) (cells : Cells S) :
    Operation W S A V E Unit (List (Totals A))
  | planSum (e : Executor) (items requested : Nat) : Operation W S A V E Unit Reduction
  | sum (r : Reduction) (input : List (Totals A)) (scratch : List W) :
    Operation W S A V E (List W) (Totals A)
  | pack (e : Executor) (requested : Nat) (op : Build → Transfer V E)
    (h : (op .debug).Refines (op .release)) (cells : Array V) (s : Slabs)
    (left right : List E) : Operation W S A V E (List E × List E) Unit
  | unpack (e : Executor) (requested : Nat) (op : Build → Transfer V E)
    (h : (op .debug).Refines (op .release)) (cells : Array V) (s : Slabs)
    (left right : List E) : Operation W S A V E (Array V) Unit
  | exchange (e : Executor) (requested : Nat) (op : Build → Transfer V E)
    (h : (op .debug).Refines (op .release)) (neighbours : Neighbours) (tag : Tag)
    (outgoing incoming : Slabs) (cells : Array V) : Operation W S A V E (Array V) Unit
  | exchangeAxis (e : Executor) (requested : Nat) (op : Build → Transfer V E)
    (h : (op .debug).Refines (op .release)) (flow : Flow) (t : Topology) (a : Axis)
    (neighbours : Neighbours) (tag : Tag) (cells : Array V) : Operation W S A V E (Array V) Unit
  | exchangeAll (flow : Flow) (neighbours : Vec3 Neighbours) (tag : Tag) (d : Domain S) :
    Operation W S A V E (Domain S) Unit

def Outcome.answer (x : Outcome α) : Program W (Unit × Outcome α) := .done ((), x)

/-- What an outcome that returns a value and a new state leaves behind, and what it returns. -/
def Outcome.apart (s : σ) (x : Outcome (α × σ)) : σ × Outcome α :=
  match x.result with
  | .ok (a, s') => (s', ⟨x.log, .ok a⟩)
  | .error e => (s, ⟨x.log, .error e⟩)

def Operation.run [Letter W] [Arith A] [Storage S A] [Encoding W S] [Encoding W A] [Encoding W E]
    (level : Level) (b : Build) : Operation W S A V E σ α → Program W (σ × Outcome α)
  | .gridSize g => Outcome.answer (liftM (g.size b))
  | .gridSlot g c => Outcome.answer (liftM (g.slot b c))
  | .gridCoords g slot => Outcome.answer (liftM (g.coords b slot))
  | .gridContains g c => Outcome.answer (pure (g.contains c))
  | .gridBox g => Outcome.answer (pure g.box)
  | .boxSize r => Outcome.answer (liftM (r.size b))
  | .boxIsEmpty r => Outcome.answer (liftM (r.isEmpty b))
  | .boxCoords r slot => Outcome.answer (liftM (r.coords b slot))
  | .boxSlot r c => Outcome.answer (liftM (r.slot? b c))
  | .boxCells r n => Outcome.answer (liftM (r.cells b n))
  | .boxMeets r s => Outcome.answer (liftM (r.meets b s))
  | .boxFitsIn r g => Outcome.answer (pure (r.fitsIn g))
  | .slabsSize s => Outcome.answer (liftM (s.size b))
  | .slabsIsEmpty s => Outcome.answer (liftM (s.isEmpty b))
  | .slabsValidate s => Outcome.answer (liftM (s.validate b))
  | .slabsAssert s => Outcome.answer (liftM (s.assert b))
  | .topologyMake dims ghost => Outcome.answer (liftM (Topology.make dims ghost))
  | .topologyUndivided dims => Outcome.answer (liftM (Topology.undivided dims))
  | .topologySize t => Outcome.answer (liftM (t.size b))
  | .topologyOwned t => Outcome.answer (liftM (t.owned b))
  | .topologyIsDecomposed t a => Outcome.answer (pure (t.isDecomposed a))
  | .topologyGhostSlabs t a => Outcome.answer (liftM (t.ghostSlabs b a))
  | .topologyBoundarySlabs t a => Outcome.answer (liftM (t.boundarySlabs b a))
  | .topologyValidate t => Outcome.answer (liftM (t.validate b))
  | .topologyAssert t => Outcome.answer (liftM (t.assert b))
  | .binsOfTable memory p counts width raw =>
    Outcome.answer (liftM (Bins.ofTable b memory p counts width raw))
  | .binsOfLists p lists => Outcome.answer (liftM (Bins.ofLists b p lists))
  | .accumulate e requested p bins cells =>
    Step.ofOutcome (Cells.accumulate ⟨b, level⟩ e requested p bins) cells
  | .average e requested d cells => Step.ofOutcome (Cells.average ⟨b, level⟩ e requested d) cells
  | .stage e requested grid box cells =>
    Outcome.answer (cells.stage ⟨b, level⟩ e requested grid box)
  | .planSum e items requested => Outcome.answer (Reduction.make W A ⟨b, level⟩ e items requested)
  | .sum r input scratch => .done (Outcome.apart scratch (r.execute ⟨b, level⟩ input scratch))
  | .pack e requested op _ cells s left right =>
    Step.ofOutcome (fun buffers => s.pack ⟨b, level⟩ e requested (op b) cells buffers.1 buffers.2)
      (left, right)
  | .unpack e requested op _ cells s left right =>
    Step.ofOutcome (fun cells => s.unpack ⟨b, level⟩ e requested (op b) cells left right) cells
  | .exchange e requested op _ neighbours tag outgoing incoming cells =>
    Step.ofTask (KineticGrid.exchange ⟨b, level⟩ e requested (op b) neighbours tag outgoing
      incoming) cells
  | .exchangeAxis e requested op _ flow t a neighbours tag cells =>
    Step.ofTask (KineticGrid.exchangeAxis ⟨b, level⟩ e requested (op b) flow t a neighbours
      tag) cells
  | .exchangeAll flow neighbours tag d => Domain.exchangeAll ⟨b, level⟩ flow neighbours tag d

theorem Domain.exchangeAll_refines [Letter W] [Storage S A] [Encoding W S] (level : Level)
    (flow : Flow) (neighbours : Vec3 Neighbours) (tag : Tag) :
    Step.Refines (exchangeAll ⟨.debug, level⟩ flow neighbours tag : Step W (Domain S))
      (exchangeAll ⟨.release, level⟩ flow neighbours tag) := by
  have hmotion (a : Axis) (neighbours : Neighbours) (tag : Tag) :
      Step.Refines (exchangeMotion ⟨.debug, level⟩ flow a neighbours tag : Step W (Domain S))
        (exchangeMotion ⟨.release, level⟩ flow a neighbours tag) :=
    .ofTask fun d => (exchangeAxis_refines level d.executor _ (.refl _) flow d.topology a
      neighbours tag d.cells.motion).bind fun _ => .refl _
  have hheat (a : Axis) (neighbours : Neighbours) (tag : Tag) :
      Step.Refines (exchangeHeat ⟨.debug, level⟩ flow a neighbours tag : Step W (Domain S))
        (exchangeHeat ⟨.release, level⟩ flow a neighbours tag) :=
    .ofTask fun d => (exchangeAxis_refines level d.executor _ (Transfer.heat_refines _) flow
      d.topology a neighbours tag d.cells.heat).bind fun _ => .refl _
  exact .sequence_flatMap (fun a => .cons (hmotion a _ _) (.cons (hheat a _ _) .nil)) _

namespace Operation

variable [Letter W] [Arith A] [Storage S A] [Encoding W S] [Encoding W A] [Encoding W E]

private abbrev Stops (x : σ × Outcome α) : Prop := ¬ Fallible.Completes x.2.result

omit [Letter W] in
private theorem answer_refines {x y : Outcome α} (h : Outcome.Refines x y) :
    Program.Refines (W := W) Stops x.answer y.answer := by
  by_cases hx : Fallible.Completes x.result
  · rw [h hx]
    exact .refl _
  · exact .stop (a := ((), x)) hx _

omit [Letter W] in
private theorem apart_refines {x y : Outcome (α × σ)} (h : Outcome.Refines x y) (s : σ) :
    Program.Refines (W := W) Stops (.done (x.apart s)) (.done (y.apart s)) := by
  by_cases hx : Fallible.Completes x.result
  · rw [h hx]
    exact .refl _
  · refine .stop (fun hapart => hx ?_) _
    obtain ⟨log, result⟩ := x
    cases result with
    | ok a => exact completesUnless_ok a
    | error e => exact completesUnless_error_iff.2 (completesUnless_error_iff.1 hapart)

theorem run_refines (level : Level) (op : Operation W S A V E σ α) :
    Program.Refines Stops (op.run level .debug) (op.run level .release) := by
  cases op with
  | gridSize g => exact answer_refines (.liftChecked g.size_refines)
  | gridSlot g c => exact answer_refines (.liftChecked (g.slot_refines c))
  | gridCoords g slot => exact answer_refines (.liftChecked (g.coords_refines slot))
  | gridContains g c => exact .refl _
  | gridBox g => exact .refl _
  | boxSize r => exact answer_refines (.liftChecked r.size_refines)
  | boxIsEmpty r => exact answer_refines (.liftChecked r.isEmpty_refines)
  | boxCoords r slot => exact answer_refines (.liftChecked (r.coords_refines slot))
  | boxSlot r c => exact answer_refines (.liftChecked (r.slot?_refines c))
  | boxCells r n => exact answer_refines (.liftChecked (r.cells_refines n))
  | boxMeets r s => exact answer_refines (.liftChecked (r.meets_refines s))
  | boxFitsIn r g => exact .refl _
  | slabsSize s => exact answer_refines (.liftChecked s.size_refines)
  | slabsIsEmpty s => exact answer_refines (.liftChecked s.isEmpty_refines)
  | slabsValidate s => exact answer_refines (.lift s.validate_refines)
  | slabsAssert s => exact answer_refines (.liftChecked s.assert_refines)
  | topologyMake dims ghost => exact .refl _
  | topologyUndivided dims => exact .refl _
  | topologySize t => exact answer_refines (.liftChecked t.size_refines)
  | topologyOwned t => exact answer_refines (.liftChecked t.owned_refines)
  | topologyIsDecomposed t a => exact .refl _
  | topologyGhostSlabs t a => exact answer_refines (.liftChecked (t.ghostSlabs_refines a))
  | topologyBoundarySlabs t a => exact answer_refines (.liftChecked (t.boundarySlabs_refines a))
  | topologyValidate t => exact answer_refines (.lift t.validate_refines)
  | topologyAssert t => exact answer_refines (.liftChecked t.assert_refines)
  | binsOfTable memory p counts width raw =>
      exact answer_refines (.lift (Bins.ofTable_refines p memory counts width raw))
  | binsOfLists p lists => exact answer_refines (.lift (Bins.ofLists_refines p lists))
  | accumulate e requested p bins cells =>
      exact Step.Refines.ofOutcome (Cells.accumulate_refines level e requested p bins) cells
  | average e requested d cells =>
      exact Step.Refines.ofOutcome (Cells.average_refines level e requested d) cells
  | stage e requested grid box cells =>
      exact answer_refines (cells.stage_refines level e requested grid box)
  | planSum e items requested =>
      exact answer_refines (Reduction.make_refines W A level e items requested)
  | sum r input scratch => exact apart_refines (r.execute_refines level input scratch) scratch
  | pack e requested op h cells s left right =>
      have hpack (buffers : List E × List E) :=
        s.pack_refines level e requested h cells buffers.1 buffers.2
      exact Step.Refines.ofOutcome hpack (left, right)
  | unpack e requested op h cells s left right =>
      exact Step.Refines.ofOutcome
        (fun cells => s.unpack_refines level e requested h cells left right) cells
  | exchange e requested op h neighbours tag outgoing incoming cells =>
      exact Step.Refines.ofTask
        (exchange_refines level e requested h neighbours tag outgoing incoming) cells
  | exchangeAxis e requested op h flow t a neighbours tag cells =>
      exact Step.Refines.ofTask
        (exchangeAxis_refines level e requested h flow t a neighbours tag) cells
  | exchangeAll flow neighbours tag d =>
      exact Domain.exchangeAll_refines level flow neighbours tag d

end Operation

/-- The build without checks agrees with the checked one wherever that completes: for every
operation and every input, and whatever the channel answers, a run of the checked build that neither
faults nor ends with a fault of a worker is a run of the other build. Both make the same calls with
the same payloads, return the same value or the same error, and leave the same cells and buffers
behind. -/
theorem release_follows_debug [Letter W] [Arith A] [Storage S A] [Encoding W S] [Encoding W A]
    [Encoding W E] (level : Level) (op : Operation W S A V E σ α) {turns : List (Turn W)} {s : σ}
    {x : Outcome α} (h : (op.run level .debug).Talks turns (s, x))
    (hx : Fallible.Completes x.result) : (op.run level .release).Talks turns (s, x) :=
  (op.run_refines level).talks h fun hstop => hstop hx

theorem release_follows_debug_exchange :
    ∃ leftOut rightOut : List UInt32, ∃ x : Outcome Unit,
      ((.exchange .shared 1 (fun _ => .copy) (.refl _) ⟨0, 0⟩ ⟨65535⟩
          ⟨⟨⟨4, 1, 1⟩⟩, ⟨⟨1, 0, 0⟩, ⟨1, 1, 1⟩⟩, ⟨⟨2, 0, 0⟩, ⟨1, 1, 1⟩⟩⟩
          ⟨⟨⟨4, 1, 1⟩⟩, ⟨⟨0, 0, 0⟩, ⟨1, 1, 1⟩⟩, ⟨⟨3, 0, 0⟩, ⟨1, 1, 1⟩⟩⟩ #[10, 11, 12, 13] :
        Operation UInt8 Binary64 Binary64 UInt32 UInt32 (Array UInt32) Unit).run .trace
          .release).Talks
        (exchangeTurns ⟨0, 0⟩ ⟨65535⟩
          ⟨⟨⟨4, 1, 1⟩⟩, ⟨⟨0, 0, 0⟩, ⟨1, 1, 1⟩⟩, ⟨⟨3, 0, 0⟩, ⟨1, 1, 1⟩⟩⟩ leftOut rightOut
          (.settled none) (.settled none) none none) (#[10, 11, 12, 13], x) ∧
      x.result = .error (.error (.link 0 .noSlab)) := by
  have hout : Slabs.Valid ⟨⟨⟨4, 1, 1⟩⟩, ⟨⟨1, 0, 0⟩, ⟨1, 1, 1⟩⟩, ⟨⟨2, 0, 0⟩, ⟨1, 1, 1⟩⟩⟩ :=
    (Slabs.validate_eq_ok_iff (b := .debug) (by decide)).1 (by decide)
  have hin : Slabs.Valid ⟨⟨⟨4, 1, 1⟩⟩, ⟨⟨0, 0, 0⟩, ⟨1, 1, 1⟩⟩, ⟨⟨3, 0, 0⟩, ⟨1, 1, 1⟩⟩⟩ :=
    (Slabs.validate_eq_ok_iff (b := .debug) (by decide)).1 (by decide)
  have hsize : (#[10, 11, 12, 13] : Array UInt32).size = (⟨⟨4, 1, 1⟩⟩ : Grid).extent.volume := rfl
  obtain ⟨f, hcells⟩ := Extent.exists_table hsize (by decide)
  obtain ⟨log, htalks⟩ := (@exchange_leads_iff UInt8 _ _ _ ⟨.debug, .trace⟩ .shared 1 .copy ⟨0, 0⟩
    ⟨65535⟩ _ _ Nat.one_ne_zero hout hin rfl (by decide) (by decide) ⟨by decide, by decide⟩
    ⟨by decide, by decide⟩ f _ _).2
    ⟨.settled none, .settled none, none, none, rfl, rfl⟩
  rw [← hcells] at htalks
  exact ⟨_, _, _, release_follows_debug .trace _ (Program.talks_map.2 ⟨_, htalks, rfl⟩)
    (completesUnless_error_iff.2 id), rfl⟩

end KineticGrid
