import KineticGrid.Proofs.Report.Refinement
import KineticGrid.Space.Topology
/-!
# Grids, boxes and topologies in the two builds

Main statements: every number, cell and verdict that the checked build works out is the one that the
other build works out. Where the checked build asserts an invariant, the other one goes on.
-/

namespace KineticGrid

/-! ## Grids -/

namespace Grid

theorem size_refines (g : Grid) : Checked.Refines (g.size .debug) (g.size .release) := by
  unfold size
  exact (Build.word_refines _).bind fun plane => Build.word_refines _

theorem slot_refines (g : Grid) (c : Coords) :
    Checked.Refines (g.slot .debug c) (g.slot .release c) := by
  unfold slot
  refine (Build.word_refines _).bind fun planes => ?_
  refine (Build.word_refines _).bind fun rows => ?_
  exact (Build.word_refines _).bind fun cells => Build.word_refines _

/-- The assertion that only the checked build makes changes no result. -/
theorem coords_refines (g : Grid) (slot : Nat) :
    Checked.Refines (g.coords .debug slot) (g.coords .release slot) := by
  intro hcompletes
  unfold coords at hcompletes ⊢
  rw [if_pos rfl] at hcompletes
  rw [if_neg (by decide : ¬ Build.release = Build.debug)]
  cases hsize : g.size .debug with
  | error e =>
      rw [hsize] at hcompletes
      exact absurd trivial (hcompletes e rfl)
  | ok n =>
      rw [hsize, ok_bind] at hcompletes
      by_cases hslot : n ≤ slot
      · rw [if_pos hslot] at hcompletes
        exact absurd trivial (hcompletes .slotOutsideGrid rfl)
      · dsimp only
        rw [if_pos rfl, ok_bind, if_neg hslot]

end Grid

/-! ## Boxes -/

namespace Box

theorem size_refines (r : Box) : Checked.Refines (r.size .debug) (r.size .release) :=
  r.grid.size_refines

theorem isEmpty_refines (r : Box) : Checked.Refines (r.isEmpty .debug) (r.isEmpty .release) :=
  r.size_refines.bind fun _ => .refl _

theorem coords_refines (r : Box) (slot : Nat) :
    Checked.Refines (r.coords .debug slot) (r.coords .release slot) :=
  (r.grid.coords_refines slot).bind fun _ => .ofAxisM fun _ => Build.add32_refines _ _

theorem slot?_refines (r : Box) (c : Coords) :
    Checked.Refines (r.slot? .debug c) (r.slot? .release c) :=
  .ite (fun _ => (r.grid.slot_refines _).map some) fun _ => .refl _

theorem cells_refines (r : Box) (n : Nat) :
    Checked.Refines (r.cells .debug n) (r.cells .release n) :=
  RefinesUnless.bind (.ofAxisM fun _ => Build.add32_refines _ _) fun _ => .refl _

theorem meets_refines (r s : Box) : Checked.Refines (r.meets .debug s) (r.meets .release s) := by
  unfold meets
  refine r.isEmpty_refines.bind fun empty => .ite (fun _ => .refl _) fun _ => ?_
  exact s.isEmpty_refines.bind fun empty => .refl _

end Box

/-! ## Slab pairs -/

/-- Where the checked build does not stop, its assertion was in vain. -/
theorem assertValid_refines (owner : Guarded) (x y : Fallible Unit) :
    Checked.Refines (assertValid .debug owner x) (assertValid .release owner y) := by
  unfold assertValid
  cases x with
  | ok u => exact .refl _
  | error e => cases e <;> exact .error trivial _

namespace Slabs

theorem size_refines (s : Slabs) : Checked.Refines (s.size .debug) (s.size .release) := by
  unfold size
  refine s.left.size_refines.bind fun l => ?_
  exact s.right.size_refines.bind fun r => Build.word_refines _

theorem isEmpty_refines (s : Slabs) : Checked.Refines (s.isEmpty .debug) (s.isEmpty .release) :=
  s.size_refines.bind fun _ => .refl _

theorem validate_refines (s : Slabs) :
    Fallible.Refines (s.validate .debug) (s.validate .release) := by
  unfold validate
  refine RefinesUnless.bind (.refl _) fun _ => ?_
  exact (Fallible.Refines.lift (s.left.meets_refines s.right)).bind fun _ => .refl _

theorem assert_refines (s : Slabs) : Checked.Refines (s.assert .debug) (s.assert .release) :=
  assertValid_refines _ _ _

end Slabs

/-! ## Topologies -/

namespace Topology

theorem size_refines (t : Topology) : Checked.Refines (t.size .debug) (t.size .release) :=
  t.grid.size_refines

theorem fromEnd_refines (t : Topology) (a : Axis) (layers : UInt32) :
    Checked.Refines (t.fromEnd .debug a layers) (t.fromEnd .release a layers) :=
  (Build.mul32_refines _ _).bind fun _ => Build.sub32_refines _ _

theorem owned_refines (t : Topology) : Checked.Refines (t.owned .debug) (t.owned .release) :=
  RefinesUnless.bind (.ofAxisM fun _ => t.fromEnd_refines _ _) fun _ => .refl _

theorem ghostSlabs_refines (t : Topology) (a : Axis) :
    Checked.Refines (t.ghostSlabs .debug a) (t.ghostSlabs .release a) :=
  (t.fromEnd_refines a 1).bind fun _ => .refl _

theorem boundarySlabs_refines (t : Topology) (a : Axis) :
    Checked.Refines (t.boundarySlabs .debug a) (t.boundarySlabs .release a) :=
  (t.fromEnd_refines a 2).bind fun _ => .refl _

theorem validate_refines (t : Topology) :
    Fallible.Refines (t.validate .debug) (t.validate .release) := by
  unfold validate
  refine RefinesUnless.bind (.refl _) fun _ => .forM (fun a => ?_) _
  refine (Fallible.Refines.lift (t.ghostSlabs_refines a)).bind fun ghosts => ?_
  refine ghosts.validate_refines.bind fun _ => ?_
  refine (Fallible.Refines.lift (t.boundarySlabs_refines a)).bind fun boundary => ?_
  exact boundary.validate_refines

theorem assert_refines (t : Topology) : Checked.Refines (t.assert .debug) (t.assert .release) :=
  assertValid_refines _ _ _

end Topology

end KineticGrid
