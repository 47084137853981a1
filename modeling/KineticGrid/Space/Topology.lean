import KineticGrid.Space.Slabs
/-!
# Topologies

The cells of one rank: the cells it owns, with a layer of ghost cells on both sides of each
decomposed axis. Along an axis with `d` cells and ghost width `g` the slabs are

    | ghost | boundary |   ...   | boundary | ghost |
    0       g         2g      d - 2g      d - g     d

and `Holds` says that all of them have room.
-/

namespace KineticGrid

/-- A grid and the width of its ghost layer along each axis. -/
structure Topology where
  dims : Vec3 UInt32
  ghost : Vec3 UInt32
deriving DecidableEq, Repr

namespace Topology

/-- Every axis has a cell and room for two ghost and two boundary slabs. -/
def Holds (t : Topology) : Prop :=
  ∀ a, 0 < (t.dims.get a).toNat ∧ 4 * (t.ghost.get a).toNat ≤ (t.dims.get a).toNat

/-- The test behind `Holds`, axis by axis. -/
def holds (t : Topology) : Bool :=
  Vec3.all fun a =>
    0 < (t.dims.get a).toNat && 4 * (t.ghost.get a).toNat ≤ (t.dims.get a).toNat

theorem holds_iff (t : Topology) : t.holds = true ↔ t.Holds := by
  simp only [holds, Holds, Vec3.all_eq_true_iff, Bool.and_eq_true, decide_eq_true_eq]

instance (t : Topology) : Decidable t.Holds :=
  decidable_of_iff _ t.holds_iff

def requireRoom (t : Topology) : Fallible Unit :=
  if t.Holds then .ok () else Fallible.reject (.invalidTopology t.dims t.ghost)

def make (dims ghost : Vec3 UInt32) : Fallible Topology := do
  requireRoom ⟨dims, ghost⟩
  return ⟨dims, ghost⟩

def undivided (dims : Vec3 UInt32) : Fallible Topology := make dims (.fill 0)

def grid (t : Topology) : Grid := ⟨t.dims⟩

def size (b : Build) (t : Topology) : Checked Nat := t.grid.size b

def isDecomposed (t : Topology) (a : Axis) : Bool := 0 < t.ghost.get a

/-- The coordinate that lies so many ghost widths before the end of an axis. -/
def fromEnd (b : Build) (t : Topology) (a : Axis) (layers : UInt32) : Checked UInt32 := do
  b.sub32 (t.dims.get a) (← b.mul32 layers (t.ghost.get a))

def owned (b : Build) (t : Topology) : Checked Box := do
  return ⟨t.ghost, ← Vec3.ofAxisM fun a => t.fromEnd b a 2⟩

/-- The slab of ghost width across an axis that starts at a coordinate. It spans the ghost cells
of the other axes. -/
def slab (t : Topology) (a : Axis) (start : UInt32) : Box :=
  ⟨(Vec3.fill 0).set a start, t.dims.set a (t.ghost.get a)⟩

def ghostSlabs (b : Build) (t : Topology) (a : Axis) : Checked Slabs := do
  return ⟨t.grid, t.slab a 0, t.slab a (← t.fromEnd b a 1)⟩

def boundarySlabs (b : Build) (t : Topology) (a : Axis) : Checked Slabs := do
  return ⟨t.grid, t.slab a (t.ghost.get a), t.slab a (← t.fromEnd b a 2)⟩

def validate (b : Build) (t : Topology) : Fallible Unit := do
  t.requireRoom
  Axis.all.forM fun a => do
    (← t.ghostSlabs b a).validate b
    (← t.boundarySlabs b a).validate b

def assert (b : Build) (t : Topology) : Checked Unit :=
  assertValid b .topology (t.validate b)

end Topology

end KineticGrid
