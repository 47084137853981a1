import KineticGrid.Space.Grid
/-!
# Boxes

A box of cells inside a grid, with a slot order of its own: that of a grid of the box's extent.
-/

namespace KineticGrid

/-- A box of cells: its first cell and its number of cells along each axis. -/
structure Box where
  origin : Vec3 UInt32
  extent : Vec3 UInt32
deriving DecidableEq, Repr

def Grid.box (g : Grid) : Box := ⟨.fill 0, g.dims⟩

namespace Box

/-- The grid of the box's extent, whose slot order the box has. -/
def grid (r : Box) : Grid := ⟨r.extent⟩

def size (b : Build) (r : Box) : Checked Nat := r.grid.size b

def isEmpty (b : Build) (r : Box) : Checked Bool := do
  return (← r.size b) = 0

def coords (b : Build) (r : Box) (slot : Nat) : Checked Coords := do
  let inner ← r.grid.coords b slot
  Vec3.ofAxisM fun a => b.add32 (r.origin.get a) (inner.get a)

def contains (r : Box) (c : Coords) : Bool :=
  Vec3.all fun a => r.origin.get a ≤ c.get a && c.get a - r.origin.get a < r.extent.get a

def slot? (b : Build) (r : Box) (c : Coords) : Checked (Option Nat) :=
  if r.contains c then
    some <$> r.grid.slot b (c.zipWith (· - ·) r.origin)
  else
    return none

def span (n : Nat) (first last : UInt32) : List UInt32 :=
  (List.range' first.toNat (min n (last.toNat - first.toNat))).map .ofNat

/-- The first `n` cells of the box, by three nested loops. -/
def cells (b : Build) (r : Box) (n : Nat) : Checked (List Coords) := do
  let last ← Vec3.ofAxisM fun a => b.add32 (r.origin.get a) (r.extent.get a)
  let rows := n / r.extent.x.toNat + 1
  let planes := rows / r.extent.y.toNat + 1
  let all := (span planes r.origin.z last.z).flatMap fun z =>
    (span rows r.origin.y last.y).flatMap fun y =>
      (span n r.origin.x last.x).map fun x => ⟨x, y, z⟩
  return all.take n

def stop (r : Box) (a : Axis) : Nat := (r.origin.get a).toNat + (r.extent.get a).toNat

def meets (b : Build) (r s : Box) : Checked Bool := do
  if ← r.isEmpty b then
    return false
  if ← s.isEmpty b then
    return false
  return Vec3.all fun a =>
    (r.origin.get a).toNat < s.stop a && (s.origin.get a).toNat < r.stop a

def fitsIn (r : Box) (g : Grid) : Bool :=
  Vec3.all fun a => r.stop a ≤ (g.dims.get a).toNat

def text (r : Box) : String := s!"CellRange({r.origin.text} + {r.extent.text})"

def requireInside (r : Box) (g : Grid) : Fallible Unit :=
  if r.fitsIn g then .ok () else Fallible.reject (.boxOutsideGrid r.text g.dims)

end Box

end KineticGrid
