import KineticGrid.Arith.Word
/-!
# Grids

A grid of cells and the slot of each cell in a flat array. The first coordinate runs fastest:
the slot of `(x, y, z)` is `x + nx * (y + ny * z)`.
-/

namespace KineticGrid

abbrev Coords := Vec3 UInt32

structure Grid where
  dims : Vec3 UInt32
deriving DecidableEq, Repr

namespace Grid

def size (b : Build) (g : Grid) : Checked Nat := do
  let plane ← b.word (g.dims.x.toNat * g.dims.y.toNat)
  b.word (plane * g.dims.z.toNat)

/-- The slot of a cell. Coordinates outside the grid are not refused. -/
def slot (b : Build) (g : Grid) (c : Coords) : Checked Nat := do
  let planes ← b.word (g.dims.y.toNat * c.z.toNat)
  let rows ← b.word (c.y.toNat + planes)
  let cells ← b.word (g.dims.x.toNat * rows)
  b.word (c.x.toNat + cells)

/-- The cell of a slot. Only the checked build refuses a slot past the last cell. -/
def coords (b : Build) (g : Grid) (slot : Nat) : Checked Coords := do
  if b = .debug then
    let n ← g.size b
    if n ≤ slot then
      throw .slotOutsideGrid
  let nx := g.dims.x.toNat
  let ny := g.dims.y.toNat
  if nx = 0 then
    throw .divisionByZero
  let rows := slot / nx
  if ny = 0 then
    throw .divisionByZero
  return ⟨.ofNat (slot % nx), .ofNat (rows % ny), .ofNat (rows / ny)⟩

def contains (g : Grid) (c : Coords) : Bool :=
  Vec3.all fun a => c.get a < g.dims.get a

end Grid

end KineticGrid
