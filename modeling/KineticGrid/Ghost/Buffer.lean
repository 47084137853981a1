import KineticGrid.Ghost.Transfer
import KineticGrid.Matter.Particles
import KineticGrid.Space.Slabs
import KineticGrid.Sweep.Executor
/-!
# Slab buffers

The cells of a pair of slabs in two buffers, each in the slot order of its slab, and back. Both
directions need a valid pair: the checked build asserts it, and otherwise merging refuses a pair
that leaves the grid or shares cells before it changes anything.
-/

namespace KineticGrid

variable {V E : Type}

def Box.pack (b : Build) (block : Nat) (op : Transfer V E) (cells : Array V) (grid : Grid)
    (box : Box) : Checked (List E) := do
  let n ← box.size b
  Groups.fill block (fun slot => do
    let c ← grid.slot b (← box.coords b slot)
    return op.pack (← Particles.entry cells c)) n

/-- The rows along the first axis of a box: the slot where each starts in the grid, and its part of
a buffer of the box's cells. -/
def Box.rows (b : Build) (grid : Grid) (box : Box) (buffer : List E) :
    Checked (List (Nat × List E)) := do
  if ← box.isEmpty b then
    return []
  let n ← box.size b
  let rows := Groups.whole box.extent.x.toNat (buffer.take n)
  rows.zipIdx.mapM fun (row, i) => do
    let q : UInt32 := .ofNat i
    let y ← b.add32 box.origin.y (q % box.extent.y)
    let z ← b.add32 box.origin.z (q / box.extent.y)
    return (← grid.slot b ⟨box.origin.x, y, z⟩, row)

/-- A row of cells, the cells skipped before it, and what is merged into it. -/
structure Piece (V E : Type) where
  skipped : List V
  row : List V
  incoming : List E

namespace Piece

/-- Cuts the cells from slot `consumed` on along rows in the order of their first slots. A row that
starts before the end of the one before it is refused. -/
def carve (overlap : Error) :
    Nat → List V → List (Nat × List E) → Fallible (List (Piece V E) × List V)
  | _, rest, [] => .ok ([], rest)
  | consumed, rest, (start, incoming) :: rows =>
    if start < consumed then
      Fallible.reject overlap
    else
      let (skipped, tail) := rest.splitAt (start - consumed)
      let (row, tail) := tail.splitAt incoming.length
      if skipped.length = start - consumed ∧ row.length = incoming.length then do
        let (pieces, rest) ← carve overlap (start + incoming.length) tail rows
        return (⟨skipped, row, incoming⟩ :: pieces, rest)
      else
        .error (.fault .outOfBounds)

def merge (op : Transfer V E) (p : Piece V E) : Checked (List V) := do
  let row ← (p.row.zip p.incoming).mapM fun (here, incoming) => op.merge here incoming
  return p.skipped ++ row

end Piece

namespace Slabs

/-- Goes on only if the cells are those of the grid and both buffers hold their slab. -/
def requireBuffers (b : Build) (s : Slabs) (cells left right : Nat) : Fallible Unit := do
  Fallible.requireLength .haloGrid (← s.grid.size b) cells
  let l ← s.left.size b
  if left < l then
    Fallible.reject (.lengthMismatch .leftBuffer l left)
  let r ← s.right.size b
  if right < r then
    Fallible.reject (.lengthMismatch .rightBuffer r right)

/-- The packed cells of both slabs, for buffers of given lengths. -/
def packed (m : Mode) (e : Executor) (requested : Nat) (op : Transfer V E) (cells : Array V)
    (s : Slabs) (left right : Nat) : Outcome (List E × List E) := do
  s.assert m.build
  s.requireBuffers m.build cells.size left right
  let block ← e.block m .pack requested
  Executor.run m .pack (do
    let l ← s.left.pack m.build block op cells s.grid
    let r ← s.right.pack m.build block op cells s.grid
    return (l, r))

def pack (m : Mode) (e : Executor) (requested : Nat) (op : Transfer V E) (cells : Array V)
    (s : Slabs) (left right : List E) : Outcome (List E × List E) := do
  let (l, r) ← s.packed m e requested op cells left.length right.length
  return (l ++ left.drop l.length, r ++ right.drop r.length)

def unpack (m : Mode) (e : Executor) (requested : Nat) (op : Transfer V E) (cells : Array V)
    (s : Slabs) (left right : List E) : Outcome (Array V) := do
  s.assert m.build
  s.requireBuffers m.build cells.size left.length right.length
  let _ ← e.block m .unpack requested
  s.requireInside
  let rows := (← s.left.rows m.build s.grid left) ++ (← s.right.rows m.build s.grid right)
  if rows.isEmpty then
    return cells
  let ordered := rows.mergeSort fun r t => r.1 ≤ t.1
  let (pieces, rest) ← Piece.carve s.overlap 0 cells.toList ordered
  let merged ← Executor.run m .unpack (pieces.mapM (Piece.merge op))
  return (merged.flatten ++ rest).toArray

end Slabs

end KineticGrid
