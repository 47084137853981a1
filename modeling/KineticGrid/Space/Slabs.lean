import KineticGrid.Space.Box
/-!
# Slab pairs

Two boxes of one grid, on the left and on the right along some axis, whose cells travel together.
A valid pair lies inside its grid and shares no cell.
-/

namespace KineticGrid

/-- A left and a right box of one grid. -/
structure Slabs where
  grid : Grid
  left : Box
  right : Box
deriving DecidableEq, Repr

namespace Slabs

def size (b : Build) (s : Slabs) : Checked Nat := do
  let l ← s.left.size b
  let r ← s.right.size b
  b.word (l + r)

def isEmpty (b : Build) (s : Slabs) : Checked Bool := do
  return (← s.size b) = 0

def overlap (s : Slabs) : Error := .overlappingSlabs s.left.text s.right.text

def requireInside (s : Slabs) : Fallible Unit := do
  s.left.requireInside s.grid
  s.right.requireInside s.grid

def validate (b : Build) (s : Slabs) : Fallible Unit := do
  s.requireInside
  if ← s.left.meets b s.right then
    Fallible.reject s.overlap

end Slabs

/-- In the checked build, a violated invariant is a fault; the other build does not look. -/
def assertValid (b : Build) (owner : Guarded) (validate : Fallible Unit) : Checked Unit :=
  match b with
  | .release => .ok ()
  | .debug =>
    match validate with
    | .ok () => .ok ()
    | .error (.error e) => .error (.brokenInvariant owner e)
    | .error (.fault f) => .error f

def Slabs.assert (b : Build) (s : Slabs) : Checked Unit :=
  assertValid b .slabs (s.validate b)

end KineticGrid
