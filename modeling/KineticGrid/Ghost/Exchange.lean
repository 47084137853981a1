import KineticGrid.Ghost.Buffer
import KineticGrid.Message.Program
import KineticGrid.Space.Topology
/-!
# Exchanges between neighbours

Along one axis a rank packs two slabs, sends the left one to its left neighbour and the right one
to its right neighbour, and merges what it receives into two slabs of its own. Both messages are
checked before either is merged. Refreshing copies boundary slabs over the neighbours' ghost cells;
folding adds ghost cells to the neighbours' boundary slabs.
-/

namespace KineticGrid

structure Neighbours where
  left : Nat
  right : Nat
deriving DecidableEq, Repr

def Neighbours.self (rank : Nat) : Neighbours := ⟨rank, rank⟩

variable {W V E : Type} [Letter W] [Encoding W E]

def isIdle (b : Build) (outgoing incoming : Slabs) : Checked Bool := do
  if ← outgoing.isEmpty b then incoming.isEmpty b else return false

def messageLength (b : Build) (width : Nat) (box : Box) : Checked Nat := do
  let length ← b.word ((← box.size b) * width)
  reserve length
  return length

/-- The number of cells of a slab that is packed, if a buffer for them can exist. -/
def bufferSize (b : Build) (width : Nat) (box : Box) : Checked Nat := do
  let n ← box.size b
  reserve (n * width)
  return n

/-- Sends the `outgoing` slabs to the neighbours and merges theirs into the `incoming` ones. -/
def exchange (m : Mode) (e : Executor) (requested : Nat) (op : Transfer V E)
    (neighbours : Neighbours) (tag : Tag) (outgoing incoming : Slabs) (cells : Array V) :
    Task W (Array V) := do
  if ← isIdle m.build outgoing incoming then
    return cells
  let width := Encoding.width W E
  let left ← bufferSize m.build width outgoing.left
  let right ← bufferSize m.build width outgoing.right
  let (leftOut, rightOut) ← outgoing.packed m e requested op cells left right
  let fromRight ← messageLength m.build width incoming.right
  let fromLeft ← messageLength m.build width incoming.left
  let rightReceive ← Task.post neighbours.right tag fromRight
  let leftReceive ← Task.post neighbours.left (tag.offset 1) fromLeft
  Task.send neighbours.left tag (Encoding.encodeAll leftOut)
  Task.send neighbours.right (tag.offset 1) (Encoding.encodeAll rightOut)
  let rightMessage ← Task.take rightReceive (.link neighbours.right .noSlab)
  let leftMessage ← Task.take leftReceive (.link neighbours.left .noSlab)
  let rightIn ←
    Encoding.decodeAll m.build neighbours.right rightMessage (← incoming.right.size m.build)
  let leftIn ←
    Encoding.decodeAll m.build neighbours.left leftMessage (← incoming.left.size m.build)
  incoming.unpack m e requested op cells leftIn rightIn

/-- The two ways in which ghost cells and the cells they stand for are brought together. -/
inductive Flow where
  /-- From the boundary slabs to the neighbours' ghost cells. -/
  | refresh
  /-- From the ghost cells to the neighbours' boundary slabs. -/
  | fold
deriving DecidableEq, Repr

namespace Flow

def outgoing (b : Build) (t : Topology) (a : Axis) : Flow → Checked Slabs
  | .refresh => t.boundarySlabs b a
  | .fold => t.ghostSlabs b a

def incoming (b : Build) (t : Topology) (a : Axis) : Flow → Checked Slabs
  | .refresh => t.ghostSlabs b a
  | .fold => t.boundarySlabs b a

def rule : Flow → Rule
  | .refresh => .overwrite
  | .fold => .add

end Flow

def exchangeAxis (m : Mode) (e : Executor) (requested : Nat) (op : Transfer V E) (flow : Flow)
    (t : Topology) (a : Axis) (neighbours : Neighbours) (tag : Tag) (cells : Array V) :
    Task W (Array V) :=
  if t.isDecomposed a then do
    let outgoing ← flow.outgoing m.build t a
    let incoming ← flow.incoming m.build t a
    exchange m e requested op neighbours tag outgoing incoming cells
  else
    return cells

end KineticGrid
