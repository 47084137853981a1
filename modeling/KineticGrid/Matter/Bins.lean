import KineticGrid.Matter.Particles
/-!
# Bins

The particles of each cell. Every raw index is resolved once, when the bins are built, together
with the sizes of the populations that it was resolved in.
-/

namespace KineticGrid

structure Bins where
  cells : Array (Array Particle)
  nativeSize : Nat
  embeddedSize : Nat
deriving DecidableEq, Repr

namespace Bins

variable {S : Type}

def empty : Bins := ⟨#[], 0, 0⟩

def ofCells (p : Particles S) (cells : List (List Particle)) : Bins :=
  ⟨(cells.map List.toArray).toArray, p.nativeSize, p.embeddedSize⟩

/-- The size of an entry, and of the start of a cell. -/
def entryBytes : Nat := 8

/-- Goes on only if the starts of so many cells, and the end of the last one, fit into memory. -/
def reserveStarts (b : Build) (cells : Nat) : Checked Unit := do
  let starts ← b.word (cells + 1)
  reserve (starts * entryBytes)

def ofLists (b : Build) (p : Particles S) (lists : List (List UInt32)) : Fallible Bins := do
  reserveStarts b lists.length
  return ofCells p (← lists.mapM fun list => list.mapM p.classify)

/-- Goes on only if so many entries fit into memory and into `memory` bytes, the most that the
allocator hands out at once. Starts, and the entries of lists, take about as much as the data they
are made from, which memory holds already; the entries of a table take what its counts say. -/
def reserveEntries (memory entries : Nat) : Checked Unit := do
  reserve (entries * entryBytes)
  if memory < entries * entryBytes then .error .outOfMemory

def tableSize (b : Build) (counts : List UInt32) : Checked Nat :=
  counts.foldlM (fun total count => b.word (total + count.toNat)) 0

def slice (raw : Array UInt32) (start stop : Nat) : Checked (List UInt32) :=
  if start ≤ stop ∧ stop ≤ raw.size then .ok (raw.extract start stop).toList
  else .error .outOfBounds

def tableRow (b : Build) (width : Nat) (raw : Array UInt32) (count : UInt32) (cell : Nat) :
    Fallible (List UInt32) := do
  if width < count.toNat then
    Fallible.reject (.lengthMismatch .binWidth width count.toNat)
  let start ← b.word (cell * width)
  let stop ← b.word (start + count.toNat)
  slice raw start stop

/-- Bins from a table with `width` entries per cell, of which the first `count` ones count. -/
def ofTable (b : Build) (memory : Nat) (p : Particles S) (counts : List UInt32) (width : Nat)
    (raw : Array UInt32) : Fallible Bins := do
  let needed := min (counts.length * width) (wordSize - 1)
  if raw.size < needed then
    Fallible.reject (.lengthMismatch .rawBins needed raw.size)
  -- memory is reserved for all counts before any of them is held against the width
  let total ← tableSize b counts
  reserveStarts b counts.length
  reserveEntries memory total
  let cells ← counts.zipIdx.mapM fun (count, cell) => do
    (← tableRow b width raw count cell).mapM p.classify
  return ofCells p cells

def size (bins : Bins) : Nat := bins.cells.size

def cell (bins : Bins) (c : Nat) : Checked (Array Particle) := Particles.entry bins.cells c

def count (bins : Bins) (c : Nat) : Checked UInt32 := do
  return .ofNat (← bins.cell c).size

def requireMatch (bins : Bins) (p : Particles S) : Fallible Unit := do
  Fallible.requireLength .nativeCount bins.nativeSize p.nativeSize
  Fallible.requireLength .embeddedCount bins.embeddedSize p.embeddedSize

end Bins

end KineticGrid
