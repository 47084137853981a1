import KineticGrid.Message.Encoding
import KineticGrid.Sweep.Executor
/-!
# Reduction

The sum of staged totals in two steps: one partial sum per worker group, written to a scratch
buffer that the caller owns, and then the sum of the partials.
-/

namespace KineticGrid

structure Reduction where
  items : Nat
  block : Nat
deriving DecidableEq, Repr

namespace Reduction

variable (W : Type) {A : Type} [Letter W] [Arith A] [Encoding W A]

def groups (r : Reduction) : Nat := (r.items + r.block - 1) / r.block

def scratchSize (A : Type) [Encoding W A] (b : Build) (r : Reduction) : Checked Nat :=
  b.word (r.groups * Encoding.width W (Totals A))

def make (A : Type) [Encoding W A] (m : Mode) (e : Executor) (items requested : Nat) :
    Outcome Reduction := do
  let block ← e.block m .reduce requested
  let r : Reduction := ⟨items, block⟩
  if m.level.takes .debug then
    let bytes ← r.scratchSize W A m.build
    Outcome.write m .debug
      s!"reduction of {items} elements: {r.groups} groups, {bytes} scratch bytes"
  return r

variable {W}

def partialSum (b : Build) (slot : List W) (group : List (Totals A)) : Checked (List W) := do
  let letters := Encoding.encode (← Totals.sum b group)
  if letters.length = slot.length then return letters else throw .outOfBounds

/-- The sum of some totals by way of the used part of the scratch buffer, and that part
afterwards. -/
def work (b : Build) (block : Nat) (input : List (Totals A)) (used : List W) :
    Checked (Totals A × List W) := do
  let width := Encoding.width W (Totals A)
  let written ← ((Groups.split width used).zip (Groups.split block input)).mapM
    fun (slot, group) => partialSum b slot group
  let partials := written.flatten ++ used.drop written.flatten.length
  return (← Totals.sum b ((Groups.whole width partials).map Encoding.decode), partials)

def execute (m : Mode) (r : Reduction) (input : List (Totals A)) (scratch : List W) :
    Outcome (Totals A × List W) := do
  Fallible.requireLength .stagedElements r.items input.length
  let required ← r.scratchSize W A m.build
  if scratch.length < required then
    Outcome.reject (.scratchTooSmall required scratch.length)
  let (total, used) ←
    Executor.run m .reduce (work m.build r.block input (scratch.take required))
  return (total, used ++ scratch.drop required)

variable (W)

def total (m : Mode) (e : Executor) (requested : Nat) (input : List (Totals A)) :
    Outcome (Totals A) := do
  let r ← make W A m e input.length requested
  let n ← r.scratchSize W A m.build
  let (total, _) ← r.execute m input (List.replicate n (Letter.ofByte 0 : W))
  return total

end Reduction

end KineticGrid
