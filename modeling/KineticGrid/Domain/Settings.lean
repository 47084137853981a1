import KineticGrid.Space.Dimension
import KineticGrid.Sweep.Executor
/-!
# Settings

What a run may choose: the number of dimensions, the group size of each pass, and the size of the
worker pool.
-/

namespace KineticGrid

/-- The choices of a run. A group size is a request, which the executor limits. -/
structure Settings where
  dimension : Dimension := .three
  accumulateBlock : UInt64 := 128
  finalizeBlock : UInt64 := 128
  stageBlock : UInt64 := 128
  reduceBlock : UInt64 := 256
  packBlock : UInt64 := 128
  /-- The size of a worker pool of the run's own. -/
  threads : Option UInt64 := none
deriving DecidableEq, Repr

namespace Settings

def standard : Settings := {}

def block (s : Settings) : Pass → Nat
  | .accumulate => s.accumulateBlock.toNat
  | .finalize => s.finalizeBlock.toNat
  | .stage => s.stageBlock.toNat
  | .reduce => s.reduceBlock.toNat
  | .pack | .unpack => s.packBlock.toNat

def checkedPasses : List Pass := [.accumulate, .finalize, .stage, .reduce, .pack]

/-- Goes on only if every group size is positive; otherwise names the first pass for which it is
not. -/
def validate (s : Settings) : Fallible Unit :=
  match checkedPasses.find? fun pass => s.block pass = 0 with
  | none => .ok ()
  | some pass => Fallible.reject (.zeroBlock pass)

def executor (s : Settings) : Executor :=
  match s.threads with
  | none => .shared
  | some n => .ofThreads n.toNat

end Settings

end KineticGrid
