import KineticGrid.Report.Error
/-!
# Faults

A fault is a broken promise of the caller, not an error of the input: arithmetic that leaves its
word, an index past an array, a slot outside its grid, a buffer without room. A computation that may
only fault is `Checked`; one that may also refuse its input is `Fallible`.
-/

namespace KineticGrid

inductive Guarded where
  | slabs
  | topology
deriving DecidableEq, Repr

def Guarded.text : Guarded → String
  | .slabs => "cell_thermo::grid::topology::HaloRanges"
  | .topology => "cell_thermo::grid::topology::GridTopology"

/-- Why a computation stopped. -/
inductive Fault where
  | overflow
  | divisionByZero
  | outOfBounds
  /-- A buffer larger than memory can address. -/
  | capacity
  /-- A buffer that the allocator refuses. -/
  | outOfMemory
  | slotOutsideGrid
  | noEmbeddedParticles (index : UInt32)
  | brokenInvariant (owner : Guarded) (cause : Error)
  /-- A worker gave up on its own, with a text or without one. -/
  | raised (text : Option String)
deriving DecidableEq, Repr

def Fault.text? : Fault → Option String
  | .overflow | .divisionByZero | .outOfBounds | .capacity | .outOfMemory => none
  | .slotOutsideGrid => some "cell slot outside grid"
  | .noEmbeddedParticles index =>
    some (s!"internal error: entered unreachable code: embedded particle {index} " ++
      "referenced in a set without embedded particles")
  | .brokenInvariant owner cause => some s!"[invariants] {owner.text}: {cause.message}"
  | .raised text => some (text.getD "worker panicked")

/-- Why an operation has no result. -/
inductive Failure where
  | error (e : Error)
  | fault (f : Fault)
deriving DecidableEq, Repr

abbrev Checked := Except Fault

abbrev Fallible := Except Failure

instance : MonadLift Checked Fallible where
  monadLift x := x.mapError .fault

namespace Fallible

variable {α : Type}

def reject (e : Error) : Fallible α := .error (.error e)

def requireLength (what : Quantity) (expected found : Nat) : Fallible Unit :=
  if expected = found then .ok () else reject (.lengthMismatch what expected found)

end Fallible

end KineticGrid
