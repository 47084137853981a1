import KineticGrid.Arith.Word
/-!
# Outcomes

The result of an operation together with the log records that it wrote. Main statements: the result
of a composed outcome is the composition of the results, whatever was logged.
-/

namespace KineticGrid

inductive Level where
  | off
  | warn
  | debug
  | trace
deriving DecidableEq, Repr

namespace Level

def rank : Level → Nat
  | .off => 0
  | .warn => 1
  | .debug => 2
  | .trace => 3

def name : Level → String
  | .off => "OFF"
  | .warn => "WARN"
  | .debug => "DEBUG"
  | .trace => "TRACE"

/-- Whether a logger of this level takes a record of another. -/
def takes (logger record : Level) : Bool := record.rank ≤ logger.rank

end Level

structure Record where
  level : Level
  text : String
deriving DecidableEq, Repr

def Record.line (r : Record) : String := s!"{r.level.name} {r.text}"

/-- How arithmetic and logging behave during a run. -/
structure Mode where
  build : Build
  level : Level
deriving DecidableEq, Repr

/-- A result and the records written on the way to it. -/
structure Outcome (α : Type) where
  log : List Record
  result : Fallible α

namespace Outcome

variable {α β : Type}

def pure (a : α) : Outcome α := ⟨[], .ok a⟩

def bind (x : Outcome α) (f : α → Outcome β) : Outcome β :=
  match x.result with
  | .ok a => ⟨x.log ++ (f a).log, (f a).result⟩
  | .error e => ⟨x.log, .error e⟩

instance : Monad Outcome where
  pure := Outcome.pure
  bind := Outcome.bind

instance : MonadLift Fallible Outcome where
  monadLift x := ⟨[], x⟩

def reject (e : Error) : Outcome α := ⟨[], .error (.error e)⟩

def write (m : Mode) (level : Level) (text : String) : Outcome Unit :=
  ⟨if m.level.takes level then [⟨level, text⟩] else [], .ok ()⟩

def valueD (x : Outcome α) (other : α) : α :=
  match x.result with
  | .ok a => a
  | .error _ => other

@[simp]
theorem result_pure (a : α) : (Pure.pure a : Outcome α).result = .ok a := rfl

@[simp]
theorem result_bind (x : Outcome α) (f : α → Outcome β) :
    (x >>= f).result = x.result >>= fun a => (f a).result := by
  cases x with
  | mk log result => cases result <;> rfl

@[simp]
theorem result_lift (x : Fallible α) : (liftM x : Outcome α).result = x := rfl

end Outcome

end KineticGrid
