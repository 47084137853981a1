import KineticGrid.Report.Outcome
/-!
# Programs that exchange messages

What a rank does between its computations: it announces receives, sends messages, and takes what
has arrived. A program is a tree of such actions, so that every way of running ranks side by side
is a way of walking their trees. A task is a program with an outcome, and stops at its first
failure; a step is a program that changes a state and keeps the changes made before a failure.
-/

namespace KineticGrid

/-- What messages of one kind are marked with. -/
structure Tag where
  value : UInt16
deriving DecidableEq, Repr

namespace Tag

/-- The tag a distance further on, after the last one from the first again. -/
def offset (t : Tag) (distance : UInt16) : Tag := ⟨t.value + distance⟩

instance : LT Tag := ⟨fun t u => t.value < u.value⟩

instance (t u : Tag) : Decidable (t < u) := inferInstanceAs (Decidable (t.value < u.value))

end Tag

structure Address where
  source : Nat
  target : Nat
  tag : Tag
deriving DecidableEq, Repr

inductive Receive (W : Type) where
  /-- What arrives, if anything, is known already. -/
  | settled (message : Option (List W))
  /-- The message filed under an address is waited for. -/
  | pending (address : Address)
deriving Repr

/-- The actions of one rank, up to a value. -/
inductive Program (W α : Type) where
  | done (a : α)
  /-- Announces a receive of so many letters. -/
  | post (peer : Nat) (tag : Tag) (length : Nat) (next : Receive W → Program W α)
  | send (peer : Nat) (tag : Tag) (message : List W) (next : Program W α)
  /-- Waits for a message; none arrives if the wait takes too long. -/
  | take (r : Receive W) (next : Option (List W) → Program W α)

namespace Program

variable {W α β : Type}

def bind : Program W α → (α → Program W β) → Program W β
  | .done a, f => f a
  | .post peer tag length next, f => .post peer tag length fun r => (next r).bind f
  | .send peer tag message next, f => .send peer tag message (next.bind f)
  | .take r next, f => .take r fun message => (next message).bind f

def map (f : α → β) (p : Program W α) : Program W β := p.bind fun a => .done (f a)

theorem bind_done (p : Program W α) : p.bind .done = p := by
  induction p with
  | done => rfl
  | post _ _ _ _ ih => simp only [bind, ih]
  | send _ _ _ _ ih => simp only [bind, ih]
  | take _ _ ih => simp only [bind, ih]

end Program

def Task (W α : Type) : Type := Program W (Outcome α)

namespace Task

variable {W α β : Type}

/-- Goes on after an outcome, keeping its log. -/
def resume (f : α → Task W β) (x : Outcome α) : Program W (Outcome β) :=
  match x.result with
  | .ok a => Program.map (fun y => ⟨x.log ++ y.log, y.result⟩) (f a)
  | .error e => .done ⟨x.log, .error e⟩

instance : Monad (Task W) where
  pure a := Program.done (Pure.pure a)
  bind t f := Program.bind t (resume f)

instance : MonadLift Outcome (Task W) where
  monadLift x := Program.done x

def post (peer : Nat) (tag : Tag) (length : Nat) : Task W (Receive W) :=
  Program.post peer tag length fun r => .done (Pure.pure r)

def send (peer : Nat) (tag : Tag) (message : List W) : Task W Unit :=
  Program.send peer tag message (.done (Pure.pure ()))

/-- Takes the message of a receive; a message that does not arrive is an error. -/
def take (r : Receive W) (missing : Error) : Task W (List W) :=
  Program.take r fun message =>
    match message with
    | some letters => .done (Pure.pure letters)
    | none => .done (Outcome.reject missing)

end Task

/-- A program that changes a state and may fail half-way. -/
def Step (W σ : Type) : Type := σ → Program W (σ × Outcome Unit)

namespace Step

variable {W σ τ : Type}

def skip : Step W σ := fun s => .done (s, Pure.pure ())

/-- Does one step after the other, unless the first one fails. -/
def andThen (p q : Step W σ) : Step W σ := fun s =>
  (p s).bind fun (s, x) =>
    match x.result with
    | .ok () => (q s).map fun (s, y) => (s, ⟨x.log ++ y.log, y.result⟩)
    | .error _ => .done (s, x)

def sequence (steps : List (Step W σ)) : Step W σ := steps.foldr andThen skip

def ofTask (f : σ → Task W σ) : Step W σ := fun s =>
  Program.map (fun (x : Outcome σ) => (x.valueD s, ⟨x.log, x.result.map fun _ => ()⟩)) (f s)

/-- The step to the value of an outcome. -/
def ofOutcome (f : σ → Outcome σ) : Step W σ := ofTask fun s => Program.done (f s)

end Step

end KineticGrid
