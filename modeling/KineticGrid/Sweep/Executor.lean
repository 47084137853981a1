import KineticGrid.Report.Outcome
/-!
# Executors

An executor hands a pass to its workers in groups of consecutive items. It limits the size of a
group, and turns a worker's fault into an error of the pass.
-/

namespace KineticGrid

/-- A pool of workers and the largest group that one of them takes. -/
structure Executor where
  /-- The size of a pool of its own; `none` for the shared pool. -/
  threads : Option Nat
  maxBlock : Nat
  maxBlock_pos : 0 < maxBlock

namespace Executor

variable {α : Type}

def shared : Executor := ⟨none, 1024, by decide⟩

def ofThreads (n : Nat) : Executor := { shared with threads := some n }

/-- The executor with another limit; a limit of zero counts as one. -/
def withMaxBlock (e : Executor) (n : Nat) : Executor :=
  { e with maxBlock := max n 1, maxBlock_pos := by omega }

def limit (e : Executor) : Pass → Nat
  | .reduce => min e.maxBlock 512
  | _ => e.maxBlock

theorem limit_pos (e : Executor) (p : Pass) : 0 < e.limit p := by
  have := e.maxBlock_pos
  unfold limit
  split <;> omega

def block (m : Mode) (e : Executor) (pass : Pass) (requested : Nat) : Outcome Nat := do
  if requested = 0 then
    Outcome.reject (.zeroBlock pass)
  else
    let limit := e.limit pass
    if limit < requested then
      Outcome.write m .warn s!"{pass.name}: worker-group size {requested} clamped to {limit}"
    let block := min requested limit
    Outcome.write m .trace s!"{pass.name}: worker groups of {block}"
    return block

/-- Runs a pass. A fault of one of its workers becomes an error. -/
def run (m : Mode) (pass : Pass) (work : Checked α) : Outcome α := do
  Outcome.write m .trace s!"launching pass {pass.name}"
  match work with
  | .ok a => return a
  | .error f => Outcome.reject (.launch pass f.text?)

def text (e : Executor) (sharedThreads : Nat) : String :=
  s!"Launcher \x7b threads: {e.threads.getD sharedThreads}, max_block: {e.maxBlock} \x7d"

theorem result_block (m : Mode) (e : Executor) (pass : Pass) {requested : Nat}
    (h : requested ≠ 0) :
    (e.block m pass requested).result = .ok (min requested (e.limit pass)) := by
  simp only [block, if_neg h]
  split <;> rfl

theorem result_block_zero (m : Mode) (e : Executor) (pass : Pass) :
    (e.block m pass 0).result = .error (.error (.zeroBlock pass)) := rfl

theorem result_run (m : Mode) (pass : Pass) (work : Checked α) :
    (run m pass work).result = work.mapError fun f => .error (.launch pass f.text?) := by
  cases work <;> rfl

end Executor

end KineticGrid
