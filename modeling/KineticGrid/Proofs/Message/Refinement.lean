import KineticGrid.Proofs.Message.Dialogue
import KineticGrid.Proofs.Report.Refinement
import Mathlib.Data.List.Forall2
/-!
# Programs of the two builds

A program refines another one if both announce, send and wait for the same, up to the point where
the first one stops. Main statements: refinement is kept by composition of programs, tasks and
steps, and a dialogue in which the first program does not stop is a dialogue of the second one.
-/

namespace KineticGrid

variable {W α β σ : Type}

/-! ## Programs -/

/-- Both programs take the same actions, whatever they are answered, until the first one is done
with a value at which it stops. -/
inductive Program.Refines (stops : α → Prop) : Program W α → Program W α → Prop
  | stop {a : α} (h : stops a) (q : Program W α) : Refines stops (.done a) q
  | done (a : α) : Refines stops (.done a) (.done a)
  | post (peer : Nat) (tag : Tag) (length : Nat) {p q : Receive W → Program W α}
    (h : ∀ receive, Refines stops (p receive) (q receive)) :
    Refines stops (.post peer tag length p) (.post peer tag length q)
  | send (peer : Nat) (tag : Tag) (message : List W) {p q : Program W α} (h : Refines stops p q) :
    Refines stops (.send peer tag message p) (.send peer tag message q)
  | take (receive : Receive W) {p q : Option (List W) → Program W α}
    (h : ∀ message, Refines stops (p message) (q message)) :
    Refines stops (.take receive p) (.take receive q)

namespace Program.Refines

variable {stops : α → Prop} {stops' : β → Prop} {p q : Program W α}

theorem refl (p : Program W α) : Refines stops p p := by
  induction p with
  | done a => exact .done a
  | post peer tag length next ih => exact .post peer tag length ih
  | send peer tag message next ih => exact .send peer tag message ih
  | take receive next ih => exact .take receive ih

theorem bind {f g : α → Program W β} (h : Refines stops p q)
    (hf : ∀ a, ¬ stops a → Refines stops' (f a) (g a))
    (hstop : ∀ a, stops a → ∃ b, f a = .done b ∧ stops' b) :
    Refines stops' (p.bind f) (q.bind g) := by
  induction h with
  | stop ha q =>
      obtain ⟨b, hb, hstops⟩ := hstop _ ha
      change Refines stops' (f _) _
      rw [hb]
      exact .stop hstops _
  | done a =>
      by_cases ha : stops a
      · obtain ⟨b, hb, hstops⟩ := hstop a ha
        change Refines stops' (f a) _
        rw [hb]
        exact .stop hstops _
      · exact hf a ha
  | post peer tag length _ ih => exact .post peer tag length ih
  | send peer tag message _ ih => exact .send peer tag message ih
  | take receive _ ih => exact .take receive ih

theorem map {f : α → β} (h : Refines stops p q) (hstop : ∀ a, stops a → stops' (f a)) :
    Refines stops' (p.map f) (q.map f) :=
  h.bind (fun _ _ => .refl _) fun a ha => ⟨f a, rfl, hstop a ha⟩

/-- What the first program goes through without a stop, the second one goes through as well: the
same announcements, the same messages, the same waits, and the same end. -/
theorem talks (h : Refines stops p q) {turns : List (Turn W)} {a : α} (hp : p.Talks turns a)
    (ha : ¬ stops a) : q.Talks turns a := by
  induction h generalizing turns with
  | stop hstop q =>
      obtain ⟨_, rfl⟩ := talks_done.1 hp
      exact absurd hstop ha
  | done a => exact hp
  | post peer tag length _ ih =>
      obtain ⟨receive, rest, rfl, hrest⟩ := talks_post.1 hp
      exact .post receive (ih receive hrest)
  | send peer tag message _ ih =>
      obtain ⟨rest, rfl, hrest⟩ := talks_send.1 hp
      exact .send (ih hrest)
  | take receive _ ih =>
      obtain ⟨message, rest, rfl, hrest⟩ := talks_take.1 hp
      exact .take message (ih message hrest)

end Program.Refines

/-! ## Tasks -/

def Task.Refines (t u : Task W α) : Prop :=
  Program.Refines (fun x : Outcome α => ¬ Fallible.Completes x.result) t u

namespace Task.Refines

variable {t u : Task W α}

theorem refl (t : Task W α) : Refines t t := Program.Refines.refl t

theorem lift {x y : Outcome α} (h : Outcome.Refines x y) :
    Refines (liftM x : Task W α) (liftM y) := by
  by_cases hx : Fallible.Completes x.result
  · rw [h hx]
    exact refl _
  · exact Program.Refines.stop (a := x) hx _

theorem liftChecked {x y : Checked α} (h : Checked.Refines x y) :
    Refines (liftM x : Task W α) (liftM y) :=
  lift (.liftChecked h)

theorem liftFallible {x y : Fallible α} (h : Fallible.Refines x y) :
    Refines (liftM x : Task W α) (liftM y) :=
  lift (.lift h)

private theorem resume {f g : α → Task W β} (hf : ∀ a, Refines (f a) (g a)) (x : Outcome α) :
    Program.Refines (fun y : Outcome β => ¬ Fallible.Completes y.result) (Task.resume f x)
      (Task.resume g x) := by
  obtain ⟨log, result⟩ := x
  cases result with
  | ok a => exact (hf a).map fun y hy => hy
  | error e => exact .done _

theorem bind {f g : α → Task W β} (h : Refines t u) (hf : ∀ a, Refines (f a) (g a)) :
    Refines (t >>= f) (u >>= g) := by
  refine Program.Refines.bind h (fun x _ => resume hf x) ?_
  rintro ⟨log, result⟩ hx
  cases result with
  | ok a => exact absurd (completesUnless_ok a) hx
  | error e => exact ⟨_, rfl, fun he => hx (completesUnless_error_iff.2
      (completesUnless_error_iff.1 he))⟩

theorem ite {t' u' : Task W α} {c : Prop} [Decidable c] (h : c → Refines t u)
    (h' : ¬ c → Refines t' u') : Refines (if c then t else t') (if c then u else u') := by
  split
  case isTrue hc => exact h hc
  case isFalse hc => exact h' hc

end Task.Refines

/-! ## Steps -/

def Step.Refines (p q : Step W σ) : Prop :=
  ∀ s, Program.Refines (fun x : σ × Outcome Unit => ¬ Fallible.Completes x.2.result) (p s) (q s)

namespace Step.Refines

variable {p q p' q' : Step W σ}

theorem ofTask {f g : σ → Task W σ} (h : ∀ s, Task.Refines (f s) (g s)) :
    Refines (Step.ofTask f) (Step.ofTask g) := by
  intro s
  refine (h s).map fun x hx hcompletes => hx ?_
  intro e he
  exact hcompletes e (by rw [he]; rfl)

theorem ofOutcome {f g : σ → Outcome σ} (h : ∀ s, Outcome.Refines (f s) (g s)) :
    Refines (Step.ofOutcome f : Step W σ) (Step.ofOutcome g) :=
  ofTask fun s => .lift (h s)

theorem andThen (h : Refines p q) (h' : Refines p' q') :
    Refines (p.andThen p') (q.andThen q') := by
  intro s
  refine (h s).bind ?_ ?_
  · rintro ⟨s, log, result⟩ hx
    cases result with
    | ok => exact (h' s).map fun y hy => hy
    | error e => exact .done _
  · rintro ⟨s, log, result⟩ hx
    cases result with
    | ok => exact absurd (completesUnless_ok ()) hx
    | error e => exact ⟨_, rfl, hx⟩

theorem sequence {ps qs : List (Step W σ)} (h : List.Forall₂ Refines ps qs) :
    Refines (.sequence ps) (.sequence qs) := by
  induction h with
  | nil => exact fun s => .done _
  | cons h _ ih => exact h.andThen ih

theorem sequence_flatMap {ι : Type} {f g : ι → List (Step W σ)}
    (h : ∀ i, List.Forall₂ Refines (f i) (g i)) (items : List ι) :
    Refines (.sequence (items.flatMap f)) (.sequence (items.flatMap g)) := by
  apply sequence
  induction items with
  | nil => exact .nil
  | cons i items ih =>
      simp only [List.flatMap_cons]
      exact List.rel_append (h i) ih

end Step.Refines

end KineticGrid
