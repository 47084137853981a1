import KineticGrid.Message.World
/-!
# Dialogues

A program as its channel sees it: what it announces, sends and waits for, and what it is answered.
The answers are arbitrary, so what holds of all dialogues holds for every channel. Main statements:
the dialogues of composed programs and tasks are put together from those of their parts, steps keep
what all of their parts keep, and whatever a rank goes through in a world of ranks is a dialogue of
its program.
-/

namespace KineticGrid

variable {W α β : Type}

/-- An action of a program together with the answer to it. -/
inductive Turn (W : Type) where
  | posted (peer : Nat) (tag : Tag) (length : Nat) (receive : Receive W)
  | sent (peer : Nat) (tag : Tag) (message : List W)
  /-- A wait for a message; `none` if none arrived. -/
  | waited (receive : Receive W) (message : Option (List W))
deriving Repr

/-! ## Programs -/

namespace Program

/-- A program can go through these turns and end with this value. -/
inductive Talks : Program W α → List (Turn W) → α → Prop
  | done (a : α) : Talks (.done a) [] a
  | post {peer tag length next turns a} (receive : Receive W) (h : Talks (next receive) turns a) :
    Talks (.post peer tag length next) (.posted peer tag length receive :: turns) a
  | send {peer tag message next turns a} (h : Talks next turns a) :
    Talks (.send peer tag message next) (.sent peer tag message :: turns) a
  | take {receive next turns a} (message : Option (List W)) (h : Talks (next message) turns a) :
    Talks (.take receive next) (.waited receive message :: turns) a

variable {turns : List (Turn W)}

@[simp]
theorem talks_done {a b : α} : (done a).Talks turns b ↔ turns = [] ∧ b = a := by
  constructor
  · rintro ⟨⟩
    exact ⟨rfl, rfl⟩
  · rintro ⟨rfl, rfl⟩
    exact .done _

@[simp]
theorem talks_post {peer : Nat} {tag : Tag} {length : Nat} {next : Receive W → Program W α}
    {a : α} : (post peer tag length next).Talks turns a ↔ ∃ receive rest,
      turns = .posted peer tag length receive :: rest ∧ (next receive).Talks rest a := by
  constructor
  · rintro (_ | ⟨receive, h⟩)
    exact ⟨receive, _, rfl, h⟩
  · rintro ⟨receive, rest, rfl, h⟩
    exact .post receive h

@[simp]
theorem talks_send {peer : Nat} {tag : Tag} {message : List W} {next : Program W α} {a : α} :
    (send peer tag message next).Talks turns a ↔ ∃ rest,
      turns = .sent peer tag message :: rest ∧ next.Talks rest a := by
  constructor
  · rintro (_ | _ | h)
    exact ⟨_, rfl, h⟩
  · rintro ⟨rest, rfl, h⟩
    exact .send h

@[simp]
theorem talks_take {receive : Receive W} {next : Option (List W) → Program W α} {a : α} :
    (take receive next).Talks turns a ↔ ∃ message rest,
      turns = .waited receive message :: rest ∧ (next message).Talks rest a := by
  constructor
  · rintro (_ | _ | _ | ⟨message, h⟩)
    exact ⟨message, _, rfl, h⟩
  · rintro ⟨message, rest, rfl, h⟩
    exact .take message h

theorem Talks.bind {p : Program W α} {f : α → Program W β} {first rest : List (Turn W)} {a : α}
    {b : β} (hp : p.Talks first a) (hf : (f a).Talks rest b) :
    (p.bind f).Talks (first ++ rest) b := by
  induction hp with
  | done => exact hf
  | post receive _ ih => exact .post receive (ih hf)
  | send _ ih => exact .send (ih hf)
  | take message _ ih => exact .take message (ih hf)

/-- A dialogue of a program that goes on with another one is a dialogue of each, one after the
other. -/
theorem talks_bind {p : Program W α} {f : α → Program W β} {b : β} :
    (p.bind f).Talks turns b ↔
      ∃ first rest a, turns = first ++ rest ∧ p.Talks first a ∧ (f a).Talks rest b := by
  constructor
  · intro h
    induction p generalizing turns with
    | done a => exact ⟨[], turns, a, rfl, .done a, h⟩
    | post peer tag length next ih =>
        obtain ⟨receive, _, rfl, hnext⟩ := talks_post.1 h
        obtain ⟨first, rest, a, rfl, hp, hf⟩ := ih receive hnext
        exact ⟨_ :: first, rest, a, rfl, .post receive hp, hf⟩
    | send peer tag message next ih =>
        obtain ⟨_, rfl, hnext⟩ := talks_send.1 h
        obtain ⟨first, rest, a, rfl, hp, hf⟩ := ih hnext
        exact ⟨_ :: first, rest, a, rfl, .send hp, hf⟩
    | take receive next ih =>
        obtain ⟨message, _, rfl, hnext⟩ := talks_take.1 h
        obtain ⟨first, rest, a, rfl, hp, hf⟩ := ih message hnext
        exact ⟨_ :: first, rest, a, rfl, .take message hp, hf⟩
  · rintro ⟨first, rest, a, rfl, hp, hf⟩
    exact hp.bind hf

@[simp]
theorem talks_map {p : Program W α} {f : α → β} {b : β} :
    (p.map f).Talks turns b ↔ ∃ a, p.Talks turns a ∧ b = f a := by
  rw [map, talks_bind]
  constructor
  · rintro ⟨first, rest, a, rfl, hp, ⟨⟩⟩
    rw [List.append_nil]
    exact ⟨a, hp, rfl⟩
  · rintro ⟨a, hp, rfl⟩
    exact ⟨turns, [], a, (List.append_nil _).symm, hp, .done _⟩

end Program

/-! ## Worlds of ranks -/

namespace World

theorem exists_turn {p q : Program W α} {turns : List (Turn W)} {a : α} (h : Program.After q p)
    (hq : q.Talks turns a) : ∃ turn, p.Talks (turn :: turns) a := by
  cases h with
  | post peer tag length next receive => exact ⟨_, .post receive hq⟩
  | send peer tag message => exact ⟨_, .send hq⟩
  | take receive next message => exact ⟨_, .take message hq⟩

theorem exists_talks_of_smaller {before after : List (Program W α)}
    (h : Smaller Program.After after before) {i : Nat} {q : Program W α}
    (hq : after[i]? = some q) {turns : List (Turn W)} {a : α} (htalks : q.Talks turns a) :
    ∃ p turns, before[i]? = some p ∧ p.Talks turns a := by
  induction h generalizing i with
  | head rest h =>
      cases i with
      | zero =>
          cases hq
          obtain ⟨turn, hp⟩ := exists_turn h htalks
          exact ⟨_, _, rfl, hp⟩
      | succ i => exact ⟨q, turns, hq, htalks⟩
  | tail p h ih =>
      cases i with
      | zero => exact ⟨q, turns, hq, htalks⟩
      | succ i => exact ih hq

/-- Whatever the other ranks do and whichever waits expire, a rank that is done went through a
dialogue of the program it started with. -/
theorem exists_talks_of_finish (box : Mailbox W) (ranks : List (Rank W α)) {i : Nat} {a : α}
    (h : ((finish box ranks).ranks.map Rank.program)[i]? = some (.done a)) :
    ∃ p turns, (ranks.map Rank.program)[i]? = some p ∧ p.Talks turns a := by
  fun_induction finish box ranks with
  | case1 box ranks box' ranks' hact ih =>
      obtain ⟨q, turns, hq, htalks⟩ := ih h
      exact exists_talks_of_smaller (smaller_of_actFirst? hact) hq htalks
  | case2 box ranks hact ranks' hexpire ih =>
      obtain ⟨q, turns, hq, htalks⟩ := ih h
      exact exists_talks_of_smaller (smaller_of_expireFirst? hexpire) hq htalks
  | case3 box ranks => exact ⟨_, [], h, .done a⟩

end World

/-! ## Tasks -/

namespace Task

/-- A task can go through these turns and end with this result, whatever it writes to its log. -/
def Leads (t : Task W α) (turns : List (Turn W)) (r : Fallible α) : Prop :=
  ∃ log, Program.Talks t turns (⟨log, r⟩ : Outcome α)

variable {turns : List (Turn W)} {f : α → Task W β} {r : Fallible β}

theorem leads_outcome {x : Outcome α} {r : Fallible α} :
    (liftM x : Task W α).Leads turns r ↔ turns = [] ∧ r = x.result := by
  change (∃ log, Program.Talks (.done x) turns (⟨log, r⟩ : Outcome α)) ↔ _
  simp only [Program.talks_done]
  constructor
  · rintro ⟨log, rfl, rfl⟩
    exact ⟨rfl, rfl⟩
  · rintro ⟨rfl, rfl⟩
    exact ⟨x.log, rfl, rfl⟩

/-- Going on after a success changes only the log. -/
private theorem leads_resume (log : List Record) (a : α) :
    (∃ log', Program.Talks (resume f ⟨log, .ok a⟩) turns (⟨log', r⟩ : Outcome β)) ↔
      (f a).Leads turns r := by
  constructor
  · rintro ⟨_, hresume⟩
    obtain ⟨⟨log', result⟩, h, heq⟩ := Program.talks_map.1 hresume
    cases heq
    exact ⟨log', h⟩
  · rintro ⟨log', h⟩
    exact ⟨log ++ log', Program.talks_map.2 ⟨⟨log', r⟩, h, rfl⟩⟩

theorem leads_ok_bind {x : Outcome α} {a : α} (h : x.result = .ok a) :
    ((liftM x : Task W α) >>= f).Leads turns r ↔ (f a).Leads turns r := by
  obtain ⟨log, result⟩ := x
  obtain rfl : result = .ok a := h
  exact leads_resume log a

theorem leads_fallible_bind {x : Fallible α} {g : α → Fallible β}
    (h : ∀ a, (f a).Leads turns r ↔ turns = [] ∧ r = g a) :
    ((liftM x : Task W α) >>= f).Leads turns r ↔ turns = [] ∧ r = x >>= g := by
  cases x with
  | ok a => exact (leads_ok_bind (x := liftM (Except.ok a : Fallible α)) rfl).trans (h a)
  | error e => exact leads_outcome (x := (⟨[], .error e⟩ : Outcome β))

theorem leads_checked_bind {x : Checked α} {a : α} (h : x = .ok a) :
    ((liftM x : Task W α) >>= f).Leads turns r ↔ (f a).Leads turns r :=
  leads_ok_bind (x := liftM x) (by rw [h]; rfl)

theorem leads_post_bind {peer : Nat} {tag : Tag} {length : Nat} {f : Receive W → Task W β} :
    (Task.post peer tag length >>= f).Leads turns r ↔ ∃ receive rest,
      turns = .posted peer tag length receive :: rest ∧ (f receive).Leads rest r := by
  change (∃ log, (Program.post peer tag length fun receive =>
    resume f (Pure.pure receive)).Talks turns (⟨log, r⟩ : Outcome β)) ↔ _
  simp only [Program.talks_post]
  constructor
  · rintro ⟨log, receive, rest, rfl, h⟩
    exact ⟨receive, rest, rfl, (leads_resume [] receive).1 ⟨log, h⟩⟩
  · rintro ⟨receive, rest, rfl, h⟩
    obtain ⟨log, h⟩ := (leads_resume [] receive).2 h
    exact ⟨log, receive, rest, rfl, h⟩

theorem leads_send_bind {peer : Nat} {tag : Tag} {message : List W} {f : Unit → Task W β} :
    (Task.send peer tag message >>= f).Leads turns r ↔ ∃ rest,
      turns = .sent peer tag message :: rest ∧ (f ()).Leads rest r := by
  change (∃ log, (Program.send peer tag message
    (resume f (Pure.pure ()))).Talks turns (⟨log, r⟩ : Outcome β)) ↔ _
  simp only [Program.talks_send]
  constructor
  · rintro ⟨log, rest, rfl, h⟩
    exact ⟨rest, rfl, (leads_resume [] ()).1 ⟨log, h⟩⟩
  · rintro ⟨rest, rfl, h⟩
    obtain ⟨log, h⟩ := (leads_resume [] ()).2 h
    exact ⟨log, rest, rfl, h⟩

/-- A task that waits for a message goes on with it, or ends where none arrives. -/
theorem leads_take_bind {receive : Receive W} {missing : Error} {f : List W → Task W β} :
    (Task.take receive missing >>= f).Leads turns r ↔
      (∃ letters rest, turns = .waited receive (some letters) :: rest ∧ (f letters).Leads rest r) ∨
        turns = [.waited receive none] ∧ r = .error (.error missing) := by
  obtain ⟨next, htake, hsome, hnone⟩ : ∃ next,
      (Task.take receive missing : Task W (List W)) = Program.take receive next ∧
        (∀ letters, next (some letters) = .done (Pure.pure letters)) ∧
        next none = .done (Outcome.reject missing) :=
    ⟨_, rfl, fun _ => rfl, rfl⟩
  rw [htake]
  change (∃ log, (Program.take receive fun message =>
    Program.bind (next message) (resume f)).Talks turns (⟨log, r⟩ : Outcome β)) ↔ _
  simp only [Program.talks_take]
  constructor
  · rintro ⟨log, message, rest, rfl, h⟩
    cases message with
    | some letters =>
        rw [hsome] at h
        exact .inl ⟨letters, rest, rfl, (leads_resume [] letters).1 ⟨log, h⟩⟩
    | none =>
        rw [hnone] at h
        obtain ⟨rfl, heq⟩ := Program.talks_done.1 h
        cases heq
        exact .inr ⟨rfl, rfl⟩
  · rintro (⟨letters, rest, rfl, h⟩ | ⟨rfl, rfl⟩)
    · obtain ⟨log, h⟩ := (leads_resume [] letters).2 h
      exact ⟨log, some letters, rest, rfl, by rw [hsome]; exact h⟩
    · exact ⟨[], none, [], rfl, by rw [hnone]; exact .done _⟩

/-- Whatever a task is answered, the value of a success has a property. -/
def Yields (P : α → Prop) (t : Task W α) : Prop :=
  ∀ turns a, t.Leads turns (.ok a) → P a

theorem yields_outcome {P : α → Prop} {x : Outcome α} (h : ∀ a, x.result = .ok a → P a) :
    (liftM x : Task W α).Yields P := by
  intro turns a hleads
  exact h a (leads_outcome.1 hleads).2.symm

theorem yields_pure {P : α → Prop} {a : α} (h : P a) : (Pure.pure a : Task W α).Yields P := by
  refine yields_outcome (x := Pure.pure a) fun b hb => ?_
  cases hb
  exact h

theorem Yields.bind {Q : α → Prop} {P : β → Prop} {t : Task W α} (ht : t.Yields Q)
    (h : ∀ a, Q a → (f a).Yields P) : (t >>= f).Yields P := by
  rintro turns b ⟨log, htalks⟩
  obtain ⟨first, rest, ⟨log', result⟩, _, hfirst, hrest⟩ := Program.talks_bind.1 htalks
  cases result with
  | ok a =>
      have ha : Q a := ht first a ⟨log', hfirst⟩
      exact h a ha rest b ((leads_resume log' a).1 ⟨log, hrest⟩)
  | error e => cases (Program.talks_done.1 hrest).2

/-- The end of a task may decide alone what it yields. -/
theorem yields_bind {P : β → Prop} {t : Task W α} (h : ∀ a, (f a).Yields P) :
    (t >>= f).Yields P :=
  Yields.bind (Q := fun _ => True) (fun _ _ _ => trivial) fun a _ => h a

end Task

/-! ## Steps -/

namespace Step

variable {σ : Type} {P : σ → Prop}

/-- Whatever a step is answered and however it ends, it leaves a state with a property behind if it
starts in one. -/
def Keeps (P : σ → Prop) (p : Step W σ) : Prop :=
  ∀ s, P s → ∀ turns s' x, (p s).Talks turns (s', x) → P s'

theorem keeps_skip : (skip : Step W σ).Keeps P := by
  intro s hs turns s' x h
  cases (Program.talks_done.1 h).2
  exact hs

theorem Keeps.andThen {p q : Step W σ} (hp : p.Keeps P) (hq : q.Keeps P) :
    (p.andThen q).Keeps P := by
  intro s hs turns s' x h
  obtain ⟨first, rest, ⟨s₁, log, result⟩, _, hfirst, hrest⟩ := Program.talks_bind.1 h
  have hs₁ : P s₁ := hp s hs _ _ _ hfirst
  cases result with
  | ok a =>
      obtain ⟨⟨s₂, y⟩, hsecond, heq⟩ := Program.talks_map.1 hrest
      cases heq
      exact hq s₁ hs₁ _ _ _ hsecond
  | error e =>
      cases (Program.talks_done.1 hrest).2
      exact hs₁

theorem Keeps.sequence {steps : List (Step W σ)} (h : ∀ p ∈ steps, p.Keeps P) :
    (sequence steps).Keeps P := by
  induction steps with
  | nil => exact keeps_skip
  | cons p steps ih =>
      have hsteps : (Step.sequence steps).Keeps P :=
        ih fun q hq => h q (List.mem_cons_of_mem p hq)
      exact (h p List.mem_cons_self).andThen hsteps

theorem keeps_ofTask {f : σ → Task W σ} (h : ∀ s, P s → (f s).Yields P) :
    (ofTask f).Keeps P := by
  intro s hs turns s' x htalks
  obtain ⟨⟨log, result⟩, hf, heq⟩ := Program.talks_map.1 htalks
  cases result with
  | ok a =>
      cases heq
      exact h s hs turns _ ⟨log, hf⟩
  | error e =>
      cases heq
      exact hs

theorem keeps_ofOutcome {f : σ → Outcome σ} (h : ∀ s, P s → ∀ s', (f s).result = .ok s' → P s') :
    (ofOutcome f : Step W σ).Keeps P :=
  keeps_ofTask fun s hs => Task.yields_outcome (h s hs)

end Step

end KineticGrid
