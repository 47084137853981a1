import KineticGrid.Proofs.Message.Progress
import Mathlib.Logic.Relation
import Mathlib.Order.WellFounded
/-!
# Contracts

Runs in which waits may expire at any time and in which other ranks do as they like. What is known
there of the messages on their way is a contract that all senders keep. Main statements: if every
rank sends only what the contract allows, and makes something good of whatever it allows to be
received, then every run comes to an end, and what its ranks end with is good; the run of a world
in which the first rank that can act does so is one of these runs.
-/

namespace KineticGrid

variable {W α β σ : Type}

/-- Which messages may be filed under an address. -/
abbrev Contract (W : Type) := Address → List W → Prop

def Receive.Allows (contract : Contract W) : Receive W → List W → Prop
  | .settled known, message => known = some message
  | .pending address, message => contract address message

/-! ## Programs -/

/-- The program of a rank sends only what a contract allows, and ends with a good value whenever
what it receives is allowed or nothing arrives. -/
inductive Program.Honours (contract : Contract W) (rank : Nat) (good : α → Prop) :
    Program W α → Prop
  | done {a} (h : good a) : Honours contract rank good (.done a)
  | post {peer tag length next}
      (h : Honours contract rank good (next (.pending ⟨peer, rank, tag⟩))) :
      Honours contract rank good (.post peer tag length next)
  | send {peer tag message next} (hmessage : contract ⟨rank, peer, tag⟩ message)
      (h : Honours contract rank good next) :
      Honours contract rank good (.send peer tag message next)
  | take {receive next} (hnone : Honours contract rank good (next none))
      (hsome : ∀ message, receive.Allows contract message →
        Honours contract rank good (next (some message))) :
      Honours contract rank good (.take receive next)

namespace Program.Honours

variable {contract : Contract W} {rank : Nat} {p : Program W α}

theorem bind {earlier : α → Prop} {good : β → Prop} {f : α → Program W β}
    (hp : p.Honours contract rank earlier)
    (hf : ∀ a, earlier a → (f a).Honours contract rank good) :
    (p.bind f).Honours contract rank good := by
  induction hp with
  | done h => exact hf _ h
  | post _ ih => exact .post ih
  | send hmessage _ ih => exact .send hmessage ih
  | take _ _ ihnone ihsome => exact .take ihnone ihsome

theorem map {good : β → Prop} {f : α → β} (hp : p.Honours contract rank fun a => good (f a)) :
    (p.map f).Honours contract rank good :=
  hp.bind fun _ ha => .done ha

theorem mono {good good' : α → Prop} (hp : p.Honours contract rank good)
    (h : ∀ a, good a → good' a) : p.Honours contract rank good' := by
  rw [← p.bind_done]
  exact hp.bind fun a ha => .done (h a ha)

/-- A rank of which nothing is asked honours a contract whatever it does. -/
theorem of_free (h : ∀ peer tag message, contract ⟨rank, peer, tag⟩ message) (p : Program W α) :
    p.Honours contract rank fun _ => True := by
  induction p with
  | done => exact .done trivial
  | post _ _ _ _ ih => exact .post (ih _)
  | send _ _ _ _ ih => exact .send (h _ _ _) ih
  | take _ _ ih => exact .take (ih _) fun message _ => ih _

end Program.Honours

/-! ## Tasks -/

/-- A task sends only what a contract allows, and has a good result whenever what it receives is
allowed or nothing arrives. -/
def Task.Honours (contract : Contract W) (rank : Nat) (good : Fallible α → Prop) (t : Task W α) :
    Prop :=
  Program.Honours contract rank (fun x : Outcome α => good x.result) t

namespace Task.Honours

variable {contract : Contract W} {rank : Nat} {good : Fallible β → Prop} {f : α → Task W β}

theorem outcome {x : Outcome β} (h : good x.result) :
    (liftM x : Task W β).Honours contract rank good :=
  .done h

/-- Going on after a success changes only the log. -/
private theorem resume {a : α} (log : List Record) (h : (f a).Honours contract rank good) :
    Program.Honours contract rank (fun x : Outcome β => good x.result)
      (Task.resume f ⟨log, .ok a⟩) := by
  change Program.Honours _ _ _
    (Program.map (fun x : Outcome β => (⟨log ++ x.log, x.result⟩ : Outcome β)) (f a))
  exact .map h

theorem outcome_bind {x : Outcome α}
    (hok : ∀ a, x.result = .ok a → (f a).Honours contract rank good)
    (herror : ∀ failure, x.result = .error failure → good (.error failure)) :
    ((liftM x : Task W α) >>= f).Honours contract rank good := by
  obtain ⟨log, result⟩ := x
  cases result with
  | ok a => exact resume log (hok a rfl)
  | error failure => exact .done (herror failure rfl)

theorem fallible_bind {x : Fallible α}
    (hok : ∀ a, x = .ok a → (f a).Honours contract rank good)
    (herror : ∀ failure, x = .error failure → good (.error failure)) :
    ((liftM x : Task W α) >>= f).Honours contract rank good :=
  outcome_bind (x := liftM x) hok herror

theorem checked_bind {x : Checked α}
    (hok : ∀ a, x = .ok a → (f a).Honours contract rank good)
    (herror : ∀ fault, x = .error fault → good (.error (.fault fault))) :
    ((liftM x : Task W α) >>= f).Honours contract rank good := by
  cases x with
  | ok a => exact resume [] (hok a rfl)
  | error fault => exact .done (herror fault rfl)

theorem ok_bind {x : Outcome α} {a : α} (hx : x.result = .ok a)
    (h : (f a).Honours contract rank good) :
    ((liftM x : Task W α) >>= f).Honours contract rank good := by
  obtain ⟨log, result⟩ := x
  obtain rfl : result = .ok a := hx
  exact resume log h

theorem checked_ok_bind {x : Checked α} {a : α} (hx : x = .ok a)
    (h : (f a).Honours contract rank good) :
    ((liftM x : Task W α) >>= f).Honours contract rank good :=
  ok_bind (x := liftM x) (by rw [hx]; rfl) h

theorem post_bind {peer : Nat} {tag : Tag} {length : Nat} {f : Receive W → Task W β}
    (h : (f (.pending ⟨peer, rank, tag⟩)).Honours contract rank good) :
    (Task.post peer tag length >>= f).Honours contract rank good :=
  .post (resume [] h)

theorem send_bind {peer : Nat} {tag : Tag} {message : List W} {f : Unit → Task W β}
    (hmessage : contract ⟨rank, peer, tag⟩ message)
    (h : (f ()).Honours contract rank good) :
    (Task.send peer tag message >>= f).Honours contract rank good :=
  .send hmessage (resume [] h)

theorem take_bind {address : Address} {missing : Error} {f : List W → Task W β}
    (hnone : good (.error (.error missing)))
    (hsome : ∀ letters, contract address letters → (f letters).Honours contract rank good) :
    (Task.take (.pending address) missing >>= f).Honours contract rank good :=
  .take (.done hnone) fun letters hletters => resume [] (hsome letters hletters)

end Task.Honours

/-- A step to the value of a task keeps the state that it started in if the task fails. -/
theorem Step.honours_ofTask {contract : Contract W} {rank : Nat} {good : Fallible σ → Prop}
    {f : σ → Task W σ} {s : σ} (h : (f s).Honours contract rank good) :
    (ofTask f s).Honours contract rank fun v => ∃ x : Outcome σ, good x.result ∧
      v.1 = x.valueD s ∧ v.2.result = x.result.map fun _ => () :=
  .map (Program.Honours.mono h fun x hx => ⟨x, hx, rfl, rfl⟩)

/-! ## Runs in which waits expire -/

namespace World

inductive Next (w : World W α) : World W α → Prop
  | act {w'} (i : Nat) (h : w.act? i = some w') : Next w w'
  | expire {r r' : Rank W α} (i : Nat) (hr : w.ranks[i]? = some r) (h : r.expire? = some r') :
      Next w ⟨w.mailbox, w.ranks.set i r'⟩

/-- Nothing can happen any more. -/
def Halted (w : World W α) : Prop := ∀ w', ¬w.Next w'

variable {w w' : World W α}

theorem smaller_set {programs : List (Program W α)} {i : Nat} {p q : Program W α}
    (hp : programs[i]? = some p) (h : Program.After q p) :
    Smaller Program.After (programs.set i q) programs := by
  induction programs generalizing i with
  | nil => cases hp
  | cons first rest ih =>
      cases i with
      | zero =>
          cases hp
          exact .head rest h
      | succ i => exact .tail first (ih hp)

theorem Next.smaller (h : w.Next w') :
    Smaller Program.After (w'.ranks.map Rank.program) (w.ranks.map Rank.program) := by
  cases h with
  | act i h =>
      obtain ⟨r, hr, hact⟩ := Option.bind_eq_some_iff.1 h
      obtain ⟨⟨box, r'⟩, hstep, hw'⟩ := Option.bind_eq_some_iff.1 hact
      cases hw'
      rw [List.map_set]
      exact smaller_set (by rw [List.getElem?_map, hr]; rfl) (after_of_act? hstep)
  | expire i hr h =>
      rw [List.map_set]
      exact smaller_set (by rw [List.getElem?_map, hr]; rfl) (after_of_expire? h)

/-- Every run comes to an end, since each step leaves a smaller program to one rank. -/
theorem wellFounded_next : WellFounded fun w' w : World W α => w.Next w' :=
  Subrelation.wf (fun h => h.smaller)
    (InvImage.wf (fun w : World W α => w.ranks.map Rank.program) (Program.wellFounded W α).wf)

/-- Where nothing can happen any more, all ranks are done. -/
theorem Halted.exists_done (h : w.Halted) {i : Nat} (hi : i < w.ranks.length) :
    ∃ a, w.Done i a := by
  have hr : w.ranks[i]? = some w.ranks[i] := List.getElem?_eq_getElem hi
  have hacts (next : Mailbox W × Rank W α) : w.ranks[i].act? w.mailbox ≠ some next := by
    intro hstep
    have hact : w.act? i = some ⟨next.1, w.ranks.set i next.2⟩ := by
      rw [act?, hr]
      change (w.ranks[i].act? w.mailbox >>= _) = _
      rw [hstep]
      rfl
    exact h _ (.act i hact)
  have hexpires (r' : Rank W α) : w.ranks[i].expire? ≠ some r' :=
    fun hexpire => h _ (.expire i hr hexpire)
  generalize w.ranks[i] = r at hr hacts hexpires
  obtain ⟨channel, calls, program⟩ := r
  cases program with
  | done a => exact ⟨a, _, hr, rfl⟩
  | post => exact absurd rfl (hacts _)
  | send => exact absurd rfl (hacts _)
  | take => exact absurd rfl (hexpires _)

theorem exists_run_stuck (start : World W α) : ∃ history w, start.Run history w ∧ w.Stuck := by
  obtain ⟨w, ⟨history, run⟩, hmin⟩ := wellFounded_next.has_min
    {w | ∃ history, start.Run history w} ⟨start, [], .start⟩
  refine ⟨history, w, run, fun i => Option.eq_none_iff_forall_ne_some.2 fun w' hact => ?_⟩
  obtain ⟨e, he⟩ := Option.isSome_iff_exists.1 ((w.isSome_event? i).trans (by rw [hact]; rfl))
  exact hmin w' ⟨_, run.act he hact⟩ (.act i hact)

/-- The mailbox and all ranks of a world keep a contract. -/
structure Abides (contract : Contract W) (n : Nat) (good : Nat → α → Prop) (w : World W α) :
    Prop where
  length_ranks : w.ranks.length = n
  mail : ∀ address message, w.mailbox.get? address = some message → contract address message
  rank : ∀ (i : Nat) (r : Rank W α), w.ranks[i]? = some r →
    r.channel = .linked i ∧ r.program.Honours contract i (good i)

namespace Abides

variable {contract : Contract W} {n : Nat} {good : Nat → α → Prop}

theorem launch {programs : Nat → Program W α}
    (h : ∀ i < n, (programs i).Honours contract i (good i)) :
    (World.launch n programs).Abides contract n good where
  length_ranks := by simp [World.launch]
  mail _ _ hmessage := by cases hmessage
  rank i r hr := by
    have hi : i < n := by
      have hlt := (List.getElem?_eq_some_iff.1 hr).1
      simpa [World.launch] using hlt
    rw [getElem?_launch programs hi] at hr
    cases hr
    exact ⟨rfl, h i hi⟩

/-- The world after one rank has moved on. -/
private theorem set (h : w.Abides contract n good) {i : Nat} {r : Rank W α} {box : Mailbox W}
    (hbox : ∀ address message, box.get? address = some message → contract address message)
    (hchannel : r.channel = .linked i) (hprogram : r.program.Honours contract i (good i)) :
    (⟨box, w.ranks.set i r⟩ : World W α).Abides contract n good where
  length_ranks := by rw [List.length_set, h.length_ranks]
  mail := hbox
  rank k r' hr' := by
    by_cases hk : k = i
    · subst hk
      rw [List.getElem?_set_self'] at hr'
      obtain ⟨_, _, rfl⟩ := Option.map_eq_some_iff.1 hr'
      exact ⟨hchannel, hprogram⟩
    · rw [List.getElem?_set_ne (Ne.symm hk)] at hr'
      exact h.rank k r' hr'

/-- What one rank does keeps the contract: it sends what it may, and takes what others sent. -/
theorem next (h : w.Abides contract n good) (hnext : w.Next w') :
    w'.Abides contract n good := by
  cases hnext with
  | act i hact =>
      obtain ⟨⟨channel, calls, program⟩, hr, hact⟩ := Option.bind_eq_some_iff.1 hact
      obtain ⟨⟨box, r'⟩, hstep, hw'⟩ := Option.bind_eq_some_iff.1 hact
      cases hw'
      obtain ⟨hchannel, hprogram⟩ := h.rank i _ hr
      dsimp only at hchannel hprogram
      subst hchannel
      cases hprogram with
      | done => cases hstep
      | post hnow =>
          cases hstep
          exact h.set h.mail rfl hnow
      | @send peer tag message _ hmessage hnow =>
          cases hstep
          refine h.set (fun address letters hletters => ?_) rfl hnow
          change (w.mailbox.put ⟨i, peer, tag⟩ message).get? address = _ at hletters
          by_cases ha : address = ⟨i, peer, tag⟩
          · subst ha
            rw [Mailbox.get?_put_self] at hletters
            cases hletters
            exact hmessage
          · rw [Mailbox.get?_put_of_ne _ _ ha] at hletters
            exact h.mail address letters hletters
      | @take receive _ hnone hsome =>
          cases receive with
          | settled known =>
              cases hstep
              refine h.set h.mail rfl ?_
              cases known with
              | none => exact hnone
              | some message => exact hsome message rfl
          | pending a =>
              obtain ⟨⟨message, box'⟩, htake, hnow⟩ := Option.map_eq_some_iff.1 hstep
              obtain ⟨_, hmessage, heq⟩ := Option.map_eq_some_iff.1 htake
              cases heq
              cases hnow
              refine h.set (fun address letters hletters => ?_) rfl
                (hsome message (h.mail a message hmessage))
              by_cases ha : address = a
              · subst ha
                rw [Mailbox.get?_erase_self] at hletters
                cases hletters
              · rw [Mailbox.get?_erase_of_ne _ ha] at hletters
                exact h.mail address letters hletters
  | @expire r r' i hr hexpire =>
      obtain ⟨channel, calls, program⟩ := r
      obtain ⟨hchannel, hprogram⟩ := h.rank i _ hr
      cases hprogram with
      | done => cases hexpire
      | post => cases hexpire
      | send => cases hexpire
      | take hnone =>
          cases hexpire
          exact h.set h.mail hchannel hnone

theorem along (h : w.Abides contract n good) (run : Relation.ReflTransGen Next w w') :
    w'.Abides contract n good := by
  induction run with
  | refl => exact h
  | tail _ hnext ih => exact ih.next hnext

theorem good_of_done (h : w.Abides contract n good) {i : Nat} {a : α} (hdone : w.Done i a) :
    good i a := by
  obtain ⟨⟨channel, calls, program⟩, hr, rfl⟩ := hdone
  cases (h.rank i _ hr).2 with
  | done hgood => exact hgood

end Abides

/-- Whatever its ranks do next and whenever their waits expire, a world comes to a halt, and then
all of its ranks are done. A rank that is done has a good value. -/
structure Concludes (start : World W α) (n : Nat) (good : Nat → α → Prop) : Prop where
  exists_halt : ∀ f : Nat → World W α, f 0 = start → ∃ k, ¬(f k).Next (f (k + 1))
  done_of_halted : ∀ {w}, Relation.ReflTransGen Next start w → w.Halted →
    ∀ i < n, ∃ a, w.Done i a
  good_of_done : ∀ {w}, Relation.ReflTransGen Next start w → ∀ i < n, ∀ a, w.Done i a → good i a

/-- Ranks that honour a contract end with good values. -/
theorem concludes_of_honours {contract : Contract W} {n : Nat} {programs : Nat → Program W α}
    {good : Nat → α → Prop} (h : ∀ i < n, (programs i).Honours contract i (good i)) :
    (launch n programs).Concludes n good where
  exists_halt f _ := by
    obtain ⟨w, ⟨k, rfl⟩, hmin⟩ := wellFounded_next.has_min (Set.range f) ⟨f 0, 0, rfl⟩
    exact ⟨k, hmin (f (k + 1)) ⟨k + 1, rfl⟩⟩
  done_of_halted run hhalted i hi :=
    hhalted.exists_done (by rwa [((Abides.launch h).along run).length_ranks])
  good_of_done run i _ a hdone := ((Abides.launch h).along run).good_of_done hdone

/-! ## The run in order -/

theorem exists_expire?_of_expireFirst? {ranks ranks' : List (Rank W α)}
    (h : expireFirst? ranks = some ranks') :
    ∃ i r r', ranks[i]? = some r ∧ r.expire? = some r' ∧ ranks' = ranks.set i r' := by
  induction ranks generalizing ranks' with
  | nil => cases h
  | cons r rest ih =>
      unfold expireFirst? at h
      split at h
      next r' hr =>
        cases h
        exact ⟨0, r, r', rfl, hr, rfl⟩
      next =>
        obtain ⟨rest', hrest, rfl⟩ := Option.map_eq_some_iff.1 h
        obtain ⟨i, r₁, r', hr₁, hr', rfl⟩ := ih hrest
        exact ⟨i + 1, r₁, r', hr₁, hr', rfl⟩

theorem expire?_of_expireFirst? {ranks : List (Rank W α)} (h : expireFirst? ranks = none) :
    ∀ r ∈ ranks, r.expire? = none := by
  induction ranks with
  | nil =>
      intro r hr
      cases hr
  | cons r rest ih =>
      unfold expireFirst? at h
      split at h
      · cases h
      next hr =>
        intro r' hr'
        rcases List.mem_cons.1 hr' with rfl | hr'
        · exact hr
        · exact ih (Option.map_eq_none_iff.1 h) r' hr'

/-- Letting the first rank that can act do so, and the first one that waits give up where none can,
is one of the runs, and it goes on until nothing can happen any more. -/
theorem reaches_run (w : World W α) : Relation.ReflTransGen Next w w.run ∧ w.run.Halted := by
  obtain ⟨box, ranks⟩ := w
  change Relation.ReflTransGen Next ⟨box, ranks⟩ (finish box ranks) ∧ (finish box ranks).Halted
  fun_induction finish box ranks with
  | case1 box ranks box' ranks' hact ih =>
      obtain ⟨i, hi⟩ := exists_act?_of_actFirst? hact
      exact ⟨.head (.act i hi) ih.1, ih.2⟩
  | case2 box ranks hact ranks' hexpire ih =>
      obtain ⟨i, r, r', hr, hr', rfl⟩ := exists_expire?_of_expireFirst? hexpire
      exact ⟨.head (.expire i hr hr') ih.1, ih.2⟩
  | case3 box ranks hact hexpire =>
      refine ⟨.refl, fun w' hnext => ?_⟩
      cases hnext with
      | act i hi =>
          rw [stuck_of_actFirst? hact i] at hi
          cases hi
      | expire i hr hr' =>
          rw [expire?_of_expireFirst? hexpire _ (List.mem_of_getElem? hr)] at hr'
          cases hr'

theorem Concludes.run {start : World W α} {n : Nat} {good : Nat → α → Prop}
    (h : start.Concludes n good) {i : Nat} (hi : i < n) :
    ∃ a, start.run.Done i a ∧ good i a := by
  obtain ⟨hreaches, hhalted⟩ := start.reaches_run
  obtain ⟨a, hdone⟩ := h.done_of_halted hreaches hhalted i hi
  exact ⟨a, hdone, h.good_of_done hreaches i hi a hdone⟩

end World

end KineticGrid
