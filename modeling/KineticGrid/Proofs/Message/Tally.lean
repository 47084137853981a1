import KineticGrid.Proofs.Message.Lockstep
import KineticGrid.Proofs.Message.Orderly
import Mathlib.Algebra.Ring.Nat
/-!
# Tallies

What can be said of a task whatever messages it takes: the number of events of some kind on its way
to a success. Main statement: in every run, orderly or not, a rank whose task succeeded has had as
many of these events as its task has.
-/

namespace KineticGrid

variable {W α β : Type}

/-! ## Weights -/

theorem length_filterMap_eq_sum (f : Event W → Option β) (events : List (Event W)) :
    (events.filterMap f).length = (events.map fun e => (f e).toList.length).sum := by
  induction events with
  | nil => rfl
  | cons e events ih =>
      rw [List.map_cons, List.sum_cons, ← ih]
      cases he : f e <;> simp [he, Nat.add_comm]

theorem sum_map_flatMap (weight : Event W → Nat) (script : α → List (Event W)) (items : List α) :
    ((items.flatMap script).map weight).sum =
      (items.map fun a => ((script a).map weight).sum).sum := by
  induction items with
  | nil => rfl
  | cons a items ih => simp [ih]

/-! ## Tasks -/

inductive Program.Weighs (rank : Nat) (weight : Event W → Nat) (good : α → Prop) :
    Program W (Outcome α) → Nat → Prop
  | success {log a} (h : good a) : Weighs rank weight good (.done ⟨log, .ok a⟩) 0
  | failure {log e} (total : Nat) : Weighs rank weight good (.done ⟨log, .error e⟩) total
  | post {peer tag length next total}
      (h : Weighs rank weight good (next (.pending ⟨peer, rank, tag⟩)) total) :
      Weighs rank weight good (.post peer tag length next)
        (weight (.posted peer tag length) + total)
  | send {peer tag message next total} (h : Weighs rank weight good next total) :
      Weighs rank weight good (.send peer tag message next)
        (weight (.sent peer tag message) + total)
  | take {peer tag next each total} (heach : ∀ message, weight (.took peer tag message) = each)
      (h : ∀ message, Weighs rank weight good (next (some message)) total) :
      Weighs rank weight good (.take (.pending ⟨peer, rank, tag⟩) next) (each + total)

theorem Program.Weighs.resume_log {rank : Nat} {weight : Event W → Nat} {good : α → Prop}
    {total : Nat} {p : Program W (Outcome α)} (h : p.Weighs rank weight good total)
    (log : List Record) : (Program.map (fun y : Outcome α =>
      (⟨log ++ y.log, y.result⟩ : Outcome α)) p).Weighs rank weight good total := by
  induction h with
  | success ha => exact .success ha
  | failure => exact .failure _
  | post _ ih => exact .post ih
  | send _ ih => exact .send ih
  | take heach _ ih => exact .take heach ih

abbrev Task.Weighs (t : Task W α) (rank : Nat) (weight : Event W → Nat) (good : α → Prop)
    (total : Nat) : Prop := Program.Weighs rank weight good t total

namespace Task

variable {rank : Nat} {weight : Event W → Nat} {good : α → Prop} {good' : β → Prop}
  {total total' : Nat}

theorem weighs_outcome {x : Outcome α} (h : ∀ a, x.result = .ok a → good a) :
    (liftM x : Task W α).Weighs rank weight good 0 := by
  obtain ⟨log, result⟩ := x
  cases result with
  | ok a => exact .success (h a rfl)
  | error e => exact .failure 0

theorem weighs_pure {a : α} (h : good a) : (Pure.pure a : Task W α).Weighs rank weight good 0 :=
  .success h

theorem weighs_post (peer : Nat) (tag : Tag) (length : Nat) :
    (Task.post peer tag length : Task W (Receive W)).Weighs rank weight
      (fun r => r = .pending ⟨peer, rank, tag⟩) (weight (.posted peer tag length)) := by
  rw [← Nat.add_zero (weight _)]
  exact .post (.success rfl)

theorem weighs_send (peer : Nat) (tag : Tag) (message : List W) :
    (Task.send peer tag message).Weighs rank weight (fun _ => True)
      (weight (.sent peer tag message)) := by
  rw [← Nat.add_zero (weight _)]
  exact .send (.success trivial)

theorem weighs_take {peer : Nat} {tag : Tag} {each : Nat}
    (heach : ∀ message, weight (.took peer tag message) = each) (missing : Error) :
    (Task.take (.pending ⟨peer, rank, tag⟩) missing).Weighs rank weight (fun _ => True) each := by
  rw [← Nat.add_zero each]
  exact .take heach fun _ => .success trivial

namespace Weighs

theorem mono {good₁ good₂ : α → Prop} {t : Task W α} (h : t.Weighs rank weight good₁ total)
    (himp : ∀ a, good₁ a → good₂ a) : t.Weighs rank weight good₂ total := by
  induction h with
  | success ha => exact .success (himp _ ha)
  | failure => exact .failure _
  | post _ ih => exact .post ih
  | send _ ih => exact .send ih
  | take heach _ ih => exact .take heach ih

theorem bind {t : Task W α} {f : α → Task W β} (ht : t.Weighs rank weight good total)
    (hf : ∀ a, good a → (f a).Weighs rank weight good' total') :
    (t >>= f).Weighs rank weight good' (total + total') := by
  induction ht with
  | success ha =>
      rw [Nat.zero_add]
      exact Program.Weighs.resume_log (hf _ ha) _
  | failure => exact .failure _
  | post _ ih =>
      rw [Nat.add_assoc]
      exact .post ih
  | send _ ih =>
      rw [Nat.add_assoc]
      exact .send ih
  | take heach _ ih =>
      rw [Nat.add_assoc]
      exact .take heach ih

theorem outcome_bind {x : Outcome α} {f : α → Task W β}
    (hf : ∀ a, (f a).Weighs rank weight good' total) :
    ((liftM x : Task W α) >>= f).Weighs rank weight good' total := by
  have hx : (liftM x : Task W α).Weighs rank weight (fun _ => True) 0 :=
    weighs_outcome fun _ _ => trivial
  rw [← Nat.zero_add total]
  exact hx.bind fun a _ => hf a

end Weighs

theorem weighs_mapM {f : α → Task W β} {items : List α} {each : α → Nat}
    {related : α → β → Prop}
    (h : ∀ a ∈ items, (f a).Weighs rank weight (related a) (each a)) :
    (items.mapM f).Weighs rank weight (fun bs => List.Forall₂ related items bs)
      ((items.map each).sum) := by
  have hloop (done : List β) : (List.mapM.loop f items done).Weighs rank weight
      (fun bs => ∃ rest, bs = done.reverse ++ rest ∧ List.Forall₂ related items rest)
      ((items.map each).sum) := by
    induction items generalizing done with
    | nil => exact weighs_pure ⟨[], (List.append_nil _).symm, .nil⟩
    | cons a items ih =>
        rw [List.map_cons, List.sum_cons]
        refine (h a List.mem_cons_self).bind fun b hb => ?_
        refine (ih (fun c hc => h c (List.mem_cons_of_mem a hc)) (b :: done)).mono ?_
        rintro _ ⟨rest, rfl, hrest⟩
        exact ⟨b :: rest, by rw [List.reverse_cons, List.append_assoc]; rfl, .cons hb hrest⟩
  refine (hloop []).mono ?_
  rintro _ ⟨rest, rfl, hrest⟩
  exact hrest

theorem weighs_forM {f : α → Task W Unit} {items : List α} {each : α → Nat}
    (h : ∀ a ∈ items, (f a).Weighs rank weight (fun _ => True) (each a)) :
    (items.forM f).Weighs rank weight (fun _ => True) ((items.map each).sum) := by
  induction items with
  | nil => exact weighs_pure trivial
  | cons a items ih =>
      rw [List.map_cons, List.sum_cons]
      exact (h a List.mem_cons_self).bind fun _ _ => ih fun c hc => h c (List.mem_cons_of_mem a hc)

end Task

/-! ## Runs -/

/-- An action of a rank weighs what is missing afterwards, and changes the mailbox as its event
says. -/
theorem Program.Weighs.of_act {rank : Nat} {weight : Event W → Nat} {good : α → Prop}
    {total : Nat} {r r' : Rank W (Outcome α)} {box box' : Mailbox W} {e : Event W}
    (h : r.program.Weighs rank weight good total) (hchannel : r.channel = .linked rank)
    (hevent : r.event? box = some e) (hact : r.act? box = some (box', r')) :
    box.Changes rank e box' ∧ r'.channel = .linked rank ∧
      ∃ rest, r'.program.Weighs rank weight good rest ∧ weight e + rest = total := by
  obtain ⟨channel, calls, program⟩ := r
  obtain rfl : channel = .linked rank := hchannel
  cases h with
  | success => cases hact
  | failure => cases hact
  | post hnow =>
      cases hevent
      cases hact
      exact ⟨.posted _ _ _, rfl, _, hnow, rfl⟩
  | send hnow =>
      cases hevent
      cases hact
      exact ⟨.sent _ _ _, rfl, _, hnow, rfl⟩
  | @take peer tag next each rest heach hnow =>
      obtain ⟨message, hbox, rfl⟩ := Option.map_eq_some_iff.1 hevent
      obtain ⟨⟨message', left⟩, htake, heq⟩ := Option.map_eq_some_iff.1 hact
      rw [Mailbox.take?, hbox, Option.map_some] at htake
      cases htake
      cases heq
      exact ⟨.took hbox, rfl, _, hnow message, by rw [heach]⟩

/-- The events of each rank and those that are missing weigh what they have to together, and the
mailbox holds what the events left there. -/
structure World.Weighed (n : Nat) (weight : Event W → Nat) (good : α → Prop) (total : Nat → Nat)
    (history : List (Nat × Event W)) (w : World W (Outcome α)) : Prop where
  length_ranks : w.ranks.length = n
  rank : ∀ i < n, ∃ r rest, w.ranks[i]? = some r ∧ r.channel = .linked i ∧
    r.program.Weighs i weight good rest ∧ ((past history i).map weight).sum + rest = total i
  idle : ∀ i, n ≤ i → past history i = []
  admits : Mailbox.Admits history w.mailbox

/-- What an action adds to the events is what is missing less. -/
theorem World.Weighed.act {n : Nat} {weight : Event W → Nat} {good : α → Prop} {total : Nat → Nat}
    {history : List (Nat × Event W)} {w w' : World W (Outcome α)}
    (h : w.Weighed n weight good total history) {i : Nat} {e : Event W}
    (hevent : w.event? i = some e) (hact : w.act? i = some w') :
    w'.Weighed n weight good total (history ++ [(i, e)]) := by
  obtain ⟨r, r', box, hr, hi, he, hstep, rfl⟩ := exists_rank hevent hact
  rw [h.length_ranks] at hi
  obtain ⟨r₂, missing, hr₂, hchannel, hweighs, hsum⟩ := h.rank i hi
  obtain rfl : r = r₂ := Option.some.inj (hr.symm.trans hr₂)
  obtain ⟨hchanges, hchannel', rest, hweighs', hrest⟩ := hweighs.of_act hchannel he hstep
  refine ⟨by rw [List.length_set, h.length_ranks], fun j hj => ?_, fun j hj => ?_,
    h.admits.concat hchanges⟩
  · rw [past_append]
    by_cases hji : j = i
    · subst hji
      refine ⟨r', rest, ?_, hchannel', hweighs', ?_⟩
      · exact List.getElem?_set_self (by rw [h.length_ranks]; exact hj)
      · rw [Function.update_self, List.map_append, List.sum_append, List.map_singleton,
          List.sum_singleton]
        omega
    · rw [Function.update_of_ne hji]
      dsimp only
      rw [List.getElem?_set_ne (Ne.symm hji)]
      exact h.rank j hj
  · rw [past_append, Function.update_of_ne (by omega)]
    exact h.idle j hj

/-- In every run the events of each rank and those that are missing weigh the same together. -/
theorem World.Run.weighed {n : Nat} {weight : Event W → Nat} {good : α → Prop}
    {total : Nat → Nat} {programs : Nat → Program W (Outcome α)}
    (hp : ∀ i < n, (programs i).Weighs i weight good (total i))
    {history : List (Nat × Event W)} {w : World W (Outcome α)}
    (run : (launch n programs).Run history w) : w.Weighed n weight good total history := by
  induction run with
  | start =>
      refine ⟨by simp [launch], fun i hi => ?_, fun _ _ => rfl, .nil⟩
      exact ⟨_, total i, getElem?_launch programs hi, rfl, hp i hi, Nat.zero_add _⟩
  | act _ hevent hact ih => exact ih.act hevent hact

theorem World.Weighed.of_done {n : Nat} {weight : Event W → Nat} {good : α → Prop}
    {total : Nat → Nat} {history : List (Nat × Event W)} {w : World W (Outcome α)}
    (h : w.Weighed n weight good total history) {i : Nat} (hi : i < n) {x : Outcome α}
    (hdone : w.Done i x) {a : α} (hx : x.result = .ok a) :
    ((past history i).map weight).sum = total i := by
  obtain ⟨r, hr, hprogram⟩ := hdone
  obtain ⟨r', rest, hr', _, hweighs, hsum⟩ := h.rank i hi
  obtain rfl : r = r' := Option.some.inj (hr.symm.trans hr')
  obtain ⟨log, result⟩ := x
  obtain rfl : result = .ok a := hx
  rw [hprogram] at hweighs
  cases hweighs
  exact hsum

end KineticGrid
