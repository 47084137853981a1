import KineticGrid.Proofs.Message.Script
/-!
# Orders of events

The mailbox has one slot per source, target and tag, so an order of events in which a rank sends
into a slot that is still full loses a message. Main statements: in every orderly run, where this
does not happen, ranks keep along their scripts, even if the scripts would allow it to happen; an
order of events in which as many messages are taken as are sent is orderly; and every order of
events in which ranks keep to scripts and find the messages that they take is a run.
-/

namespace KineticGrid

variable {W α : Type}

/-! ## Orderly runs -/

/-- Every message is sent into a slot after the ones before it in the slot were taken. -/
def OrderlyAt (a : Address) (history : List (Nat × Event W)) : Prop :=
  ∀ earlier later message, history = earlier ++ (a.source, .sent a.target a.tag message) :: later →
    (sentInto a (past earlier a.source)).length ≤ (tookFrom a (past earlier a.target)).length

def Orderly (history : List (Nat × Event W)) : Prop := ∀ a, OrderlyAt a history

theorem orderlyAt_nil (a : Address) : OrderlyAt a ([] : List (Nat × Event W)) := by
  intro earlier later message heq
  simp at heq

theorem orderlyAt_concat_iff {a : Address} {history : List (Nat × Event W)} {i : Nat}
    {e : Event W} : OrderlyAt a (history ++ [(i, e)]) ↔ OrderlyAt a history ∧
      ∀ message, i = a.source → e = .sent a.target a.tag message →
        (sentInto a (past history a.source)).length ≤
          (tookFrom a (past history a.target)).length := by
  constructor
  · intro h
    refine ⟨fun earlier later message heq => ?_, fun message hi he => ?_⟩
    · exact h earlier (later ++ [(i, e)]) message (by simp [heq])
    · exact h history [] message (by rw [hi, he])
  · rintro ⟨h, hlast⟩ earlier later message heq
    rcases List.eq_nil_or_concat later with rfl | ⟨later, last, rfl⟩
    · obtain ⟨rfl, hentry⟩ := List.append_inj' heq rfl
      cases hentry
      exact hlast message rfl rfl
    · rw [List.concat_eq_append, ← List.cons_append, ← List.append_assoc] at heq
      exact h earlier later message (List.append_inj' heq rfl).1

namespace World.Run

variable {n : Nat} {scripts : Scripts W} {values : Nat → α} {programs : Nat → Program W α}
  {history : List (Nat × Event W)} {w : World W α}

theorem along_of_orderly (hs : scripts.Matched n)
    (hp : ∀ i < n, (programs i).Follows i (scripts i) (values i))
    (run : (launch n programs).Run history w) (horderly : Orderly history) :
    w.Along n scripts values (past history) := by
  induction run with
  | start => exact .launch hp
  | act _ hevent hact ih =>
      have h := ih fun a => (orderlyAt_concat_iff.1 (horderly a)).1
      rw [past_append]
      refine h.act_of_empty hs (fun peer tag message he => h.get?_of_le ?_) hevent hact
      exact (orderlyAt_concat_iff.1 (horderly ⟨_, peer, tag⟩)).2 message rfl he

theorem orderly (hs : scripts.Sound n) (hp : ∀ i < n, (programs i).Follows i (scripts i) (values i))
    (run : (launch n programs).Run history w) : Orderly history := by
  induction run with
  | start => exact orderlyAt_nil
  | act run hevent _ ih =>
      refine fun a => orderlyAt_concat_iff.2 ⟨ih a, fun message hi he => ?_⟩
      subst hi he
      have h := run.along hs hp
      exact hs.spaced _ h.possible _ _ _ _ (h.sent_of_event hevent)

end World.Run

/-! ## Orders of events that are runs -/

theorem past_eq_nil {n : Nat} {history : List (Nat × Event W)} (h : ∀ entry ∈ history, entry.1 < n)
    {i : Nat} (hi : n ≤ i) : past history i = [] := by
  rw [past, List.map_eq_nil_iff, List.filter_eq_nil_iff]
  intro entry hentry
  have hlt := h entry hentry
  simp
  omega

/-- What an event of a rank does to the mailbox. A message that is taken has to be there. -/
inductive Mailbox.Changes (i : Nat) (box : Mailbox W) : Event W → Mailbox W → Prop
  | posted (peer : Nat) (tag : Tag) (length : Nat) : Changes i box (.posted peer tag length) box
  | sent (peer : Nat) (tag : Tag) (message : List W) :
    Changes i box (.sent peer tag message) (box.put ⟨i, peer, tag⟩ message)
  | took {peer : Nat} {tag : Tag} {message : List W}
    (h : box.get? ⟨peer, i, tag⟩ = some message) :
    Changes i box (.took peer tag message) (box.erase ⟨peer, i, tag⟩)

/-- What an order of events leaves in the mailbox, which was empty before. -/
inductive Mailbox.Admits : List (Nat × Event W) → Mailbox W → Prop
  | nil : Admits [] .empty
  | concat {history box box' i e} (h : Admits history box) (hstep : box.Changes i e box') :
    Admits (history ++ [(i, e)]) box'

/-- An event takes no more messages from a slot and leaves no more in it than were there or are
sent, and less if a message is replaced. -/
theorem Mailbox.Changes.count {box box' : Mailbox W} {i : Nat} {e : Event W}
    (h : box.Changes i e box') (a : Address) :
    (if a.target = i then (e.tookFrom? a).toList else []).length + (box'.get? a).toList.length ≤
        (if a.source = i then (e.sentInto? a).toList else []).length +
          (box.get? a).toList.length ∧
      ((if a.source = i then (e.sentInto? a).toList else []).length +
            (box.get? a).toList.length ≤
          (if a.target = i then (e.tookFrom? a).toList else []).length +
            (box'.get? a).toList.length →
        ∀ message, i = a.source → e = .sent a.target a.tag message → box.get? a = none) := by
  cases h with
  | posted => simp [Event.sentInto?, Event.tookFrom?]
  | sent peer tag message =>
      by_cases hempty : a = ⟨i, peer, tag⟩ → box.get? a = none
      · have hmail := congrArg List.length (World.Along.mail_send message a hempty)
        rw [List.length_append, List.length_append] at hmail
        refine ⟨by omega, fun _ message' hi he => hempty ?_⟩
        cases he
        rw [hi]
      · obtain ⟨ha, hfull⟩ := Classical.not_imp.1 hempty
        subst ha
        obtain ⟨old, hold⟩ := Option.ne_none_iff_exists'.1 hfull
        simp [Event.sentInto?, Event.tookFrom?, Mailbox.get?_put_self, hold]
  | took hbox =>
      have hmail := congrArg List.length (World.Along.mail_take hbox a)
      rw [List.length_append, List.length_append] at hmail
      exact ⟨by omega, fun _ _ _ he => by cases he⟩

/-- No more messages are taken from a slot or left in it than were sent into it, and only in an
order that is orderly there are they as many. -/
theorem Mailbox.Admits.count {history : List (Nat × Event W)} {box : Mailbox W}
    (h : Admits history box) (a : Address) :
    (tookFrom a (past history a.target)).length + (box.get? a).toList.length ≤
        (sentInto a (past history a.source)).length ∧
      ((sentInto a (past history a.source)).length ≤
          (tookFrom a (past history a.target)).length + (box.get? a).toList.length →
        OrderlyAt a history) := by
  induction h with
  | nil => exact ⟨Nat.le_refl 0, fun _ => orderlyAt_nil a⟩
  | @concat history box box' i e _ hstep ih =>
      obtain ⟨hle, horderly⟩ := ih
      obtain ⟨hmail, hempty⟩ := hstep.count a
      rw [past_append, sentInto_update, tookFrom_update, List.length_append, List.length_append]
      refine ⟨by omega, fun hall => orderlyAt_concat_iff.2 ⟨horderly (by omega), ?_⟩⟩
      intro message hi he
      have hnone := hempty (by omega) message hi he
      rw [hnone, Option.toList_none, List.length_nil] at hle hmail
      omega

namespace World.Reaches

variable {n : Nat} {scripts before : Scripts W} {values : Nat → α} {w : World W α}

/-- A rank whose next message is missing neither acts nor is done. -/
theorem waits (h : w.Reaches n scripts values before) {i peer : Nat} (hi : i < n) {tag : Tag}
    {message : List W} (hnext : before i ++ [.took peer tag message] <+: scripts i)
    (hbox : w.mailbox.get? ⟨peer, i, tag⟩ = none) : w.act? i = none ∧ ∀ a, ¬w.Done i a := by
  obtain ⟨r, rest, hr, _, hfollows, hrest⟩ := h.rank i hi
  obtain ⟨later, hlater⟩ := hnext
  obtain rfl : rest = .took peer tag message :: later := by
    rw [← hlater, List.append_assoc] at hrest
    exact List.append_cancel_left hrest
  obtain ⟨channel, calls, program⟩ := r
  cases hfollows with
  | take =>
      refine ⟨?_, ?_⟩
      · rw [act?, hr]
        simp [Rank.act?, Mailbox.take?, hbox]
      · rintro a ⟨r', hr', hprogram⟩
        obtain rfl := Option.some.inj (hr.symm.trans hr')
        cases hprogram

end World.Reaches

theorem World.act?_of_done {w : World W α} {i : Nat} {a : α} (h : w.Done i a) :
    w.act? i = none := by
  obtain ⟨⟨channel, calls, program⟩, hr, rfl⟩ := h
  rw [act?, hr]
  rfl

theorem World.act?_of_le {w : World W α} {i : Nat} (h : w.ranks.length ≤ i) :
    w.act? i = none := by
  rw [act?, List.getElem?_eq_none h]
  rfl

/-- A rank whose next event is admitted by the mailbox can act. -/
theorem World.Reaches.exists_act {n : Nat} {scripts before : Scripts W} {values : Nat → α}
    {w : World W α} (h : w.Reaches n scripts values before) {i : Nat} (hi : i < n) {e : Event W}
    (hnext : before i ++ [e] <+: scripts i) {box : Mailbox W}
    (hstep : w.mailbox.Changes i e box) :
    ∃ w', w.event? i = some e ∧ w.act? i = some w' ∧ w'.mailbox = box ∧
      w'.Reaches n scripts values (Function.update before i (before i ++ [e])) := by
  obtain ⟨r, rest, hr, hchannel, hfollows, hrest⟩ := h.rank i hi
  obtain ⟨later, hlater⟩ := hnext
  obtain rfl : rest = e :: later := by
    rw [← hlater, List.append_assoc] at hrest
    exact List.append_cancel_left hrest
  obtain ⟨channel, calls, program⟩ := r
  obtain rfl : channel = .linked i := hchannel
  obtain ⟨r', hevent, hact, hchannel', hfollows'⟩ : ∃ r' : Rank W α,
      (⟨.linked i, calls, program⟩ : Rank W α).event? w.mailbox = some e ∧
      (⟨.linked i, calls, program⟩ : Rank W α).act? w.mailbox = some (box, r') ∧
      r'.channel = .linked i ∧ r'.program.Follows i later (values i) := by
    cases hfollows with
    | post hnow =>
        cases hstep
        exact ⟨_, rfl, rfl, rfl, hnow⟩
    | send hnow =>
        cases hstep
        exact ⟨_, rfl, rfl, rfl, hnow⟩
    | take hnow =>
        cases hstep with
        | took hbox => exact ⟨⟨.linked i, calls, _⟩, by simp [Rank.event?, hbox],
            by simp [Rank.act?, Mailbox.take?, hbox], rfl, hnow⟩
  refine ⟨⟨box, w.ranks.set i r'⟩, ?_, ?_, rfl, h.set hi hchannel' hfollows' ?_ box⟩
  · rw [event?, hr]
    exact hevent
  · rw [act?, hr]
    change (Rank.act? _ _ >>= _) = _
    rw [hact]
    rfl
  · rw [← hlater, List.append_assoc]
    rfl

/-- Ranks can act in every order of events that the mailbox admits and in which each of them keeps
to a script of its own. -/
theorem World.exists_run {n : Nat} {scripts : Scripts W} {values : Nat → α}
    {programs : Nat → Program W α} (hp : ∀ i < n, (programs i).Follows i (scripts i) (values i))
    (houtside : ∀ i, n ≤ i → scripts i = []) {history : List (Nat × Event W)} {box : Mailbox W}
    (hadmits : Mailbox.Admits history box) (hkeeps : ∀ i, past history i <+: scripts i) :
    ∃ w, (launch n programs).Run history w ∧ w.mailbox = box ∧
      w.Reaches n scripts values (past history) := by
  induction hadmits with
  | nil => exact ⟨_, .start, rfl, .launch hp⟩
  | @concat history box box' i e _ hstep ih =>
      have hnext : past history i ++ [e] <+: scripts i := by
        have hi := hkeeps i
        rwa [past_append, Function.update_self] at hi
      have hbefore (j : Nat) : past history j <+: scripts j := by
        by_cases hji : j = i
        · subst hji
          exact (List.prefix_append _ _).trans hnext
        · have hj := hkeeps j
          rwa [past_append, Function.update_of_ne hji] at hj
      have hi : i < n := by
        by_contra hge
        rw [houtside i (Nat.le_of_not_lt hge)] at hnext
        simp at hnext
      obtain ⟨w, run, hbox, hreaches⟩ := ih hbefore
      subst hbox
      obtain ⟨w', hevent, hact, hbox', hreaches'⟩ := hreaches.exists_act hi hnext hstep
      rw [past_append]
      exact ⟨w', run.act hevent hact, hbox', hreaches'⟩

end KineticGrid
