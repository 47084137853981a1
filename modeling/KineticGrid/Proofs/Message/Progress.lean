import KineticGrid.Proofs.Message.Script
import Mathlib.Algebra.BigOperators.Group.Finset.Basic
/-!
# Progress

How many actions the ranks of a world have left, and which rank can go on. Main statements: where
ranks follow scripts that fit together, every action of any rank leaves one action less, every run
can be continued to an end, and as long as one rank is not done, some rank can send, or take a
message that is there.
-/

namespace KineticGrid

variable {W α : Type}

/-- After the receives that it announces, which never waits, a rank sends a message or takes one
that is there. -/
def Program.Enabled (rank : Nat) (box : Mailbox W) : Program W α → Prop
  | .done _ => False
  | .post peer tag _ next => (next (.pending ⟨peer, rank, tag⟩)).Enabled rank box
  | .send _ _ _ _ => True
  | .take (.settled _) _ => True
  | .take (.pending a) _ => (box.get? a).isSome = true

namespace World

/-! ## Counting actions -/

/-- The number of actions until no rank can act, where always the first rank that can act does. -/
def countActions (box : Mailbox W) (ranks : List (Rank W α)) : Nat :=
  match _hact : actFirst? box ranks with
  | some (box, ranks) => countActions box ranks + 1
  | none => 0
termination_by ranks.map Rank.program
decreasing_by exact smaller_of_actFirst? ‹_›

def remaining (w : World W α) : Nat := countActions w.mailbox w.ranks

def AllDone (n : Nat) (good : Nat → α → Prop) (w : World W α) : Prop :=
  ∀ i < n, ∃ a, w.Done i a ∧ good i a

theorem act?_cons_zero (box : Mailbox W) (r : Rank W α) (rest : List (Rank W α)) :
    (⟨box, r :: rest⟩ : World W α).act? 0 =
      (r.act? box).map fun next => ⟨next.1, next.2 :: rest⟩ := by
  cases h : r.act? box <;> simp [act?, h]

theorem act?_cons_succ (box : Mailbox W) (r : Rank W α) (rest : List (Rank W α)) (i : Nat) :
    (⟨box, r :: rest⟩ : World W α).act? (i + 1) =
      ((⟨box, rest⟩ : World W α).act? i).map fun w => ⟨w.mailbox, r :: w.ranks⟩ := by
  unfold act?
  cases hr : rest[i]? with
  | none => simp [hr]
  | some r' => cases h : r'.act? box <;> simp [hr, h]

theorem exists_act?_of_actFirst? {box box' : Mailbox W} {ranks ranks' : List (Rank W α)}
    (h : actFirst? box ranks = some (box', ranks')) :
    ∃ i, (⟨box, ranks⟩ : World W α).act? i = some ⟨box', ranks'⟩ := by
  induction ranks generalizing ranks' with
  | nil => cases h
  | cons r rest ih =>
      unfold actFirst? at h
      split at h
      next hr =>
        cases h
        exact ⟨0, by rw [act?_cons_zero, hr]; rfl⟩
      next =>
        obtain ⟨⟨box'', rest'⟩, hrest, heq⟩ := Option.map_eq_some_iff.1 h
        cases heq
        obtain ⟨i, hi⟩ := ih hrest
        exact ⟨i + 1, by rw [act?_cons_succ, hi]; rfl⟩

theorem stuck_of_actFirst? {box : Mailbox W} {ranks : List (Rank W α)}
    (h : actFirst? box ranks = none) : (⟨box, ranks⟩ : World W α).Stuck := by
  induction ranks with
  | nil => exact fun i => rfl
  | cons r rest ih =>
      unfold actFirst? at h
      split at h
      · cases h
      next hr =>
        have hrest := ih (Option.map_eq_none_iff.1 h)
        intro i
        cases i with
        | zero => rw [act?_cons_zero, hr]; rfl
        | succ i => rw [act?_cons_succ, hrest i]; rfl

end World

/-! ## What is left of scripts -/

/-- The number of events that `n` ranks have left of their scripts. -/
def Scripts.left (n : Nat) (scripts before : Scripts W) : Nat :=
  ∑ i ∈ Finset.range n, ((scripts i).length - (before i).length)

theorem Scripts.left_update {n : Nat} {scripts before : Scripts W} {i : Nat} {e : Event W}
    (hi : i < n) (hnext : before i ++ [e] <+: scripts i) :
    left n scripts (Function.update before i (before i ++ [e])) + 1 = left n scripts before := by
  have hlength := hnext.length_le
  rw [List.length_append, List.length_singleton] at hlength
  have hothers : ∑ j ∈ (Finset.range n).erase i, ((scripts j).length -
        (Function.update before i (before i ++ [e]) j).length) =
      ∑ j ∈ (Finset.range n).erase i, ((scripts j).length - (before j).length) := by
    apply Finset.sum_congr rfl
    intro j hj
    rw [Function.update_of_ne (Finset.ne_of_mem_erase hj)]
  rw [left, left, ← Finset.add_sum_erase _ _ (Finset.mem_range.2 hi), hothers,
    ← Finset.add_sum_erase _ _ (Finset.mem_range.2 hi), Function.update_self,
    List.length_append, List.length_singleton]
  omega

theorem Scripts.left_eq_zero {n : Nat} {scripts before : Scripts W}
    (h : ∀ i < n, before i = scripts i) : left n scripts before = 0 := by
  apply Finset.sum_eq_zero
  intro i hi
  rw [h i (Finset.mem_range.1 hi), Nat.sub_self]

namespace World.Along

variable {n : Nat} {scripts before : Scripts W} {values : Nat → α} {w w' : World W α}

theorem lt_of_act? (h : w.Along n scripts values before) {i : Nat} (hact : w.act? i = some w') :
    i < n := by
  obtain ⟨r, hr, -⟩ := Option.bind_eq_some_iff.1 hact
  rw [← h.length_ranks]
  exact (List.getElem?_eq_some_iff.1 hr).1

/-- An action of a rank is the next event of its script. -/
theorem exists_next (hs : scripts.Sound n) (h : w.Along n scripts values before) {i : Nat}
    (hact : w.act? i = some w') :
    ∃ e, w.event? i = some e ∧ before i ++ [e] <+: scripts i ∧
      w'.Along n scripts values (Function.update before i (before i ++ [e])) := by
  obtain ⟨e, he⟩ := Option.isSome_iff_exists.1 ((w.isSome_event? i).trans (by rw [hact]; rfl))
  have hnext := h.act hs he hact
  have hprefix := hnext.possible.isPrefix i
  rw [Function.update_self] at hprefix
  exact ⟨e, he, hprefix, hnext⟩

/-- The actions that are left are the events that are left of the scripts. The induction is on
their number, of which the first rank that can act takes one off. -/
theorem remaining_eq (hs : scripts.Sound n) (h : w.Along n scripts values before) :
    w.remaining = scripts.left n before := by
  induction hleft : scripts.left n before using Nat.strongRecOn generalizing w before with
  | ind left ih =>
      subst hleft
      unfold remaining countActions
      split
      next box ranks hfirst =>
        obtain ⟨i, hact⟩ := exists_act?_of_actFirst? hfirst
        obtain ⟨e, -, hprefix, hnext⟩ := h.exists_next hs hact
        have hless := Scripts.left_update (h.lt_of_act? hact) hprefix
        have hrest := ih _ (by omega) hnext rfl
        change countActions box ranks = _ at hrest
        omega
      next hnone =>
        have hstuck := stuck_of_actFirst? hnone
        exact (Scripts.left_eq_zero fun i hi => h.eq_scripts hs hstuck hi).symm

theorem remaining_act? (hs : scripts.Sound n) (h : w.Along n scripts values before) {i : Nat}
    (hact : w.act? i = some w') : w'.remaining + 1 = w.remaining := by
  obtain ⟨e, -, hprefix, hnext⟩ := h.exists_next hs hact
  rw [hnext.remaining_eq hs, h.remaining_eq hs]
  exact Scripts.left_update (h.lt_of_act? hact) hprefix

/-- Unless all ranks have come to the end of their scripts, one of them can send, or take a message
that is there. The induction is on the events that are left; a rank that announces a receive does
so first. -/
theorem exists_enabled (hs : scripts.Sound n)
    (hlast : ∀ i peer tag length, (scripts i).getLast? ≠ some (.posted peer tag length))
    (h : w.Along n scripts values before) (hunfinished : ∃ i < n, before i ≠ scripts i) :
    ∃ i < n, ∃ r, w.ranks[i]? = some r ∧ r.program.Enabled i w.mailbox := by
  induction hleft : scripts.left n before using Nat.strongRecOn generalizing w before with
  | ind left ih =>
      obtain ⟨i, hi, e, ⟨later, hlater⟩, hready⟩ := hs.live before h.possible hunfinished
      obtain ⟨r, rest, hr, hchannel, hfollows, hrest⟩ := h.rank i hi
      rw [← hlater, List.append_assoc] at hrest
      obtain rfl := List.append_cancel_left hrest
      obtain ⟨channel, calls, program⟩ := r
      obtain rfl : channel = .linked i := hchannel
      cases hfollows with
      | @post peer tag length next _ _ hnext =>
          let r' : Rank W α := ⟨.linked i, calls ++ [.posted peer tag length],
            next (.pending ⟨peer, i, tag⟩)⟩
          have hact : w.act? i = some ⟨w.mailbox, w.ranks.set i r'⟩ := by
            rw [act?, hr]
            rfl
          obtain ⟨e, he, hprefix, hnow⟩ := h.exists_next hs hact
          obtain rfl : e = .posted peer tag length := by
            rw [event?, hr] at he
            exact (Option.some.inj he).symm
          have hless := Scripts.left_update hi hprefix
          have hmore : before i ++ [.posted peer tag length] ≠ scripts i := by
            intro hend
            exact hlast i peer tag length (by rw [← hend, List.getLast?_concat])
          obtain ⟨j, hj, r'', hr'', henabled⟩ := ih _ (by omega) hnow
            ⟨i, hi, by rwa [Function.update_self]⟩ rfl
          by_cases hji : j = i
          · subst hji
            rw [List.getElem?_set_self (by rw [h.length_ranks]; exact hj)] at hr''
            obtain rfl := Option.some.inj hr''
            exact ⟨j, hj, _, hr, henabled⟩
          · rw [List.getElem?_set_ne (Ne.symm hji)] at hr''
            exact ⟨j, hj, r'', hr'', henabled⟩
      | send => exact ⟨i, hi, _, hr, trivial⟩
      | @take peer tag message next _ _ hnext =>
          have hmail := congrArg List.length (h.mail ⟨peer, i, tag⟩)
          dsimp only [Scripts.Ready] at hmail hready
          rw [List.length_append] at hmail
          refine ⟨i, hi, _, hr, ?_⟩
          change (w.mailbox.get? ⟨peer, i, tag⟩).isSome = true
          cases hbox : w.mailbox.get? ⟨peer, i, tag⟩ with
          | none =>
              rw [hbox, Option.toList_none, List.length_nil] at hmail
              omega
          | some m => rfl

end World.Along

/-! ## Runs -/

/-- Every run can be continued until no rank can act. -/
theorem World.Run.exists_stuck {n : Nat} {scripts : Scripts W} {values : Nat → α}
    {programs : Nat → Program W α} (hs : scripts.Sound n)
    (hp : ∀ i < n, (programs i).Follows i (scripts i) (values i)) {history : List (Nat × Event W)}
    {w : World W α} (run : (launch n programs).Run history w) :
    ∃ later w', (launch n programs).Run (history ++ later) w' ∧ w'.Stuck := by
  induction hleft : scripts.left n (past history) using Nat.strongRecOn generalizing history w with
  | ind left ih =>
      subst hleft
      by_cases hstuck : w.Stuck
      · exact ⟨[], w, by rwa [List.append_nil], hstuck⟩
      · obtain ⟨i, hi⟩ := not_forall.1 hstuck
        obtain ⟨w', hact⟩ := Option.ne_none_iff_exists'.1 hi
        have halong := run.along hs hp
        obtain ⟨e, he, hnext, -⟩ := halong.exists_next hs hact
        have hless := Scripts.left_update (halong.lt_of_act? hact) hnext
        rw [← past_append] at hless
        obtain ⟨later, w'', run', hhalt⟩ := ih _ (by omega) (run.act he hact) rfl
        rw [List.append_assoc] at run'
        exact ⟨_, w'', run', hhalt⟩

/-- A world never comes to a halt before all ranks are done, in whatever order they act. -/
structure World.Completes (start : World W α) (n : Nat) (good : Nat → α → Prop) : Prop where
  allDone_or_enabled : ∀ {history w}, start.Run history w →
    w.AllDone n good ∨ ∃ i < n, ∃ r, w.ranks[i]? = some r ∧ r.program.Enabled i w.mailbox
  remaining_act? : ∀ {history w}, start.Run history w → ∀ i w', w.act? i = some w' →
    w'.remaining + 1 = w.remaining
  allDone_of_stuck : ∀ {history w}, start.Run history w → w.Stuck → w.AllDone n good

theorem World.completes_of_follows {n : Nat} {scripts : Scripts W} {values : Nat → α}
    {programs : Nat → Program W α} {good : Nat → α → Prop} (hs : scripts.Sound n)
    (hlast : ∀ i peer tag length, (scripts i).getLast? ≠ some (.posted peer tag length))
    (hp : ∀ i < n, (programs i).Follows i (scripts i) (values i))
    (hgood : ∀ i < n, good i (values i)) : (launch n programs).Completes n good := by
  have hdone {w : World W α} {before : Scripts W} (h : w.Along n scripts values before)
      (hend : ∀ i < n, before i = scripts i) : w.AllDone n good :=
    fun i hi => ⟨values i, h.done hi (hend i hi), hgood i hi⟩
  refine ⟨fun {history w} run => ?_, fun run i w' => (run.along hs hp).remaining_act? hs,
    fun run hstuck => hdone (run.along hs hp) fun i hi => (run.along hs hp).eq_scripts hs hstuck hi⟩
  have h := run.along hs hp
  by_cases hend : ∀ i < n, past history i = scripts i
  · exact .inl (hdone h hend)
  · push Not at hend
    exact .inr (h.exists_enabled hs hlast hend)

namespace World.Completes

variable {start : World W α} {n : Nat} {good : Nat → α → Prop}

theorem length_add_remaining (h : start.Completes n good) {history : List (Nat × Event W)}
    {w : World W α} (run : start.Run history w) :
    history.length + w.remaining = start.remaining := by
  induction run with
  | start => exact Nat.zero_add _
  | act run _ hact ih =>
      have hless := h.remaining_act? run _ _ hact
      rw [List.length_append, List.length_singleton]
      omega

/-- Ranks that act one after the other come to a halt. -/
theorem exists_halt (h : start.Completes n good) (f : Nat → World W α) (hf : f 0 = start) :
    ∃ k, ∀ i, (f k).act? i ≠ some (f (k + 1)) := by
  by_contra hforever
  push Not at hforever
  have hrun (k : Nat) : ∃ history : List (Nat × Event W),
      history.length = k ∧ start.Run history (f k) := by
    induction k with
    | zero => exact ⟨[], rfl, hf ▸ .start⟩
    | succ k ih =>
        obtain ⟨history, hlength, run⟩ := ih
        obtain ⟨i, hact⟩ := hforever k
        obtain ⟨e, he⟩ := Option.isSome_iff_exists.1
          (((f k).isSome_event? i).trans (by rw [hact]; rfl))
        exact ⟨history ++ [(i, e)], by rw [List.length_append, hlength]; rfl, run.act he hact⟩
  obtain ⟨history, hlength, run⟩ := hrun (start.remaining + 1)
  have hsum := h.length_add_remaining run
  omega

end World.Completes

end KineticGrid
