import KineticGrid.Proofs.Message.Script
import Mathlib.Data.Finset.Max
/-!
# Phases

Ranks that work through the same phases, each of which is a round of messages: a rank first sends
all of its messages and then takes all of those that are meant for it. The phases are not separated
by barriers, so ranks may be several of them apart. Main statement: if between two uses of one slot
there is always a phase with a message the other way, the scripts of the phases fit together.
-/

namespace KineticGrid

variable {W : Type}

/-- One round of messages: for each rank the receives it announces, what it sends to whom, and what
it takes from whom. -/
structure Phase (W : Type) where
  posts : Nat → List (Nat × Tag × Nat)
  sends : Nat → List (Nat × Tag × List W)
  takes : Nat → List (Nat × Tag × List W)

namespace Phase

def script (p : Phase W) (i : Nat) : List (Event W) :=
  (p.posts i).map (fun entry => .posted entry.1 entry.2.1 entry.2.2) ++
    (p.sends i).map (fun entry => .sent entry.1 entry.2.1 entry.2.2) ++
    (p.takes i).map (fun entry => .took entry.1 entry.2.1 entry.2.2)

def Uses (p : Phase W) (a : Address) : Prop := ∃ m, (a.target, a.tag, m) ∈ p.sends a.source

structure Valid (n : Nat) (p : Phase W) : Prop where
  outside : ∀ i, n ≤ i → p.script i = []
  sends_nodup : ∀ i, ((p.sends i).map fun entry => (entry.1, entry.2.1)).Nodup
  takes_nodup : ∀ i, ((p.takes i).map fun entry => (entry.1, entry.2.1)).Nodup
  matched : ∀ i peer tag m, (peer, tag, m) ∈ p.sends i ↔ (i, tag, m) ∈ p.takes peer

end Phase

/-! ## The messages of one phase -/

private def pick? (peer : Nat) (tag : Tag) (entry : Nat × Tag × List W) : Option (List W) :=
  if entry.1 = peer ∧ entry.2.1 = tag then some entry.2.2 else none

private def pick (peer : Nat) (tag : Tag) (entries : List (Nat × Tag × List W)) : List (List W) :=
  entries.filterMap (pick? peer tag)

private theorem pick_eq_nil {peer : Nat} {tag : Tag} {entries : List (Nat × Tag × List W)}
    (h : ∀ m, (peer, tag, m) ∉ entries) : pick peer tag entries = [] := by
  rw [pick, List.filterMap_eq_nil_iff]
  rintro ⟨peer', tag', m⟩ hmem
  rw [pick?, if_neg]
  rintro ⟨rfl, rfl⟩
  exact h m hmem

private theorem pick_eq_singleton {peer : Nat} {tag : Tag} {m : List W}
    {entries : List (Nat × Tag × List W)}
    (hnodup : (entries.map fun entry => (entry.1, entry.2.1)).Nodup)
    (hmem : (peer, tag, m) ∈ entries) : pick peer tag entries = [m] := by
  induction entries with
  | nil => cases hmem
  | cons entry entries ih =>
      rw [List.map_cons, List.nodup_cons] at hnodup
      rcases List.mem_cons.1 hmem with rfl | hmem
      · have hrest : pick peer tag entries = [] := by
          apply pick_eq_nil
          intro m' hm'
          exact hnodup.1 (List.mem_map_of_mem (f := fun entry => (entry.1, entry.2.1)) hm')
        have hentry : pick? peer tag (peer, tag, m) = some m := if_pos ⟨rfl, rfl⟩
        rw [pick, List.filterMap_cons_some hentry]
        exact congrArg (m :: ·) hrest
      · have hne : ¬(entry.1 = peer ∧ entry.2.1 = tag) := by
          rintro ⟨rfl, rfl⟩
          exact hnodup.1 (List.mem_map_of_mem (f := fun entry => (entry.1, entry.2.1)) hmem)
        have hentry : pick? peer tag entry = none := if_neg hne
        rw [pick, List.filterMap_cons_none hentry]
        exact ih hnodup.2 hmem

private theorem sentInto_script_eq_pick (p : Phase W) (a : Address) :
    sentInto a (p.script a.source) = pick a.target a.tag (p.sends a.source) := by
  simp [sentInto, Phase.script, List.filterMap_append, List.filterMap_map, Function.comp_def,
    Event.sentInto?]
  rfl

private theorem tookFrom_script_eq_pick (p : Phase W) (a : Address) :
    tookFrom a (p.script a.target) = pick a.source a.tag (p.takes a.target) := by
  simp [tookFrom, Phase.script, List.filterMap_append, List.filterMap_map, Function.comp_def,
    Event.tookFrom?]
  rfl

namespace Phase.Valid

variable {n : Nat} {p : Phase W}

theorem sentInto_eq_tookFrom (hp : p.Valid n) (a : Address) :
    sentInto a (p.script a.source) = tookFrom a (p.script a.target) := by
  rw [sentInto_script_eq_pick, tookFrom_script_eq_pick]
  by_cases ha : p.Uses a
  · obtain ⟨m, hm⟩ := ha
    rw [pick_eq_singleton (hp.sends_nodup _) hm,
      pick_eq_singleton (hp.takes_nodup _) ((hp.matched _ _ _ _).1 hm)]
  · rw [pick_eq_nil fun m hm => ha ⟨m, hm⟩,
      pick_eq_nil fun m hm => ha ⟨m, (hp.matched _ _ _ _).2 hm⟩]

theorem length_sentInto (hp : p.Valid n) {a : Address} (ha : p.Uses a) :
    (sentInto a (p.script a.source)).length = 1 := by
  obtain ⟨m, hm⟩ := ha
  rw [sentInto_script_eq_pick, pick_eq_singleton (hp.sends_nodup _) hm, List.length_singleton]

theorem source_lt (hp : p.Valid n) {a : Address} (ha : p.Uses a) : a.source < n := by
  by_contra hge
  have hone := hp.length_sentInto ha
  rw [hp.outside _ (Nat.le_of_not_lt hge)] at hone
  cases hone

theorem length_sentInto_le (hp : p.Valid n) (a : Address) :
    (sentInto a (p.script a.source)).length ≤ 1 := by
  by_cases ha : p.Uses a
  · exact (hp.length_sentInto ha).le
  · rw [sentInto_script_eq_pick, pick_eq_nil fun m hm => ha ⟨m, hm⟩]
    exact Nat.zero_le 1

end Phase.Valid

theorem Phase.uses_of_length_pos {p : Phase W} {a : Address}
    (h : 0 < (sentInto a (p.script a.source)).length) : p.Uses a := by
  by_contra ha
  rw [sentInto_script_eq_pick, pick_eq_nil fun m hm => ha ⟨m, hm⟩] at h
  exact absurd h (Nat.lt_irrefl 0)

private theorem sentInto_append (a : Address) (first second : List (Event W)) :
    sentInto a (first ++ second) = sentInto a first ++ sentInto a second :=
  List.filterMap_append

private theorem tookFrom_append (a : Address) (first second : List (Event W)) :
    tookFrom a (first ++ second) = tookFrom a first ++ tookFrom a second :=
  List.filterMap_append

private theorem sentInto_of_took {p : Phase W} {i peer : Nat} {tag : Tag} {m : List W}
    {part : List (Event W)} (hnext : part ++ [.took peer tag m] <+: p.script i) (a : Address) :
    sentInto a part = sentInto a (p.script i) := by
  obtain ⟨rest, hrest⟩ := hnext
  have htakes (entries : List (Nat × Tag × List W)) :
      sentInto a (entries.map fun entry => Event.took entry.1 entry.2.1 entry.2.2) = [] := by
    simp [sentInto, Event.sentInto?]
  rw [List.append_assoc, Phase.script] at hrest
  rcases List.append_eq_append_iff.1 hrest with ⟨gap, hbefore, hafter⟩ | ⟨gap, hpart, hafter⟩
  · cases gap with
    | nil =>
        rw [Phase.script, sentInto_append, htakes, hbefore, List.append_nil, List.append_nil]
    | cons e gap =>
        rw [List.singleton_append, List.cons_append, List.cons.injEq] at hafter
        have hmem : Event.took peer tag m ∈ (p.posts i).map (fun entry =>
            Event.posted entry.1 entry.2.1 entry.2.2) ++ (p.sends i).map (fun entry =>
            Event.sent entry.1 entry.2.1 entry.2.2) := by
          rw [hbefore, hafter.1]
          simp
        simp at hmem
  · have hgap : sentInto a gap = [] := by
      have hall := htakes (p.takes i)
      rw [hafter, sentInto_append] at hall
      exact (List.append_eq_nil_iff.1 hall).1
    rw [Phase.script, sentInto_append, htakes, hpart, sentInto_append, hgap]

/-! ## How far a rank has come -/

def phaseScripts (phases : List (Phase W)) (i : Nat) : List (Event W) :=
  phases.flatMap fun p => p.script i

private theorem phaseScripts_split (phases : List (Phase W)) (i j : Nat) :
    phaseScripts phases i =
      phaseScripts (phases.take j) i ++ phaseScripts (phases.drop j) i := by
  rw [phaseScripts, phaseScripts, phaseScripts, ← List.flatMap_append, List.take_append_drop]

private theorem phaseScripts_drop {phases : List (Phase W)} {i j : Nat} {p : Phase W}
    (hp : phases[j]? = some p) :
    phaseScripts (phases.drop j) i =
      p.script i ++ phaseScripts (phases.drop (j + 1)) i := by
  obtain ⟨hj, rfl⟩ := List.getElem?_eq_some_iff.1 hp
  rw [List.drop_eq_getElem_cons hj, phaseScripts, List.flatMap_cons, phaseScripts]

/-- A rank has gone through `j` phases and through a proper part of the next one. -/
private structure At (phases : List (Phase W)) (i : Nat) (before : List (Event W)) (j : Nat)
    (part : List (Event W)) : Prop where
  eq_append : before = phaseScripts (phases.take j) i ++ part
  current : ∀ p, phases[j]? = some p → part <+: p.script i ∧ part ≠ p.script i
  last : phases[j]? = none → part = []

private theorem exists_at {phases : List (Phase W)} {i : Nat} {before : List (Event W)}
    (h : before <+: phaseScripts phases i) : ∃ j part, At phases i before j part := by
  induction phases generalizing before with
  | nil =>
      obtain rfl := List.prefix_nil.1 h
      exact ⟨0, [], rfl, fun _ hp => (by cases hp), fun _ => rfl⟩
  | cons p phases ih =>
      obtain ⟨rest, hrest⟩ := h
      rw [phaseScripts, List.flatMap_cons] at hrest
      by_cases hproper : before <+: p.script i ∧ before ≠ p.script i
      · refine ⟨0, before, rfl, ?_, fun hp => (by cases hp)⟩
        rintro _ ⟨⟩
        exact hproper
      · obtain ⟨later, rfl⟩ : ∃ later, before = p.script i ++ later := by
          rcases List.append_eq_append_iff.1 hrest with ⟨gap, hgap, _⟩ | ⟨gap, hgap, _⟩
          · refine ⟨[], ?_⟩
            rw [List.append_nil]
            by_contra hne
            exact hproper ⟨⟨gap, hgap.symm⟩, hne⟩
          · exact ⟨gap, hgap⟩
        rw [List.append_assoc] at hrest
        obtain ⟨j, part, hat⟩ := ih ⟨rest, List.append_cancel_left hrest⟩
        refine ⟨j + 1, part, ?_, hat.current, hat.last⟩
        rw [hat.eq_append, List.take_succ_cons, phaseScripts, phaseScripts, List.flatMap_cons,
          List.append_assoc]

private theorem At.exists_phase {phases : List (Phase W)} {i j : Nat}
    {before part : List (Event W)} {e : Event W} (h : At phases i before j part)
    (hnext : before ++ [e] <+: phaseScripts phases i) :
    ∃ p, phases[j]? = some p ∧ part ++ [e] <+: p.script i := by
  obtain ⟨rest, hrest⟩ := hnext
  rw [phaseScripts_split phases i j, h.eq_append, List.append_assoc, List.append_assoc] at hrest
  have htail := List.append_cancel_left hrest
  cases hp : phases[j]? with
  | none =>
      rw [List.drop_eq_nil_of_le (List.getElem?_eq_none_iff.1 hp)] at htail
      simp [phaseScripts] at htail
  | some p =>
      refine ⟨p, rfl, ?_⟩
      obtain ⟨⟨missing, hmissing⟩, hne⟩ := h.current p hp
      rw [phaseScripts_drop hp, ← hmissing, List.append_assoc] at htail
      cases missing with
      | nil => exact absurd (by rw [← hmissing, List.append_nil]) hne
      | cons e' missing =>
          have hcons := List.append_cancel_left htail
          rw [List.singleton_append, List.cons_append, List.cons.injEq] at hcons
          rw [hcons.1]
          exact ⟨missing, by rw [List.append_assoc]; exact hmissing⟩

private theorem At.exists_next {phases : List (Phase W)} {i j : Nat}
    {before part : List (Event W)} (h : At phases i before j part) (hj : j < phases.length) :
    ∃ e, before ++ [e] <+: phaseScripts phases i := by
  obtain ⟨⟨missing, hmissing⟩, hne⟩ := h.current _ (List.getElem?_eq_getElem hj)
  cases missing with
  | nil => exact absurd (by rw [← hmissing, List.append_nil]) hne
  | cons e missing =>
      refine ⟨e, missing ++ phaseScripts (phases.drop (j + 1)) i, ?_⟩
      rw [phaseScripts_split phases i j, phaseScripts_drop (List.getElem?_eq_getElem hj),
        ← hmissing, h.eq_append]
      simp only [List.append_assoc, List.cons_append, List.nil_append]

private theorem At.eq_of_le {phases : List (Phase W)} {i j : Nat}
    {before part : List (Event W)} (h : At phases i before j part) (hj : phases.length ≤ j) :
    before = phaseScripts phases i := by
  rw [h.eq_append, h.last (List.getElem?_eq_none_iff.2 hj), List.take_of_length_le hj,
    List.append_nil]

/-! ## Counting the uses of a slot -/

private def uses (phases : List (Phase W)) (a : Address) (j : Nat) : Nat :=
  (sentInto a (phaseScripts (phases.take j) a.source)).length

section

variable {n : Nat} {phases : List (Phase W)} (hvalid : ∀ p ∈ phases, p.Valid n)

include hvalid

private theorem sentInto_eq_tookFrom (a : Address) :
    sentInto a (phaseScripts phases a.source) = tookFrom a (phaseScripts phases a.target) := by
  induction phases with
  | nil => rfl
  | cons p phases ih =>
      rw [phaseScripts, phaseScripts, List.flatMap_cons, List.flatMap_cons, sentInto_append,
        tookFrom_append, (hvalid p List.mem_cons_self).sentInto_eq_tookFrom]
      exact congrArg _ (ih fun q hq => hvalid q (List.mem_cons_of_mem p hq))

private theorem uses_eq_took (a : Address) (j : Nat) :
    uses phases a j = (tookFrom a (phaseScripts (phases.take j) a.target)).length := by
  rw [uses, sentInto_eq_tookFrom fun p hp => hvalid p (List.mem_of_mem_take hp)]

omit hvalid in
private theorem uses_succ {j : Nat} {p : Phase W} (hp : phases[j]? = some p) (a : Address) :
    uses phases a (j + 1) = uses phases a j + (sentInto a (p.script a.source)).length := by
  rw [uses, uses, List.take_add_one, hp, Option.toList_some, phaseScripts, List.flatMap_append,
    List.flatMap_singleton, sentInto_append, List.length_append, phaseScripts]

omit hvalid in
private theorem uses_le_succ (a : Address) (j : Nat) :
    uses phases a j ≤ uses phases a (j + 1) := by
  cases hp : phases[j]? with
  | none => rw [uses, uses, List.take_add_one, hp, Option.toList_none, List.append_nil]
  | some p =>
      rw [uses_succ hp]
      omega

omit hvalid in
private theorem uses_mono (a : Address) : Monotone (uses phases a) :=
  monotone_nat_of_le_succ (uses_le_succ a)

private theorem uses_succ_of_uses {j : Nat} {p : Phase W} (hp : phases[j]? = some p) {a : Address}
    (ha : p.Uses a) : uses phases a (j + 1) = uses phases a j + 1 := by
  rw [uses_succ hp, (hvalid p (List.mem_of_getElem? hp)).length_sentInto ha]

omit hvalid in
private theorem exists_uses {a : Address} {j k : Nat} (h : uses phases a j < uses phases a k) :
    ∃ l p, j ≤ l ∧ l < k ∧ phases[l]? = some p ∧ p.Uses a := by
  induction k with
  | zero => exact absurd h (Nat.not_lt.2 (uses_mono a (Nat.zero_le j)))
  | succ k ih =>
      by_cases hk : uses phases a j < uses phases a k
      · obtain ⟨l, p, hjl, hlk, hp, ha⟩ := ih hk
        exact ⟨l, p, hjl, by omega, hp, ha⟩
      · have hjk : j ≤ k := by
          by_contra hlt
          exact absurd h (Nat.not_lt.2 (uses_mono a (by omega)))
        cases hp : phases[k]? with
        | none =>
            rw [uses, uses, List.take_add_one, hp, Option.toList_none, List.append_nil] at h
            unfold uses at hk
            exact absurd h hk
        | some p =>
            rw [uses_succ hp] at h
            exact ⟨k, p, hjk, by omega, hp, Phase.uses_of_length_pos (by omega)⟩

end

section

variable {phases : List (Phase W)} {j : Nat} {before part : List (Event W)}

private theorem At.uses_le_sent {a : Address} (h : At phases a.source before j part) :
    uses phases a j ≤ (sentInto a before).length := by
  rw [h.eq_append, sentInto_append, List.length_append, uses]
  omega

private theorem At.sent_le_uses {a : Address} (h : At phases a.source before j part) :
    (sentInto a before).length ≤ uses phases a (j + 1) := by
  rw [h.eq_append, sentInto_append, List.length_append]
  cases hp : phases[j]? with
  | none =>
      rw [h.last hp]
      exact uses_le_succ a j
  | some p =>
      rw [uses_succ hp, uses]
      exact Nat.add_le_add_left ((h.current p hp).1.filterMap _).length_le _

private theorem At.uses_le_took {n : Nat} (hvalid : ∀ p ∈ phases, p.Valid n) {a : Address}
    (h : At phases a.target before j part) : uses phases a j ≤ (tookFrom a before).length := by
  rw [h.eq_append, tookFrom_append, List.length_append, uses_eq_took hvalid]
  omega

end

/-! ## Phases that fit together -/

/-- Between two uses of a slot there is a phase with a message from its target to its source. -/
def Spaced (phases : List (Phase W)) : Prop :=
  ∀ (k j : Nat) (p q : Phase W) (a : Address), k < j → phases[k]? = some p →
    phases[j]? = some q → p.Uses a → q.Uses a →
    ∃ (l : Nat) (r : Phase W) (tag : Tag), k < l ∧ l < j ∧ phases[l]? = some r ∧
      r.Uses ⟨a.target, a.source, tag⟩

section

variable {n : Nat} {phases : List (Phase W)} (hvalid : ∀ p ∈ phases, p.Valid n)
  {before : Scripts W} (hbefore : Scripts.Possible (phaseScripts phases) before)

include hvalid

private theorem At.sent_of_next {i j peer : Nat} {tag : Tag} {m : List W} {p : Phase W}
    {part : List (Event W)} (h : At phases i (before i) j part) (hp : phases[j]? = some p)
    (hnext : part ++ [.sent peer tag m] <+: p.script i) :
    p.Uses ⟨i, peer, tag⟩ ∧
      (sentInto ⟨i, peer, tag⟩ (before i)).length = uses phases ⟨i, peer, tag⟩ j := by
  have hone := (hvalid p (List.mem_of_getElem? hp)).length_sentInto_le ⟨i, peer, tag⟩
  have hle := (hnext.filterMap (Event.sentInto? ⟨i, peer, tag⟩)).length_le
  change (sentInto _ (part ++ _)).length ≤ (sentInto _ _).length at hle
  rw [sentInto_append, List.length_append] at hle
  have hsent : (sentInto ⟨i, peer, tag⟩ [Event.sent peer tag m]).length = 1 := by
    simp [sentInto, Event.sentInto?]
  refine ⟨Phase.uses_of_length_pos (by dsimp only at hone ⊢; omega), ?_⟩
  rw [h.eq_append, sentInto_append, List.length_append, uses]
  dsimp only at hone ⊢
  omega

private theorem At.took_of_next {i j peer : Nat} {tag : Tag} {m : List W} {p : Phase W}
    {part : List (Event W)} (h : At phases i (before i) j part) (hp : phases[j]? = some p)
    (hnext : part ++ [.took peer tag m] <+: p.script i) :
    p.Uses ⟨peer, i, tag⟩ ∧
      (tookFrom ⟨peer, i, tag⟩ (before i)).length = uses phases ⟨peer, i, tag⟩ j := by
  have hphase := hvalid p (List.mem_of_getElem? hp)
  have hone := hphase.length_sentInto_le ⟨peer, i, tag⟩
  have heq := congrArg List.length (hphase.sentInto_eq_tookFrom ⟨peer, i, tag⟩)
  have hle := (hnext.filterMap (Event.tookFrom? ⟨peer, i, tag⟩)).length_le
  change (tookFrom _ (part ++ _)).length ≤ (tookFrom _ _).length at hle
  rw [tookFrom_append, List.length_append] at hle
  have htook : (tookFrom ⟨peer, i, tag⟩ [Event.took peer tag m]).length = 1 := by
    simp [tookFrom, Event.tookFrom?]
  refine ⟨Phase.uses_of_length_pos (by dsimp only at hone heq ⊢; omega), ?_⟩
  rw [h.eq_append, tookFrom_append, List.length_append, uses_eq_took hvalid]
  dsimp only at hone heq ⊢
  omega

include hbefore

/-- A rank that has come to another use of a slot has heard from the slot's target since the use
before, so that the target has taken the message before. -/
private theorem sent_le_took (hspaced : Spaced phases) {i peer : Nat} {tag : Tag} {m : List W}
    (hnext : before i ++ [.sent peer tag m] <+: phaseScripts phases i) :
    (sentInto ⟨i, peer, tag⟩ (before i)).length ≤
      (tookFrom ⟨i, peer, tag⟩ (before peer)).length := by
  obtain ⟨j, part, hat⟩ := exists_at (hbefore.isPrefix i)
  obtain ⟨j', part', hat'⟩ := exists_at (hbefore.isPrefix peer)
  obtain ⟨q, hq, hpart⟩ := hat.exists_phase hnext
  obtain ⟨huses, hsent⟩ := hat.sent_of_next hvalid hq hpart
  rw [hsent]
  by_contra hlt
  have htook := hat'.uses_le_took hvalid (a := ⟨i, peer, tag⟩)
  have hmore : uses phases ⟨i, peer, tag⟩ j' < uses phases ⟨i, peer, tag⟩ j :=
    lt_of_le_of_lt htook (Nat.lt_of_not_le hlt)
  obtain ⟨k, p, hjk, hkj, hp, huses'⟩ := exists_uses hmore
  obtain ⟨l, r, tag', hkl, hlj, hr, hback⟩ := hspaced k j p q _ hkj hp hq huses' huses
  have hheard : uses phases ⟨peer, i, tag'⟩ (l + 1) ≤
      (tookFrom ⟨peer, i, tag'⟩ (before i)).length :=
    le_trans (uses_mono _ hlj) (hat.uses_le_took hvalid (a := ⟨peer, i, tag'⟩))
  have hsaid : (sentInto ⟨peer, i, tag'⟩ (before peer)).length ≤
      uses phases ⟨peer, i, tag'⟩ l :=
    le_trans (hat'.sent_le_uses (a := ⟨peer, i, tag'⟩)) (uses_mono _ (by omega))
  have hpossible := hbefore.took_le_sent ⟨peer, i, tag'⟩
  have hsucc := uses_succ_of_uses hvalid hr hback
  dsimp only at hpossible hsucc
  omega

/-- Among the ranks that are least far, one can go on: if all of them wait, they have sent what
they wait for, and so have the ranks that are further. -/
private theorem exists_ready (hunfinished : ∃ i < n, before i ≠ phaseScripts phases i) :
    ∃ i < n, ∃ e, before i ++ [e] <+: phaseScripts phases i ∧ Scripts.Ready before i e := by
  choose j part hat using fun i => exists_at (hbefore.isPrefix i)
  have hbusy {i : Nat} (hi : before i ≠ phaseScripts phases i) : j i < phases.length := by
    by_contra hle
    exact hi ((hat i).eq_of_le (by omega))
  obtain ⟨i₀, hi₀, hne⟩ := hunfinished
  obtain ⟨i, hi, hleast⟩ := Finset.exists_min_image (Finset.range n) j ⟨i₀, Finset.mem_range.2 hi₀⟩
  have hj : j i < phases.length :=
    lt_of_le_of_lt (hleast i₀ (Finset.mem_range.2 hi₀)) (hbusy hne)
  by_cases hother : ∃ i' < n, j i' = j i ∧ ∃ e, before i' ++ [e] <+: phaseScripts phases i' ∧
      ∀ peer tag m, e ≠ .took peer tag m
  · obtain ⟨i', hi', _, e, he, htook⟩ := hother
    refine ⟨i', hi', e, he, ?_⟩
    cases e with
    | took peer tag m => exact absurd rfl (htook peer tag m)
    | posted | sent | settled => trivial
  · have hwaits (i' : Nat) (hi' : i' < n) (hji : j i' = j i) :
        ∃ peer tag m, before i' ++ [.took peer tag m] <+: phaseScripts phases i' := by
      obtain ⟨e, he⟩ := (hat i').exists_next (by omega)
      cases e with
      | took peer tag m => exact ⟨peer, tag, m, he⟩
      | posted | sent | settled =>
          exact absurd ⟨i', hi', hji, _, he, by simp⟩ hother
    rw [Finset.mem_range] at hi
    obtain ⟨peer, tag, m, hnext⟩ := hwaits i hi rfl
    refine ⟨i, hi, _, hnext, ?_⟩
    obtain ⟨p, hp, hpart⟩ := (hat i).exists_phase hnext
    obtain ⟨huses, htook⟩ := (hat i).took_of_next hvalid hp hpart
    have hsucc := uses_succ_of_uses hvalid hp huses
    have hpeer : peer < n := (hvalid p (List.mem_of_getElem? hp)).source_lt huses
    rw [Scripts.Ready, htook]
    rcases (hleast peer (Finset.mem_range.2 hpeer)).eq_or_lt with heq | hlt
    · obtain ⟨peer', tag', m', hnext'⟩ := hwaits peer hpeer heq.symm
      obtain ⟨p', hp', hpart'⟩ := (hat peer).exists_phase hnext'
      rw [← heq, hp] at hp'
      obtain rfl := Option.some.inj hp'
      have hsent := sentInto_of_took hpart' ⟨peer, i, tag⟩
      rw [(hat peer).eq_append, sentInto_append, List.length_append, hsent, ← heq]
      change _ < uses phases ⟨peer, i, tag⟩ (j i) + _
      rw [← uses_succ hp]
      omega
    · have hfurther := (hat peer).uses_le_sent (a := ⟨peer, i, tag⟩)
      have hmono : uses phases ⟨peer, i, tag⟩ (j i + 1) ≤ uses phases ⟨peer, i, tag⟩ (j peer) :=
        uses_mono _ (Nat.succ_le_of_lt hlt)
      omega

end

/-- A last phase may use any slots that no phase before it uses. -/
theorem Spaced.concat {phases : List (Phase W)} (h : Spaced phases) {last : Phase W}
    (hlast : ∀ p ∈ phases, ∀ a, p.Uses a → ¬last.Uses a) : Spaced (phases ++ [last]) := by
  intro k j p p' a hkj hp hp' huses huses'
  have hj : j < phases.length + 1 := by
    have hlt := (List.getElem?_eq_some_iff.1 hp').1
    rwa [List.length_append, List.length_singleton] at hlt
  rw [List.getElem?_append_left (by omega)] at hp
  by_cases hbefore : j < phases.length
  · rw [List.getElem?_append_left hbefore] at hp'
    obtain ⟨i, q, tag, hki, hij, hq, hback⟩ := h k j p p' a hkj hp hp' huses huses'
    exact ⟨i, q, tag, hki, hij, by rw [List.getElem?_append_left (by omega), hq], hback⟩
  · obtain rfl : j = phases.length := by omega
    rw [List.getElem?_concat_length] at hp'
    obtain rfl := Option.some.inj hp'
    exact absurd huses' (hlast p (List.mem_of_getElem? hp) a huses)

theorem matched_phaseScripts {n : Nat} {phases : List (Phase W)}
    (hvalid : ∀ p ∈ phases, p.Valid n) : Scripts.Matched n (phaseScripts phases) where
  outside i hi := by
    rw [phaseScripts, List.flatMap_eq_nil_iff]
    exact fun p hp => (hvalid p hp).outside i hi
  balanced := sentInto_eq_tookFrom hvalid
  live _ hbefore := exists_ready hvalid hbefore

theorem sound_phaseScripts {n : Nat} {phases : List (Phase W)} (hvalid : ∀ p ∈ phases, p.Valid n)
    (hspaced : Spaced phases) : Scripts.Sound n (phaseScripts phases) where
  outside := (matched_phaseScripts hvalid).outside
  balanced := (matched_phaseScripts hvalid).balanced
  spaced _ hbefore _ _ _ _ hnext := sent_le_took hvalid hbefore hspaced hnext
  live := (matched_phaseScripts hvalid).live

end KineticGrid
