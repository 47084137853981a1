import KineticGrid.Message.World
import Mathlib.Logic.Function.Basic
/-!
# Scripts

A script lists what one rank is going to do, with every message it sends and every message it is
to take. Where each rank follows a script, the state of a world is known from how far each rank has
come. Main statements: if no script sends into a slot before its last message can have been taken,
then in every run, in whatever order the ranks act, no message is lost, every rank takes what its
script says, and a world in which no rank can act is finished.
-/

namespace KineticGrid

variable {W α β : Type}

inductive Event (W : Type) where
  | posted (peer : Nat) (tag : Tag) (length : Nat)
  | sent (peer : Nat) (tag : Tag) (message : List W)
  | took (peer : Nat) (tag : Tag) (message : List W)
  /-- A receive was completed whose message, if any, was known before. -/
  | settled (message : Option (List W))

/-- The message that an event of the slot's source puts into the slot. -/
def Event.sentInto? (a : Address) : Event W → Option (List W)
  | .sent peer tag message => if peer = a.target ∧ tag = a.tag then some message else none
  | _ => none

/-- The message that an event of the slot's target takes out of the slot. -/
def Event.tookFrom? (a : Address) : Event W → Option (List W)
  | .took peer tag message => if peer = a.source ∧ tag = a.tag then some message else none
  | _ => none

def sentInto (a : Address) (events : List (Event W)) : List (List W) :=
  events.filterMap (Event.sentInto? a)

def tookFrom (a : Address) (events : List (Event W)) : List (List W) :=
  events.filterMap (Event.tookFrom? a)

theorem Mailbox.eq_empty {box : Mailbox W} (h : ∀ a, box.get? a = none) : box = .empty := by
  obtain ⟨slots⟩ := box
  cases slots with
  | nil => rfl
  | cons slot slots =>
      have hslot := h slot.1
      simp [Mailbox.get?] at hslot

/-! ## Programs that follow a script -/

/-- The program of a rank does what the script lists, if the messages it takes are those of the
script, and ends with a value. -/
inductive Program.Follows (rank : Nat) : Program W α → List (Event W) → α → Prop
  | done (a : α) : Follows rank (.done a) [] a
  | post {peer tag length next script a}
      (h : Follows rank (next (.pending ⟨peer, rank, tag⟩)) script a) :
      Follows rank (.post peer tag length next) (.posted peer tag length :: script) a
  | send {peer tag message next script a} (h : Follows rank next script a) :
      Follows rank (.send peer tag message next) (.sent peer tag message :: script) a
  | take {peer tag message next script a} (h : Follows rank (next (some message)) script a) :
      Follows rank (.take (.pending ⟨peer, rank, tag⟩) next) (.took peer tag message :: script) a

theorem Program.Follows.bind {rank : Nat} {p : Program W α} {f : α → Program W β}
    {script script' : List (Event W)} {a : α} {b : β} (hp : p.Follows rank script a)
    (hf : (f a).Follows rank script' b) : (p.bind f).Follows rank (script ++ script') b := by
  induction hp with
  | done a => exact hf
  | post _ ih => exact .post (ih hf)
  | send _ ih => exact .send (ih hf)
  | take _ ih => exact .take (ih hf)

theorem Program.Follows.map {rank : Nat} {p : Program W α} {script : List (Event W)} {a : α}
    (f : α → β) (hp : p.Follows rank script a) : (p.map f).Follows rank script (f a) := by
  have h := hp.bind (f := fun a => .done (f a)) (.done (f a))
  rwa [List.append_nil] at h

/-! ## Runs -/

/-- The event of the next action of a rank, unless it is done or its message is missing. -/
def Rank.event? (box : Mailbox W) (r : Rank W α) : Option (Event W) :=
  match r.program with
  | .done _ => none
  | .post peer tag length _ => some (.posted peer tag length)
  | .send peer tag message _ => some (.sent peer tag message)
  | .take (.settled message) _ => some (.settled message)
  | .take (.pending a) _ => (box.get? a).map (.took a.source a.tag)

theorem Rank.isSome_event? (box : Mailbox W) (r : Rank W α) :
    (r.event? box).isSome = (r.act? box).isSome := by
  unfold Rank.event? Rank.act?
  split <;> simp_all [Mailbox.take?]

namespace World

def event? (w : World W α) (i : Nat) : Option (Event W) := do
  let r ← w.ranks[i]?
  r.event? w.mailbox

theorem isSome_event? (w : World W α) (i : Nat) : (w.event? i).isSome = (w.act? i).isSome := by
  unfold event? act?
  cases w.ranks[i]? with
  | none => rfl
  | some r =>
      have h := r.isSome_event? w.mailbox
      cases hact : r.act? w.mailbox <;> simp_all

/-- A world is reached from another by actions of its ranks in some order. The history names each
event with its rank. -/
inductive Run (start : World W α) : List (Nat × Event W) → World W α → Prop
  | start : Run start [] start
  | act {history w w' i e} (run : Run start history w) (hevent : w.event? i = some e)
      (hact : w.act? i = some w') : Run start (history ++ [(i, e)]) w'

def Stuck (w : World W α) : Prop := ∀ i, w.act? i = none

/-- Ranks that have their own number, each before its first action, and no message on its way. -/
def launch (n : Nat) (programs : Nat → Program W α) : World W α :=
  ⟨.empty, (List.range n).map fun i => .start (.linked i) (programs i)⟩

def Done (w : World W α) (i : Nat) (a : α) : Prop :=
  ∃ r, w.ranks[i]? = some r ∧ r.program = .done a

theorem launch_congr {n : Nat} {programs programs' : Nat → Program W α}
    (h : ∀ i < n, programs i = programs' i) : launch n programs = launch n programs' := by
  unfold launch
  congr 1
  apply List.map_congr_left
  intro i hi
  rw [h i (List.mem_range.1 hi)]

theorem getElem?_launch {n i : Nat} (programs : Nat → Program W α) (hi : i < n) :
    (launch n programs).ranks[i]? = some (.start (.linked i) (programs i)) := by
  simp only [launch, List.getElem?_map, List.getElem?_range hi, Option.map_some]

theorem exists_rank {w w' : World W α} {i : Nat} {e : Event W} (hevent : w.event? i = some e)
    (hact : w.act? i = some w') : ∃ r r' box, w.ranks[i]? = some r ∧ i < w.ranks.length ∧
      r.event? w.mailbox = some e ∧ r.act? w.mailbox = some (box, r') ∧
      w' = ⟨box, w.ranks.set i r'⟩ := by
  obtain ⟨r, hr, he⟩ := Option.bind_eq_some_iff.1 hevent
  obtain ⟨r₁, hr₁, hr'⟩ := Option.bind_eq_some_iff.1 hact
  obtain rfl : r = r₁ := Option.some.inj (hr.symm.trans hr₁)
  obtain ⟨⟨box, r'⟩, hstep, hw'⟩ := Option.bind_eq_some_iff.1 hr'
  exact ⟨r, r', box, hr, (List.getElem?_eq_some_iff.1 hr).1, he, hstep,
    (Option.some.inj hw').symm⟩

end World

def past (history : List (Nat × Event W)) (i : Nat) : List (Event W) :=
  (history.filter fun entry => entry.1 = i).map Prod.snd

theorem past_append (history : List (Nat × Event W)) (i : Nat) (e : Event W) :
    past (history ++ [(i, e)]) =
      Function.update (past history) i (past history i ++ [e]) := by
  funext j
  by_cases hj : j = i
  · subst hj
    simp [past]
  · rw [Function.update_of_ne hj]
    simp [past, Ne.symm hj]

/-! ## Sound scripts -/

abbrev Scripts (W : Type) := Nat → List (Event W)

namespace Scripts

/-- Each rank has come some way through its script, and took no message that was not sent. -/
structure Possible (scripts before : Scripts W) : Prop where
  isPrefix : ∀ i, before i <+: scripts i
  took_le_sent : ∀ a : Address,
    (tookFrom a (before a.target)).length ≤ (sentInto a (before a.source)).length

/-- An action for which no message is needed, or one whose message is there. -/
def Ready (before : Scripts W) (i : Nat) : Event W → Prop
  | .took peer tag _ =>
      (tookFrom ⟨peer, i, tag⟩ (before i)).length <
        (sentInto ⟨peer, i, tag⟩ (before peer)).length
  | _ => True

/-- Scripts of `n` ranks that fit together. -/
structure Sound (n : Nat) (scripts : Scripts W) : Prop where
  outside : ∀ i, n ≤ i → scripts i = []
  /-- What is sent is what is to be taken. -/
  balanced : ∀ a : Address, sentInto a (scripts a.source) = tookFrom a (scripts a.target)
  /-- A message is only sent after the ones before it in its slot were taken. -/
  spaced : ∀ before, scripts.Possible before → ∀ i peer tag message,
    before i ++ [.sent peer tag message] <+: scripts i →
      (sentInto ⟨i, peer, tag⟩ (before i)).length ≤
        (tookFrom ⟨i, peer, tag⟩ (before peer)).length
  /-- Some rank can always go on. -/
  live : ∀ before, scripts.Possible before → (∃ i < n, before i ≠ scripts i) →
    ∃ i < n, ∃ e, before i ++ [e] <+: scripts i ∧ Ready before i e

/-- Scripts of `n` ranks in which every message that is taken is sent, with no regard to the order
in which a slot is used again. -/
structure Matched (n : Nat) (scripts : Scripts W) : Prop where
  outside : ∀ i, n ≤ i → scripts i = []
  balanced : ∀ a : Address, sentInto a (scripts a.source) = tookFrom a (scripts a.target)
  live : ∀ before, scripts.Possible before → (∃ i < n, before i ≠ scripts i) →
    ∃ i < n, ∃ e, before i ++ [e] <+: scripts i ∧ Ready before i e

theorem Sound.matched {n : Nat} {scripts : Scripts W} (hs : scripts.Sound n) :
    scripts.Matched n where
  outside := hs.outside
  balanced := hs.balanced
  live := hs.live

end Scripts

/-- Each rank has come so far in its script. -/
structure World.Reaches (n : Nat) (scripts : Scripts W) (values : Nat → α) (before : Scripts W)
    (w : World W α) : Prop where
  length_ranks : w.ranks.length = n
  rank : ∀ i < n, ∃ r rest, w.ranks[i]? = some r ∧ r.channel = .linked i ∧
    r.program.Follows i rest (values i) ∧ before i ++ rest = scripts i

namespace World.Reaches

variable {n : Nat} {scripts before : Scripts W} {values : Nat → α} {w : World W α}

theorem done (h : w.Reaches n scripts values before) {i : Nat} (hi : i < n)
    (hend : before i = scripts i) : w.Done i (values i) := by
  obtain ⟨r, rest, hr, _, hfollows, hrest⟩ := h.rank i hi
  obtain rfl : rest = [] := by
    rw [hend] at hrest
    exact List.append_right_eq_self.1 hrest
  refine ⟨r, hr, ?_⟩
  cases hprogram : r.program <;> rw [hprogram] at hfollows <;> cases hfollows
  rfl

theorem launch {programs : Nat → Program W α}
    (h : ∀ i < n, (programs i).Follows i (scripts i) (values i)) :
    (World.launch n programs).Reaches n scripts values fun _ => [] where
  length_ranks := by simp [World.launch]
  rank i hi := ⟨_, scripts i, getElem?_launch programs hi, rfl, h i hi, rfl⟩

theorem set (h : w.Reaches n scripts values before) {i : Nat} {e : Event W} {r : Rank W α}
    {rest : List (Event W)} (hi : i < n) (hchannel : r.channel = .linked i)
    (hfollows : r.program.Follows i rest (values i)) (hrest : before i ++ e :: rest = scripts i)
    (box : Mailbox W) : (⟨box, w.ranks.set i r⟩ : World W α).Reaches n scripts values
      (Function.update before i (before i ++ [e])) where
  length_ranks := by rw [List.length_set, h.length_ranks]
  rank j hj := by
    by_cases hji : j = i
    · subst hji
      refine ⟨r, rest, ?_, hchannel, hfollows, ?_⟩
      · exact List.getElem?_set_self (by rw [h.length_ranks]; exact hj)
      · rw [Function.update_self, List.append_assoc]
        exact hrest
    · rw [Function.update_of_ne hji]
      dsimp only
      rw [List.getElem?_set_ne (Ne.symm hji)]
      exact h.rank j hj

end World.Reaches

/-- Each rank follows its script and has come so far, and what is on its way is what was sent and
not taken. -/
structure World.Along (n : Nat) (scripts : Scripts W) (values : Nat → α) (before : Scripts W)
    (w : World W α) : Prop where
  length_ranks : w.ranks.length = n
  rank : ∀ i < n, ∃ r rest, w.ranks[i]? = some r ∧ r.channel = .linked i ∧
    r.program.Follows i rest (values i) ∧ before i ++ rest = scripts i
  idle : ∀ i, n ≤ i → before i = []
  mail : ∀ a : Address, sentInto a (before a.source) =
    tookFrom a (before a.target) ++ (w.mailbox.get? a).toList

namespace World.Along

variable {n : Nat} {scripts before : Scripts W} {values : Nat → α} {w w' : World W α}

theorem launch {programs : Nat → Program W α}
    (h : ∀ i < n, (programs i).Follows i (scripts i) (values i)) :
    (World.launch n programs).Along n scripts values fun _ => [] where
  length_ranks := (World.Reaches.launch h).length_ranks
  rank := (World.Reaches.launch h).rank
  idle _ _ := rfl
  mail _ := rfl

theorem reaches (h : w.Along n scripts values before) : w.Reaches n scripts values before :=
  ⟨h.length_ranks, h.rank⟩

theorem possible (h : w.Along n scripts values before) : scripts.Possible before where
  isPrefix i := by
    by_cases hi : i < n
    · obtain ⟨_, rest, _, _, _, hrest⟩ := h.rank i hi
      exact ⟨rest, hrest⟩
    · rw [h.idle i (by omega)]
      exact List.nil_prefix
  took_le_sent a := by
    rw [h.mail a, List.length_append]
    omega

theorem get?_of_le (h : w.Along n scripts values before) {i peer : Nat} {tag : Tag}
    (hle : (sentInto ⟨i, peer, tag⟩ (before i)).length ≤
      (tookFrom ⟨i, peer, tag⟩ (before peer)).length) :
    w.mailbox.get? ⟨i, peer, tag⟩ = none := by
  have hmail := congrArg List.length (h.mail ⟨i, peer, tag⟩)
  dsimp only at hmail
  rw [List.length_append] at hmail
  cases hbox : w.mailbox.get? ⟨i, peer, tag⟩ with
  | none => rfl
  | some m =>
      rw [hbox, Option.toList_some, List.length_singleton] at hmail
      omega

theorem get?_of_sent (hs : scripts.Sound n) (h : w.Along n scripts values before) {i peer : Nat}
    {tag : Tag} {message : List W} (hnext : before i ++ [.sent peer tag message] <+: scripts i) :
    w.mailbox.get? ⟨i, peer, tag⟩ = none :=
  h.get?_of_le (hs.spaced before h.possible i peer tag message hnext)

theorem eq_of_get? (hs : scripts.Matched n) (h : w.Along n scripts values before) {i peer : Nat}
    {tag : Tag} {message m : List W} {rest : List (Event W)}
    (hnext : before i ++ .took peer tag message :: rest = scripts i)
    (hbox : w.mailbox.get? ⟨peer, i, tag⟩ = some m) : m = message := by
  have hmail := h.mail ⟨peer, i, tag⟩
  rw [hbox, Option.toList_some] at hmail
  obtain ⟨later, hlater⟩ := h.possible.isPrefix peer
  have hbalanced := hs.balanced ⟨peer, i, tag⟩
  have hsent : sentInto ⟨peer, i, tag⟩ (scripts peer) =
      tookFrom ⟨peer, i, tag⟩ (before i) ++ m :: sentInto ⟨peer, i, tag⟩ later := by
    rw [← hlater, sentInto, List.filterMap_append]
    change sentInto _ (before peer) ++ _ = _
    rw [hmail, List.append_assoc]
    rfl
  have htook : tookFrom ⟨peer, i, tag⟩ (scripts i) =
      tookFrom ⟨peer, i, tag⟩ (before i) ++ message :: tookFrom ⟨peer, i, tag⟩ rest := by
    rw [← hnext, tookFrom, List.filterMap_append]
    simp only [tookFrom, List.filterMap_cons, Event.tookFrom?, and_self, if_true]
  rw [hsent, htook] at hbalanced
  exact (List.cons.inj (List.append_cancel_left hbalanced)).1

end World.Along

theorem sentInto_update (before : Scripts W) (i : Nat) (e : Event W) (a : Address) :
    sentInto a (Function.update before i (before i ++ [e]) a.source) =
      sentInto a (before a.source) ++
        (if a.source = i then (e.sentInto? a).toList else []) := by
  by_cases ha : a.source = i
  · subst ha
    rw [Function.update_self, if_pos rfl, sentInto, List.filterMap_append]
    cases h : e.sentInto? a <;> simp [sentInto, h]
  · rw [Function.update_of_ne ha, if_neg ha, List.append_nil]

theorem tookFrom_update (before : Scripts W) (i : Nat) (e : Event W) (a : Address) :
    tookFrom a (Function.update before i (before i ++ [e]) a.target) =
      tookFrom a (before a.target) ++
        (if a.target = i then (e.tookFrom? a).toList else []) := by
  by_cases ha : a.target = i
  · subst ha
    rw [Function.update_self, if_pos rfl, tookFrom, List.filterMap_append]
    cases h : e.tookFrom? a <;> simp [tookFrom, h]
  · rw [Function.update_of_ne ha, if_neg ha, List.append_nil]

namespace World.Along

variable {n : Nat} {scripts before : Scripts W} {values : Nat → α} {w w' : World W α}

/-- The state of a run after an event of one rank. The mailbox has to change as the event says. -/
private theorem set (h : w.Along n scripts values before) {i : Nat} {e : Event W}
    {r : Rank W α} {rest : List (Event W)} {box : Mailbox W} (hi : i < n)
    (hchannel : r.channel = .linked i) (hfollows : r.program.Follows i rest (values i))
    (hrest : before i ++ e :: rest = scripts i)
    (hbox : ∀ a : Address, (w.mailbox.get? a).toList ++
        (if a.source = i then (e.sentInto? a).toList else []) =
      (if a.target = i then (e.tookFrom? a).toList else []) ++ (box.get? a).toList) :
    (⟨box, w.ranks.set i r⟩ : World W α).Along n scripts values
      (Function.update before i (before i ++ [e])) where
  length_ranks := (h.reaches.set hi hchannel hfollows hrest box).length_ranks
  rank := (h.reaches.set hi hchannel hfollows hrest box).rank
  idle j hj := by
    rw [Function.update_of_ne (by omega)]
    exact h.idle j hj
  mail a := by
    rw [sentInto_update, tookFrom_update, h.mail a, List.append_assoc, List.append_assoc, hbox a]

theorem mail_send {box : Mailbox W} {i peer : Nat} {tag : Tag} (message : List W) (a : Address)
    (hempty : a = ⟨i, peer, tag⟩ → box.get? a = none) :
    (box.get? a).toList ++
        (if a.source = i then ((Event.sent peer tag message).sentInto? a).toList else []) =
      (if a.target = i then ((Event.sent peer tag message).tookFrom? a).toList else []) ++
        ((box.put ⟨i, peer, tag⟩ message).get? a).toList := by
  by_cases ha : a = ⟨i, peer, tag⟩
  · subst ha
    simp [Event.sentInto?, Event.tookFrom?, hempty rfl, Mailbox.get?_put_self]
  · have hother : ¬(a.source = i ∧ peer = a.target ∧ tag = a.tag) := by
      rintro ⟨rfl, rfl, rfl⟩
      exact ha rfl
    rw [Mailbox.get?_put_of_ne _ _ ha]
    simp only [Event.sentInto?, Event.tookFrom?, Option.toList_none]
    by_cases hsource : a.source = i <;> simp_all

theorem mail_take {box : Mailbox W} {i peer : Nat} {tag : Tag} {message : List W}
    (hbox : box.get? ⟨peer, i, tag⟩ = some message) (a : Address) :
    (box.get? a).toList ++
        (if a.source = i then ((Event.took peer tag message).sentInto? a).toList else []) =
      (if a.target = i then ((Event.took peer tag message).tookFrom? a).toList else []) ++
        ((box.erase ⟨peer, i, tag⟩).get? a).toList := by
  by_cases ha : a = ⟨peer, i, tag⟩
  · subst ha
    simp [Event.sentInto?, Event.tookFrom?, hbox, Mailbox.get?_erase_self]
  · have hother : ¬(a.target = i ∧ peer = a.source ∧ tag = a.tag) := by
      rintro ⟨rfl, rfl, rfl⟩
      exact ha rfl
    rw [Mailbox.get?_erase_of_ne _ ha]
    simp only [Event.sentInto?, Event.tookFrom?, Option.toList_none]
    by_cases htarget : a.target = i <;> simp_all

/-- What a rank is about to send is the next event of its script. -/
theorem sent_of_event (h : w.Along n scripts values before) {i peer : Nat} {tag : Tag}
    {message : List W} (hevent : w.event? i = some (.sent peer tag message)) :
    before i ++ [.sent peer tag message] <+: scripts i := by
  obtain ⟨r, hr, he⟩ := Option.bind_eq_some_iff.1 hevent
  have hi : i < n := by
    rw [← h.length_ranks]
    exact (List.getElem?_eq_some_iff.1 hr).1
  obtain ⟨r', rest, hr', _, hfollows, hrest⟩ := h.rank i hi
  obtain rfl : r = r' := Option.some.inj (hr.symm.trans hr')
  obtain ⟨channel, calls, program⟩ := r
  cases hfollows with
  | done => cases he
  | post => cases he
  | send =>
      cases he
      exact ⟨_, by rw [List.append_assoc]; exact hrest⟩
  | take =>
      obtain ⟨_, _, heq⟩ := Option.map_eq_some_iff.1 he
      cases heq

/-- One action of one rank keeps all ranks along their scripts, if it replaces no message. -/
theorem act_of_empty (hs : scripts.Matched n) (h : w.Along n scripts values before) {i : Nat}
    {e : Event W} (hempty : ∀ peer tag message, e = .sent peer tag message →
      w.mailbox.get? ⟨i, peer, tag⟩ = none)
    (hevent : w.event? i = some e) (hact : w.act? i = some w') :
    w'.Along n scripts values (Function.update before i (before i ++ [e])) := by
  obtain ⟨r, r', box, hr, hi, he, hstep, rfl⟩ := exists_rank hevent hact
  rw [h.length_ranks] at hi
  obtain ⟨r₂, rest, hr₂, hchannel, hfollows, hrest⟩ := h.rank i hi
  obtain rfl : r = r₂ := Option.some.inj (hr.symm.trans hr₂)
  clear hevent hact hr₂
  obtain ⟨channel, calls, program⟩ := r
  dsimp only at hchannel
  subst hchannel
  cases hfollows with
  | done => cases he
  | post hnext =>
      cases he
      cases hstep
      exact h.set hi rfl hnext hrest fun a => by simp [Event.sentInto?, Event.tookFrom?]
  | @send peer tag message next rest _ hnext =>
      cases he
      cases hstep
      refine h.set hi rfl hnext hrest fun a => mail_send message a fun ha => ?_
      rw [ha, hempty peer tag message rfl]
  | @take peer tag message next rest _ hnext =>
      obtain ⟨m, hbox, rfl⟩ := Option.map_eq_some_iff.1 he
      obtain ⟨⟨m', box'⟩, htake, hnow⟩ := Option.map_eq_some_iff.1 hstep
      rw [Mailbox.take?, hbox, Option.map_some] at htake
      cases htake
      cases hnow
      obtain rfl : m = message := h.eq_of_get? hs hrest hbox
      exact h.set hi rfl hnext hrest (mail_take hbox)

theorem act (hs : scripts.Sound n) (h : w.Along n scripts values before) {i : Nat} {e : Event W}
    (hevent : w.event? i = some e) (hact : w.act? i = some w') :
    w'.Along n scripts values (Function.update before i (before i ++ [e])) := by
  refine h.act_of_empty hs.matched (fun peer tag message he => ?_) hevent hact
  subst he
  exact h.get?_of_sent hs (h.sent_of_event hevent)

/-- Where no rank can act, every rank has come to the end of its script. -/
theorem end_of_stuck (hs : scripts.Matched n) (h : w.Along n scripts values before) (hw : w.Stuck)
    {i : Nat} (hi : i < n) : before i = scripts i := by
  by_contra hne
  obtain ⟨j, hj, e, ⟨later, hlater⟩, hready⟩ := hs.live before h.possible ⟨i, hi, hne⟩
  obtain ⟨r, rest, hr, hchannel, hfollows, hrest⟩ := h.rank j hj
  rw [← hlater, List.append_assoc] at hrest
  obtain rfl := List.append_cancel_left hrest
  have hevent : r.event? w.mailbox = none := by
    have hnone := w.isSome_event? j
    rw [hw j, World.event?, hr, Option.isSome_none] at hnone
    exact Option.isNone_iff_eq_none.1 (by simpa using hnone)
  obtain ⟨channel, calls, program⟩ := r
  dsimp only [Rank.event?] at hfollows hevent
  cases hfollows with
  | post => cases hevent
  | send => cases hevent
  | @take peer tag message next rest _ hnext =>
      have hbox : w.mailbox.get? ⟨peer, j, tag⟩ = none := Option.map_eq_none_iff.1 hevent
      have hmail := congrArg List.length (h.mail ⟨peer, j, tag⟩)
      rw [hbox, Option.toList_none, List.append_nil] at hmail
      dsimp only [Scripts.Ready] at hmail hready
      omega

theorem eq_scripts (hs : scripts.Sound n) (h : w.Along n scripts values before) (hw : w.Stuck)
    {i : Nat} (hi : i < n) : before i = scripts i :=
  h.end_of_stuck hs.matched hw hi

theorem done (h : w.Along n scripts values before) {i : Nat} (hi : i < n)
    (hend : before i = scripts i) : w.Done i (values i) :=
  h.reaches.done hi hend

theorem eq_of_done (h : w.Along n scripts values before) {i : Nat} (hi : i < n) {a : α}
    (hdone : w.Done i a) : a = values i := by
  obtain ⟨r, hr, hprogram⟩ := hdone
  obtain ⟨r', rest, hr', _, hfollows, _⟩ := h.rank i hi
  obtain rfl : r = r' := Option.some.inj (hr.symm.trans hr')
  rw [hprogram] at hfollows
  cases hfollows
  rfl

theorem eq_scripts_of_done (h : w.Along n scripts values before) {i : Nat} (hi : i < n) {a : α}
    (hdone : w.Done i a) : before i = scripts i := by
  obtain ⟨r, hr, hprogram⟩ := hdone
  obtain ⟨r', rest, hr', _, hfollows, hrest⟩ := h.rank i hi
  obtain rfl : r = r' := Option.some.inj (hr.symm.trans hr')
  rw [hprogram] at hfollows
  cases hfollows
  rw [← hrest, List.append_nil]

theorem empty_of_end (hs : scripts.Matched n) (h : w.Along n scripts values before)
    (hend : ∀ i < n, before i = scripts i) : w.mailbox = .empty := by
  have hall (i : Nat) : before i = scripts i := by
    by_cases hi : i < n
    · exact hend i hi
    · rw [h.idle i (by omega), hs.outside i (by omega)]
  apply Mailbox.eq_empty
  intro a
  have hmail := h.mail a
  rw [hall, hall, hs.balanced a] at hmail
  exact Option.toList_eq_nil_iff.1 (List.append_right_eq_self.1 hmail.symm)

theorem mailbox_eq_empty (hs : scripts.Sound n) (h : w.Along n scripts values before)
    (hend : ∀ i < n, before i = scripts i) : w.mailbox = .empty :=
  h.empty_of_end hs.matched hend

end World.Along

namespace World.Run

variable {n : Nat} {scripts : Scripts W} {values : Nat → α} {programs : Nat → Program W α}
  {history : List (Nat × Event W)} {w : World W α}

theorem along (hs : scripts.Sound n) (hp : ∀ i < n, (programs i).Follows i (scripts i) (values i))
    (run : (launch n programs).Run history w) :
    w.Along n scripts values (past history) := by
  induction run with
  | start => exact .launch hp
  | act _ hevent hact ih =>
      rw [past_append]
      exact ih.act hs hevent hact

theorem get?_of_event (hs : scripts.Sound n)
    (hp : ∀ i < n, (programs i).Follows i (scripts i) (values i))
    (run : (launch n programs).Run history w) {i peer : Nat} {tag : Tag} {message : List W}
    (hevent : w.event? i = some (.sent peer tag message)) :
    w.mailbox.get? ⟨i, peer, tag⟩ = none := by
  have halong := run.along hs hp
  exact halong.get?_of_sent hs (halong.sent_of_event hevent)

end World.Run

/-- Whatever order the ranks act in, a rank that is done has a good value, and when no rank can act
all of them are done and no message is left. -/
structure World.Ends (start : World W α) (n : Nat) (good : Nat → α → Prop) : Prop where
  good_of_done : ∀ {history w}, start.Run history w → ∀ i < n, ∀ a, w.Done i a → good i a
  done_of_stuck : ∀ {history w}, start.Run history w → w.Stuck →
    (∀ i < n, ∃ a, w.Done i a) ∧ w.mailbox = .empty

theorem World.Ends.mono {start : World W α} {n : Nat} {good good' : Nat → α → Prop}
    (h : start.Ends n good) (himp : ∀ i < n, ∀ a, good i a → good' i a) : start.Ends n good' where
  good_of_done run i hi a hdone := himp i hi a (h.good_of_done run i hi a hdone)
  done_of_stuck := h.done_of_stuck

theorem World.ends_of_follows {n : Nat} {scripts : Scripts W} {values : Nat → α}
    {programs : Nat → Program W α} (hs : scripts.Sound n)
    (hp : ∀ i < n, (programs i).Follows i (scripts i) (values i)) :
    (World.launch n programs).Ends n fun i a => a = values i where
  good_of_done run i hi a hdone := (run.along hs hp).eq_of_done hi hdone
  done_of_stuck {history w} run hstuck := by
    have h := run.along hs hp
    have hend (i : Nat) (hi : i < n) : past history i = scripts i := h.eq_scripts hs hstuck hi
    exact ⟨fun i hi => ⟨values i, h.done hi (hend i hi)⟩, h.mailbox_eq_empty hs hend⟩

end KineticGrid
