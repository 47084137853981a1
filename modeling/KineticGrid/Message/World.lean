import KineticGrid.Message.Mailbox
/-!
# Worlds of ranks

Ranks that run side by side and meet only in the mailbox. One action of one rank is `Rank.act?`, and
any order of such actions is a run of the world. `World.run` is one of them: the first rank that can
act does; when none can, the first rank that waits gives up waiting. It ends because every action
moves one rank on to a smaller program.
-/

namespace KineticGrid

inductive Channel (W : Type) where
  /-- Nothing is sent and nothing arrives. -/
  | silent
  /-- Nothing is sent, and what arrives is given in advance, with peer and tag. -/
  | scripted (inbox : List (Nat × Tag × List W))
  /-- Messages go through the mailbox under the number of the rank. -/
  | linked (rank : Nat)
deriving Repr

inductive Call (W : Type) where
  | sent (peer : Nat) (tag : Tag) (message : List W)
  | posted (peer : Nat) (tag : Tag) (length : Nat)
deriving Repr

namespace Channel

variable {W : Type}

/-- The receive that an announcement leads to, and the channel after it. A scripted channel gives
the first message of that peer and tag away. -/
def post (channel : Channel W) (peer : Nat) (tag : Tag) : Receive W × Channel W :=
  match channel with
  | .silent => (.settled none, .silent)
  | .linked rank => (.pending ⟨peer, rank, tag⟩, .linked rank)
  | .scripted inbox =>
    let fits (entry : Nat × Tag × List W) : Bool := entry.1 = peer ∧ entry.2.1 = tag
    (.settled ((inbox.find? fits).map fun entry => entry.2.2), .scripted (inbox.eraseP fits))

def send (channel : Channel W) (box : Mailbox W) (peer : Nat) (tag : Tag) (message : List W) :
    Mailbox W :=
  match channel with
  | .linked rank => box.put ⟨rank, peer, tag⟩ message
  | _ => box

end Channel

/-- A rank on its way through its program. -/
structure Rank (W α : Type) where
  channel : Channel W
  calls : List (Call W)
  program : Program W α

namespace Rank

variable {W α : Type}

def start (channel : Channel W) (program : Program W α) : Rank W α := ⟨channel, [], program⟩

/-- The next action of a rank, unless it is done or its message is still missing. -/
def act? (box : Mailbox W) (r : Rank W α) : Option (Mailbox W × Rank W α) :=
  match r.program with
  | .done _ => none
  | .post peer tag length next =>
    let (receive, channel) := r.channel.post peer tag
    some (box, ⟨channel, r.calls ++ [.posted peer tag length], next receive⟩)
  | .send peer tag message next =>
    some (r.channel.send box peer tag message,
      { r with calls := r.calls ++ [.sent peer tag message], program := next })
  | .take (.settled message) next => some (box, { r with program := next message })
  | .take (.pending address) next =>
    (box.take? address).map fun (message, box) => (box, { r with program := next (some message) })

def expire? (r : Rank W α) : Option (Rank W α) :=
  match r.program with
  | .take _ next => some { r with program := next none }
  | _ => none

end Rank

/-- The ranks that run together, and the messages between them. -/
structure World (W α : Type) where
  mailbox : Mailbox W
  ranks : List (Rank W α)

namespace World

variable {W α : Type}

def act? (w : World W α) (i : Nat) : Option (World W α) := do
  let r ← w.ranks[i]?
  let (box, r) ← r.act? w.mailbox
  return ⟨box, w.ranks.set i r⟩

def actFirst? (box : Mailbox W) : List (Rank W α) → Option (Mailbox W × List (Rank W α))
  | [] => none
  | r :: rest =>
    match r.act? box with
    | some (box, r) => some (box, r :: rest)
    | none => (actFirst? box rest).map fun (box, rest) => (box, r :: rest)

def expireFirst? : List (Rank W α) → Option (List (Rank W α))
  | [] => none
  | r :: rest =>
    match r.expire? with
    | some r => some (r :: rest)
    | none => (expireFirst? rest).map (r :: ·)

end World

/-! ## Every run ends -/

/-- One program is what is left of another after one action. -/
inductive Program.After {W α : Type} : Program W α → Program W α → Prop
  | post (peer tag length) (next : Receive W → Program W α) (r : Receive W) :
    After (next r) (.post peer tag length next)
  | send (peer tag message) (next : Program W α) : After next (.send peer tag message next)
  | take (r : Receive W) (next : Option (List W) → Program W α) (message) :
    After (next message) (.take r next)

theorem Program.acc_after {W α : Type} (p : Program W α) : Acc Program.After p := by
  induction p with
  | done a => exact ⟨_, fun _ h => by cases h⟩
  | post _ _ _ _ ih => exact ⟨_, fun _ h => by cases h; exact ih _⟩
  | send _ _ _ _ ih => exact ⟨_, fun _ h => by cases h; exact ih⟩
  | take _ _ ih => exact ⟨_, fun _ h => by cases h; exact ih _⟩

/-- One list is another with one item made smaller. -/
inductive Smaller {α : Type} (r : α → α → Prop) : List α → List α → Prop
  | head {a b : α} (rest : List α) (h : r a b) : Smaller r (a :: rest) (b :: rest)
  | tail (a : α) {s t : List α} (h : Smaller r s t) : Smaller r (a :: s) (a :: t)

theorem Smaller.acc {α : Type} {r : α → α → Prop} (h : ∀ a, Acc r a) (items : List α) :
    Acc (Smaller r) items := by
  induction items with
  | nil => exact ⟨_, fun _ h => by cases h⟩
  | cons a rest ih =>
    have ha := h a
    induction ha generalizing rest with
    | intro a _ iha =>
      induction ih with
      | intro rest hrest ihrest =>
        refine ⟨_, fun _ hs => ?_⟩
        cases hs with
        | head _ hb => exact iha _ hb rest ⟨_, hrest⟩
        | tail _ hs => exact ihrest _ hs

instance Program.wellFounded (W α : Type) : WellFoundedRelation (List (Program W α)) where
  rel := Smaller Program.After
  wf := ⟨Smaller.acc Program.acc_after⟩

namespace World

variable {W α : Type}

theorem after_of_act? {box box' : Mailbox W} {r r' : Rank W α}
    (h : r.act? box = some (box', r')) : Program.After r'.program r.program := by
  unfold Rank.act? at h
  split at h
  · cases h
  · cases h
    simp_all only
    constructor
  · cases h
    simp_all only
    constructor
  · cases h
    simp_all only
    constructor
  · obtain ⟨_, _, h⟩ := Option.map_eq_some_iff.1 h
    cases h
    simp_all only
    constructor

theorem after_of_expire? {r r' : Rank W α} (h : r.expire? = some r') :
    Program.After r'.program r.program := by
  unfold Rank.expire? at h
  split at h
  · cases h
    simp_all only
    constructor
  · cases h

theorem smaller_of_actFirst? {box box' : Mailbox W} {ranks ranks' : List (Rank W α)}
    (h : actFirst? box ranks = some (box', ranks')) :
    Smaller Program.After (ranks'.map Rank.program) (ranks.map Rank.program) := by
  induction ranks generalizing ranks' with
  | nil => cases h
  | cons r rest ih =>
    unfold actFirst? at h
    split at h
    next hr =>
      cases h
      exact .head _ (after_of_act? hr)
    next =>
      obtain ⟨_, hrest, h⟩ := Option.map_eq_some_iff.1 h
      cases h
      exact .tail _ (ih hrest)

theorem smaller_of_expireFirst? {ranks ranks' : List (Rank W α)}
    (h : expireFirst? ranks = some ranks') :
    Smaller Program.After (ranks'.map Rank.program) (ranks.map Rank.program) := by
  induction ranks generalizing ranks' with
  | nil => cases h
  | cons r rest ih =>
    unfold expireFirst? at h
    split at h
    next hr =>
      cases h
      exact .head _ (after_of_expire? hr)
    next =>
      obtain ⟨_, hrest, h⟩ := Option.map_eq_some_iff.1 h
      cases h
      exact .tail _ (ih hrest)

/-- Lets ranks act until all of them are done. -/
def finish (box : Mailbox W) (ranks : List (Rank W α)) : World W α :=
  match _hact : actFirst? box ranks with
  | some (box, ranks) => finish box ranks
  | none =>
    match _hexpire : expireFirst? ranks with
    | some ranks => finish box ranks
    | none => ⟨box, ranks⟩
termination_by ranks.map Rank.program
decreasing_by
  · exact smaller_of_actFirst? ‹_›
  · exact smaller_of_expireFirst? ‹_›

def run (w : World W α) : World W α := finish w.mailbox w.ranks

end World

end KineticGrid
