import KineticGrid.Message.Program
/-!
# Mailboxes

Messages on their way between ranks. There is one slot per source, target and tag, and a message
replaces an earlier one that was not taken. Main statements: what is found after a message is put
into a slot or taken out of it.
-/

namespace KineticGrid

/-- The messages that were sent and not taken. -/
structure Mailbox (W : Type) where
  slots : List (Address × List W)

namespace Mailbox

variable {W : Type}

def empty : Mailbox W := ⟨[]⟩

def get? (box : Mailbox W) (a : Address) : Option (List W) :=
  (box.slots.find? fun slot => slot.1 = a).map Prod.snd

def erase (box : Mailbox W) (a : Address) : Mailbox W :=
  ⟨box.slots.filter fun slot => slot.1 ≠ a⟩

def put (box : Mailbox W) (a : Address) (message : List W) : Mailbox W :=
  ⟨(a, message) :: (box.erase a).slots⟩

def take? (box : Mailbox W) (a : Address) : Option (List W × Mailbox W) :=
  (box.get? a).map fun message => (message, box.erase a)

theorem get?_erase_self (box : Mailbox W) (a : Address) : (box.erase a).get? a = none := by
  simp [get?, erase]

theorem get?_erase_of_ne (box : Mailbox W) {a b : Address} (h : b ≠ a) :
    (box.erase a).get? b = box.get? b := by
  have key (slot : Address × List W) : (slot.1 ≠ a ∧ slot.1 = b) ↔ slot.1 = b :=
    ⟨And.right, fun hb => ⟨hb ▸ h, hb⟩⟩
  simp only [get?, erase, List.find?_filter, decide_eq_true_eq, key]

theorem get?_put_self (box : Mailbox W) (a : Address) (message : List W) :
    (box.put a message).get? a = some message := by
  simp [get?, put]

theorem get?_put_of_ne (box : Mailbox W) {a b : Address} (message : List W) (h : b ≠ a) :
    (box.put a message).get? b = box.get? b := by
  rw [← get?_erase_of_ne box h]
  simp [get?, put, Ne.symm h]

end Mailbox

end KineticGrid
