import KineticGrid.Message.Encoding
/-!
# Transfers

How the value of one cell travels to a neighbour: what of it is packed, and how the packed part is
merged into the neighbour's cell.
-/

namespace KineticGrid

/-- What of a cell travels, and how it is merged into another cell. -/
structure Transfer (V E : Type) where
  pack : V → E
  merge : V → E → Checked V

/-- How a received number combines with the local one. -/
inductive Rule where
  /-- The received number replaces the local one. -/
  | overwrite
  /-- The received number is added to the local one. -/
  | add
deriving DecidableEq, Repr

namespace Rule

def merge {S : Type} [Add S] : Rule → S → S → S
  | .overwrite, _, incoming => incoming
  | .add, here, incoming => here + incoming

def mergeCount (b : Build) : Rule → UInt32 → UInt32 → Checked UInt32
  | .overwrite, _, incoming => .ok incoming
  | .add, here, incoming => b.add32 here incoming

end Rule

/-- A packed energy: the count travels as a bit pattern in a third number. -/
structure HeatRecord (S : Type) where
  energy : S
  temperature : S
  count : S
deriving DecidableEq, Repr

instance {W S : Type} [Encoding W S] : Encoding W (HeatRecord S) where
  width := 3 * Encoding.width W S
  encode e := Encoding.encode e.energy ++ Encoding.encode e.temperature ++ Encoding.encode e.count
  decode letters := ⟨Encoding.field letters 0, Encoding.field letters 1, Encoding.field letters 2⟩

namespace Transfer

variable {V S A : Type}

def copy : Transfer V V where
  pack v := v
  merge _ incoming := .ok incoming

def sum (add : V → V → Checked V) : Transfer V V where
  pack v := v
  merge := add

def number [Add S] (rule : Rule) : Transfer S S where
  pack v := v
  merge here incoming := .ok (rule.merge here incoming)

def motion [Storage S A] (rule : Rule) : Transfer (Motion S) (Motion S) where
  pack v := v
  merge here incoming :=
    .ok ⟨here.velocity.zipWith rule.merge incoming.velocity, rule.merge here.mass incoming.mass⟩

def heat [Storage S A] (b : Build) (rule : Rule) : Transfer (Heat S) (HeatRecord S) where
  pack e := ⟨e.energy, e.temperature, Storage.packCount e.count⟩
  merge here incoming := do
    return {
      energy := rule.merge here.energy incoming.energy
      temperature := rule.merge here.temperature incoming.temperature
      count := ← rule.mergeCount b here.count (Storage.unpackCount incoming.count) }

end Transfer

end KineticGrid
