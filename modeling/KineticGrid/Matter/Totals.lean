import KineticGrid.Arith.Field
import KineticGrid.Arith.Word
/-!
# Totals

Quantities that add up over cells and over ranks.
-/

namespace KineticGrid

/-- The momentum and the kinetic energy of some cells, the sum of their temperatures, and the
number of cells that have one. -/
structure Totals (A : Type) where
  momentum : Vec3 A
  energy : A
  temperature : A
  valid : UInt64
deriving DecidableEq, Repr

namespace Totals

variable {A : Type} [Arith A]

def zero : Totals A := ⟨.fill 0, 0, 0, 0⟩

def add (b : Build) (t u : Totals A) : Checked (Totals A) := do
  return {
    momentum := t.momentum.zipWith (· + ·) u.momentum
    energy := t.energy + u.energy
    temperature := t.temperature + u.temperature
    valid := ← b.add64 t.valid u.valid }

def sum (b : Build) (items : List (Totals A)) : Checked (Totals A) :=
  items.foldlM (add b) zero

end Totals

end KineticGrid
