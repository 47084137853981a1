import KineticGrid.Arith.Field
import KineticGrid.Report.Outcome
/-!
# Cells

What is known about one cell. Between accumulation and averaging the velocity is a momentum and the
energy a sum; afterwards they are averages, and the cell has a temperature.
-/

namespace KineticGrid

structure Motion (S : Type) where
  velocity : Vec3 S
  mass : S
deriving DecidableEq, Repr

structure Heat (S : Type) where
  energy : S
  temperature : S
  count : UInt32
deriving DecidableEq, Repr

variable {S A : Type} [Arith A] [Storage S A]

def Motion.zero : Motion S := ⟨.fill 0, 0⟩

def Heat.zero : Heat S := ⟨0, 0, 0⟩

/-- Only a cell with mass has a velocity. -/
def Motion.hasVelocity (v : Motion S) : Bool := Storage.isPositive v.mass

omit [Arith A] [Storage S A] in
/-- Only a cell with two particles has a temperature. -/
def Heat.hasTemperature (e : Heat S) : Bool := 1 < e.count

structure Cells (S : Type) where
  motion : Array (Motion S)
  heat : Array (Heat S)
deriving DecidableEq, Repr

namespace Cells

def requireSpace (what : Quantity) (bytes : Nat) : Fallible Unit :=
  if bytes ≤ maxArrayBytes then .ok ()
  else Fallible.reject (.allocation what (min bytes (wordSize - 1)))

def allocate (m : Mode) (n : Nat) : Outcome (Cells S) := do
  requireSpace .velocityArray (n * (4 * Storage.bytes S))
  requireSpace .energyArray (n * (3 * Storage.bytes S))
  Outcome.write m .debug s!"allocated thermo arrays for {n} cells"
  return ⟨Array.replicate n .zero, Array.replicate n .zero⟩

end Cells

end KineticGrid
