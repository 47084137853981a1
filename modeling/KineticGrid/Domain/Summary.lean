import KineticGrid.Matter.Totals
/-!
# Summaries

The totals of a whole run, and the averages that follow from them.
-/

namespace KineticGrid

structure Summary (A : Type) where
  momentum : Vec3 A
  kineticEnergy : A
  temperatureSum : A
  validCells : UInt64
deriving DecidableEq, Repr

variable {A : Type}

def Totals.summary (t : Totals A) : Summary A where
  momentum := t.momentum
  kineticEnergy := t.energy
  temperatureSum := t.temperature
  validCells := t.valid

namespace Summary

variable [Arith A]

def meanTemperature? (s : Summary A) : Option A :=
  if 0 < s.validCells then some (s.temperatureSum / Arith.ofCount s.validCells.toNat) else none

/-- The momentum per mass, for a positive mass. -/
def netVelocity? (s : Summary A) (mass : A) : Option (Vec3 A) :=
  if Arith.isPositive mass then some (s.momentum.map (· / mass)) else none

end Summary

end KineticGrid
