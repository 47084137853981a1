import KineticGrid.Matter.Cell
import KineticGrid.Space.Dimension
import KineticGrid.Sweep.Executor
import KineticGrid.Sweep.Groups
/-!
# Averages

From raw sums to averages: the velocity of a cell is its momentum per mass, and its temperature the
kinetic energy that is left after the bulk motion is taken out, per degree of freedom. A cell
without mass has velocity zero, and one with fewer than two particles has temperature zero.
-/

namespace KineticGrid

variable {S A : Type} [Arith A] [Storage S A]

def meanVelocity (momentum : Vec3 A) (mass : A) : Vec3 A :=
  if Arith.isPositive mass then momentum.map (· / mass) else .fill 0

/-- The temperature of a cell with a given kinetic energy, mass, velocity and number of
particles. -/
def temperature (d : Dimension) (kinetic mass : A) (velocity : Vec3 A) (count : UInt32) : A :=
  if 1 < count then
    let bulk := Arith.half * mass * velocity.normSq
    Arith.two * (kinetic - bulk) / (d.freedom * Arith.ofCount (count - 1).toNat)
  else
    0

def averageCell (d : Dimension) (v : Motion S) (e : Heat S) : Motion S × Heat S :=
  let mass : A := Storage.widen v.mass
  let velocity := meanVelocity v.velocity.widen mass
  let t := temperature d (Storage.widen e.energy) mass velocity e.count
  ({ v with velocity := velocity.narrow }, { e with temperature := Storage.narrow t })

def Cells.average (m : Mode) (e : Executor) (requested : Nat) (d : Dimension)
    (cells : Cells S) : Outcome (Cells S) := do
  Fallible.requireLength .energyArray cells.motion.size cells.heat.size
  let block ← e.block m .finalize requested
  let averages ← Executor.run m .finalize
    (return Groups.zipWith block (averageCell d) cells.motion.toList cells.heat.toList)
  return ⟨(averages.map Prod.fst).toArray, (averages.map Prod.snd).toArray⟩

end KineticGrid
