import KineticGrid.Matter.Cell
import KineticGrid.Matter.Particles
import KineticGrid.Matter.Totals
import KineticGrid.Space.Box
import KineticGrid.Sweep.Executor
import KineticGrid.Sweep.Groups
/-!
# Staging

Averages do not add up, momenta do. Staging turns the averaged cells of a box back into totals, and
marks the cells whose temperature is a measurement.
-/

namespace KineticGrid

variable {S A : Type} [Arith A] [Storage S A]

def Totals.ofCell (v : Motion S) (e : Heat S) : Totals A where
  momentum := v.velocity.map fun u => Storage.widen v.mass * Storage.widen u
  energy := Storage.widen e.energy
  temperature := if e.hasTemperature then Storage.widen e.temperature else 0
  valid := if e.hasTemperature then 1 else 0

namespace Cells

def totalsAt (b : Build) (grid : Grid) (box : Box) (cells : Cells S) (slot : Nat) :
    Checked (Totals A) := do
  let c ← grid.slot b (← box.coords b slot)
  return Totals.ofCell (← Particles.entry cells.motion c) (← Particles.entry cells.heat c)

def stageInto (m : Mode) (e : Executor) (requested : Nat) (grid : Grid) (box : Box)
    (cells : Cells S) (n : Nat) : Outcome (List (Totals A)) := do
  Fallible.requireLength .velocityArray (← grid.size m.build) cells.motion.size
  Fallible.requireLength .energyArray (← grid.size m.build) cells.heat.size
  Fallible.requireLength .stagingBuffer (← box.size m.build) n
  box.requireInside grid
  let block ← e.block m .stage requested
  Executor.run m .stage (Groups.fill block (cells.totalsAt m.build grid box) n)

def stagedBytes : Nat := 48

def stage (m : Mode) (e : Executor) (requested : Nat) (grid : Grid) (box : Box)
    (cells : Cells S) : Outcome (List (Totals A)) := do
  let n ← box.size m.build
  reserve (n * stagedBytes)
  cells.stageInto m e requested grid box n

end Cells

end KineticGrid
