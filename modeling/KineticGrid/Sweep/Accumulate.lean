import KineticGrid.Matter.Bins
import KineticGrid.Matter.Cell
import KineticGrid.Sweep.Executor
import KineticGrid.Sweep.Groups
/-!
# Accumulation

The sums of momentum, mass and kinetic energy over the particles of each cell. They are carried in
the working arithmetic and narrowed once per cell.
-/

namespace KineticGrid

variable {S A : Type} [Arith A] [Storage S A]

structure CellSums (A : Type) where
  momentum : Vec3 A
  mass : A
  kinetic : A

namespace CellSums

def zero : CellSums A := ⟨.fill 0, 0, 0⟩

def insert (s : CellSums A) (velocity : Vec3 A) (mass : A) : CellSums A where
  momentum := s.momentum.zipWith (fun p v => p + mass * v) velocity
  mass := s.mass + mass
  kinetic := s.kinetic + Arith.half * mass * velocity.normSq

def ofParticles (p : Particles S) (particles : Array Particle) : Checked (CellSums A) :=
  particles.toList.foldlM (fun sums q => do
    let (velocity, mass) ← p.kinematics q
    return sums.insert velocity.widen (Storage.widen mass)) zero

def cell (s : CellSums A) (count : UInt32) : Motion S × Heat S :=
  (⟨s.momentum.narrow, Storage.narrow s.mass⟩, ⟨Storage.narrow s.kinetic, 0, count⟩)

end CellSums

def Bins.sumCell (bins : Bins) (p : Particles S) (c : Nat) : Checked (Motion S × Heat S) := do
  let sums ← CellSums.ofParticles p (← bins.cell c)
  return sums.cell (← bins.count c)

def Cells.accumulate (m : Mode) (e : Executor) (requested : Nat) (p : Particles S) (bins : Bins)
    (cells : Cells S) : Outcome (Cells S) := do
  bins.requireMatch p
  Fallible.requireLength .velocityArray bins.size cells.motion.size
  Fallible.requireLength .energyArray bins.size cells.heat.size
  let block ← e.block m .accumulate requested
  let sums ← Executor.run m .accumulate (Groups.fill block (bins.sumCell p) bins.size)
  return ⟨(sums.map Prod.fst).toArray, (sums.map Prod.snd).toArray⟩

end KineticGrid
