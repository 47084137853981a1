import KineticGrid.Domain.Settings
import KineticGrid.Domain.Summary
import KineticGrid.Ghost.Exchange
import KineticGrid.Message.AllSum
import KineticGrid.Sweep.Accumulate
import KineticGrid.Sweep.Average
import KineticGrid.Sweep.Reduction
import KineticGrid.Sweep.Staging
/-!
# Domains

The part of the grid that one rank computes. A time step accumulates the particles of every cell,
folds the sums of ghost cells into the cells they stand for, averages, and refreshes the ghost
cells from the cells they stand for. Staging and reducing count the owned cells only.
-/

namespace KineticGrid

/-- The cells of one rank and how they are computed. -/
structure Domain (S : Type) where
  settings : Settings
  executor : Executor
  topology : Topology
  cells : Cells S

namespace Domain

variable {S A W : Type} [Arith A] [Storage S A] [Letter W]

def make (m : Mode) (topology : Topology) (settings : Settings) : Outcome (Domain S) := do
  settings.validate
  let cells ← Cells.allocate m (← topology.size m.build)
  return ⟨settings, settings.executor, topology, cells⟩

def withExecutor (d : Domain S) (e : Executor) : Domain S := { d with executor := e }

def accumulate (m : Mode) (p : Particles S) (bins : Bins) (d : Domain S) :
    Outcome (Domain S) := do
  let cells ← d.cells.accumulate m d.executor (d.settings.block .accumulate) p bins
  return { d with cells := cells }

def average (m : Mode) (d : Domain S) : Outcome (Domain S) := do
  let cells ← d.cells.average m d.executor (d.settings.block .finalize) d.settings.dimension
  return { d with cells := cells }

/-- The averages over the particles of every cell, without exchange. -/
def compute (m : Mode) (p : Particles S) (bins : Bins) : Step W (Domain S) :=
  .sequence [.ofOutcome (accumulate m p bins), .ofOutcome (average m)]

def exchangeMotion [Encoding W S] (m : Mode) (flow : Flow) (a : Axis) (neighbours : Neighbours)
    (tag : Tag) : Step W (Domain S) :=
  .ofTask fun d => do
    let motion ← exchangeAxis m d.executor (d.settings.block .pack) (.motion flow.rule) flow
      d.topology a neighbours tag d.cells.motion
    return { d with cells := { d.cells with motion := motion } }

def exchangeHeat [Encoding W S] (m : Mode) (flow : Flow) (a : Axis) (neighbours : Neighbours)
    (tag : Tag) : Step W (Domain S) :=
  .ofTask fun d => do
    let heat ← exchangeAxis m d.executor (d.settings.block .pack) (.heat m.build flow.rule) flow
      d.topology a neighbours tag d.cells.heat
    return { d with cells := { d.cells with heat := heat } }

/-- The number of tags that an exchange along all axes takes: two per quantity and axis. -/
def exchangeTags : UInt16 := 12

/-- Exchanges all cells, one axis after the other. Each slab spans the ghost cells of the other
axes, so that edges and corners are carried around by the later axes. -/
def exchangeAll [Encoding W S] (m : Mode) (flow : Flow) (neighbours : Vec3 Neighbours)
    (tag : Tag) : Step W (Domain S) :=
  .sequence <| Axis.all.flatMap fun a =>
    let base := tag.offset (4 * .ofNat a.index)
    [exchangeMotion m flow a (neighbours.get a) base,
      exchangeHeat m flow a (neighbours.get a) (base.offset 2)]

/-- The averages over the particles of every cell, those of other ranks included. -/
def computeDistributed [Encoding W S] (m : Mode) (p : Particles S) (bins : Bins)
    (neighbours : Vec3 Neighbours) (tag : Tag) : Step W (Domain S) :=
  .sequence [
    .ofOutcome (accumulate m p bins),
    exchangeAll m .fold neighbours tag,
    .ofOutcome (average m),
    exchangeAll m .refresh neighbours (tag.offset exchangeTags)]

def stage (m : Mode) (d : Domain S) : Outcome (List (Totals A)) := do
  let owned ← d.topology.owned m.build
  d.cells.stage m d.executor (d.settings.block .stage) d.topology.grid owned

def totals (W : Type) [Letter W] [Encoding W A] (m : Mode) (d : Domain S) :
    Outcome (Totals A) := do
  Reduction.total W m d.executor (d.settings.block .reduce) (← d.stage m)

def summary (W : Type) [Letter W] [Encoding W A] (m : Mode) (d : Domain S) :
    Outcome (Summary A) := do
  return (← d.totals W m).summary

def summaryAcross [Encoding W A] (m : Mode) (rank ranks : Nat) (tag : Tag) (d : Domain S) :
    Task W (Summary A) := do
  let own ← d.totals W m
  return (← allSum m rank ranks tag own).summary

end Domain

end KineticGrid
