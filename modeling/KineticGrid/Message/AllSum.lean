import KineticGrid.Message.Encoding
import KineticGrid.Message.Program
/-!
# Sums over all ranks

Every rank sends its totals to every other one and adds all of them up in the order of the ranks,
so that all ranks arrive at the same bits.
-/

namespace KineticGrid

variable {W A : Type} [Letter W] [Arith A] [Encoding W A]

def peers (rank ranks : Nat) : List Nat := (List.range ranks).filter (· ≠ rank)

def takeTotals (m : Mode) (peer : Nat) (receive : Receive W) : Task W (Totals A) := do
  let letters ← Task.take receive (.link peer .noTotals)
  let received ← Encoding.decodeAll m.build peer letters 1
  return received.headD .zero

/-- The sum of the totals of all ranks, from zero and in rank order. -/
def allSum (m : Mode) (rank ranks : Nat) (tag : Tag) (own : Totals A) : Task W (Totals A) := do
  if ranks ≤ rank then
    Outcome.reject (.link rank (.outsideWorld rank ranks))
  let pending ← (peers rank ranks).mapM fun peer => do
    return (peer, ← Task.post peer tag (Encoding.width W (Totals A)))
  (peers rank ranks).forM fun peer => Task.send peer tag (Encoding.encode own)
  let received ← pending.mapM fun (peer, receive) => takeTotals m peer receive
  Outcome.write m .debug s!"rank {rank}: combined thermo contributions of {ranks} ranks"
  Totals.sum m.build (received.take rank ++ own :: received.drop rank)

end KineticGrid
