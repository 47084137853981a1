import KineticGrid.Ghost.Exchange
import KineticGrid.Proofs.Message.Dialogue
import KineticGrid.Proofs.Report.Success
import Mathlib.Algebra.Ring.Nat
/-!
# Numbers of cells

An exchange cuts an array into pieces and puts it together again. Main statement: whatever the
slabs, the buffers and the answers of the channel are, an exchange that succeeds ends with as many
cells as it started with.
-/

namespace KineticGrid

variable {W V E : Type}

namespace Piece

def length (p : Piece V E) : Nat := p.skipped.length + p.row.length

/-- What is cut out and what is left over are all the cells, and each row is as long as what is
merged into it. -/
theorem length_carve {overlap : Error} {consumed : Nat} {cells : List V}
    {rows : List (Nat × List E)} {pieces : List (Piece V E)} {rest : List V}
    (h : carve overlap consumed cells rows = .ok (pieces, rest)) :
    (pieces.map length).sum + rest.length = cells.length ∧
      ∀ p ∈ pieces, p.row.length = p.incoming.length := by
  induction rows generalizing consumed cells pieces with
  | nil =>
      cases h
      simp
  | cons first rows ih =>
      obtain ⟨start, incoming⟩ := first
      rw [carve] at h
      simp only [List.splitAt_eq] at h
      split at h
      · cases h
      · split at h
        next hlengths =>
          obtain ⟨⟨others, tail⟩, hcarve, h⟩ := exists_of_bind_eq_ok h
          cases h
          obtain ⟨hsum, hothers⟩ := ih hcarve
          constructor
          · simp only [List.map_cons, List.sum_cons, length, List.length_take,
              List.length_drop] at hsum ⊢
            omega
          · intro p hp
            rcases List.mem_cons.1 hp with rfl | hp
            · exact hlengths.2
            · exact hothers p hp
        next => cases h

theorem length_merge {op : Transfer V E} {p : Piece V E} {merged : List V}
    (hrow : p.row.length = p.incoming.length) (h : p.merge op = .ok merged) :
    merged.length = p.length := by
  obtain ⟨row, hmap, h⟩ := exists_of_bind_eq_ok h
  cases h
  have hlength := length_mapM_ok hmap
  rw [List.length_zip, hrow, Nat.min_self] at hlength
  rw [List.length_append, hlength, length, hrow]

theorem length_flatten_merged {op : Transfer V E} {pieces : List (Piece V E)}
    {merged : List (List V)} (hrows : ∀ p ∈ pieces, p.row.length = p.incoming.length)
    (h : pieces.mapM (merge op) = .ok merged) :
    merged.flatten.length = (pieces.map length).sum := by
  induction pieces generalizing merged with
  | nil =>
      cases h
      rfl
  | cons p pieces ih =>
      rw [List.mapM_cons] at h
      obtain ⟨first, hfirst, h⟩ := exists_of_bind_eq_ok h
      obtain ⟨others, hothers, h⟩ := exists_of_bind_eq_ok h
      cases h
      have hp := length_merge (hrows p List.mem_cons_self) hfirst
      have hrest := ih (fun q hq => hrows q (List.mem_cons_of_mem p hq)) hothers
      rw [List.flatten_cons, List.length_append, hp, hrest, List.map_cons, List.sum_cons]

end Piece

/-- Merging keeps the number of cells, whether its buffers fit its slabs or not. -/
theorem Slabs.size_unpack {m : Mode} {e : Executor} {requested : Nat} {op : Transfer V E}
    {cells cells' : Array V} {s : Slabs} {left right : List E}
    (h : (s.unpack m e requested op cells left right).result = .ok cells') :
    cells'.size = cells.size := by
  simp only [unpack, Outcome.result_bind] at h
  -- the checks of the slabs, the buffers and the size of a group, and the rows of both slabs
  obtain ⟨_, _, h⟩ := exists_of_bind_eq_ok h
  obtain ⟨_, _, h⟩ := exists_of_bind_eq_ok h
  obtain ⟨_, _, h⟩ := exists_of_bind_eq_ok h
  obtain ⟨_, _, h⟩ := exists_of_bind_eq_ok h
  obtain ⟨_, _, h⟩ := exists_of_bind_eq_ok h
  obtain ⟨_, _, h⟩ := exists_of_bind_eq_ok h
  split at h
  · cases h
    rfl
  · rw [Outcome.result_bind] at h
    obtain ⟨⟨pieces, rest⟩, hcarve, h⟩ := exists_of_bind_eq_ok h
    rw [Outcome.result_lift] at hcarve
    rw [Outcome.result_bind, Executor.result_run] at h
    obtain ⟨hlength, hrows⟩ := Piece.length_carve hcarve
    cases hmerge : pieces.mapM (Piece.merge op) with
    | error f =>
        rw [hmerge] at h
        cases h
    | ok merged =>
        rw [hmerge] at h
        cases h
        have hmerged := Piece.length_flatten_merged hrows hmerge
        rw [List.size_toArray, List.length_append, hmerged, hlength, Array.length_toList]

section

variable [Encoding W E] {m : Mode} {e : Executor} {requested : Nat} {op : Transfer V E}
  {neighbours : Neighbours} {tag : Tag} {cells : Array V}

theorem exchange_yields_size (outgoing incoming : Slabs) :
    (exchange m e requested op neighbours tag outgoing incoming cells :
      Task W (Array V)).Yields fun cells' => cells'.size = cells.size := by
  apply Task.yields_bind
  intro idle
  cases idle with
  | true => exact Task.yields_pure rfl
  | false =>
      -- whatever was packed, sent and received, the cells are those of the last action
      iterate 15
        apply Task.yields_bind
        intro _
      exact Task.yields_outcome fun _ h => Slabs.size_unpack h

theorem exchangeAxis_yields_size (flow : Flow) (t : Topology) (a : Axis) :
    (exchangeAxis m e requested op flow t a neighbours tag cells :
      Task W (Array V)).Yields fun cells' => cells'.size = cells.size := by
  unfold exchangeAxis
  split
  · apply Task.yields_bind
    intro outgoing
    apply Task.yields_bind
    intro incoming
    exact exchange_yields_size outgoing incoming
  · exact Task.yields_pure rfl

end

end KineticGrid
