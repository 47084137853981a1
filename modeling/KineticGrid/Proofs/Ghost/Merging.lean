import KineticGrid.Proofs.Ghost.Rows
/-!
# Merging

What merging two slabs writes, cell by cell. Main statements: with both slabs inside the grid,
merging is a sweep over the rows of both, and merging into a valid pair changes each cell of a slab
by the value in the cell's own slot of the buffer and no other cell.
-/

namespace KineticGrid

variable {V E : Type}

/-! ## Merging two slabs -/

namespace Slabs

def incoming? (s : Slabs) (left right : List E) (c : Vec3 Nat) : Option E :=
  if s.left.Has c then left[s.left.slotAt c]?
  else if s.right.Has c then right[s.right.slotAt c]?
  else none

def bothRows (s : Slabs) (left right : List E) : List (Nat × List E) :=
  s.left.rowsIn s.grid.extent left ++ s.right.rowsIn s.grid.extent right

/-- Merges rows into cells, once the pair and its buffers have been checked. -/
def sweep (m : Mode) (op : Transfer V E) (s : Slabs) (cells : Array V)
    (rows : List (Nat × List E)) : Outcome (Array V) := do
  if rows.isEmpty then
    return cells
  let (pieces, rest) ← Piece.carve s.overlap 0 cells.toList (inOrder rows)
  let merged ← Executor.run m .unpack (pieces.mapM (Piece.merge op))
  return (merged.flatten ++ rest).toArray

/-- The cells are those of the grid, the buffers hold both slabs, and slots and rows can be numbered
in words. -/
structure Loaded (s : Slabs) (cells : Array V) (left right : List E) : Prop where
  volume_lt : s.grid.extent.volume < wordSize
  left_rows : s.left.shape.volume ≠ 0 → s.left.shape.y * s.left.shape.z ≤ word32Size
  right_rows : s.right.shape.volume ≠ 0 → s.right.shape.y * s.right.shape.z ≤ word32Size
  size_cells : cells.size = s.grid.extent.volume
  left_le : s.left.shape.volume ≤ left.length
  right_le : s.right.shape.volume ≤ right.length

variable {s : Slabs} {cells : Array V} {left right : List E}

theorem length_pos_of_mem_bothRows (hl : s.left.shape.volume ≤ left.length)
    (hr : s.right.shape.volume ≤ right.length) {row : Nat × List E}
    (hrow : row ∈ s.bothRows left right) : 0 < row.2.length := by
  rcases List.mem_append.1 hrow with hrow | hrow
  · exact Box.length_pos_of_mem_rowsIn hl hrow
  · exact Box.length_pos_of_mem_rowsIn hr hrow

namespace Inside

theorem end_le_of_mem_bothRows (h : s.Inside) (hl : s.left.shape.volume ≤ left.length)
    (hr : s.right.shape.volume ≤ right.length) {row : Nat × List E}
    (hrow : row ∈ s.bothRows left right) : row.1 + row.2.length ≤ s.grid.extent.volume := by
  rcases List.mem_append.1 hrow with hrow | hrow
  · exact Box.end_le_of_mem_rowsIn h.left hl hrow
  · exact Box.end_le_of_mem_rowsIn h.right hr hrow

/-- The rows of both slabs have a common slot exactly if the slabs share a cell. -/
theorem pairwise_bothRows_iff (h : s.Inside) (hl : s.left.shape.volume ≤ left.length)
    (hr : s.right.shape.volume ≤ right.length) :
    (s.bothRows left right).Pairwise Apart ↔ ∀ c, s.left.Has c → ¬s.right.Has c := by
  rw [bothRows, List.pairwise_append]
  constructor
  · rintro ⟨_, _, hapart⟩ c hleft hright
    -- the slot of a shared cell lies in a row of each slab
    have hrow {r : Box} {buffer : List E} (hbuffer : r.shape.volume ≤ buffer.length)
        (hc : r.Has c) : ∃ row ∈ r.rowsIn s.grid.extent buffer,
          row.1 ≤ s.grid.extent.slot c ∧ s.grid.extent.slot c < row.1 + row.2.length := by
      have hslot := Box.slotAt_lt hc
      have hitem : buffer[r.slotAt c]? = some buffer[r.slotAt c] :=
        List.getElem?_eq_getElem (by omega)
      obtain ⟨row, hmem, hle, hvalue⟩ := (Box.exists_row_iff (e := s.grid.extent) hbuffer).2
        ⟨r.slotAt c, hslot, by rw [Box.cellAt_slotAt hc], hitem⟩
      have hlt := (List.getElem?_eq_some_iff.1 hvalue).1
      exact ⟨row, hmem, hle, by omega⟩
    obtain ⟨row, hmem, hle, hlt⟩ := hrow hl hleft
    obtain ⟨row', hmem', hle', hlt'⟩ := hrow hr hright
    have hmeet := hapart row hmem row' hmem'
    unfold Apart at hmeet
    omega
  · intro hdisjoint
    refine ⟨Box.pairwise_rowsIn h.left hl, Box.pairwise_rowsIn h.right hr, ?_⟩
    intro row hrow row' hrow'
    obtain ⟨hvolume, q, hq, rfl⟩ := Box.mem_rowsIn.1 hrow
    obtain ⟨hvolume', q', hq', rfl⟩ := Box.mem_rowsIn.1 hrow'
    refine Box.apart_rows h.left h.right hl hr hvolume hvolume' hq hq' ?_
    intro x hx y hy heq
    have hlt := Box.row_lt hq
    have hlt' := Box.row_lt hq'
    refine hdisjoint _ (Box.has_cellAt (s := q * s.left.shape.x + x) (by omega)) ?_
    rw [heq]
    exact Box.has_cellAt (by omega)

/-- The rows of both slabs, in order, follow each other exactly if the slabs share no cell. -/
theorem pairwise_inOrder_iff (h : s.Inside) (hl : s.left.shape.volume ≤ left.length)
    (hr : s.right.shape.volume ≤ right.length) :
    (inOrder (s.bothRows left right)).Pairwise Before ↔ ∀ c, s.left.Has c → ¬s.right.Has c := by
  rw [KineticGrid.pairwise_inOrder_iff fun row hrow => length_pos_of_mem_bothRows hl hr hrow]
  exact h.pairwise_bothRows_iff hl hr

theorem loaded (h : s.Inside) (hg : s.grid.extent.volume < wordSize)
    (hrows : s.grid.extent.y * s.grid.extent.z ≤ word32Size)
    (hcells : cells.size = s.grid.extent.volume) (hl : s.left.shape.volume ≤ left.length)
    (hr : s.right.shape.volume ≤ right.length) : s.Loaded cells left right where
  volume_lt := hg
  left_rows _ := Nat.le_trans h.left.rows_le hrows
  right_rows _ := Nat.le_trans h.right.rows_le hrows
  size_cells := hcells
  left_le := hl
  right_le := hr

theorem unpack_eq (h : s.Inside) (hload : s.Loaded cells left right) {m : Mode}
    (hassert : s.assert m.build = .ok ()) (e : Executor) (requested : Nat) (op : Transfer V E) :
    s.unpack m e requested op cells left right =
      e.block m .unpack requested >>= fun _ => s.sweep m op cells (s.bothRows left right) := by
  have hg := hload.volume_lt
  rw [unpack, hassert, hload.size_cells, h.requireBuffers_eq hg hload.left_le hload.right_le,
    h.requireInside_eq, Box.rows_eq hg h.left hload.left_rows hload.left_le,
    Box.rows_eq hg h.right hload.right_rows hload.right_le]
  rfl

end Inside

namespace Valid

theorem rowsAt_slot (h : s.Valid) (hl : s.left.shape.volume ≤ left.length)
    (hr : s.right.shape.volume ≤ right.length) {rows : List (Nat × List E)}
    (hperm : rows.Perm (s.bothRows left right)) {c : Vec3 Nat} (hc : s.grid.extent.Has c) :
    rowsAt rows (s.grid.extent.slot c) = s.incoming? left right c := by
  have hrows : rows.Pairwise Apart :=
    (hperm.pairwise_iff Apart.symm).2 ((h.inside.pairwise_bothRows_iff hl hr).2 h.disjoint)
  -- a slot of a box is the slot of the cell only if the box has the cell
  have hbox {r : Box} (hw : r.Within s.grid.extent) (buffer : List E) (x : E) :
      (∃ k < r.shape.volume, s.grid.extent.slot c = s.grid.extent.slot (r.cellAt k) ∧
        buffer[k]? = some x) ↔ r.Has c ∧ buffer[r.slotAt c]? = some x := by
    constructor
    · rintro ⟨k, hk, hslot, hitem⟩
      have hcell := Extent.slot_inj hc (hw.has (Box.has_cellAt hk)) hslot
      rw [hcell, Box.slotAt_cellAt]
      exact ⟨Box.has_cellAt hk, hitem⟩
    · rintro ⟨hhas, hitem⟩
      exact ⟨r.slotAt c, Box.slotAt_lt hhas, by rw [Box.cellAt_slotAt hhas], hitem⟩
  apply Option.ext
  intro x
  rw [rowsAt_eq_some hrows]
  simp only [hperm.mem_iff, bothRows, List.mem_append, or_and_right, exists_or]
  rw [Box.exists_row_iff hl, Box.exists_row_iff hr, hbox h.left, hbox h.right, incoming?]
  have hdisjoint := h.disjoint c
  by_cases hleft : s.left.Has c
  · simp [hleft, hdisjoint hleft]
  · by_cases hright : s.right.Has c <;> simp [hleft, hright]

/-- Two buffers are merged into a valid pair without an error, and change each cell by what they
bring to it. -/
theorem result_unpack (h : s.Valid) (m : Mode) (e : Executor) {requested : Nat}
    (op : Transfer V E) (hrequested : requested ≠ 0) (f f' : Vec3 Nat → V)
    (hload : s.Loaded (s.grid.extent.table f) left right)
    (hmerge : ∀ c, s.grid.extent.Has c →
      op.mergeAt (f c) (s.incoming? left right c) = .ok (f' c)) :
    (s.unpack m e requested op (s.grid.extent.table f) left right).result =
      .ok (s.grid.extent.table f') := by
  have hl := hload.left_le
  have hr := hload.right_le
  have hperm := inOrder_perm (s.bothRows left right)
  obtain ⟨pieces, tail, merged, hcarve, hpieces, hflat⟩ := carve_merge op s.overlap
    (fun i => f' (s.grid.extent.cell i)) ((h.inside.pairwise_inOrder_iff hl hr).2 h.disjoint) 0
    (s.grid.extent.table f).toList (fun row hrow => by
      rw [Array.length_toList, Extent.size_table, Nat.zero_add]
      exact ⟨Nat.zero_le _, h.inside.end_le_of_mem_bothRows hl hr (hperm.mem_iff.1 hrow)⟩)
    (fun k hk => by
      rw [Array.length_toList, Extent.size_table] at hk
      have hcell := Extent.has_cell hk
      have hrows := h.rowsAt_slot hl hr hperm hcell
      rw [Extent.slot_cell] at hrows
      have hvalue := Extent.getElem?_table_of_lt f hk
      rw [Array.getElem?_eq_some_iff] at hvalue
      obtain ⟨_, hvalue⟩ := hvalue
      rw [Nat.zero_add, hrows, Array.getElem_toList, hvalue]
      exact hmerge _ hcell)
  rw [h.inside.unpack_eq hload (h.assert_eq hload.volume_lt) e requested op, Outcome.result_bind,
    Executor.result_block m e .unpack hrequested]
  change (s.sweep m op (s.grid.extent.table f) (s.bothRows left right)).result = _
  rw [sweep]
  by_cases hempty : (s.bothRows left right).isEmpty
  · rw [if_pos hempty, Outcome.result_pure]
    congr 1
    apply Extent.table_congr
    intro c hc
    have hrows := h.rowsAt_slot hl hr (List.Perm.refl _) hc
    rw [List.isEmpty_iff.1 hempty] at hrows
    have hcell := hmerge c hc
    rw [← hrows] at hcell
    exact Except.ok.inj hcell
  · rw [if_neg hempty, hcarve]
    change (Executor.run m .unpack (pieces.mapM (Piece.merge op)) >>= _).result = _
    rw [Outcome.result_bind, Executor.result_run, hpieces]
    change Except.ok (merged.flatten ++ tail).toArray = _
    rw [hflat, Array.length_toList, Extent.size_table, Extent.table, List.range_eq_range']

end Valid

end Slabs

end KineticGrid
