import KineticGrid.Proofs.Ghost.Packing
import Mathlib.Data.List.Sort
/-!
# Rows

Merging works on rows of slots, which are sorted and cut out of the array one after the other.
Main statements: sorted rows without common slots are cut out and merged slot by slot, rows with a
common slot are refused, and the rows of a box inside a grid are the slots of its cells.
-/

namespace KineticGrid

variable {V E : Type}

/-! ## Rows -/

/-- What the rows bring to a slot. -/
def rowsAt (rows : List (Nat × List E)) (i : Nat) : Option E :=
  rows.findSome? fun row => if row.1 ≤ i then row.2[i - row.1]? else none

def Apart (p q : Nat × List E) : Prop := p.1 + p.2.length ≤ q.1 ∨ q.1 + q.2.length ≤ p.1

/-- The first row ends where the second one starts, or before. -/
def Before (p q : Nat × List E) : Prop := p.1 + p.2.length ≤ q.1

theorem Apart.symm {p q : Nat × List E} (h : Apart p q) : Apart q p := Or.symm h

private theorem rowsAt_eq_none {rows : List (Nat × List E)} {i : Nat}
    (h : ∀ row ∈ rows, i < row.1) : rowsAt rows i = none := by
  rw [rowsAt, List.findSome?_eq_none_iff]
  intro row hrow
  rw [if_neg (Nat.not_le.2 (h row hrow))]

theorem rowsAt_eq_some {rows : List (Nat × List E)} (h : rows.Pairwise Apart) {i : Nat} {e : E} :
    rowsAt rows i = some e ↔ ∃ row ∈ rows, row.1 ≤ i ∧ row.2[i - row.1]? = some e := by
  induction rows with
  | nil => simp [rowsAt]
  | cons row rows ih =>
      obtain ⟨hrow, hrows⟩ := List.pairwise_cons.1 h
      rw [rowsAt, List.findSome?_cons]
      by_cases hi : row.1 ≤ i ∧ i < row.1 + row.2.length
      · have hitem : row.2[i - row.1]? = some row.2[i - row.1] :=
          List.getElem?_eq_getElem (by omega)
        rw [if_pos hi.1, hitem]
        constructor
        · rintro ⟨⟩
          exact ⟨row, List.mem_cons_self, hi.1, hitem⟩
        · rintro ⟨row', hmem, hle, hitem'⟩
          rcases List.mem_cons.1 hmem with rfl | hmem
          · rw [← hitem', hitem]
          · have hapart := hrow row' hmem
            have hlt := (List.getElem?_eq_some_iff.1 hitem').1
            unfold Apart at hapart
            omega
      · have hnone : (if row.1 ≤ i then row.2[i - row.1]? else none) = none := by
          by_cases hle : row.1 ≤ i
          · rw [if_pos hle, List.getElem?_eq_none (by omega)]
          · rw [if_neg hle]
        rw [hnone]
        change rowsAt rows i = some e ↔ _
        rw [ih hrows]
        constructor
        · rintro ⟨row', hmem, hitem⟩
          exact ⟨row', List.mem_cons_of_mem _ hmem, hitem⟩
        · rintro ⟨row', hmem, hle, hitem⟩
          rcases List.mem_cons.1 hmem with rfl | hmem
          · rw [if_pos hle, hitem] at hnone
            cases hnone
          · exact ⟨row', hmem, hle, hitem⟩

/-- The new value of a cell that may get a value merged into it. -/
def Transfer.mergeAt (op : Transfer V E) (v : V) : Option E → Checked V
  | none => .ok v
  | some e => op.merge v e

private theorem mapM_zip_merge {op : Transfer V E} {row : List V} {incoming : List E}
    (new : List V) (hrow : row.length = incoming.length) (hnew : new.length = incoming.length)
    (h : ∀ k (hi : k < incoming.length) (hr : k < row.length) (hn : k < new.length),
      op.merge row[k] incoming[k] = .ok new[k]) :
    (row.zip incoming).mapM (fun (here, e) => op.merge here e) = .ok new := by
  induction incoming generalizing row new with
  | nil =>
      rw [List.length_eq_zero_iff.1 hrow, List.length_eq_zero_iff.1 hnew]
      rfl
  | cons e incoming ih =>
      cases row with
      | nil => cases hrow
      | cons v row =>
          cases new with
          | nil => cases hnew
          | cons v' new =>
              have hhead := h 0 (by simp) (by simp) (by simp)
              have htail := ih new (Nat.succ.inj hrow) (Nat.succ.inj hnew) fun k hi hr hn =>
                h (k + 1) (Nat.succ_lt_succ hi) (Nat.succ_lt_succ hr) (Nat.succ_lt_succ hn)
              rw [List.zip_cons_cons, List.mapM_cons, htail]
              change (op.merge v e >>= _) = _
              rw [show op.merge v e = .ok v' from hhead]
              rfl

private theorem length_others {consumed start : Nat} {rest : List V} {incoming : List E}
    (hstart : consumed ≤ start) (hend : start + incoming.length ≤ consumed + rest.length) :
    start + incoming.length + ((rest.drop (start - consumed)).drop incoming.length).length =
      consumed + rest.length := by
  rw [List.length_drop, List.length_drop]
  omega

theorem carve_cons (overlap : Error) {consumed start : Nat} {rest : List V}
    {incoming : List E} (rows : List (Nat × List E)) (hstart : consumed ≤ start)
    (hend : start + incoming.length ≤ consumed + rest.length) :
    Piece.carve overlap consumed rest ((start, incoming) :: rows) = (do
      let (pieces, tail) ← Piece.carve overlap (start + incoming.length)
        ((rest.drop (start - consumed)).drop incoming.length) rows
      return (⟨rest.take (start - consumed),
        (rest.drop (start - consumed)).take incoming.length, incoming⟩ :: pieces, tail)) := by
  have hskipped : (rest.take (start - consumed)).length = start - consumed := by
    rw [List.length_take]
    omega
  have hhere : ((rest.drop (start - consumed)).take incoming.length).length =
      incoming.length := by
    rw [List.length_take, List.length_drop]
    omega
  rw [Piece.carve, if_neg (by omega)]
  simp only [List.splitAt_eq]
  rw [if_pos ⟨hskipped, hhere⟩]

private theorem rowsAt_cons_of_lt (start : Nat) {incoming : List E} (rows : List (Nat × List E))
    {k : Nat} (hk : k < incoming.length) :
    rowsAt ((start, incoming) :: rows) (start + k) = some incoming[k] := by
  rw [rowsAt, List.findSome?_cons, if_pos (by dsimp only; omega), Nat.add_sub_cancel_left,
    List.getElem?_eq_getElem hk]

private theorem rowsAt_cons_of_le {start i : Nat} {incoming : List E} (rows : List (Nat × List E))
    (hi : start + incoming.length ≤ i) :
    rowsAt ((start, incoming) :: rows) i = rowsAt rows i := by
  have hpast : incoming[i - start]? = none := List.getElem?_eq_none (by omega)
  rw [rowsAt, List.findSome?_cons, if_pos (by dsimp only; omega), hpast]
  rfl

/-- The cells before a row stay as they are, and those of the row get what it brings. -/
private theorem merge_first (op : Transfer V E) (new : Nat → V) {consumed start : Nat}
    {rest : List V} {incoming : List E} {rows : List (Nat × List E)} (hstart : consumed ≤ start)
    (hend : start + incoming.length ≤ consumed + rest.length)
    (hlater : ∀ row ∈ rows, start + incoming.length ≤ row.1)
    (hnew : ∀ k (hk : k < rest.length),
      op.mergeAt rest[k] (rowsAt ((start, incoming) :: rows) (consumed + k)) =
        .ok (new (consumed + k))) :
    Piece.merge op ⟨rest.take (start - consumed),
        (rest.drop (start - consumed)).take incoming.length, incoming⟩ =
      .ok ((List.range' consumed (start - consumed + incoming.length)).map new) := by
  have hskipped : rest.take (start - consumed) =
      (List.range' consumed (start - consumed)).map new := by
    apply List.ext_getElem
    · simp
      omega
    · intro k hk _
      rw [List.length_take] at hk
      have hnone : rowsAt ((start, incoming) :: rows) (consumed + k) = none := by
        apply rowsAt_eq_none
        intro row hmem
        rcases List.mem_cons.1 hmem with rfl | hmem
        · dsimp only
          omega
        · have hle := hlater row hmem
          omega
      have hk' := hnew k (by omega)
      rw [hnone] at hk'
      rw [List.getElem_take, List.getElem_map, List.getElem_range', Nat.one_mul]
      exact Except.ok.inj hk'
  have hhere : ((rest.drop (start - consumed)).take incoming.length).length =
      incoming.length := by
    rw [List.length_take, List.length_drop]
    omega
  have hrow : (((rest.drop (start - consumed)).take incoming.length).zip incoming).mapM
      (fun (here, e) => op.merge here e) = .ok ((List.range' start incoming.length).map new) := by
    refine mapM_zip_merge _ hhere (by simp) ?_
    intro k hk _ _
    have hk' := hnew (start - consumed + k) (by omega)
    rw [show consumed + (start - consumed + k) = start + k by omega,
      rowsAt_cons_of_lt start rows hk] at hk'
    rw [List.getElem_map, List.getElem_range', Nat.one_mul, ← hk', List.getElem_take,
      List.getElem_drop]
    rfl
  have hrange := List.range'_append_1 (s := consumed) (m := start - consumed)
    (n := incoming.length)
  rw [show consumed + (start - consumed) = start by omega] at hrange
  rw [Piece.merge, hrow, ← hrange, List.map_append, ← hskipped]
  rfl

/-- Rows in ascending order without common slots are cut out one after the other, and every slot
gets what they bring to it. The induction is on the rows; what is left of the array starts at the
slot `consumed`. -/
theorem carve_merge (op : Transfer V E) (overlap : Error) (new : Nat → V)
    {rows : List (Nat × List E)} (hsorted : rows.Pairwise Before) (consumed : Nat) (rest : List V)
    (hrange : ∀ row ∈ rows, consumed ≤ row.1 ∧ row.1 + row.2.length ≤ consumed + rest.length)
    (hnew : ∀ k (hk : k < rest.length),
      op.mergeAt rest[k] (rowsAt rows (consumed + k)) = .ok (new (consumed + k))) :
    ∃ pieces tail merged, Piece.carve overlap consumed rest rows = .ok (pieces, tail) ∧
      pieces.mapM (Piece.merge op) = .ok merged ∧
      merged.flatten ++ tail = (List.range' consumed rest.length).map new := by
  induction rows generalizing consumed rest with
  | nil =>
      refine ⟨[], rest, [], rfl, rfl, ?_⟩
      apply List.ext_getElem
      · simp
      · intro k hk _
        have hk' := hnew k (by simpa using hk)
        simpa [rowsAt, Transfer.mergeAt] using hk'
  | cons row rows ih =>
      obtain ⟨start, incoming⟩ := row
      obtain ⟨hrow, hrows⟩ := List.pairwise_cons.1 hsorted
      obtain ⟨hstart, hend⟩ := hrange _ List.mem_cons_self
      dsimp only at hrow hstart hend
      let first : Piece V E := ⟨rest.take (start - consumed),
        (rest.drop (start - consumed)).take incoming.length, incoming⟩
      let others := (rest.drop (start - consumed)).drop incoming.length
      have hothers : start + incoming.length + others.length = consumed + rest.length :=
        length_others hstart hend
      have hrange' : ∀ row ∈ rows, start + incoming.length ≤ row.1 ∧
          row.1 + row.2.length ≤ start + incoming.length + others.length := by
        intro row hmem
        have hle := (hrange row (List.mem_cons_of_mem _ hmem)).2
        exact ⟨hrow row hmem, by omega⟩
      have hnew' : ∀ k (hk : k < others.length),
          op.mergeAt others[k] (rowsAt rows (start + incoming.length + k)) =
            .ok (new (start + incoming.length + k)) := by
        intro k hk
        have hk' := hnew (start - consumed + incoming.length + k) (by omega)
        rw [show consumed + (start - consumed + incoming.length + k) =
          start + incoming.length + k by omega,
          rowsAt_cons_of_le rows (Nat.le_add_right _ _)] at hk'
        rw [← hk', List.getElem_drop, List.getElem_drop]
        congr 2
        omega
      obtain ⟨pieces, tail, merged, hcarve, hmerge, hflat⟩ := ih hrows _ others hrange' hnew'
      have hfirst : first.merge op =
          .ok ((List.range' consumed (start - consumed + incoming.length)).map new) :=
        merge_first op new hstart hend hrow hnew
      have hsplit := List.range'_append_1 (s := consumed)
        (m := start - consumed + incoming.length) (n := others.length)
      rw [show consumed + (start - consumed + incoming.length) = start + incoming.length by omega,
        show start - consumed + incoming.length + others.length = rest.length by omega] at hsplit
      refine ⟨first :: pieces, tail,
        (List.range' consumed (start - consumed + incoming.length)).map new :: merged, ?_, ?_, ?_⟩
      · rw [carve_cons overlap rows hstart hend, hcarve]
        rfl
      · rw [List.mapM_cons, hfirst, hmerge]
        rfl
      · rw [← hsplit, List.map_append, ← hflat, List.flatten_cons, List.append_assoc]

/-- Rows are cut out exactly if each starts where the one before it ends, or later, and otherwise
they are refused. The induction is on the rows; what is left of the array starts at the slot
`consumed`. -/
theorem carve_cases (overlap : Error) {rows : List (Nat × List E)} {consumed : Nat} {rest : List V}
    (hrange : ∀ row ∈ rows, row.1 + row.2.length ≤ consumed + rest.length) :
    (((∀ row ∈ rows, consumed ≤ row.1) ∧ rows.Pairwise Before) ∧
        ∃ cut, Piece.carve overlap consumed rest rows = .ok cut) ∨
      (¬((∀ row ∈ rows, consumed ≤ row.1) ∧ rows.Pairwise Before) ∧
        Piece.carve overlap consumed rest rows = Fallible.reject overlap) := by
  induction rows generalizing consumed rest with
  | nil => exact .inl ⟨⟨by simp, .nil⟩, _, rfl⟩
  | cons row rows ih =>
      obtain ⟨start, incoming⟩ := row
      have hend := hrange _ List.mem_cons_self
      dsimp only at hend
      by_cases hstart : consumed ≤ start
      · have hrange' : ∀ row ∈ rows, row.1 + row.2.length ≤ start + incoming.length +
            ((rest.drop (start - consumed)).drop incoming.length).length := by
          intro row hmem
          rw [length_others hstart hend]
          exact hrange row (List.mem_cons_of_mem _ hmem)
        rw [carve_cons overlap rows hstart hend, List.forall_mem_cons, List.pairwise_cons]
        rcases ih hrange' with ⟨⟨hrows, hsorted⟩, cut, hcut⟩ | ⟨hrows, hcut⟩
        · refine .inl ⟨⟨⟨hstart, fun row hmem => ?_⟩, hrows, hsorted⟩, ?_⟩
          · have hle := hrows row hmem
            omega
          · rw [hcut]
            exact ⟨_, rfl⟩
        · refine .inr ⟨fun h => hrows h.2, ?_⟩
          rw [hcut]
          rfl
      · refine .inr ⟨fun h => hstart (h.1 _ List.mem_cons_self), ?_⟩
        rw [Piece.carve, if_pos (Nat.not_le.1 hstart)]

def inOrder (rows : List (Nat × List E)) : List (Nat × List E) :=
  rows.mergeSort fun p q => p.1 ≤ q.1

theorem inOrder_perm (rows : List (Nat × List E)) : (inOrder rows).Perm rows :=
  List.mergeSort_perm rows _

/-- Rows in order follow each other exactly if no two of them have a common slot. -/
theorem pairwise_inOrder_iff {rows : List (Nat × List E)}
    (hpos : ∀ row ∈ rows, 0 < row.2.length) :
    (inOrder rows).Pairwise Before ↔ rows.Pairwise Apart := by
  have hsorted : (inOrder rows).Pairwise fun p q => decide (p.1 ≤ q.1) = true :=
    List.pairwise_mergeSort (fun p q t hpq hqt => by simp only [decide_eq_true_eq] at *; omega)
      (fun p q => by simp only [Bool.or_eq_true, decide_eq_true_eq]; omega) _
  rw [← (inOrder_perm rows).pairwise_iff Apart.symm]
  constructor
  · exact fun h => h.imp Or.inl
  · intro h
    refine (hsorted.and h).imp_of_mem ?_
    rintro p q - hq ⟨hle, hpq⟩
    have hlength := hpos q ((inOrder_perm rows).mem_iff.1 hq)
    rw [decide_eq_true_eq] at hle
    unfold Apart at hpq
    unfold Before
    omega

/-! ## Rows of a box -/

namespace Box

def rowsIn (e : Extent) (buffer : List E) (r : Box) : List (Nat × List E) :=
  if r.shape.volume = 0 then []
  else (List.range (r.shape.y * r.shape.z)).map fun q =>
    (e.slot (r.cellAt (q * r.shape.x)), (buffer.drop (q * r.shape.x)).take r.shape.x)

variable {b : Build} {r : Box} {e : Extent} {buffer : List E}

theorem cell_row (shape : Extent) {q x : Nat} (hx : x < shape.x) :
    shape.cell (q * shape.x + x) = ⟨x, q % shape.y, q / shape.y⟩ := by
  have hq : (q * shape.x + x) / shape.x = q := by
    rw [Nat.mul_comm, Nat.mul_add_div (by omega), Nat.div_eq_of_lt hx, Nat.add_zero]
  rw [Extent.cell, hq, Nat.mul_comm, Nat.mul_add_mod, Nat.mod_eq_of_lt hx]

theorem slot_row (e : Extent) {q x : Nat} (hx : x < r.shape.x) :
    e.slot (r.cellAt (q * r.shape.x + x)) = e.slot (r.cellAt (q * r.shape.x)) + x := by
  have hzero := cell_row r.shape (q := q) (x := 0) (by omega)
  rw [Nat.add_zero] at hzero
  rw [cellAt, cellAt, cell_row _ hx, hzero]
  simp only [Extent.slot, Vec3.zipWith]
  omega

theorem row_lt {q : Nat} (hq : q < r.shape.y * r.shape.z) :
    q * r.shape.x + r.shape.x ≤ r.shape.volume := by
  rw [Extent.volume_eq, ← Nat.succ_mul, Nat.mul_comm]
  exact Nat.mul_le_mul_left _ hq

theorem row_end_le (hr : r.Within e) {q : Nat} (hx : 0 < r.shape.x)
    (hq : q < r.shape.y * r.shape.z) :
    e.slot (r.cellAt (q * r.shape.x)) + r.shape.x ≤ e.volume := by
  have hlast := slot_row (r := r) e (q := q) (x := r.shape.x - 1) (by omega)
  have hrow := row_lt hq
  have hlt := Extent.slot_lt (hr.has (has_cellAt (r := r)
    (s := q * r.shape.x + (r.shape.x - 1)) (by omega)))
  omega

private theorem numbered_rows (hx : 0 < r.shape.x) (hbuffer : r.shape.volume ≤ buffer.length) :
    (Groups.whole r.shape.x (buffer.take r.shape.volume)).zipIdx =
      (List.range (r.shape.y * r.shape.z)).map fun q =>
        ((buffer.drop (q * r.shape.x)).take r.shape.x, q) := by
  have hlength : (buffer.take r.shape.volume).length = r.shape.y * r.shape.z * r.shape.x := by
    rw [List.length_take, Nat.min_eq_left hbuffer, Extent.volume_eq, Nat.mul_comm]
  have hwhole : Groups.whole r.shape.x (buffer.take r.shape.volume) =
      (List.range (r.shape.y * r.shape.z)).map fun q =>
        (buffer.drop (q * r.shape.x)).take r.shape.x := by
    rw [Groups.whole_eq hx hlength]
    apply List.map_congr_left
    intro q hq
    have hrow := row_lt (List.mem_range.1 hq)
    rw [List.drop_take, List.take_take, Nat.min_eq_left (by omega)]
  rw [hwhole]
  apply List.ext_getElem
  · simp
  · intro q _ _
    simp

/-- The words of a row's number divide as the number itself does. -/
private theorem row_start {g : Grid} (hr : r.Within g.extent) {q : Nat}
    (hq : q < r.shape.y * r.shape.z) (hx : 0 < r.shape.x) (hword : q < word32Size) :
    r.origin.y.toNat + (UInt32.ofNat q % r.extent.y).toNat < word32Size ∧
      r.origin.z.toNat + (UInt32.ofNat q / r.extent.y).toNat < word32Size ∧
      (⟨r.origin.x, r.origin.y + UInt32.ofNat q % r.extent.y,
        r.origin.z + UInt32.ofNat q / r.extent.y⟩ : Coords).map UInt32.toNat =
          r.cellAt (q * r.shape.x) := by
  have hcell : r.cellAt (q * r.shape.x) = ⟨r.origin.x.toNat,
      r.origin.y.toNat + q % r.shape.y, r.origin.z.toNat + q / r.shape.y⟩ := by
    have hrow := cell_row r.shape (q := q) (x := 0) hx
    rw [Nat.add_zero] at hrow
    rw [cellAt, hrow]
    rfl
  have hlt (a : Axis) : (r.cellAt (q * r.shape.x)).get a < word32Size := by
    have hrow := row_lt hq
    exact Nat.lt_trans (hr.has (has_cellAt (by omega)) a) (g.extent_lt a)
  have hy : (UInt32.ofNat q % r.extent.y).toNat = q % r.shape.y := by
    rw [UInt32.toNat_mod, UInt32.toNat_ofNat_of_lt' hword]
    rfl
  have hz : (UInt32.ofNat q / r.extent.y).toNat = q / r.shape.y := by
    rw [UInt32.toNat_div, UInt32.toNat_ofNat_of_lt' hword]
    rfl
  rw [hcell] at hlt ⊢
  have hlty : r.origin.y.toNat + q % r.shape.y < word32Size := hlt .y
  have hltz : r.origin.z.toNat + q / r.shape.y < word32Size := hlt .z
  rw [hy, hz]
  refine ⟨hlty, hltz, ?_⟩
  simp only [Vec3.map, UInt32.toNat_add, hy, hz]
  rw [Nat.mod_eq_of_lt hlty, Nat.mod_eq_of_lt hltz]

theorem rows_eq {g : Grid} (hg : g.extent.volume < wordSize) (hr : r.Within g.extent)
    (hrows : r.shape.volume ≠ 0 → r.shape.y * r.shape.z ≤ word32Size)
    (hbuffer : r.shape.volume ≤ buffer.length) :
    r.rows b g buffer = .ok (r.rowsIn g.extent buffer) := by
  have hsize := Nat.lt_of_le_of_lt hr.volume_le hg
  rw [rows, rowsIn, isEmpty_eq hsize]
  change (if decide (r.shape.volume = 0) = true then _ else _) = _
  by_cases hzero : r.shape.volume = 0
  · rw [if_pos (decide_eq_true hzero), if_pos hzero]
    rfl
  · obtain ⟨hx, hy, hz⟩ := Extent.pos_of_volume (Nat.pos_of_ne_zero hzero)
    rw [if_neg (by rw [decide_eq_false hzero]; decide), if_neg hzero, size_eq hsize]
    change (Groups.whole r.shape.x (buffer.take r.shape.volume)).zipIdx.mapM _ = _
    rw [numbered_rows hx hbuffer, List.mapM_map]
    apply mapM_eq_ok
    intro q hq
    have hq := List.mem_range.1 hq
    have hrow := row_lt hq
    have hcell := hr.has (has_cellAt (r := r) (s := q * r.shape.x) (by omega))
    obtain ⟨hlty, hltz, hstart⟩ := row_start hr hq hx (Nat.lt_of_lt_of_le hq (hrows hzero))
    dsimp only [Function.comp]
    change (b.add32 r.origin.y (UInt32.ofNat q % r.extent.y) >>= _) = _
    rw [Build.add32_eq hlty]
    change (b.add32 r.origin.z (UInt32.ofNat q / r.extent.y) >>= _) = _
    rw [Build.add32_eq hltz]
    change (g.slot b _ >>= _) = _
    rw [Grid.slot_eq hg (by rw [hstart]; exact hcell), hstart]
    rfl

theorem mem_rowsIn {row : Nat × List E} :
    row ∈ r.rowsIn e buffer ↔ 0 < r.shape.volume ∧ ∃ q < r.shape.y * r.shape.z,
      row = (e.slot (r.cellAt (q * r.shape.x)),
        (buffer.drop (q * r.shape.x)).take r.shape.x) := by
  unfold rowsIn
  by_cases hzero : r.shape.volume = 0
  · simp [hzero]
  · rw [if_neg hzero, List.mem_map]
    constructor
    · rintro ⟨q, hq, rfl⟩
      exact ⟨Nat.pos_of_ne_zero hzero, q, List.mem_range.1 hq, rfl⟩
    · rintro ⟨_, q, hq, rfl⟩
      exact ⟨q, List.mem_range.2 hq, rfl⟩

theorem length_row (hbuffer : r.shape.volume ≤ buffer.length) {q : Nat}
    (hq : q < r.shape.y * r.shape.z) :
    ((buffer.drop (q * r.shape.x)).take r.shape.x).length = r.shape.x := by
  have hrow := row_lt hq
  rw [List.length_take, List.length_drop]
  omega

theorem length_pos_of_mem_rowsIn (hbuffer : r.shape.volume ≤ buffer.length)
    {row : Nat × List E} (hrow : row ∈ r.rowsIn e buffer) : 0 < row.2.length := by
  obtain ⟨hvolume, q, hq, rfl⟩ := mem_rowsIn.1 hrow
  rw [length_row hbuffer hq]
  exact (Extent.pos_of_volume hvolume).1

theorem end_le_of_mem_rowsIn (hr : r.Within e) (hbuffer : r.shape.volume ≤ buffer.length)
    {row : Nat × List E} (hrow : row ∈ r.rowsIn e buffer) : row.1 + row.2.length ≤ e.volume := by
  obtain ⟨hvolume, q, hq, rfl⟩ := mem_rowsIn.1 hrow
  rw [length_row hbuffer hq]
  exact row_end_le hr (Extent.pos_of_volume hvolume).1 hq

/-- The rows of a box hold nothing of a buffer past the cells of the box. -/
theorem rowsIn_take (r : Box) (e : Extent) (buffer : List E) :
    r.rowsIn e (buffer.take r.shape.volume) = r.rowsIn e buffer := by
  unfold rowsIn
  congr 1
  apply List.map_congr_left
  intro q hq
  have hrow := row_lt (List.mem_range.1 hq)
  rw [List.drop_take, List.take_take, Nat.min_eq_left (by omega)]

theorem exists_row_iff (hbuffer : r.shape.volume ≤ buffer.length) {i : Nat} {x : E} :
    (∃ row ∈ r.rowsIn e buffer, row.1 ≤ i ∧ row.2[i - row.1]? = some x) ↔
      ∃ s < r.shape.volume, i = e.slot (r.cellAt s) ∧ buffer[s]? = some x := by
  constructor
  · rintro ⟨row, hmem, hle, hitem⟩
    obtain ⟨_, q, hq, rfl⟩ := mem_rowsIn.1 hmem
    have hrow := row_lt hq
    have hlt := (List.getElem?_eq_some_iff.1 hitem).1
    dsimp only at hle hitem hlt
    rw [length_row hbuffer hq] at hlt
    rw [List.getElem?_take_of_lt hlt, List.getElem?_drop] at hitem
    refine ⟨q * r.shape.x + (i - e.slot (r.cellAt (q * r.shape.x))), by omega, ?_, hitem⟩
    rw [slot_row e hlt]
    omega
  · rintro ⟨s, hs, rfl, hitem⟩
    obtain ⟨hx, hy, hz⟩ := Extent.pos_of_volume (Nat.zero_lt_of_lt hs)
    have hmod := Nat.mod_lt s hx
    have hdiv : s / r.shape.x * r.shape.x + s % r.shape.x = s := Nat.div_add_mod' s _
    have hq : s / r.shape.x < r.shape.y * r.shape.z := by
      rw [Extent.volume_eq] at hs
      exact Nat.div_lt_of_lt_mul hs
    have hslot := slot_row (r := r) e (q := s / r.shape.x) hmod
    rw [hdiv] at hslot
    refine ⟨_, mem_rowsIn.2 ⟨Nat.zero_lt_of_lt hs, s / r.shape.x, hq, rfl⟩, ?_, ?_⟩
    · dsimp only
      omega
    · dsimp only
      rw [hslot, Nat.add_sub_cancel_left, List.getElem?_take_of_lt hmod, List.getElem?_drop, hdiv]
      exact hitem

private theorem apart_of_ne {p q : Nat × List E} (hp : 0 < p.2.length) (hq : 0 < q.2.length)
    (h : ∀ x < p.2.length, ∀ y < q.2.length, p.1 + x ≠ q.1 + y) : Apart p q := by
  unfold Apart
  by_contra hmeet
  by_cases hle : p.1 ≤ q.1
  · exact h (q.1 - p.1) (by omega) 0 hq (by omega)
  · exact h 0 hp (p.1 - q.1) (by omega) (by omega)

theorem apart_rows {r' : Box} {buffer' : List E} (hr : r.Within e) (hr' : r'.Within e)
    (hbuffer : r.shape.volume ≤ buffer.length) (hbuffer' : r'.shape.volume ≤ buffer'.length)
    {q q' : Nat} (hvolume : 0 < r.shape.volume) (hvolume' : 0 < r'.shape.volume)
    (hq : q < r.shape.y * r.shape.z) (hq' : q' < r'.shape.y * r'.shape.z)
    (h : ∀ x < r.shape.x, ∀ y < r'.shape.x,
      r.cellAt (q * r.shape.x + x) ≠ r'.cellAt (q' * r'.shape.x + y)) :
    Apart (e.slot (r.cellAt (q * r.shape.x)), (buffer.drop (q * r.shape.x)).take r.shape.x)
      (e.slot (r'.cellAt (q' * r'.shape.x)),
        (buffer'.drop (q' * r'.shape.x)).take r'.shape.x) := by
  have hx := (Extent.pos_of_volume hvolume).1
  have hx' := (Extent.pos_of_volume hvolume').1
  have hrow := row_lt hq
  have hrow' := row_lt hq'
  apply apart_of_ne
  · dsimp only
    rw [length_row hbuffer hq]
    exact hx
  · dsimp only
    rw [length_row hbuffer' hq']
    exact hx'
  · dsimp only
    rw [length_row hbuffer hq, length_row hbuffer' hq']
    intro x hlt y hlt' heq
    rw [← slot_row e hlt, ← slot_row e hlt'] at heq
    exact h x hlt y hlt' (Extent.slot_inj (hr.has (has_cellAt (by omega)))
      (hr'.has (has_cellAt (by omega))) heq)

theorem pairwise_rowsIn (hr : r.Within e) (hbuffer : r.shape.volume ≤ buffer.length) :
    (r.rowsIn e buffer).Pairwise Apart := by
  unfold rowsIn
  by_cases hzero : r.shape.volume = 0
  · rw [if_pos hzero]
    exact .nil
  · rw [if_neg hzero, List.pairwise_map]
    refine List.nodup_range.imp_of_mem ?_
    intro q q' hq hq' hne
    have hvolume := Nat.pos_of_ne_zero hzero
    refine apart_rows hr hr hbuffer hbuffer hvolume hvolume (List.mem_range.1 hq)
      (List.mem_range.1 hq') ?_
    intro x hx y hy heq
    have hslots := congrArg r.slotAt heq
    rw [slotAt_cellAt, slotAt_cellAt] at hslots
    have hquot := congrArg (· / r.shape.x) hslots
    have hpos : 0 < r.shape.x := by omega
    simp only [Nat.mul_comm _ r.shape.x, Nat.mul_add_div hpos, Nat.div_eq_of_lt hx,
      Nat.div_eq_of_lt hy, Nat.add_zero] at hquot
    exact hne hquot

end Box

end KineticGrid
