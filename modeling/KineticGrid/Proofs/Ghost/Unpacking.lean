import KineticGrid.Proofs.Ghost.Merging
/-!
# Unpacking

Merging described by the slots of the two slabs, which it never computes itself. Main statement:
for every valid pair, merging gives an array, in which each cell is changed by the value in its
own slot of a buffer or not at all, and no value past the cells of a slab has an influence.
-/

namespace KineticGrid

variable {V E : Type}

namespace Slabs

variable {s : Slabs} {cells : Array V} {left right : List E}

/-- What a buffer holds past its slab has no influence. -/
theorem Inside.unpack_congr (h : s.Inside) (hload : s.Loaded cells left right) {m : Mode}
    (hassert : s.assert m.build = .ok ()) (e : Executor) (requested : Nat) (op : Transfer V E)
    {left' right' : List E} (hsame : left'.take s.left.shape.volume = left.take s.left.shape.volume)
    (hsame' : right'.take s.right.shape.volume = right.take s.right.shape.volume) :
    s.unpack m e requested op cells left' right' = s.unpack m e requested op cells left right := by
  have hrows : s.bothRows left' right' = s.bothRows left right := by
    rw [bothRows, bothRows, ← Box.rowsIn_take s.left, ← Box.rowsIn_take s.right, hsame, hsame',
      Box.rowsIn_take, Box.rowsIn_take]
  have hlength {n : Nat} {buffer buffer' : List E} (hn : n ≤ buffer.length)
      (htake : buffer'.take n = buffer.take n) : n ≤ buffer'.length := by
    have hlengths := congrArg List.length htake
    rw [List.length_take, List.length_take] at hlengths
    omega
  have hload' : s.Loaded cells left' right' :=
    { hload with left_le := hlength hload.left_le hsame
                 right_le := hlength hload.right_le hsame' }
  rw [h.unpack_eq hload' hassert, h.unpack_eq hload hassert, hrows]

/-- A valid pair is merged into an array of any values, one cell at a time. -/
theorem Valid.exists_unpacked (h : s.Valid) (hload : s.Loaded cells left right) (m : Mode)
    (e : Executor) {requested : Nat} (op : Transfer V E) (hrequested : requested ≠ 0)
    (hmerge : ∀ i v, cells[i]? = some v →
      ∃ v', op.mergeAt v (s.incoming? left right (s.grid.extent.cell i)) = .ok v') :
    ∃ merged, (s.unpack m e requested op cells left right).result = .ok merged ∧
      merged.size = cells.size ∧ ∀ i v, cells[i]? = some v →
        ∃ v', op.mergeAt v (s.incoming? left right (s.grid.extent.cell i)) = .ok v' ∧
          merged[i]? = some v' := by
  have hcells := hload.size_cells
  rcases Nat.eq_zero_or_pos s.grid.extent.volume with hzero | hpos
  · have hnone (i : Nat) : cells[i]? = none := Array.getElem?_eq_none (by omega)
    refine ⟨cells, ?_, rfl, fun i v hv => ?_⟩
    · have hleft := h.left.volume_le
      have hright := h.right.volume_le
      have hrows : s.bothRows left right = [] := by
        rw [bothRows, Box.rowsIn, Box.rowsIn, if_pos (by omega), if_pos (by omega)]
        rfl
      rw [h.inside.unpack_eq hload (h.assert_eq hload.volume_lt), Outcome.result_bind,
        Executor.result_block m e .unpack hrequested, hrows]
      rfl
    · rw [hnone] at hv
      cases hv
  · obtain ⟨f, rfl⟩ := Extent.exists_table hcells hpos
    have hcell (c : Vec3 Nat) (hc : s.grid.extent.Has c) :
        ∃ v', op.mergeAt (f c) (s.incoming? left right c) = .ok v' := by
      have hslot := hmerge _ _ (Extent.getElem?_table f hc)
      rwa [Extent.cell_slot hc] at hslot
    have : Nonempty V := ⟨f ⟨0, 0, 0⟩⟩
    choose! f' hf' using hcell
    refine ⟨_, h.result_unpack m e op hrequested f f' hload hf', ?_, fun i v hv => ?_⟩
    · rw [Extent.size_table, Extent.size_table]
    · have hi : i < s.grid.extent.volume := by
        have hlt := (Array.getElem?_eq_some_iff.1 hv).1
        rwa [Extent.size_table] at hlt
      rw [Extent.getElem?_table_of_lt f hi] at hv
      obtain rfl := Option.some.inj hv
      exact ⟨_, hf' _ (Extent.has_cell hi), Extent.getElem?_table_of_lt f' hi⟩

theorem outside_of_merged {b : Build} {op : Transfer V E} {merged : Array V}
    (hload : s.Loaded cells left right) (hsize : merged.size = cells.size)
    (hvalues : ∀ i v, cells[i]? = some v →
      ∃ v', op.mergeAt v (s.incoming? left right (s.grid.extent.cell i)) = .ok v' ∧
        merged[i]? = some v') {i : Nat} {c : Coords} (hc : s.grid.coords b i = .ok c)
    (hleft : s.left.contains c = false) (hright : s.right.contains c = false) :
    merged[i]? = cells[i]? := by
  have hcells := hload.size_cells
  by_cases hi : i < s.grid.extent.volume
  · obtain ⟨v, hv⟩ : ∃ v, cells[i]? = some v := ⟨_, Array.getElem?_eq_getElem (by omega)⟩
    obtain ⟨v', hv', hnew⟩ := hvalues i v hv
    have hcell := Grid.cell_of_coords hload.volume_lt hi hc
    rw [Bool.eq_false_iff, ne_eq, Box.contains_iff, hcell] at hleft hright
    rw [Slabs.incoming?, if_neg hleft, if_neg hright] at hv'
    cases hv'
    rw [hnew, hv]
  · rw [Array.getElem?_eq_none (by omega), Array.getElem?_eq_none (by omega)]

/-- Every value that a buffer holds for a cell can be merged into it. -/
def Mergeable (b : Build) (op : Transfer V E) (s : Slabs) (cells : Array V)
    (left right : List E) : Prop :=
  ∀ i v c k x, cells[i]? = some v → s.grid.coords b i = .ok c →
    (s.left.slot? b c = .ok (some k) ∧ left[k]? = some x ∨
      s.right.slot? b c = .ok (some k) ∧ right[k]? = some x) → ∃ v', op.merge v x = .ok v'

section

variable {b : Build} {op : Transfer V E}

theorem exists_slots (hg : s.grid.extent.volume < wordSize) (h : s.Inside) {i : Nat}
    (hi : i < s.grid.extent.volume) : ∃ c, s.grid.coords b i = .ok c ∧
      s.left.slot? b c = .ok (if s.left.Has (s.grid.extent.cell i) then
        some (s.left.slotAt (s.grid.extent.cell i)) else none) ∧
      s.right.slot? b c = .ok (if s.right.Has (s.grid.extent.cell i) then
        some (s.right.slotAt (s.grid.extent.cell i)) else none) := by
  have hc := Grid.coords_eq (b := b) hg hi
  have hcell := Grid.cell_of_coords hg hi hc
  refine ⟨_, hc, ?_, ?_⟩
  · rw [Box.slot?_eq (h.left_lt hg), hcell]
  · rw [Box.slot?_eq (h.right_lt hg), hcell]

theorem Mergeable.exists_mergeAt (hmerge : s.Mergeable b op cells left right) (h : s.Valid)
    (hg : s.grid.extent.volume < wordSize) (hcells : cells.size = s.grid.extent.volume) {i : Nat}
    {v : V} (hv : cells[i]? = some v) :
    ∃ v', op.mergeAt v (s.incoming? left right (s.grid.extent.cell i)) = .ok v' := by
  have hi : i < s.grid.extent.volume := by
    have hlt := (Array.getElem?_eq_some_iff.1 hv).1
    omega
  obtain ⟨c, hc, hleft, hright⟩ := exists_slots (b := b) hg h.inside hi
  have hslot := fun k x => hmerge i v c k x hv hc
  rw [hleft, hright] at hslot
  cases hx : s.incoming? left right (s.grid.extent.cell i) with
  | none => exact ⟨v, rfl⟩
  | some x =>
      rw [incoming?] at hx
      split at hx
      · exact hslot _ x (.inl ⟨by rw [if_pos ‹_›], hx⟩)
      · split at hx
        · exact hslot _ x (.inr ⟨by rw [if_pos ‹_›], hx⟩)
        · cases hx

end

theorem exists_item_of_slot {r : Box} {buffer : List E} (hbuffer : r.shape.volume ≤ buffer.length)
    {c : Vec3 Nat} {k : Nat} (hk : (if r.Has c then some (r.slotAt c) else none) = some k) :
    r.Has c ∧ r.slotAt c = k ∧ ∃ x, buffer[k]? = some x := by
  split at hk
  next hhas =>
    cases hk
    have hslot := Box.slotAt_lt hhas
    exact ⟨hhas, rfl, _, List.getElem?_eq_getElem (by omega)⟩
  next => cases hk

/-- Each value of a buffer is merged into the cell of its own slot and into no other cell: for every
valid pair and all buffers that hold their slabs, merging gives an array, as long as no merge fails,
and what a buffer holds past its slab is never read. -/
theorem unpack_merges_each_slot (s : Slabs) (m : Mode) (e : Executor) {requested : Nat}
    (hrequested : requested ≠ 0) (op : Transfer V E) (hvalid : s.validate m.build = .ok ())
    (hg : s.grid.extent.volume < wordSize)
    (hleft : s.left.shape.volume ≠ 0 → s.left.shape.y * s.left.shape.z ≤ word32Size)
    (hright : s.right.shape.volume ≠ 0 → s.right.shape.y * s.right.shape.z ≤ word32Size)
    (cells : Array V) (hcells : cells.size = s.grid.extent.volume) (left right : List E)
    (hl : s.left.shape.volume ≤ left.length) (hr : s.right.shape.volume ≤ right.length)
    (hmerge : s.Mergeable m.build op cells left right) :
    (∃ merged, (s.unpack m e requested op cells left right).result = .ok merged ∧
      merged.size = cells.size ∧
      ∀ i v, cells[i]? = some v → ∃ c l r, s.grid.coords m.build i = .ok c ∧
        s.left.slot? m.build c = .ok l ∧ s.right.slot? m.build c = .ok r ∧
        (∀ k, l = some k → ∃ x v', left[k]? = some x ∧ op.merge v x = .ok v' ∧
          merged[i]? = some v') ∧
        (∀ k, r = some k → ∃ x v', right[k]? = some x ∧ op.merge v x = .ok v' ∧
          merged[i]? = some v') ∧
        (l = none → r = none → merged[i]? = some v)) ∧
    ∀ left' right', left'.take s.left.shape.volume = left.take s.left.shape.volume →
      right'.take s.right.shape.volume = right.take s.right.shape.volume →
      s.unpack m e requested op cells left' right' =
        s.unpack m e requested op cells left right := by
  have h := (validate_eq_ok_iff hg).1 hvalid
  have hload : s.Loaded cells left right := ⟨hg, hleft, hright, hcells, hl, hr⟩
  constructor
  · obtain ⟨merged, hresult, hsize, hvalues⟩ := h.exists_unpacked hload m e op hrequested
      fun i v hv => hmerge.exists_mergeAt h hg hcells hv
    refine ⟨merged, hresult, hsize, fun i v hv => ?_⟩
    have hi : i < s.grid.extent.volume := by
      have hlt := (Array.getElem?_eq_some_iff.1 hv).1
      omega
    obtain ⟨c, hc, hslotl, hslotr⟩ := exists_slots (b := m.build) hg h.inside hi
    obtain ⟨v', hv', hnew⟩ := hvalues i v hv
    refine ⟨c, _, _, hc, hslotl, hslotr, fun k hk => ?_, fun k hk => ?_, fun hnone hnone' => ?_⟩
    · obtain ⟨hhas, rfl, x, hitem⟩ := exists_item_of_slot hl hk
      rw [incoming?, if_pos hhas, hitem] at hv'
      exact ⟨x, v', hitem, hv', hnew⟩
    · obtain ⟨hhas, rfl, x, hitem⟩ := exists_item_of_slot hr hk
      rw [incoming?, if_neg fun hleft => h.disjoint _ hleft hhas, if_pos hhas, hitem] at hv'
      exact ⟨x, v', hitem, hv', hnew⟩
    · rw [ite_eq_right_iff] at hnone hnone'
      have houtl : ¬s.left.Has (s.grid.extent.cell i) := fun hhas => by cases hnone hhas
      have houtr : ¬s.right.Has (s.grid.extent.cell i) := fun hhas => by cases hnone' hhas
      rw [incoming?, if_neg houtl, if_neg houtr] at hv'
      cases hv'
      exact hnew
  · intro left' right' hsame hsame'
    exact h.inside.unpack_congr hload (h.assert_eq hg) e requested op hsame hsame'

theorem unpack_merges_each_slot_columns :
    ∃ merged, (unpack ⟨.debug, .off⟩ .shared 1 (.number .add) #[0, 1, 2, 3, 4, 5, 6, 7]
      ⟨⟨⟨4, 2, 1⟩⟩, ⟨⟨0, 0, 0⟩, ⟨2, 2, 1⟩⟩, ⟨⟨3, 0, 0⟩, ⟨1, 2, 1⟩⟩⟩ [10, 20, 30, 40, 99]
        [50, (60 : UInt32)]).result = .ok merged ∧
      merged[2]? = some 2 ∧ merged[5]? = some 45 ∧ merged[7]? = some 67 := by
  obtain ⟨⟨merged, hresult, _, hvalues⟩, _⟩ := unpack_merges_each_slot
    ⟨⟨⟨4, 2, 1⟩⟩, ⟨⟨0, 0, 0⟩, ⟨2, 2, 1⟩⟩, ⟨⟨3, 0, 0⟩, ⟨1, 2, 1⟩⟩⟩ ⟨.debug, .off⟩ .shared
    Nat.one_ne_zero (.number .add) (by decide) (by decide) (by decide) (by decide)
    #[0, 1, 2, 3, 4, 5, 6, 7] rfl [10, 20, 30, 40, 99] [50, (60 : UInt32)] (by decide) (by decide)
    (fun _ _ _ _ _ _ _ _ => ⟨_, rfl⟩)
  refine ⟨merged, hresult, ?_, ?_, ?_⟩
  · obtain ⟨c, l, r, hc, hl, hr, _, _, hnone⟩ := hvalues 2 2 rfl
    cases hc
    cases hl
    cases hr
    exact hnone rfl rfl
  · obtain ⟨c, l, r, hc, hl, _, hleft, _, _⟩ := hvalues 5 5 rfl
    cases hc
    cases hl
    obtain ⟨x, v', hx, hv', hnew⟩ := hleft 3 rfl
    cases hx
    cases hv'
    exact hnew
  · obtain ⟨c, l, r, hc, _, hr, _, hright, _⟩ := hvalues 7 7 rfl
    cases hc
    cases hr
    obtain ⟨x, v', hx, hv', hnew⟩ := hright 1 rfl
    cases hx
    cases hv'
    exact hnew

end Slabs

end KineticGrid
