import KineticGrid.Proofs.Ghost.Merging
/-!
# Detection of pairs that are not valid

A pair that leaves the grid or shares cells is found in two ways: by its invariant, which compares
boxes, and by merging, which meets the rows of both slabs on its way through the array. Main
statement: both find the same pairs and name the same error, before any value is merged.
-/

namespace KineticGrid

variable {V E : Type}

/-- The errors of a pair of slabs that is not valid. -/
def Error.IsSlabError : Error → Prop
  | .boxOutsideGrid _ _ | .overlappingSlabs _ _ => True
  | _ => False

namespace Slabs

variable {s : Slabs} {cells : Array V} {left right : List E}

theorem requireInside_cases (s : Slabs) : s.Inside ∨
    ∃ text, s.requireInside = Fallible.reject (.boxOutsideGrid text s.grid.dims) := by
  by_cases hleft : s.left.Within s.grid.extent
  · by_cases hright : s.right.Within s.grid.extent
    · exact .inl ⟨hleft, hright⟩
    · refine .inr ⟨s.right.text, ?_⟩
      rw [requireInside, Box.requireInside_eq hleft, Box.requireInside,
        if_neg (mt Box.fitsIn_iff.1 hright)]
      rfl
  · refine .inr ⟨s.left.text, ?_⟩
    rw [requireInside, Box.requireInside, if_neg (mt Box.fitsIn_iff.1 hleft)]
    rfl

theorem Inside.exists_contains_iff (h : s.Inside) :
    (∃ c : Coords, s.grid.contains c = true ∧ s.left.contains c = true ∧
        s.right.contains c = true) ↔ ∃ c, s.left.Has c ∧ s.right.Has c := by
  simp only [Grid.contains_iff, Box.contains_iff]
  constructor
  · rintro ⟨c, _, hleft, hright⟩
    exact ⟨_, hleft, hright⟩
  · rintro ⟨c, hleft, hright⟩
    obtain ⟨words, rfl⟩ := Grid.exists_coords (h.left.has hleft)
    exact ⟨words, h.left.has hleft, hleft, hright⟩

theorem Inside.validate_eq_overlap_iff {b : Build} (h : s.Inside)
    (hg : s.grid.extent.volume < wordSize) :
    s.validate b = .error (.error s.overlap) ↔ ∃ c, s.left.Has c ∧ s.right.Has c := by
  rcases h.validate_eq (b := b) hg with ⟨hok, hvalid⟩ | ⟨hreject, hshared⟩
  · rw [hok]
    constructor
    · exact fun herr => by cases herr
    · rintro ⟨c, hleft, hright⟩
      exact absurd hright (hvalid.disjoint c hleft)
  · exact ⟨fun _ => hshared, fun _ => hreject⟩

theorem requireBuffers_release (hg : s.grid.extent.volume < wordSize) {left right : Nat}
    (hl : ∀ n, s.left.size .release = .ok n → n ≤ left)
    (hr : ∀ n, s.right.size .release = .ok n → n ≤ right) :
    s.requireBuffers .release s.grid.extent.volume left right = .ok () := by
  obtain ⟨l, hsizel⟩ := s.left.grid.exists_size (b := .release) nofun
  obtain ⟨r, hsizer⟩ := s.right.grid.exists_size (b := .release) nofun
  change s.left.size .release = .ok l at hsizel
  change s.right.size .release = .ok r at hsizer
  have hle := hl l hsizel
  have hre := hr r hsizer
  rw [requireBuffers, Grid.size_eq hg, hsizel, hsizer]
  change (Fallible.requireLength _ s.grid.extent.volume s.grid.extent.volume >>= _) = _
  rw [Fallible.requireLength, if_pos rfl]
  change (if left < l then _ else if right < r then _ else _) = _
  rw [if_neg (by omega), if_neg (by omega)]
  rfl

/-- A sweep refuses the rows of two slabs exactly if the slabs share a cell, and merges nothing
before it does. -/
theorem Inside.sweep_cases (h : s.Inside) (m : Mode)
    (hcells : cells.size = s.grid.extent.volume) (hl : s.left.shape.volume ≤ left.length)
    (hr : s.right.shape.volume ≤ right.length) :
    ((∃ c, s.left.Has c ∧ s.right.Has c) ∧ ∀ op : Transfer V E,
        s.sweep m op cells (s.bothRows left right) = Outcome.reject s.overlap) ∨
      (¬∃ c, s.left.Has c ∧ s.right.Has c) ∧ ∀ (op : Transfer V E) (err : Error), err.IsSlabError →
        (s.sweep m op cells (s.bothRows left right)).result ≠ .error (.error err) := by
  have hrange : ∀ row ∈ inOrder (s.bothRows left right),
      row.1 + row.2.length ≤ 0 + cells.toList.length := fun row hrow => by
    rw [Array.length_toList, hcells, Nat.zero_add]
    exact h.end_le_of_mem_bothRows hl hr ((inOrder_perm _).mem_iff.1 hrow)
  have hshared : (¬∃ c, s.left.Has c ∧ s.right.Has c) ↔
      ∀ c, s.left.Has c → ¬s.right.Has c := by simp only [not_exists, not_and]
  rw [hshared, ← h.pairwise_inOrder_iff hl hr]
  unfold sweep
  rcases carve_cases s.overlap hrange with ⟨⟨_, hsorted⟩, cut, hcut⟩ | ⟨hnot, hcut⟩
  · refine .inr ⟨hsorted, fun op err herr => ?_⟩
    rw [hcut]
    split
    · intro hresult
      cases hresult
    · obtain ⟨pieces, rest⟩ := cut
      change (Executor.run m .unpack (pieces.mapM (Piece.merge op)) >>= _).result ≠ _
      rw [Outcome.result_bind, Executor.result_run]
      cases pieces.mapM (Piece.merge op) with
      | ok merged =>
          intro hresult
          cases hresult
      | error f =>
          intro hresult
          cases hresult
          exact herr
  · have hunsorted : ¬(inOrder (s.bothRows left right)).Pairwise Before :=
      fun hsorted => hnot ⟨fun row _ => Nat.zero_le _, hsorted⟩
    refine .inl ⟨?_, fun op => ?_⟩
    · rw [h.pairwise_inOrder_iff hl hr, ← hshared, not_not] at hunsorted
      exact hunsorted
    · rw [hcut, if_neg]
      · rfl
      · intro hempty
        rw [List.isEmpty_iff.1 hempty, inOrder, List.mergeSort_nil] at hunsorted
        exact hunsorted .nil

section

variable {requested : Nat}

/-- Either a pair has a defect, which its invariant and merging both name, or neither finds one. -/
theorem unpack_release_cases (level : Level) (e : Executor) (hrequested : requested ≠ 0)
    (hg : s.grid.extent.volume < wordSize) (hrows : s.grid.extent.y * s.grid.extent.z ≤ word32Size)
    (hcells : cells.size = s.grid.extent.volume)
    (hl : ∀ n, s.left.size .release = .ok n → n ≤ left.length)
    (hr : ∀ n, s.right.size .release = .ok n → n ≤ right.length) :
    (∃ err : Error, err.IsSlabError ∧ (∀ b, s.validate b = Fallible.reject err) ∧
        ∀ op : Transfer V E, s.unpack ⟨.release, level⟩ e requested op cells left right =
          e.block ⟨.release, level⟩ .unpack requested >>= fun _ => Outcome.reject err) ∨
      (∀ b, s.validate b = .ok ()) ∧ ∀ (op : Transfer V E) (err : Error), err.IsSlabError →
        (s.unpack ⟨.release, level⟩ e requested op cells left right).result ≠
          .error (.error err) := by
  have hblock := Executor.result_block ⟨.release, level⟩ e .unpack hrequested
  rcases s.requireInside_cases with h | ⟨text, houtside⟩
  · have hl := hl _ (Box.size_eq (h.left_lt hg))
    have hr := hr _ (Box.size_eq (h.right_lt hg))
    have heq := h.unpack_eq (m := ⟨.release, level⟩) (h.loaded hg hrows hcells hl hr) rfl e
      requested
    rcases h.sweep_cases ⟨.release, level⟩ hcells hl hr with ⟨hshared, hsweep⟩ | ⟨hnot, hsweep⟩
    · refine .inl ⟨s.overlap, trivial, fun b => ?_, fun op => ?_⟩
      · exact (h.validate_eq_overlap_iff hg).2 hshared
      · rw [heq, hsweep]
    · have hvalid : s.Valid := ⟨h.left, h.right, fun c hleft hright => hnot ⟨c, hleft, hright⟩⟩
      refine .inr ⟨fun b => (validate_eq_ok_iff hg).2 hvalid, fun op err herr => ?_⟩
      rw [heq, Outcome.result_bind, hblock]
      exact hsweep op err herr
  · refine .inl ⟨.boxOutsideGrid text s.grid.dims, trivial, fun b => ?_, fun op => ?_⟩
    · rw [validate, houtside]
      rfl
    · rw [unpack, hcells, requireBuffers_release hg hl hr, houtside]
      rfl

/-- In the build without checks, merging refuses exactly the pairs whose invariant is violated, with
the same error and before it merges anything; a pair inside its grid is refused exactly if some
cell lies in both slabs. In the checked build the same error is the cause of a fault. -/
theorem unpack_refuses_exactly_invalid (s : Slabs) (level : Level) (e : Executor)
    (hrequested : requested ≠ 0) (op : Transfer V E) (hg : s.grid.extent.volume < wordSize)
    (hrows : s.grid.extent.y * s.grid.extent.z ≤ word32Size) (cells : Array V)
    (hcells : cells.size = s.grid.extent.volume) (left right : List E)
    (hl : ∀ n, s.left.size .release = .ok n → n ≤ left.length)
    (hr : ∀ n, s.right.size .release = .ok n → n ≤ right.length) :
    (∀ (err : Error) (b : Build), err.IsSlabError →
      ((s.unpack ⟨.release, level⟩ e requested op cells left right).result = .error (.error err) ↔
        s.validate b = .error (.error err))) ∧
    (s.left.fitsIn s.grid = true → s.right.fitsIn s.grid = true →
      ((s.unpack ⟨.release, level⟩ e requested op cells left right).result =
          .error (.error s.overlap) ↔
        ∃ c : Coords, s.grid.contains c = true ∧ s.left.contains c = true ∧
          s.right.contains c = true)) ∧
    (∀ err : Error, err.IsSlabError →
      (s.unpack ⟨.release, level⟩ e requested op cells left right).result = .error (.error err) →
      (s.unpack ⟨.release, level⟩ e requested op cells left right).valueD cells = cells ∧
      (∀ op' : Transfer V E, s.unpack ⟨.release, level⟩ e requested op' cells left right =
        s.unpack ⟨.release, level⟩ e requested op cells left right) ∧
      (s.unpack ⟨.debug, level⟩ e requested op cells left right).result =
        .error (.fault (.brokenInvariant .slabs err))) := by
  have hblock := Executor.result_block ⟨.release, level⟩ e .unpack hrequested
  have hcases := unpack_release_cases level e hrequested hg hrows hcells hl hr
  have hagree (err : Error) (b : Build) (herr : err.IsSlabError) :
      (s.unpack ⟨.release, level⟩ e requested op cells left right).result = .error (.error err) ↔
        s.validate b = .error (.error err) := by
    rcases hcases with ⟨defect, _, hvalidate, hunpack⟩ | ⟨hvalidate, hunpack⟩
    · rw [hvalidate, hunpack, Outcome.result_bind, hblock]
      constructor
      all_goals
        intro herror
        cases herror
        rfl
    · rw [hvalidate]
      constructor
      · exact fun hresult => absurd hresult (hunpack op err herr)
      · exact fun hok => by cases hok
  refine ⟨hagree, fun hleft hright => ?_, fun err herr hresult => ⟨?_, fun op' => ?_, ?_⟩⟩
  · have h : s.Inside := ⟨Box.fitsIn_iff.1 hleft, Box.fitsIn_iff.1 hright⟩
    rw [hagree s.overlap .debug trivial, h.exists_contains_iff]
    exact h.validate_eq_overlap_iff hg
  · rw [Outcome.valueD, hresult]
  · rcases hcases with ⟨defect, _, _, hunpack⟩ | ⟨_, hunpack⟩
    · rw [hunpack, hunpack]
    · exact absurd hresult (hunpack op err herr)
  · rw [unpack, assert, (hagree err .debug herr).1 hresult]
    rfl

theorem unpack_refuses_exactly_invalid_four :
    (unpack ⟨.release, .off⟩ .shared 1 (.number .add) #[0, 1, 2, 3]
        ⟨⟨⟨4, 1, 1⟩⟩, ⟨⟨0, 0, 0⟩, ⟨3, 1, 1⟩⟩, ⟨⟨2, 0, 0⟩, ⟨2, 1, 1⟩⟩⟩ [10, 20, 30]
        [40, (50 : UInt32)]).result =
      .error (.error (.overlappingSlabs "CellRange([0, 0, 0] + [3, 1, 1])"
        "CellRange([2, 0, 0] + [2, 1, 1])")) ∧
    (unpack ⟨.release, .off⟩ .shared 1 (.number .add) #[0, 1, 2, 3]
        ⟨⟨⟨4, 1, 1⟩⟩, ⟨⟨0, 0, 0⟩, ⟨1, 1, 1⟩⟩, ⟨⟨3, 0, 0⟩, ⟨2, 1, 1⟩⟩⟩ [10]
        [40, (50 : UInt32)]).result =
      .error (.error (.boxOutsideGrid "CellRange([3, 0, 0] + [2, 1, 1])" ⟨4, 1, 1⟩)) := by
  have hbuffer {r : Box} {n : Nat} {buffer : List UInt32} (hn : r.size .release = .ok n)
      (hle : n ≤ buffer.length) (k : Nat) (hk : r.size .release = .ok k) : k ≤ buffer.length := by
    rw [hn] at hk
    cases hk
    exact hle
  constructor
  · exact ((unpack_refuses_exactly_invalid _ .off .shared (by decide) (.number .add) (by decide)
      (by decide) _ rfl _ _ (hbuffer (n := 3) rfl (by decide))
      (hbuffer (n := 2) rfl (by decide))).1 (.overlappingSlabs _ _) .debug trivial).2 (by decide)
  · exact ((unpack_refuses_exactly_invalid _ .off .shared (by decide) (.number .add) (by decide)
      (by decide) _ rfl _ _ (hbuffer (n := 1) rfl (by decide))
      (hbuffer (n := 2) rfl (by decide))).1 (.boxOutsideGrid _ _) .debug trivial).2 (by decide)

end

end Slabs

end KineticGrid
