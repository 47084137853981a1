import KineticGrid.Proofs.Space.Globe
/-!
# The parts of a grid

The slabs of an accepted topology and its owned cells, against the cells of its grid. Main
statement: both builds compute the same slabs, the four slabs across an axis lie inside the grid one
after the other, the owned cells are those outside all ghost slabs, and the topology passes its
check; a topology that is not accepted fails it with the same error.
-/

namespace KineticGrid

/-- No cell lies in both boxes. -/
def Box.Apart (r s : Box) : Prop := ∀ c : Coords, r.contains c = true → s.contains c = false

/-- The boxes of two pairs, one around the other, from left to right. -/
def Slabs.around (outer inner : Slabs) : List Box :=
  [outer.left, inner.left, inner.right, outer.right]

namespace Box

variable {b : Build} {r s : Box}

/-- Boxes of which one ends before the other starts do not meet, whatever becomes of their sizes. -/
theorem meets_eq_false (hr : b = .debug → r.shape.volume < wordSize)
    (hs : b = .debug → s.shape.volume < wordSize) {a : Axis}
    (ha : r.stop a ≤ (s.origin.get a).toNat) : r.meets b s = .ok false := by
  obtain ⟨n, hn⟩ := r.grid.exists_size hr
  obtain ⟨k, hk⟩ := s.grid.exists_size hs
  have hseparate : Vec3.all (fun a => decide ((r.origin.get a).toNat < s.stop a) &&
      decide ((s.origin.get a).toNat < r.stop a)) = false := by
    rw [← Bool.not_eq_true, Vec3.all_eq_true_iff]
    intro hmeet
    have hcross := hmeet a
    rw [Bool.and_eq_true, decide_eq_true_eq, decide_eq_true_eq] at hcross
    omega
  rw [meets, isEmpty, size, hn, isEmpty, size, hk, hseparate]
  change (if decide (n = 0) = true then _ else
    (if decide (k = 0) = true then _ else _)) = _
  split
  · rfl
  · split
    · rfl
    · rfl

end Box

namespace Topology

variable {b : Build} {t : Topology} {a : Axis}

/-! ## Cells of slabs -/

/-- Of a cell of the grid only its coordinate across a slab decides whether it lies there. -/
theorem slab_contains_iff {start : UInt32} {c : Coords} (hc : t.grid.contains c = true) :
    (t.slab a start).contains c = true ↔
      start.toNat ≤ (c.get a).toNat ∧ (c.get a).toNat < start.toNat + t.halo a := by
  have hgrid := Grid.contains_iff.1 hc
  rw [Box.contains_iff, slab_has_iff, Vec3.get_map]
  exact and_iff_right fun b _ => hgrid b

theorem slab_apart {start start' : UInt32} (h : start.toNat + t.halo a ≤ start'.toNat) :
    (t.slab a start).Apart (t.slab a start') := by
  intro c hc
  rw [← Bool.not_eq_true]
  intro hc'
  have hfirst := (slab_has_iff.1 (Box.contains_iff.1 hc)).2
  have hsecond := (slab_has_iff.1 (Box.contains_iff.1 hc')).2
  omega

theorem slab_fitsIn {start : UInt32} (h : start.toNat + t.halo a ≤ t.extent.get a) :
    (t.slab a start).fitsIn t.grid = true :=
  Box.fitsIn_iff.2 (slab_within h)

/-! ## Checks -/

theorem slabPair_validate {left right : UInt32}
    (hvolume : b = .debug → (t.slabShape a).volume < wordSize)
    (hlr : left.toNat + t.halo a ≤ right.toNat)
    (hr : right.toNat + t.halo a ≤ t.extent.get a) :
    (t.slabPair a left right).validate b = .ok () := by
  have hstop : (t.slab a left).stop a ≤ ((t.slab a right).origin.get a).toNat := by
    rw [Box.stop, slab, slab, Vec3.get_set_self, Vec3.get_set_self, Vec3.get_set_self]
    exact hlr
  have hmeets : (t.slab a left).meets b (t.slab a right) = .ok false := by
    refine Box.meets_eq_false ?_ ?_ hstop
    · rwa [slab_shape]
    · rwa [slab_shape]
  rw [Slabs.validate, (slabPair_valid hlr hr).inside.requireInside_eq]
  change ((liftM ((t.slab a left).meets b (t.slab a right)) : Fallible Bool) >>= _) = _
  rw [hmeets]
  rfl

/-- The four slabs across an axis follow each other. -/
theorem Holds.marks_le (h : t.Holds) (a : Axis) :
    (t.ghost.get a).toNat + t.halo a ≤ (t.mark a 2).toNat ∧
      (t.mark a 2).toNat + t.halo a = (t.mark a 1).toNat ∧
      (t.mark a 1).toNat + t.halo a = t.extent.get a := by
  have hcore := h.core_eq a
  have hone := h.toNat_mark a 1 (by decide)
  have htwo := h.toNat_mark a 2 (by decide)
  change _ = _ - 1 * t.halo a at hone
  change _ = _ - 2 * t.halo a at htwo
  change t.halo a + t.halo a ≤ _ ∧ _
  omega

theorem Holds.validate_eq (h : t.Holds)
    (hvolume : b = .debug → ∀ a, (t.slabShape a).volume < wordSize) : t.validate b = .ok () := by
  have haxis (a : Axis) : (do
      (← t.ghostSlabs b a).validate b
      (← t.boundarySlabs b a).validate b : Fallible Unit) = .ok () := by
    have hmarks := h.marks_le a
    have hghosts : (t.slabPair a 0 (t.mark a 1)).validate b = .ok () :=
      slabPair_validate (fun hb => hvolume hb a) (by change 0 + _ ≤ _; omega) (by omega)
    have hboundary : (t.slabPair a (t.ghost.get a) (t.mark a 2)).validate b = .ok () :=
      slabPair_validate (fun hb => hvolume hb a) hmarks.1 (by omega)
    rw [h.ghostSlabs_eq, h.boundarySlabs_eq]
    change ((t.slabPair a 0 (t.mark a 1)).validate b >>= fun _ =>
      (t.slabPair a (t.ghost.get a) (t.mark a 2)).validate b) = _
    rw [hghosts]
    exact hboundary
  rw [validate, requireRoom, if_pos h]
  simp only [haxis]
  rfl

/-! ## The partition -/

/-- A box and two pairs of slabs for each axis divide a grid as its topology says. -/
structure Partition (t : Topology) (owned : Box) (ghosts boundary : Axis → Slabs) : Prop where
  owned_fits : owned.fitsIn t.grid = true
  slabs_fit : ∀ a, ∀ r ∈ (ghosts a).around (boundary a), r.fitsIn t.grid = true
  apart : ∀ a, ((ghosts a).around (boundary a)).Pairwise Box.Apart
  owned_iff : ∀ c, t.grid.contains c = true → (owned.contains c = true ↔
    ∀ a, (ghosts a).left.contains c = false ∧ (ghosts a).right.contains c = false)
  boundary_iff : ∀ c, owned.contains c = true → ∀ a,
    ((boundary a).left.contains c = true ∨ (boundary a).right.contains c = true ↔
      (c.get a).toNat < 2 * (t.ghost.get a).toNat ∨
        (t.dims.get a).toNat - 2 * (t.ghost.get a).toNat ≤ (c.get a).toNat)

theorem Holds.ownedBox_contains_iff (h : t.Holds) {c : Coords} :
    t.ownedBox.contains c = true ↔ ∀ a, (t.ghost.get a).toNat ≤ (c.get a).toNat ∧
      (c.get a).toNat < (t.mark a 1).toNat := by
  rw [Box.contains_iff, h.ownedBox_has_iff]
  apply forall_congr'
  intro a
  have hcore := h.core_eq a
  have hmarks := h.marks_le a
  rw [Vec3.get_map]
  change t.halo a ≤ _ ∧ _ ↔ t.halo a ≤ _ ∧ _
  omega

theorem Holds.partition (h : t.Holds) :
    t.Partition t.ownedBox (fun a => t.slabPair a 0 (t.mark a 1))
      (fun a => t.slabPair a (t.ghost.get a) (t.mark a 2)) where
  owned_fits := Box.fitsIn_iff.2 h.ownedBox_within
  slabs_fit a r hr := by
    have hmarks := h.marks_le a
    simp only [Slabs.around, slabPair, List.mem_cons, List.not_mem_nil, or_false] at hr
    rcases hr with rfl | rfl | rfl | rfl
    · exact slab_fitsIn (by change 0 + _ ≤ _; omega)
    all_goals exact slab_fitsIn (by omega)
  apart a := by
    have hmarks := h.marks_le a
    have hzero : (0 : UInt32).toNat = 0 := rfl
    have hghost : (t.ghost.get a).toNat = t.halo a := rfl
    simp only [Slabs.around, slabPair, List.pairwise_cons, List.mem_cons, List.not_mem_nil,
      or_false, forall_eq_or_imp, forall_eq, false_imp_iff, implies_true, List.Pairwise.nil,
      and_true]
    refine ⟨⟨?_, ?_, ?_⟩, ⟨?_, ?_⟩, ?_⟩
    all_goals exact slab_apart (by omega)
  owned_iff c hc := by
    rw [h.ownedBox_contains_iff]
    apply forall_congr'
    intro a
    have hmarks := h.marks_le a
    have hcell := Grid.contains_iff.1 hc a
    rw [Vec3.get_map] at hcell
    change _ < t.extent.get a at hcell
    rw [← Bool.not_eq_true, ← Bool.not_eq_true]
    change _ ↔ ¬(t.slab a 0).contains c = true ∧ ¬(t.slab a (t.mark a 1)).contains c = true
    rw [slab_contains_iff hc, slab_contains_iff hc]
    change t.halo a ≤ _ ∧ _ ↔ ¬(0 ≤ _ ∧ _ < 0 + t.halo a) ∧ _
    omega
  boundary_iff c hc a := by
    have hgrid : t.grid.contains c = true :=
      Grid.contains_iff.2 (h.ownedBox_within.has (Box.contains_iff.1 hc))
    have howned := h.ownedBox_contains_iff.1 hc a
    have hmarks := h.marks_le a
    have hcore := h.core_eq a
    rw [← get_extent]
    change (t.slab a (t.ghost.get a)).contains c = true ∨
      (t.slab a (t.mark a 2)).contains c = true ↔
        _ < 2 * t.halo a ∨ _ - 2 * t.halo a ≤ _
    rw [slab_contains_iff hgrid, slab_contains_iff hgrid]
    change t.halo a ≤ _ ∧ _ at howned
    change t.halo a ≤ _ ∧ _ < t.halo a + _ ∨ _ ↔ _
    omega

/-- An accepted topology has the same slabs in both builds, which divide its grid into the owned
cells and the ghost cells of each axis, and it passes its check as long as the checked build can
count the cells of each slab. A topology that is not accepted does not pass its check either, and
the check does nothing but say so. -/
theorem slabs_partition_grid (dims ghost : Vec3 UInt32) :
    (∀ t, make dims ghost = .ok t → ∃ owned ghosts boundary,
      (∀ b, t.owned b = .ok owned) ∧ (∀ b a, t.ghostSlabs b a = .ok (ghosts a)) ∧
      (∀ b a, t.boundarySlabs b a = .ok (boundary a)) ∧ t.Partition owned ghosts boundary ∧
      t.validate .release = .ok () ∧
      ((∀ a, ∀ r ∈ (ghosts a).around (boundary a), r.shape.volume < wordSize) →
        t.validate .debug = .ok ())) ∧
    (∀ e, make dims ghost = .error e → e = .error (.invalidTopology dims ghost) ∧
      ∀ b, (⟨dims, ghost⟩ : Topology).validate b =
        .error (.error (.invalidTopology dims ghost))) := by
  constructor
  · intro t hmake
    have h := (make_eq_ok_iff.1 hmake).2
    obtain rfl := (make_eq_ok_iff.1 hmake).1
    refine ⟨_, _, _, fun b => h.owned_eq, fun b a => h.ghostSlabs_eq a,
      fun b a => h.boundarySlabs_eq a, h.partition, h.validate_eq nofun, fun hvolume => ?_⟩
    refine h.validate_eq fun _ a => ?_
    have hslab := hvolume a _ List.mem_cons_self
    rwa [slabPair, slab_shape] at hslab
  · intro e hmake
    have hroom : (⟨dims, ghost⟩ : Topology).requireRoom =
        Fallible.reject (.invalidTopology dims ghost) := by
      rw [make] at hmake
      rw [requireRoom] at hmake ⊢
      split at hmake
      · cases hmake
      · rw [if_neg ‹_›]
    constructor
    · rw [make, hroom] at hmake
      cases hmake
      rfl
    · intro b
      rw [validate, hroom]
      rfl

/-- A grid of ghost width two along one axis and one along another, and one without room. -/
theorem slabs_partition_grid_eight :
    (∃ t, make ⟨8, 5, 1⟩ ⟨2, 1, 0⟩ = .ok t ∧ t.validate .debug = .ok ()) ∧
    make ⟨7, 5, 1⟩ ⟨2, 1, 0⟩ = .error (.error (.invalidTopology ⟨7, 5, 1⟩ ⟨2, 1, 0⟩)) ∧
    (⟨⟨7, 5, 1⟩, ⟨2, 1, 0⟩⟩ : Topology).validate .debug =
      .error (.error (.invalidTopology ⟨7, 5, 1⟩ ⟨2, 1, 0⟩)) := by
  refine ⟨⟨_, rfl, ?_⟩, rfl, ?_⟩
  · obtain ⟨_, ghosts, boundary, _, hghosts, hboundary, _, _, hvalidate⟩ :=
      (slabs_partition_grid ⟨8, 5, 1⟩ ⟨2, 1, 0⟩).1 _ rfl
    refine hvalidate fun a r hr => ?_
    have houter := hghosts .debug a
    have hinner := hboundary .debug a
    rw [Holds.ghostSlabs_eq (by decide)] at houter
    rw [Holds.boundarySlabs_eq (by decide)] at hinner
    rw [← Except.ok.inj houter, ← Except.ok.inj hinner] at hr
    cases a <;> revert r <;> decide
  · exact ((slabs_partition_grid ⟨7, 5, 1⟩ ⟨2, 1, 0⟩).2 _ rfl).2 .debug

end Topology

end KineticGrid
