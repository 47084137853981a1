import KineticGrid.Proofs.Space.Torus
import Mathlib.Algebra.Order.BigOperators.Group.Finset
/-!
# Copies of a cell

The cells of all ranks that stand for one cell of the world, as pairs of a rank and a slot. Main
statements: what a fold gathers in a cell, axis by axis, comes from different copies of the cell,
and in an owned cell from all of them; the sums over the copies of all owned cells make up the sum
over all cells.
-/

namespace KineticGrid

/-! ## One axis -/

namespace Lap

/-- Where the values come from that a fold along one axis adds up in a cell. -/
def gathered (p : Lap) (h l : Nat) : Finset (Nat × Nat) :=
  if p.halo ≤ l ∧ l < 2 * p.halo then
    {(h, l), ((h + (p.ranks - 1)) % p.ranks, l + p.core)}
  else if p.core ≤ l ∧ l < p.core + p.halo then
    {(h, l), ((h + 1) % p.ranks, l - p.core)}
  else {(h, l)}

variable {p : Lap} {h l : Nat} {q : Nat × Nat}

theorem eq_or_owner_of_mem_gathered (hp : p.Roomy) (hh : h < p.ranks)
    (hl : l < p.core + 2 * p.halo) (hq : q ∈ p.gathered h l) :
    q = (h, l) ∨ q.1 < p.ranks ∧ q.2 < p.core + 2 * p.halo ∧ p.owner q.1 q.2 = (h, l) := by
  have hhalo := hp.halo_le
  have hpos : 0 < p.ranks := by omega
  unfold gathered at hq
  split at hq
  · rcases Finset.mem_insert.1 hq with rfl | hq
    · exact .inl rfl
    · obtain rfl := Finset.mem_singleton.1 hq
      refine .inr ⟨Nat.mod_lt _ hpos, by dsimp only; omega, ?_⟩
      dsimp only
      rw [owner_of_le (by omega) hp, right_left hh, Nat.add_sub_cancel]
  · split at hq
    · rcases Finset.mem_insert.1 hq with rfl | hq
      · exact .inl rfl
      · obtain rfl := Finset.mem_singleton.1 hq
        refine .inr ⟨Nat.mod_lt _ hpos, by dsimp only; omega, ?_⟩
        dsimp only
        rw [owner_of_lt (by omega), left_right hh, Nat.sub_add_cancel (by omega)]
    · exact .inl (Finset.mem_singleton.1 hq)

theorem mem_gathered_self (p : Lap) (h l : Nat) : (h, l) ∈ p.gathered h l := by
  unfold gathered
  split
  · exact Finset.mem_insert_self _ _
  · split
    · exact Finset.mem_insert_self _ _
    · exact Finset.mem_singleton_self _

theorem mem_gathered_of_owner (hp : p.Roomy) (hq : q.1 < p.ranks)
    (hq' : q.2 < p.core + 2 * p.halo) (howner : p.owner q.1 q.2 = (h, l)) :
    q ∈ p.gathered h l := by
  have hhalo := hp.halo_le
  obtain ⟨h', l'⟩ := q
  dsimp only at hq hq' howner
  by_cases hleft : l' < p.halo
  · rw [owner_of_lt hleft, Prod.mk.injEq] at howner
    obtain ⟨rfl, rfl⟩ := howner
    rw [gathered, if_neg (by omega), if_pos (by omega), right_left hq, Nat.add_sub_cancel]
    exact Finset.mem_insert_of_mem (Finset.mem_singleton_self _)
  · by_cases hright : p.core + p.halo ≤ l'
    · rw [owner_of_le hright hp, Prod.mk.injEq] at howner
      obtain ⟨rfl, rfl⟩ := howner
      rw [gathered, if_pos (by omega), left_right hq, Nat.sub_add_cancel (by omega)]
      exact Finset.mem_insert_of_mem (Finset.mem_singleton_self _)
    · rw [owner_of_owns (show p.halo ≤ l' ∧ l' < p.core + p.halo by omega),
        Prod.mk.injEq] at howner
      obtain ⟨rfl, rfl⟩ := howner
      exact p.mem_gathered_self _ _

theorem coordinate_of_mem_gathered (hp : p.Roomy) (hh : h < p.ranks)
    (hl : l < p.core + 2 * p.halo) (hq : q ∈ p.gathered h l) :
    q.1 < p.ranks ∧ q.2 < p.core + 2 * p.halo ∧
      p.coordinate q.1 q.2 = p.coordinate h l := by
  rcases eq_or_owner_of_mem_gathered hp hh hl hq with rfl | ⟨hfirst, hsecond, howner⟩
  · exact ⟨hh, hl, rfl⟩
  · have hsame := coordinate_owner (l := q.2) hfirst
    rw [howner] at hsame
    exact ⟨hfirst, hsecond, hsame.symm⟩

end Lap

/-! ## All axes -/

namespace Torus

variable {n : Nat} {t : Topology}

def cells (n : Nat) (t : Topology) : Finset (Nat × Nat) :=
  Finset.range n ×ˢ Finset.range t.extent.volume

theorem mem_cells {q : Nat × Nat} : q ∈ cells n t ↔ q.1 < n ∧ q.2 < t.extent.volume := by
  rw [cells, Finset.mem_product, Finset.mem_range, Finset.mem_range]

instance (t : Topology) (l : Vec3 Nat) : Decidable (t.Owns l) :=
  decidable_of_iff (Vec3.all (fun a => decide (t.halo a ≤ l.get a ∧
    l.get a < t.core a + t.halo a)) = true) (by
    simp only [Vec3.all_eq_true_iff, decide_eq_true_eq, Topology.Owns])

def ownedCells (n : Nat) (t : Topology) : Finset (Nat × Nat) :=
  (cells n t).filter fun q => t.Owns (t.extent.cell q.2)

/-- The cells that stand for the same cell of the world as a cell of a rank. -/
def copies (T : Torus n) (t : Topology) (i : Nat) (l : Vec3 Nat) : Finset (Nat × Nat) :=
  (cells n t).filter fun q => T.coordinates t q.1 (t.extent.cell q.2) = T.coordinates t i l

/-- The cells whose values a fold along all axes adds up in a cell. -/
def gathered (T : Torus n) (t : Topology) (h l : Vec3 Nat) : Finset (Nat × Nat) :=
  ((T.lap t .z).gathered h.z l.z ×ˢ (T.lap t .y).gathered h.y l.y ×ˢ
    (T.lap t .x).gathered h.x l.x).image fun q =>
      (T.rank ⟨q.2.2.1, q.2.1.1, q.1.1⟩, t.extent.slot ⟨q.2.2.2, q.2.1.2, q.1.2⟩)

section

variable {T : Torus n} {i : Nat} {h l : Vec3 Nat}

theorem copies_congr {j : Nat} {l' : Vec3 Nat}
    (h : T.coordinates t i l = T.coordinates t j l') : T.copies t i l = T.copies t j l' := by
  rw [copies, copies, h]

private theorem has_of_gathered (ht : t.Holds) (hh : T.shape.Has h) (hl : t.extent.Has l)
    {qx qy qz : Nat × Nat} (hx : qx ∈ (T.lap t .x).gathered h.x l.x)
    (hy : qy ∈ (T.lap t .y).gathered h.y l.y) (hz : qz ∈ (T.lap t .z).gathered h.z l.z) :
    T.shape.Has ⟨qx.1, qy.1, qz.1⟩ ∧ t.extent.Has ⟨qx.2, qy.2, qz.2⟩ ∧
      T.coordinates t (T.rank ⟨qx.1, qy.1, qz.1⟩) ⟨qx.2, qy.2, qz.2⟩ =
        T.coordinates t (T.rank h) l := by
  obtain ⟨hx₁, hx₂, hx⟩ := Lap.coordinate_of_mem_gathered (T.roomy ht .x) (hh .x)
    (T.lt_of_has ht hl .x) hx
  obtain ⟨hy₁, hy₂, hy⟩ := Lap.coordinate_of_mem_gathered (T.roomy ht .y) (hh .y)
    (T.lt_of_has ht hl .y) hy
  obtain ⟨hz₁, hz₂, hz⟩ := Lap.coordinate_of_mem_gathered (T.roomy ht .z) (hh .z)
    (T.lt_of_has ht hl .z) hz
  have hplace : T.shape.Has ⟨qx.1, qy.1, qz.1⟩ := Extent.has_iff.2 ⟨hx₁, hy₁, hz₁⟩
  refine ⟨hplace, fun a => ?_, ?_⟩
  · have hcore := ht.core_eq a
    cases a
    · exact lt_of_lt_of_eq hx₂ hcore.1.symm
    · exact lt_of_lt_of_eq hy₂ hcore.1.symm
    · exact lt_of_lt_of_eq hz₂ hcore.1.symm
  · rw [coordinates, coordinates, T.place_rank _ hplace, T.place_rank _ hh]
    apply Vec3.ext_get
    intro a
    rw [Vec3.get_ofAxis, Vec3.get_ofAxis]
    cases a
    · exact hx
    · exact hy
    · exact hz

theorem gathered_subset_copies (ht : t.Holds) (hi : i < n) (hl : t.extent.Has l) :
    T.gathered t (T.place i) l ⊆ T.copies t i l := by
  intro q hq
  obtain ⟨⟨qz, qy, qx⟩, hmem, rfl⟩ := Finset.mem_image.1 hq
  rw [Finset.mem_product, Finset.mem_product] at hmem
  obtain ⟨hplace, hcell, hsame⟩ := has_of_gathered ht (T.has_place i hi) hl hmem.2.2 hmem.2.1 hmem.1
  rw [T.rank_place i hi] at hsame
  rw [copies, Finset.mem_filter, mem_cells]
  dsimp only
  rw [Extent.cell_slot hcell]
  exact ⟨⟨T.rank_lt _ hplace, Extent.slot_lt hcell⟩, hsame⟩

/-- A fold gathers in an owned cell the values of all of its copies. -/
theorem gathered_eq_copies (ht : t.Holds) (hi : i < n) (hl : t.Owns l) :
    T.gathered t (T.place i) l = T.copies t i l := by
  apply Finset.Subset.antisymm (gathered_subset_copies ht hi (hl.has ht))
  rintro ⟨j, s⟩ hq
  rw [copies, Finset.mem_filter, mem_cells] at hq
  obtain ⟨⟨hj, hs⟩, hsame⟩ := hq
  have hcell := Extent.has_cell hs
  have howner : T.Owner t j (t.extent.cell s) i l := ⟨hi, hl, hsame.symm⟩
  have hmem (a : Axis) : ((T.place j).get a, (t.extent.cell s).get a) ∈
      (T.lap t a).gathered ((T.place i).get a) (l.get a) :=
    Lap.mem_gathered_of_owner (T.roomy ht a) (T.has_place j hj a) (T.lt_of_has ht hcell a)
      (howner.owner_eq ht hj hcell a)
  rw [gathered, Finset.mem_image]
  refine ⟨(((T.place j).z, (t.extent.cell s).z), ((T.place j).y, (t.extent.cell s).y),
    ((T.place j).x, (t.extent.cell s).x)), ?_, ?_⟩
  · rw [Finset.mem_product, Finset.mem_product]
    exact ⟨hmem .z, hmem .y, hmem .x⟩
  · exact Prod.ext (T.rank_place j hj) (t.extent.slot_cell s)

theorem sum_gathered {M : Type} [AddCommMonoid M] (ht : t.Holds) (hh : T.shape.Has h)
    (hl : t.extent.Has l) (N : Nat → Vec3 Nat → M) :
    ∑ q ∈ T.gathered t h l, N q.1 (t.extent.cell q.2) =
      ∑ qz ∈ (T.lap t .z).gathered h.z l.z, ∑ qy ∈ (T.lap t .y).gathered h.y l.y,
        ∑ qx ∈ (T.lap t .x).gathered h.x l.x,
          N (T.rank ⟨qx.1, qy.1, qz.1⟩) ⟨qx.2, qy.2, qz.2⟩ := by
  rw [gathered, Finset.sum_image, Finset.sum_product]
  · apply Finset.sum_congr rfl
    intro qz hz
    rw [Finset.sum_product]
    apply Finset.sum_congr rfl
    intro qy hy
    apply Finset.sum_congr rfl
    intro qx hx
    obtain ⟨_, hcell, _⟩ := has_of_gathered ht hh hl hx hy hz
    dsimp only
    rw [Extent.cell_slot hcell]
  · rintro ⟨qz, qy, qx⟩ hq ⟨qz', qy', qx'⟩ hq' heq
    rw [Finset.mem_coe, Finset.mem_product, Finset.mem_product] at hq hq'
    obtain ⟨hplace, hcell, _⟩ := has_of_gathered ht hh hl hq.2.2 hq.2.1 hq.1
    obtain ⟨hplace', hcell', _⟩ := has_of_gathered ht hh hl hq'.2.2 hq'.2.1 hq'.1
    rw [Prod.mk.injEq] at heq
    have hplaces := congrArg T.place heq.1
    rw [T.place_rank _ hplace, T.place_rank _ hplace'] at hplaces
    have hcells := Extent.slot_inj hcell hcell' heq.2
    simp only [Vec3.mk.injEq] at hplaces hcells
    ext <;> simp_all

/-- The copies of all owned cells are all cells, each of them once. -/
theorem sum_copies {M : Type} [AddCommMonoid M] (T : Torus n) (ht : t.Holds)
    (f : Nat × Nat → M) :
    ∑ q ∈ ownedCells n t, ∑ q' ∈ T.copies t q.1 (t.extent.cell q.2), f q' =
      ∑ q ∈ cells n t, f q := by
  let owner (q : Nat × Nat) : Nat × Nat :=
    (T.rank (T.ownerPlace t (T.place q.1) (t.extent.cell q.2)),
      t.extent.slot (T.ownerCell t (T.place q.1) (t.extent.cell q.2)))
  have hmem {q : Nat × Nat} (hq : q ∈ cells n t) := mem_cells.1 hq
  have howner {q : Nat × Nat} (hq : q ∈ cells n t) :=
    owner_of_place (T := T) ht (hmem hq).1 (Extent.has_cell (hmem hq).2)
  have hmaps : ∀ q ∈ cells n t, owner q ∈ ownedCells n t := by
    intro q hq
    have hhas := (howner hq).owns.has ht
    rw [ownedCells, Finset.mem_filter, mem_cells]
    dsimp only [owner]
    rw [Extent.cell_slot hhas]
    exact ⟨⟨(howner hq).lt, Extent.slot_lt hhas⟩, (howner hq).owns⟩
  rw [← Finset.sum_fiberwise_of_maps_to hmaps]
  apply Finset.sum_congr rfl
  intro q hq
  obtain ⟨hq, howns⟩ := Finset.mem_filter.1 hq
  apply Finset.sum_congr _ fun _ _ => rfl
  ext q'
  rw [copies, Finset.mem_filter, Finset.mem_filter]
  refine and_congr_right fun hq' => ⟨fun hsame => ?_, ?_⟩
  · obtain ⟨hplace, hcell⟩ := Owner.eq_of_place ht (hmem hq').1 (Extent.has_cell (hmem hq').2)
      ⟨(hmem hq).1, howns, hsame.symm⟩
    dsimp only [owner]
    rw [← hplace, ← hcell, Extent.slot_cell]
  · rintro rfl
    have hhas := (howner hq').owns.has ht
    dsimp only [owner]
    rw [Extent.cell_slot hhas]
    exact (howner hq').same.symm

end

end Torus

end KineticGrid
