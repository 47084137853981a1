import KineticGrid.Proofs.Space.Copies
/-!
# The cells of the world

The cells of a periodic world, numbered from zero along each axis, and the grid without ghost cells
that holds all of them. Main statements: the owned cells of all ranks are the cells of the world,
each of them once, and cells are copies of each other if they stand for the same cell of the world.
-/

namespace KineticGrid

/-! ## Owned cells -/

namespace Topology

variable {b : Build} {t : Topology}

def ownedBox (t : Topology) : Box := ⟨t.ghost, .ofAxis fun a => t.mark a 2⟩

theorem Holds.owned_eq (h : t.Holds) : t.owned b = .ok t.ownedBox := by
  have hextent : Vec3.ofAxisM (fun a => t.fromEnd b a 2) = .ok t.ownedBox.extent := by
    apply Vec3.ofAxisM_eq
    intro a
    rw [ownedBox, Vec3.get_ofAxis]
    exact h.fromEnd_eq a (by decide)
  rw [owned, hextent]
  rfl

theorem get_first_ownedBox (t : Topology) (a : Axis) : t.ownedBox.first.get a = t.halo a :=
  Vec3.get_map _ _ _

theorem Holds.get_shape_ownedBox (h : t.Holds) (a : Axis) :
    t.ownedBox.shape.get a = t.core a := by
  rw [Box.shape, Vec3.get_map, ownedBox, Vec3.get_ofAxis, h.toNat_mark a 2 (by decide)]
  rfl

theorem Holds.ownedBox_has_iff (h : t.Holds) {l : Vec3 Nat} : t.ownedBox.Has l ↔ t.Owns l := by
  apply forall_congr'
  intro a
  rw [get_first_ownedBox, h.get_shape_ownedBox, Nat.add_comm (t.halo a)]

theorem Holds.ownedBox_within (h : t.Holds) : t.ownedBox.Within t.extent := by
  intro a
  have hcore := h.core_eq a
  rw [get_first_ownedBox, h.get_shape_ownedBox]
  omega

theorem Holds.ownedBox_of_undivided (h : t.Holds) (hghost : ∀ a, t.halo a = 0) :
    t.ownedBox.shape = t.extent ∧ ∀ s, t.ownedBox.cellAt s = t.extent.cell s := by
  have hshape : t.ownedBox.shape = t.extent := by
    apply Vec3.ext_get
    intro a
    rw [h.get_shape_ownedBox, core, hghost]
    rfl
  refine ⟨hshape, fun s => ?_⟩
  apply Vec3.ext_get
  intro a
  rw [Box.cellAt, Vec3.get_zipWith, get_first_ownedBox, hghost, hshape, Nat.zero_add]

def ownedSlots (t : Topology) : Finset Nat :=
  (Finset.range t.extent.volume).filter fun s => t.Owns (t.extent.cell s)

theorem Holds.sum_ownedBox {M : Type} [AddCommMonoid M] (h : t.Holds) (f : Vec3 Nat → M) :
    ∑ s ∈ Finset.range t.ownedBox.shape.volume, f (t.ownedBox.cellAt s) =
      ∑ s ∈ t.ownedSlots, f (t.extent.cell s) := by
  have hhas {s : Nat} (hs : s < t.ownedBox.shape.volume) :
      t.extent.Has (t.ownedBox.cellAt s) := h.ownedBox_within.has (Box.has_cellAt hs)
  refine Finset.sum_nbij' (fun s => t.extent.slot (t.ownedBox.cellAt s))
    (fun s => t.ownedBox.slotAt (t.extent.cell s)) ?_ ?_ ?_ ?_ ?_
  · intro s hs
    have hs := Finset.mem_range.1 hs
    rw [ownedSlots, Finset.mem_filter, Finset.mem_range, Extent.cell_slot (hhas hs)]
    exact ⟨Extent.slot_lt (hhas hs), h.ownedBox_has_iff.1 (Box.has_cellAt hs)⟩
  · intro s hs
    have howns := (Finset.mem_filter.1 hs).2
    exact Finset.mem_range.2 (Box.slotAt_lt (h.ownedBox_has_iff.2 howns))
  · intro s hs
    rw [Extent.cell_slot (hhas (Finset.mem_range.1 hs)), Box.slotAt_cellAt]
  · intro s hs
    have howns := (Finset.mem_filter.1 hs).2
    rw [Box.cellAt_slotAt (h.ownedBox_has_iff.2 howns), Extent.slot_cell]
  · intro s hs
    rw [Extent.cell_slot (hhas (Finset.mem_range.1 hs))]

theorem Holds.card_ownedSlots (h : t.Holds) : t.ownedSlots.card = t.ownedBox.shape.volume := by
  have hones := h.sum_ownedBox fun _ => 1
  simpa using hones.symm

end Topology

/-! ## One axis -/

namespace Lap

variable {p : Lap} {h h' l l' : Nat}

theorem period_pos (hp : p.Roomy) (hh : h < p.ranks) : 0 < p.ranks * p.core :=
  Nat.mul_pos (by omega) hp.core_pos

theorem coordinate_nonneg (hp : p.Roomy) (hh : h < p.ranks) (l : Nat) :
    0 ≤ p.coordinate h l := by
  have hpos := period_pos hp hh
  exact Int.emod_nonneg _ (by exact_mod_cast hpos.ne')

theorem toNat_coordinate_lt (hp : p.Roomy) (hh : h < p.ranks) (l : Nat) :
    (p.coordinate h l).toNat < p.ranks * p.core := by
  have hpos := period_pos hp hh
  have hlt : p.coordinate h l < p.ranks * p.core := Int.emod_lt_of_pos _ (by exact_mod_cast hpos)
  have hnonneg := coordinate_nonneg hp hh l
  apply Int.ofNat_lt.1
  rw [Int.toNat_of_nonneg hnonneg, Nat.cast_mul]
  exact hlt

theorem toNat_coordinate_of_owns (hh : h < p.ranks) (hl : p.Owns l) :
    (p.coordinate h l).toNat = h * p.core + (l - p.halo) := by
  rw [coordinate_of_owns hh hl, Int.toNat_natCast]

end Lap

/-! ## All axes -/

namespace Torus

variable {n : Nat} {t : Topology}

def world (T : Torus n) (t : Topology) : Extent := .ofAxis fun a => T.shape.get a * t.core a

/-- The cell of the world that a cell of a rank stands for. -/
def worldCell (T : Torus n) (t : Topology) (i : Nat) (l : Vec3 Nat) : Vec3 Nat :=
  (T.coordinates t i l).map Int.toNat

def ownerRank (T : Torus n) (t : Topology) (g : Vec3 Nat) : Nat :=
  T.rank (.ofAxis fun a => g.get a / t.core a)

/-- The cell in which this rank has it. -/
def ownedCell (t : Topology) (g : Vec3 Nat) : Vec3 Nat :=
  .ofAxis fun a => g.get a % t.core a + t.halo a

section

variable {T : Torus n} {i j : Nat} {l l' g : Vec3 Nat}

theorem get_worldCell (T : Torus n) (t : Topology) (i : Nat) (l : Vec3 Nat) (a : Axis) :
    (T.worldCell t i l).get a =
      ((T.lap t a).coordinate ((T.place i).get a) (l.get a)).toNat := by
  rw [worldCell, Vec3.get_map, coordinates, Vec3.get_ofAxis]

theorem get_worldCell_of_owns (hi : i < n) (hl : t.Owns l) (a : Axis) :
    (T.worldCell t i l).get a = (T.place i).get a * t.core a + (l.get a - t.halo a) := by
  rw [get_worldCell]
  exact Lap.toNat_coordinate_of_owns (p := T.lap t a) (T.has_place i hi a) (hl a)

theorem world_has_worldCell (ht : t.Holds) (hi : i < n) (l : Vec3 Nat) :
    (T.world t).Has (T.worldCell t i l) := by
  intro a
  rw [get_worldCell, world, Vec3.get_ofAxis]
  exact Lap.toNat_coordinate_lt (T.roomy ht a) (T.has_place i hi a) _

theorem worldCell_eq_iff (ht : t.Holds) (hi : i < n) (hj : j < n) :
    T.worldCell t i l = T.worldCell t j l' ↔ T.coordinates t i l = T.coordinates t j l' := by
  constructor
  · intro h
    apply Vec3.ext_get
    intro a
    have ha := congrArg (Vec3.get · a) h
    simp only [get_worldCell] at ha
    rw [coordinates, coordinates, Vec3.get_ofAxis, Vec3.get_ofAxis,
      ← Int.toNat_of_nonneg (Lap.coordinate_nonneg (T.roomy ht a) (T.has_place i hi a) _),
      ← Int.toNat_of_nonneg (Lap.coordinate_nonneg (T.roomy ht a) (T.has_place j hj a) _), ha]
  · intro h
    rw [worldCell, worldCell, h]

theorem worldCell_owner (ht : t.Holds) (hg : (T.world t).Has g) :
    T.ownerRank t g < n ∧ t.Owns (ownedCell t g) ∧
      T.worldCell t (T.ownerRank t g) (ownedCell t g) = g := by
  have hplace : T.shape.Has (.ofAxis fun a => g.get a / t.core a) := by
    intro a
    have ha := hg a
    rw [world, Vec3.get_ofAxis, Nat.mul_comm] at ha
    rw [Vec3.get_ofAxis]
    exact Nat.div_lt_of_lt_mul ha
  have hcell : t.Owns (ownedCell t g) := by
    intro a
    have hlt := Nat.mod_lt (g.get a) (ht.core_eq a).2.2
    rw [ownedCell, Vec3.get_ofAxis]
    omega
  have hrank : T.ownerRank t g < n := T.rank_lt _ hplace
  refine ⟨hrank, hcell, ?_⟩
  apply Vec3.ext_get
  intro a
  rw [get_worldCell_of_owns hrank hcell, ownerRank, T.place_rank _ hplace,
    ownedCell, Vec3.get_ofAxis, Vec3.get_ofAxis, Nat.add_sub_cancel, Nat.mul_comm,
    Nat.div_add_mod]

theorem eq_of_worldCell_eq (ht : t.Holds) (hi : i < n) (hj : j < n) (hl : t.Owns l)
    (hl' : t.Owns l') (h : T.worldCell t i l = T.worldCell t j l') : i = j ∧ l = l' := by
  have hsame (a : Axis) : (T.place i).get a = (T.place j).get a ∧ l.get a = l'.get a := by
    have ha := congrArg (Vec3.get · a) ((worldCell_eq_iff ht hi hj).1 h)
    simp only [coordinates, Vec3.get_ofAxis] at ha
    exact Lap.eq_of_coordinate_eq (p := T.lap t a) (T.has_place i hi a) (T.has_place j hj a)
      (hl a) (hl' a) ha
  constructor
  · rw [← T.rank_place i hi, ← T.rank_place j hj]
    exact congrArg T.rank (Vec3.ext_get fun a => (hsame a).1)
  · exact Vec3.ext_get fun a => (hsame a).2

theorem sum_world {M : Type} [AddCommMonoid M] (T : Torus n) (ht : t.Holds)
    (f : Vec3 Nat → M) :
    ∑ i ∈ Finset.range n, ∑ s ∈ Finset.range t.ownedBox.shape.volume,
        f (T.worldCell t i (t.ownedBox.cellAt s)) =
      ∑ s ∈ Finset.range (T.world t).volume, f ((T.world t).cell s) := by
  have howns {s : Nat} (hs : s < t.ownedBox.shape.volume) : t.Owns (t.ownedBox.cellAt s) :=
    ht.ownedBox_has_iff.1 (Box.has_cellAt hs)
  rw [← Finset.sum_product']
  refine Finset.sum_nbij' (fun q => (T.world t).slot (T.worldCell t q.1 (t.ownedBox.cellAt q.2)))
    (fun s => (T.ownerRank t ((T.world t).cell s),
      t.ownedBox.slotAt (ownedCell t ((T.world t).cell s)))) ?_ ?_ ?_ ?_ ?_
  · rintro ⟨i, s⟩ hq
    rw [Finset.mem_product, Finset.mem_range, Finset.mem_range] at hq
    exact Finset.mem_range.2 (Extent.slot_lt (world_has_worldCell ht hq.1 _))
  · intro s hs
    obtain ⟨hrank, hcell, _⟩ := worldCell_owner ht (Extent.has_cell (Finset.mem_range.1 hs))
    rw [Finset.mem_product, Finset.mem_range, Finset.mem_range]
    exact ⟨hrank, Box.slotAt_lt (ht.ownedBox_has_iff.2 hcell)⟩
  · rintro ⟨i, s⟩ hq
    rw [Finset.mem_product, Finset.mem_range, Finset.mem_range] at hq
    have hhas := world_has_worldCell (T := T) ht hq.1 (t.ownedBox.cellAt s)
    obtain ⟨hrank, hcell, hsame⟩ := worldCell_owner ht hhas
    obtain ⟨hi, hl⟩ := eq_of_worldCell_eq ht hrank hq.1 hcell (howns hq.2) hsame
    dsimp only
    rw [Extent.cell_slot hhas, hi, hl, Box.slotAt_cellAt]
  · intro s hs
    obtain ⟨_, hcell, hsame⟩ := worldCell_owner ht (Extent.has_cell (Finset.mem_range.1 hs))
    dsimp only
    rw [Box.cellAt_slotAt (ht.ownedBox_has_iff.2 hcell), hsame, Extent.slot_cell]
  · rintro ⟨i, s⟩ hq
    rw [Finset.mem_product, Finset.mem_range, Finset.mem_range] at hq
    dsimp only
    rw [Extent.cell_slot (world_has_worldCell ht hq.1 _)]

end

/-! ## The world in one piece -/

/-- The grid of the whole world, without ghost cells. -/
def whole (T : Torus n) (t : Topology) : Topology := ⟨(T.world t).map UInt32.ofNat, .fill 0⟩

section

variable {T : Torus n}

theorem extent_whole (h : ∀ a, (T.world t).get a < word32Size) :
    (T.whole t).extent = T.world t :=
  Vec3.map_toNat_ofNat h

theorem halo_whole (T : Torus n) (t : Topology) (a : Axis) : (T.whole t).halo a = 0 := by
  cases a <;> rfl

theorem cellAt_ownedBox_whole (hs : (T.whole t).Sized)
    (h : ∀ a, (T.world t).get a < word32Size) :
    (T.whole t).ownedBox.shape = T.world t ∧
      ∀ s, (T.whole t).ownedBox.cellAt s = (T.world t).cell s := by
  rw [← extent_whole h]
  exact hs.holds.ownedBox_of_undivided (halo_whole T t)

theorem sized_whole (hn : 0 < n) (ht : t.Holds) (h : ∀ a, (T.world t).get a < word32Size)
    (hvolume : (T.world t).volume < wordSize) : (T.whole t).Sized where
  made := by
    refine Topology.make_eq_ok_iff.2 ⟨rfl, fun a => ?_⟩
    have hpos : 0 < (T.world t).get a := by
      rw [world, Vec3.get_ofAxis]
      exact Lap.period_pos (T.roomy ht a) (T.has_place 0 hn a)
    rw [← Topology.get_extent, extent_whole h]
    refine ⟨hpos, ?_⟩
    change 4 * (T.whole t).halo a ≤ _
    rw [halo_whole]
    exact Nat.zero_le _
  volume_lt := by
    rw [extent_whole h]
    exact hvolume

end

end Torus

end KineticGrid
