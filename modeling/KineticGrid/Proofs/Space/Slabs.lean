import KineticGrid.Ghost.Exchange
import KineticGrid.Proofs.Ghost.Packing
/-!
# Slabs of a topology

The slabs across an axis and the cells in them. Main statements: the slabs of a topology that has
room for them are computed exactly in both builds and form valid pairs, and slots of two slabs
across one axis belong to cells that differ by a shift along that axis.
-/

namespace KineticGrid

inductive Side where
  | left
  | right
deriving DecidableEq, Repr

def Side.other : Side → Side
  | .left => .right
  | .right => .left

def Slabs.on (s : Slabs) : Side → Box
  | .left => s.left
  | .right => s.right

def Neighbours.on (p : Neighbours) : Side → Nat
  | .left => p.left
  | .right => p.right

namespace Topology

variable {b : Build} {t : Topology}

def extent (t : Topology) : Extent := t.grid.extent

def halo (t : Topology) (a : Axis) : Nat := (t.ghost.get a).toNat

def core (t : Topology) (a : Axis) : Nat := t.extent.get a - 2 * t.halo a

/-- A topology that was accepted, and whose cells can be counted in a word. -/
structure Sized (t : Topology) : Prop where
  made : make t.dims t.ghost = .ok t
  volume_lt : t.extent.volume < wordSize

/-- The rows of cells can be counted, too. -/
structure Fits (t : Topology) : Prop extends t.Sized where
  rows_le : t.extent.y * t.extent.z ≤ word32Size

theorem make_eq_ok_iff {dims ghost : Vec3 UInt32} :
    make dims ghost = .ok t ↔ t = ⟨dims, ghost⟩ ∧ t.Holds := by
  unfold make requireRoom
  by_cases h : (⟨dims, ghost⟩ : Topology).Holds
  · rw [if_pos h]
    constructor
    · rintro ⟨⟩
      exact ⟨rfl, h⟩
    · rintro ⟨rfl, _⟩
      rfl
  · rw [if_neg h]
    constructor
    · rintro ⟨⟩
    · rintro ⟨rfl, hholds⟩
      exact absurd hholds h

theorem Sized.holds (h : t.Sized) : t.Holds := (make_eq_ok_iff.1 h.made).2

@[simp]
theorem get_extent (t : Topology) (a : Axis) : t.extent.get a = (t.dims.get a).toNat :=
  Vec3.get_map _ _ _

/-- The owned cells and both ghost layers of an axis make up the axis, and both ghost layers fit
twice. -/
theorem Holds.core_eq (h : t.Holds) (a : Axis) :
    t.extent.get a = t.core a + 2 * t.halo a ∧ 2 * t.halo a ≤ t.core a ∧ 0 < t.core a := by
  obtain ⟨hpos, hroom⟩ := h a
  rw [core, get_extent, halo]
  omega

theorem Holds.volume_pos (h : t.Holds) : 0 < t.extent.volume := by
  apply Extent.volume_pos
  intro a
  have hcore := h.core_eq a
  omega

theorem isDecomposed_iff {a : Axis} : t.isDecomposed a = true ↔ 0 < t.halo a := by
  rw [isDecomposed, decide_eq_true_eq, halo, UInt32.lt_iff_toNat_lt]
  rfl

def four : Topology := ⟨⟨4, 1, 1⟩, ⟨1, 0, 0⟩⟩

theorem fits_four : four.Fits := ⟨⟨rfl, by decide⟩, by decide⟩

/-! ## One slab -/

@[simp]
theorem slab_first (t : Topology) (a : Axis) (start : UInt32) :
    (t.slab a start).first = (Vec3.fill 0).set a start.toNat := by
  apply Vec3.ext_get
  intro b
  rw [Box.first, Vec3.get_map, slab]
  by_cases hb : b = a
  · subst hb
    rw [Vec3.get_set_self, Vec3.get_set_self]
  · rw [Vec3.get_set_of_ne _ _ hb, Vec3.get_set_of_ne _ _ hb]
    cases b <;> rfl

def slabShape (t : Topology) (a : Axis) : Extent := t.extent.set a (t.halo a)

@[simp]
theorem get_slabShape_self (t : Topology) (a : Axis) : (t.slabShape a).get a = t.halo a :=
  Vec3.get_set_self _ _ _

theorem get_slabShape_of_ne (t : Topology) {a b : Axis} (hb : b ≠ a) :
    (t.slabShape a).get b = t.extent.get b :=
  Vec3.get_set_of_ne _ _ hb

@[simp]
theorem slab_shape (t : Topology) (a : Axis) (start : UInt32) :
    (t.slab a start).shape = t.slabShape a := by
  apply Vec3.ext_get
  intro b
  rw [Box.shape, Vec3.get_map, slab]
  by_cases hb : b = a
  · subst hb
    rw [Vec3.get_set_self, get_slabShape_self, halo]
  · rw [Vec3.get_set_of_ne _ _ hb, get_slabShape_of_ne t hb, get_extent]

theorem Holds.volume_slabShape_pos (h : t.Holds) {a : Axis} (ha : 0 < t.halo a) :
    0 < (t.slabShape a).volume := by
  apply Extent.volume_pos
  intro b
  by_cases hb : b = a
  · subst hb
    rw [get_slabShape_self]
    exact ha
  · have hcore := h.core_eq b
    rw [get_slabShape_of_ne t hb]
    omega

theorem slab_has_iff {a : Axis} {start : UInt32} {c : Vec3 Nat} :
    (t.slab a start).Has c ↔ (∀ b, b ≠ a → c.get b < t.extent.get b) ∧
      start.toNat ≤ c.get a ∧ c.get a < start.toNat + t.halo a := by
  have hfill (b : Axis) : (Vec3.fill 0 : Vec3 Nat).get b = 0 := by cases b <;> rfl
  simp only [Box.Has, slab_first, slab_shape]
  constructor
  · intro h
    refine ⟨fun b hb => ?_, ?_⟩
    · have hcell := (h b).2
      rw [Vec3.get_set_of_ne _ _ hb, get_slabShape_of_ne t hb, hfill, Nat.zero_add] at hcell
      exact hcell
    · have hcell := h a
      rw [Vec3.get_set_self, get_slabShape_self] at hcell
      exact hcell
  · rintro ⟨hother, ha⟩ b
    by_cases hb : b = a
    · subst hb
      rw [Vec3.get_set_self, get_slabShape_self]
      exact ha
    · rw [Vec3.get_set_of_ne _ _ hb, get_slabShape_of_ne t hb, hfill, Nat.zero_add]
      exact ⟨Nat.zero_le _, hother b hb⟩

theorem slab_within {a : Axis} {start : UInt32} (h : start.toNat + t.halo a ≤ t.extent.get a) :
    (t.slab a start).Within t.extent := by
  have hfill (b : Axis) : (Vec3.fill 0 : Vec3 Nat).get b = 0 := by cases b <;> rfl
  intro b
  rw [slab_first, slab_shape]
  by_cases hb : b = a
  · subst hb
    rw [Vec3.get_set_self, get_slabShape_self]
    exact h
  · rw [Vec3.get_set_of_ne _ _ hb, get_slabShape_of_ne t hb, hfill]
    exact Nat.le_of_eq (Nat.zero_add _)

/-- The slot of a cell in one slab belongs, in another slab across the axis, to the cell that is
as far from that slab's start. -/
theorem cellAt_slab_slotAt {a : Axis} {start start' : UInt32} {c : Vec3 Nat}
    (h : (t.slab a start).Has c) :
    (t.slab a start').cellAt ((t.slab a start).slotAt c) =
      c.set a (c.get a - start.toNat + start'.toNat) := by
  have hinner := h.shape_has
  rw [slab_shape] at hinner
  have hfill (b : Axis) : (Vec3.fill 0 : Vec3 Nat).get b = 0 := by cases b <;> rfl
  rw [Box.cellAt, Box.slotAt, slab_shape, slab_shape, Extent.cell_slot hinner]
  apply Vec3.ext_get
  intro b
  rw [Vec3.get_zipWith, Vec3.get_zipWith, slab_first, slab_first]
  by_cases hb : b = a
  · subst hb
    rw [Vec3.get_set_self, Vec3.get_set_self, Vec3.get_set_self, Nat.add_comm]
  · rw [Vec3.get_set_of_ne _ _ hb, Vec3.get_set_of_ne _ _ hb, Vec3.get_set_of_ne _ _ hb, hfill,
      Nat.zero_add, Nat.sub_zero]

/-! ## Pairs of slabs -/

def mark (t : Topology) (a : Axis) (layers : UInt32) : UInt32 :=
  t.dims.get a - layers * t.ghost.get a

private theorem toNat_mul_le (h : t.Holds) (a : Axis) {layers : UInt32} (hl : layers.toNat ≤ 4) :
    layers.toNat * (t.ghost.get a).toNat ≤ (t.dims.get a).toNat :=
  Nat.le_trans (Nat.mul_le_mul_right _ hl) (h a).2

private theorem toNat_mul (h : t.Holds) (a : Axis) {layers : UInt32} (hl : layers.toNat ≤ 4) :
    (layers * t.ghost.get a).toNat = layers.toNat * (t.ghost.get a).toNat := by
  rw [UInt32.toNat_mul]
  exact Nat.mod_eq_of_lt (Nat.lt_of_le_of_lt (toNat_mul_le h a hl) (UInt32.toNat_lt _))

theorem Holds.fromEnd_eq (h : t.Holds) (a : Axis) {layers : UInt32} (hl : layers.toNat ≤ 4) :
    t.fromEnd b a layers = .ok (t.mark a layers) := by
  have hle := toNat_mul_le h a hl
  rw [fromEnd, Build.mul32_eq (Nat.lt_of_le_of_lt hle (UInt32.toNat_lt _))]
  change b.sub32 _ _ = _
  rw [Build.sub32_eq, mark]
  rw [UInt32.le_iff_toNat_le, toNat_mul h a hl]
  exact hle

theorem Holds.toNat_mark (h : t.Holds) (a : Axis) (layers : UInt32) (hl : layers.toNat ≤ 4) :
    (t.mark a layers).toNat = t.extent.get a - layers.toNat * t.halo a := by
  have hle := toNat_mul_le h a hl
  rw [mark, UInt32.toNat_sub_of_le, toNat_mul h a hl, get_extent, halo]
  rw [UInt32.le_iff_toNat_le, toNat_mul h a hl]
  exact hle

def slabPair (t : Topology) (a : Axis) (left right : UInt32) : Slabs :=
  ⟨t.grid, t.slab a left, t.slab a right⟩

theorem Holds.ghostSlabs_eq (h : t.Holds) (a : Axis) :
    t.ghostSlabs b a = .ok (t.slabPair a 0 (t.mark a 1)) := by
  rw [ghostSlabs, h.fromEnd_eq a (by decide)]
  rfl

theorem Holds.boundarySlabs_eq (h : t.Holds) (a : Axis) :
    t.boundarySlabs b a = .ok (t.slabPair a (t.ghost.get a) (t.mark a 2)) := by
  rw [boundarySlabs, h.fromEnd_eq a (by decide)]
  rfl

theorem slabPair_valid {a : Axis} {left right : UInt32}
    (hlr : left.toNat + t.halo a ≤ right.toNat)
    (hr : right.toNat + t.halo a ≤ t.extent.get a) : (t.slabPair a left right).Valid where
  left := slab_within (by omega)
  right := slab_within hr
  disjoint c hl hr := by
    have hleft := (slab_has_iff.1 hl).2
    have hright := (slab_has_iff.1 hr).2
    omega

end Topology

namespace Flow

variable {t : Topology} {b : Build}

def sent (t : Topology) (a : Axis) : Flow → Slabs
  | .refresh => t.slabPair a (t.ghost.get a) (t.mark a 2)
  | .fold => t.slabPair a 0 (t.mark a 1)

def merged (t : Topology) (a : Axis) : Flow → Slabs
  | .refresh => t.slabPair a 0 (t.mark a 1)
  | .fold => t.slabPair a (t.ghost.get a) (t.mark a 2)

/-- How far the slabs that are merged into lie from the ends of the axis. -/
def inset (t : Topology) (a : Axis) : Flow → Nat
  | .refresh => 0
  | .fold => t.halo a

theorem outgoing_eq (h : t.Holds) (flow : Flow) (a : Axis) :
    flow.outgoing b t a = .ok (flow.sent t a) := by
  cases flow with
  | refresh => exact h.boundarySlabs_eq a
  | fold => exact h.ghostSlabs_eq a

theorem incoming_eq (h : t.Holds) (flow : Flow) (a : Axis) :
    flow.incoming b t a = .ok (flow.merged t a) := by
  cases flow with
  | refresh => exact h.ghostSlabs_eq a
  | fold => exact h.boundarySlabs_eq a

theorem exists_starts (h : t.Holds) (flow : Flow) (a : Axis) :
    ∃ l r l' r' : UInt32, flow.sent t a = t.slabPair a l r ∧
      flow.merged t a = t.slabPair a l' r' ∧
      l.toNat + flow.inset t a = t.halo a ∧ r.toNat = t.core a + flow.inset t a ∧
      l'.toNat = flow.inset t a ∧ r'.toNat + flow.inset t a = t.core a + t.halo a := by
  have hcore := h.core_eq a
  have hone := h.toNat_mark a 1 (by decide)
  have htwo := h.toNat_mark a 2 (by decide)
  change _ = _ - 1 * t.halo a at hone
  change _ = _ - 2 * t.halo a at htwo
  cases flow with
  | refresh =>
      refine ⟨_, _, _, _, rfl, rfl, ?_, ?_, rfl, ?_⟩
      · rfl
      · rw [htwo, inset]
        omega
      · rw [hone, inset]
        omega
  | fold =>
      refine ⟨_, _, _, _, rfl, rfl, ?_, ?_, rfl, ?_⟩
      · unfold inset
        exact Nat.zero_add _
      · rw [hone, inset]
        omega
      · rw [htwo, inset]
        omega

theorem inset_le (flow : Flow) (t : Topology) (a : Axis) : flow.inset t a ≤ t.halo a := by
  cases flow with
  | refresh => exact Nat.zero_le _
  | fold => exact Nat.le_refl _

theorem sent_valid (h : t.Holds) (flow : Flow) (a : Axis) : (flow.sent t a).Valid := by
  obtain ⟨l, r, l', r', hsent, _, hl, hr, _⟩ := flow.exists_starts h a
  have hcore := h.core_eq a
  have hinset := flow.inset_le t a
  rw [hsent]
  exact Topology.slabPair_valid (by omega) (by omega)

theorem merged_valid (h : t.Holds) (flow : Flow) (a : Axis) : (flow.merged t a).Valid := by
  obtain ⟨l, r, l', r', _, hmerged, _, _, hl, hr⟩ := flow.exists_starts h a
  have hcore := h.core_eq a
  have hinset := flow.inset_le t a
  rw [hmerged]
  exact Topology.slabPair_valid (by omega) (by omega)

@[simp]
theorem sent_grid (flow : Flow) (t : Topology) (a : Axis) : (flow.sent t a).grid = t.grid := by
  cases flow <;> rfl

@[simp]
theorem merged_grid (flow : Flow) (t : Topology) (a : Axis) :
    (flow.merged t a).grid = t.grid := by
  cases flow <;> rfl

@[simp]
theorem sent_extent (flow : Flow) (t : Topology) (a : Axis) :
    (flow.sent t a).grid.extent = t.extent := by
  rw [sent_grid]
  rfl

@[simp]
theorem merged_extent (flow : Flow) (t : Topology) (a : Axis) :
    (flow.merged t a).grid.extent = t.extent := by
  rw [merged_grid]
  rfl

@[simp]
theorem sent_shape (flow : Flow) (t : Topology) (a : Axis) (side : Side) :
    ((flow.sent t a).on side).shape = t.slabShape a := by
  cases flow <;> cases side <;> exact Topology.slab_shape _ _ _

@[simp]
theorem merged_shape (flow : Flow) (t : Topology) (a : Axis) (side : Side) :
    ((flow.merged t a).on side).shape = t.slabShape a := by
  cases flow <;> cases side <;> exact Topology.slab_shape _ _ _

end Flow

end KineticGrid
