import KineticGrid.Proofs.Ghost.Exchange
import Mathlib.Tactic.Ring
/-!
# Periodic worlds

Ranks that share a topology and are arranged periodically along each axis. A cell of a rank stands
for a cell of the whole world, and its owner is the one rank that has this cell behind its ghost
layers. Main statements: every cell has exactly one owner, which is found axis by axis, and two
cells stand for the same cell of the world exactly if they have the same owner.
-/

namespace KineticGrid

/-! ## One axis -/

/-- An axis of a world: the number of ranks along it, the number of cells that each of them owns,
and the width of the ghost layers. -/
structure Lap where
  ranks : Nat
  core : Nat
  halo : Nat

namespace Lap

def coordinate (p : Lap) (h l : Nat) : Int :=
  ((h : Int) * p.core + l - p.halo) % (p.ranks * p.core)

/-- The position of the owner of a cell, and the cell there. -/
def owner (p : Lap) (h l : Nat) : Nat × Nat :=
  if l < p.halo then ((h + (p.ranks - 1)) % p.ranks, l + p.core)
  else if p.core + p.halo ≤ l then ((h + 1) % p.ranks, l - p.core)
  else (h, l)

def Owns (p : Lap) (l : Nat) : Prop := p.halo ≤ l ∧ l < p.core + p.halo

structure Roomy (p : Lap) : Prop where
  halo_le : 2 * p.halo ≤ p.core
  core_pos : 0 < p.core

variable {p : Lap} {h h' l l' : Nat}

theorem right_left {k m : Nat} (hk : k < m) : ((k + (m - 1)) % m + 1) % m = k := by
  rw [Nat.mod_add_mod, show k + (m - 1) + 1 = k + m by omega, Nat.add_mod_right,
    Nat.mod_eq_of_lt hk]

theorem left_right {k m : Nat} (hk : k < m) : ((k + 1) % m + (m - 1)) % m = k := by
  rw [Nat.mod_add_mod, show k + 1 + (m - 1) = k + m by omega, Nat.add_mod_right,
    Nat.mod_eq_of_lt hk]

theorem owner_of_lt (hl : l < p.halo) :
    p.owner h l = ((h + (p.ranks - 1)) % p.ranks, l + p.core) := by
  rw [owner, if_pos hl]

theorem owner_of_le (hl : p.core + p.halo ≤ l) (hp : p.Roomy) :
    p.owner h l = ((h + 1) % p.ranks, l - p.core) := by
  have hcore := hp.core_pos
  rw [owner, if_neg (by omega), if_pos hl]

theorem owner_of_owns (hl : p.Owns l) : p.owner h l = (h, l) := by
  obtain ⟨hlow, hhigh⟩ := hl
  rw [owner, if_neg (by omega), if_neg (by omega)]

theorem owner_lt (hh : h < p.ranks) (l : Nat) : (p.owner h l).1 < p.ranks := by
  have hpos : 0 < p.ranks := by omega
  unfold owner
  split
  · exact Nat.mod_lt _ hpos
  · split
    · exact Nat.mod_lt _ hpos
    · exact hh

theorem owns_owner (hp : p.Roomy) (hl : l < p.core + 2 * p.halo) :
    p.Owns (p.owner h l).2 := by
  have hhalo := hp.halo_le
  have hcore := hp.core_pos
  unfold owner Owns
  split
  · dsimp only
    omega
  · split
    · dsimp only
      omega
    · dsimp only
      omega

/-- A cell and its owner's cell stand for the same cell of the world. -/
theorem coordinate_owner (hh : h < p.ranks) :
    p.coordinate (p.owner h l).1 (p.owner h l).2 = p.coordinate h l := by
  have hwrap (k : Int) {x y : Int} (hxy : x = y + p.ranks * p.core * k) :
      x % (p.ranks * p.core) = y % (p.ranks * p.core) := by
    rw [hxy, Int.add_mul_emod_self_left]
  unfold owner
  split
  · by_cases hzero : h = 0
    · -- the left neighbour of the first rank is the last one
      subst hzero
      rw [Nat.zero_add, Nat.mod_eq_of_lt (by omega), coordinate, coordinate]
      apply hwrap 1
      push_cast [Nat.cast_sub (show 1 ≤ p.ranks by omega)]
      ring
    · have hback : (h + (p.ranks - 1)) % p.ranks = h - 1 := by
        rw [show h + (p.ranks - 1) = h - 1 + p.ranks by omega, Nat.add_mod_right,
          Nat.mod_eq_of_lt (by omega)]
      rw [hback, coordinate, coordinate]
      apply hwrap 0
      push_cast [Nat.cast_sub (show 1 ≤ h by omega)]
      ring
  · split
    · rename_i hghost
      by_cases hlast : h + 1 = p.ranks
      · -- the right neighbour of the last rank is the first one
        rw [hlast, Nat.mod_self, coordinate, coordinate]
        apply hwrap (-1)
        rw [← hlast]
        push_cast [Nat.cast_sub (show p.core ≤ l by omega)]
        ring
      · rw [Nat.mod_eq_of_lt (by omega), coordinate, coordinate]
        apply hwrap 0
        push_cast [Nat.cast_sub (show p.core ≤ l by omega)]
        ring
    · rfl

theorem coordinate_of_owns (hh : h < p.ranks) (hl : p.Owns l) :
    p.coordinate h l = ((h * p.core + (l - p.halo) : Nat) : Int) := by
  obtain ⟨hlow, hhigh⟩ := hl
  have hle : (h + 1) * p.core ≤ p.ranks * p.core := Nat.mul_le_mul_right _ hh
  have hlt : h * p.core + (l - p.halo) < p.ranks * p.core := by
    rw [Nat.succ_mul] at hle
    omega
  have hcast : (h : Int) * p.core + l - p.halo =
      ((h * p.core + (l - p.halo) : Nat) : Int) := by
    push_cast [Nat.cast_sub hlow]
    ring
  rw [coordinate, hcast]
  exact Int.emod_eq_of_lt (Int.natCast_nonneg _) (by exact_mod_cast hlt)

theorem eq_of_coordinate_eq (hh : h < p.ranks) (hh' : h' < p.ranks) (hl : p.Owns l)
    (hl' : p.Owns l') (heq : p.coordinate h l = p.coordinate h' l') : h = h' ∧ l = l' := by
  rw [coordinate_of_owns hh hl, coordinate_of_owns hh' hl'] at heq
  have hnat : h * p.core + (l - p.halo) = h' * p.core + (l' - p.halo) := by exact_mod_cast heq
  obtain ⟨hlow, hhigh⟩ := hl
  obtain ⟨hlow', hhigh'⟩ := hl'
  have hcore : 0 < p.core := by omega
  have hquot := congrArg (· / p.core) hnat
  have hrest := congrArg (· % p.core) hnat
  simp only [Nat.mul_comm _ p.core, Nat.mul_add_div hcore, Nat.mul_add_mod,
    Nat.div_eq_of_lt (show l - p.halo < p.core by omega),
    Nat.div_eq_of_lt (show l' - p.halo < p.core by omega),
    Nat.mod_eq_of_lt (show l - p.halo < p.core by omega),
    Nat.mod_eq_of_lt (show l' - p.halo < p.core by omega)] at hquot hrest
  omega

/-- An owned cell owns all cells that stand for the same cell of the world. -/
theorem owner_eq_of_coordinate_eq (hp : p.Roomy) (hh : h < p.ranks) (hh' : h' < p.ranks)
    (hl : l < p.core + 2 * p.halo) (hl' : p.Owns l')
    (heq : p.coordinate h l = p.coordinate h' l') : p.owner h l = (h', l') := by
  obtain ⟨hfirst, hsecond⟩ := eq_of_coordinate_eq (owner_lt hh l) hh' (owns_owner hp hl) hl'
    ((coordinate_owner hh).trans heq)
  exact Prod.ext hfirst hsecond

end Lap

/-! ## All axes -/

/-- `n` ranks that fill a periodic arrangement, each at a position of its own. -/
structure Torus (n : Nat) where
  /-- The number of ranks along each axis. -/
  shape : Extent
  place : Nat → Vec3 Nat
  rank : Vec3 Nat → Nat
  has_place : ∀ i < n, shape.Has (place i)
  rank_lt : ∀ h, shape.Has h → rank h < n
  rank_place : ∀ i < n, rank (place i) = i
  place_rank : ∀ h, shape.Has h → place (rank h) = h

namespace Torus

variable {n : Nat} {t : Topology}

def ofShape (shape : Extent) : Torus shape.volume where
  shape := shape
  place := shape.cell
  rank := shape.slot
  has_place _ hi := Extent.has_cell hi
  rank_lt _ hh := Extent.slot_lt hh
  rank_place i _ := shape.slot_cell i
  place_rank _ hh := Extent.cell_slot hh

def neighbours (T : Torus n) (i : Nat) : Vec3 Neighbours :=
  let h := T.place i
  .ofAxis fun a =>
    ⟨T.rank (h.set a ((h.get a + (T.shape.get a - 1)) % T.shape.get a)),
      T.rank (h.set a ((h.get a + 1) % T.shape.get a))⟩

def lap (T : Torus n) (t : Topology) (a : Axis) : Lap := ⟨T.shape.get a, t.core a, t.halo a⟩

def coordinates (T : Torus n) (t : Topology) (i : Nat) (l : Vec3 Nat) : Vec3 Int :=
  .ofAxis fun a => (T.lap t a).coordinate ((T.place i).get a) (l.get a)

end Torus

/-- A cell lies behind the ghost layers of all axes. -/
def Topology.Owns (t : Topology) (l : Vec3 Nat) : Prop :=
  ∀ a, t.halo a ≤ l.get a ∧ l.get a < t.core a + t.halo a

/-- A rank owns, in a cell of its own, the cell of the world that a cell of another rank stands
for. -/
structure Torus.Owner {n : Nat} (T : Torus n) (t : Topology) (i : Nat) (l : Vec3 Nat) (j : Nat)
    (l' : Vec3 Nat) : Prop where
  lt : j < n
  owns : t.Owns l'
  same : T.coordinates t j l' = T.coordinates t i l

namespace Torus

variable {n : Nat} {t : Topology}

theorem rings (T : Torus n) (a : Axis) : Linked n fun i => (T.neighbours i).get a := by
  have hpos {i : Nat} (hi : i < n) : 0 < T.shape.get a := Nat.zero_lt_of_lt (T.has_place i hi a)
  have hstep {i : Nat} (hi : i < n) (k : Nat) :
      T.shape.Has ((T.place i).set a (k % T.shape.get a)) :=
    (T.has_place i hi).set (Nat.mod_lt _ (hpos hi))
  simp only [neighbours, Vec3.get_ofAxis]
  constructor
  · intro i hi
    exact T.rank_lt _ (hstep hi _)
  · intro i hi
    exact T.rank_lt _ (hstep hi _)
  · intro i hi
    dsimp only
    rw [T.place_rank _ (hstep hi _), Vec3.get_set_self, Lap.right_left (T.has_place i hi a),
      Vec3.set_set, Vec3.set_get, T.rank_place i hi]
  · intro i hi
    dsimp only
    rw [T.place_rank _ (hstep hi _), Vec3.get_set_self, Lap.left_right (T.has_place i hi a),
      Vec3.set_set, Vec3.set_get, T.rank_place i hi]

theorem roomy (T : Torus n) (ht : t.Holds) (a : Axis) : (T.lap t a).Roomy :=
  ⟨(ht.core_eq a).2.1, (ht.core_eq a).2.2⟩

theorem lt_of_has (T : Torus n) (ht : t.Holds) {l : Vec3 Nat} (hl : t.extent.Has l) (a : Axis) :
    l.get a < (T.lap t a).core + 2 * (T.lap t a).halo :=
  Nat.lt_of_lt_of_eq (hl a) (ht.core_eq a).1

def ownerPlace (T : Torus n) (t : Topology) (h l : Vec3 Nat) : Vec3 Nat :=
  .ofAxis fun a => ((T.lap t a).owner (h.get a) (l.get a)).1

def ownerCell (T : Torus n) (t : Topology) (h l : Vec3 Nat) : Vec3 Nat :=
  .ofAxis fun a => ((T.lap t a).owner (h.get a) (l.get a)).2

theorem has_ownerPlace {T : Torus n} {h : Vec3 Nat} (hh : T.shape.Has h) (l : Vec3 Nat) :
    T.shape.Has (T.ownerPlace t h l) := by
  intro a
  rw [ownerPlace, Vec3.get_ofAxis]
  exact Lap.owner_lt (p := T.lap t a) (hh a) _

theorem owner_of_place {T : Torus n} (ht : t.Holds) {i : Nat} (hi : i < n) {l : Vec3 Nat}
    (hl : t.extent.Has l) :
    T.Owner t i l (T.rank (T.ownerPlace t (T.place i) l)) (T.ownerCell t (T.place i) l) where
  lt := T.rank_lt _ (has_ownerPlace (T.has_place i hi) l)
  owns a := by
    rw [ownerCell, Vec3.get_ofAxis]
    exact Lap.owns_owner (T.roomy ht a) (T.lt_of_has ht hl a)
  same := by
    rw [coordinates, coordinates, T.place_rank _ (has_ownerPlace (T.has_place i hi) l)]
    apply Vec3.ext_get
    intro a
    rw [Vec3.get_ofAxis, Vec3.get_ofAxis, ownerPlace, ownerCell, Vec3.get_ofAxis, Vec3.get_ofAxis]
    exact Lap.coordinate_owner (T.has_place i hi a)

theorem exists_owner (T : Torus n) (ht : t.Holds) {i : Nat} (hi : i < n) {l : Vec3 Nat}
    (hl : t.extent.Has l) : ∃ j l', T.Owner t i l j l' := ⟨_, _, owner_of_place ht hi hl⟩

namespace Owner

variable {T : Torus n} {i j : Nat} {l l' : Vec3 Nat}

theorem owner_eq (ht : t.Holds) (hi : i < n) (hl : t.extent.Has l) (h : T.Owner t i l j l')
    (a : Axis) : (T.lap t a).owner ((T.place i).get a) (l.get a) =
      ((T.place j).get a, l'.get a) := by
  have hsame := congrArg (Vec3.get · a) h.same
  simp only [coordinates, Vec3.get_ofAxis] at hsame
  exact Lap.owner_eq_of_coordinate_eq (T.roomy ht a) (T.has_place i hi a)
    (T.has_place j h.lt a) (T.lt_of_has ht hl a) (h.owns a) hsame.symm

theorem eq_of_place (ht : t.Holds) (hi : i < n) (hl : t.extent.Has l) (h : T.Owner t i l j l') :
    j = T.rank (T.ownerPlace t (T.place i) l) ∧ l' = T.ownerCell t (T.place i) l := by
  constructor
  · rw [← T.rank_place j h.lt]
    congr 1
    apply Vec3.ext_get
    intro a
    rw [ownerPlace, Vec3.get_ofAxis, h.owner_eq ht hi hl a]
  · apply Vec3.ext_get
    intro a
    rw [ownerCell, Vec3.get_ofAxis, h.owner_eq ht hi hl a]

theorem refl (hi : i < n) (hl : t.Owns l) : T.Owner t i l i l := ⟨hi, hl, rfl⟩

end Owner

end Torus

theorem Topology.Owns.has {t : Topology} (ht : t.Holds) {l : Vec3 Nat} (hl : t.Owns l) :
    t.extent.Has l := by
  intro a
  have hcore := ht.core_eq a
  have hla := hl a
  omega

end KineticGrid
