import Mathlib.Algebra.BigOperators.Ring.List
import Mathlib.Algebra.Order.BigOperators.Group.List
import Mathlib.Tactic.Linarith
import Mathlib.Tactic.Ring
import KineticGrid.Proofs.Sweep.Exact
/-!
# Samples

The moments of some particles of which the velocities and the masses are known, without rounding.
Main statements: the kinetic energy that is left when the bulk motion is taken out is the spread of
the velocities about their mean, which is zero exactly if all particles with a mass move alike, and
which does not change when all of them drift.
-/

namespace KineticGrid

abbrev Sample := List (Vec3 Rat × Rat)

namespace Sample

def mass (s : Sample) : Rat := (s.map fun k => k.2).sum

def momentum (s : Sample) : Vec3 Rat := .ofAxis fun a => (s.map fun k => k.2 * k.1.get a).sum

def energy (s : Sample) : Rat := (s.map fun k => 1 / 2 * k.2 * k.1.normSq).sum

/-- The momentum per mass; a sample without mass is at rest. -/
def mean (s : Sample) : Vec3 Rat :=
  if 0 < s.mass then s.momentum.map (· / s.mass) else .fill 0

/-- The squared distances of the velocities from a given one, weighted with the masses. -/
def spread (s : Sample) (u : Vec3 Rat) : Rat :=
  (s.map fun k => k.2 * (k.1.zipWith (· - ·) u).normSq).sum

def drift (w : Vec3 Rat) (s : Sample) : Sample := s.map fun k => (k.1 + w, k.2)

def NonNegative (s : Sample) : Prop := ∀ k ∈ s, 0 ≤ k.2

/-- All particles with a mass have one velocity. -/
def MovesAsOne (s : Sample) : Prop := ∀ k ∈ s, ∀ k' ∈ s, 0 < k.2 → 0 < k'.2 → k.1 = k'.1

instance (s : Sample) : Decidable s.MovesAsOne :=
  inferInstanceAs (Decidable (∀ k ∈ s, ∀ k' ∈ s, 0 < k.2 → 0 < k'.2 → k.1 = k'.1))

variable {s : Sample} {u w : Vec3 Rat}

theorem normSq_eq (v : Vec3 Rat) : v.normSq = v.x * v.x + v.y * v.y + v.z * v.z := rfl

theorem spread_eq (s : Sample) (u : Vec3 Rat) :
    s.spread u = 2 * s.energy -
      2 * (u.x * s.momentum.x + u.y * s.momentum.y + u.z * s.momentum.z) +
        u.normSq * s.mass := by
  induction s with
  | nil => simp [spread, energy, momentum, mass, Vec3.ofAxis]
  | cons k s ih =>
      simp only [spread, energy, momentum, mass, Vec3.ofAxis, Vec3.get, Vec3.zipWith, normSq_eq,
        List.map_cons, List.sum_cons] at ih ⊢
      rw [ih]
      ring

/-! ## Masses -/

theorem sum_map_eq_zero {f : Vec3 Rat × Rat → Rat} (h : ∀ k ∈ s, f k = 0) :
    (s.map f).sum = 0 := by
  apply List.sum_eq_zero
  intro x hx
  obtain ⟨k, hk, rfl⟩ := List.mem_map.1 hx
  exact h k hk

theorem NonNegative.mass_nonneg (h : s.NonNegative) : 0 ≤ s.mass := by
  apply List.sum_nonneg
  intro m hm
  obtain ⟨k, hk, rfl⟩ := List.mem_map.1 hm
  exact h k hk

/-- A sample of which no particle has a mass is the only one without mass. -/
theorem NonNegative.mass_eq_zero_iff (h : s.NonNegative) : s.mass = 0 ↔ ∀ k ∈ s, k.2 = 0 := by
  constructor
  · intro hmass k hk
    refine List.all_zero_of_le_zero_le_of_sum_eq_zero ?_ hmass (List.mem_map_of_mem hk)
    intro m hm
    obtain ⟨k', hk', rfl⟩ := List.mem_map.1 hm
    exact h k' hk'
  · exact sum_map_eq_zero

/-- The mean is the velocity at which the whole mass has the momentum. -/
theorem NonNegative.momentum_eq (h : s.NonNegative) (a : Axis) :
    s.momentum.get a = s.mass * s.mean.get a := by
  by_cases hmass : 0 < s.mass
  · rw [mean, if_pos hmass, Vec3.get_map, mul_div_cancel₀ _ hmass.ne']
  · have hzero : s.mass = 0 := le_antisymm (not_lt.1 hmass) h.mass_nonneg
    have hmassless := h.mass_eq_zero_iff.1 hzero
    rw [hzero, zero_mul, momentum, Vec3.get_ofAxis]
    apply sum_map_eq_zero
    intro k hk
    rw [hmassless k hk, zero_mul]

/-- The energy that is left without the bulk motion. -/
theorem NonNegative.residual_eq (h : s.NonNegative) :
    2 * (s.energy - 1 / 2 * s.mass * s.mean.normSq) = s.spread s.mean := by
  have hx : s.momentum.x = s.mass * s.mean.x := h.momentum_eq .x
  have hy : s.momentum.y = s.mass * s.mean.y := h.momentum_eq .y
  have hz : s.momentum.z = s.mass * s.mean.z := h.momentum_eq .z
  rw [spread_eq, hx, hy, hz, normSq_eq]
  ring

/-! ## Spread -/

theorem normSq_nonneg (v : Vec3 Rat) : 0 ≤ v.normSq := by
  rw [normSq_eq]
  exact add_nonneg (add_nonneg (mul_self_nonneg _) (mul_self_nonneg _)) (mul_self_nonneg _)

theorem normSq_sub_eq_zero_iff {v : Vec3 Rat} : (v.zipWith (· - ·) u).normSq = 0 ↔ v = u := by
  have hsum : (v.zipWith (· - ·) u).normSq =
      (v.x - u.x) ^ 2 + (v.y - u.y) ^ 2 + (v.z - u.z) ^ 2 := by
    rw [normSq_eq]
    dsimp only [Vec3.zipWith]
    ring
  rw [hsum]
  constructor
  · intro hzero
    have hx := sq_nonneg (v.x - u.x)
    have hy := sq_nonneg (v.y - u.y)
    have hz := sq_nonneg (v.z - u.z)
    have heq {x y : Rat} (hsquare : (x - y) ^ 2 ≤ 0) : x = y :=
      sub_eq_zero.1 ((pow_eq_zero_iff two_ne_zero).1 (le_antisymm hsquare (sq_nonneg _)))
    have hvx : v.x = u.x := heq (by linarith)
    have hvy : v.y = u.y := heq (by linarith)
    have hvz : v.z = u.z := heq (by linarith)
    apply Vec3.ext_get
    intro a
    cases a
    · exact hvx
    · exact hvy
    · exact hvz
  · rintro rfl
    ring

theorem NonNegative.spread_nonneg (h : s.NonNegative) (u : Vec3 Rat) : 0 ≤ s.spread u := by
  apply List.sum_nonneg
  intro x hx
  obtain ⟨k, hk, rfl⟩ := List.mem_map.1 hx
  exact mul_nonneg (h k hk) (normSq_nonneg _)

theorem NonNegative.spread_eq_zero_iff (h : s.NonNegative) :
    s.spread u = 0 ↔ ∀ k ∈ s, 0 < k.2 → k.1 = u := by
  constructor
  · intro hzero k hk hmass
    have hterm : k.2 * (k.1.zipWith (· - ·) u).normSq = 0 := by
      refine List.all_zero_of_le_zero_le_of_sum_eq_zero ?_ hzero
        (List.mem_map_of_mem (f := fun k => k.2 * (k.1.zipWith (· - ·) u).normSq) hk)
      intro x hx
      obtain ⟨k', hk', rfl⟩ := List.mem_map.1 hx
      exact mul_nonneg (h k' hk') (normSq_nonneg _)
    exact normSq_sub_eq_zero_iff.1 ((mul_eq_zero.1 hterm).resolve_left hmass.ne')
  · intro hall
    apply sum_map_eq_zero
    intro k hk
    rcases (h k hk).eq_or_lt with hmass | hmass
    · rw [← hmass, zero_mul]
    · rw [normSq_sub_eq_zero_iff.2 (hall k hk hmass), mul_zero]

/-- The spread about the mean vanishes exactly where no particle with a mass moves against
another. -/
theorem NonNegative.spread_mean_eq_zero_iff (h : s.NonNegative) :
    s.spread s.mean = 0 ↔ s.MovesAsOne := by
  rw [h.spread_eq_zero_iff]
  constructor
  · intro hall k hk k' hk' hmass hmass'
    rw [hall k hk hmass, hall k' hk' hmass']
  · intro hone k hk hmass
    have htotal : s.mass ≠ 0 := fun hzero => hmass.ne' (h.mass_eq_zero_iff.1 hzero k hk)
    apply Vec3.ext_get
    intro a
    have hterms : s.map (fun k' => k'.2 * k'.1.get a) = s.map fun k' => k'.2 * k.1.get a := by
      apply List.map_congr_left
      intro k' hk'
      rcases (h k' hk').eq_or_lt with hmass' | hmass'
      · rw [← hmass', zero_mul, zero_mul]
      · rw [hone k' hk' k hk hmass' hmass]
    have hmomentum : s.momentum.get a = s.mass * k.1.get a := by
      rw [momentum, Vec3.get_ofAxis, hterms, List.sum_map_mul_right]
      rfl
    rw [h.momentum_eq] at hmomentum
    exact (mul_left_cancel₀ htotal hmomentum).symm

/-! ## Drift -/

theorem NonNegative.drift (h : s.NonNegative) (w : Vec3 Rat) : (s.drift w).NonNegative := by
  intro k hk
  obtain ⟨k', hk', rfl⟩ := List.mem_map.1 hk
  exact h k' hk'

theorem mass_drift (w : Vec3 Rat) (s : Sample) : (s.drift w).mass = s.mass := by
  rw [mass, drift, List.map_map]
  rfl

theorem get_momentum_drift (w : Vec3 Rat) (s : Sample) (a : Axis) :
    (s.drift w).momentum.get a = s.momentum.get a + s.mass * w.get a := by
  have hterm (k : Vec3 Rat × Rat) :
      k.2 * (k.1 + w).get a = k.2 * k.1.get a + k.2 * w.get a := by
    cases a <;> exact mul_add _ _ _
  rw [momentum, momentum, Vec3.get_ofAxis, Vec3.get_ofAxis, drift, List.map_map, mass,
    ← List.sum_map_mul_right, ← List.sum_map_add]
  exact congrArg List.sum (List.map_congr_left fun k _ => hterm k)

theorem spread_drift (w : Vec3 Rat) (s : Sample) (u : Vec3 Rat) :
    (s.drift w).spread (u + w) = s.spread u := by
  have hdistance (v : Vec3 Rat) :
      (v + w).zipWith (· - ·) (u + w) = v.zipWith (· - ·) u := by
    apply Vec3.ext_get
    intro a
    cases a <;> exact add_sub_add_right_eq_sub _ _ _
  rw [spread, spread, drift, List.map_map]
  apply congrArg List.sum
  apply List.map_congr_left
  intro k _
  rw [Function.comp, hdistance]

/-- A drift takes the mean along, and the spread about it stays. -/
theorem NonNegative.spread_mean_drift (h : s.NonNegative) (w : Vec3 Rat) :
    (s.drift w).spread (s.drift w).mean = s.spread s.mean := by
  by_cases hmass : s.mass = 0
  · have hmassless := h.mass_eq_zero_iff.1 hmass
    have hzero : s.spread s.mean = 0 := h.spread_eq_zero_iff.2 fun k hk hpos =>
      absurd (hmassless k hk) hpos.ne'
    rw [hzero, (h.drift w).spread_eq_zero_iff]
    intro k hk hpos
    obtain ⟨k', hk', rfl⟩ := List.mem_map.1 hk
    exact absurd (hmassless k' hk') hpos.ne'
  · have hmean : (s.drift w).mean = s.mean + w := by
      apply Vec3.ext_get
      intro a
      apply mul_left_cancel₀ hmass
      calc s.mass * (s.drift w).mean.get a
          = (s.drift w).momentum.get a := by rw [(h.drift w).momentum_eq, mass_drift]
        _ = s.mass * s.mean.get a + s.mass * w.get a := by
            rw [get_momentum_drift, h.momentum_eq]
        _ = s.mass * (s.mean + w).get a := by
            cases a <;> exact (mul_add _ _ _).symm
    rw [hmean, spread_drift]

end Sample

end KineticGrid
