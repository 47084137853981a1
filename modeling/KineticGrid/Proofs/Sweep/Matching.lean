import KineticGrid.Arith.Binary
import KineticGrid.Proofs.Sweep.Passes
import Mathlib.Tactic.ByContra
/-!
# Bins and other sets of particles

Bins are checked against a set of particles by two sizes: the number of native particles and the
length of the lookup table. The table of the set that they were built for was read when they were
built, so the bins hold places in the arrays of that set, and the check says nothing about the
number of embedded particles. Main statements: bins that pass the check can be accumulated over a
set exactly if it has every embedded particle that occurs in them, as any set does that has no fewer
of them; over any other set the pass fails with an error and says no more about it.
-/

namespace KineticGrid

variable {S T A : Type}

namespace Particles

variable {p : Particles S} {q : Particle}

theorem has_of_kinematics {k : Vec3 S × S} (h : p.kinematics q = .ok k) : p.Has q := by
  by_contra hnot
  cases q with
  | native i =>
      rw [kinematics, entry_of_le (Nat.not_lt.1 hnot)] at h
      cases h
  | embedded i =>
      unfold Has embeddedCount at hnot
      unfold kinematics at h
      cases he : p.embedded with
      | none =>
          rw [he] at h
          cases h
      | some e =>
          rw [he] at h hnot
          dsimp only at h hnot
          rw [entry_of_le (Nat.not_lt.1 hnot)] at h
          cases h

/-- In a set with a lookup table there is one way for a particle to be missing. -/
theorem kinematics_of_not_has (hnot : ¬ p.Has q)
    (htable : ∀ i, q = .embedded i → 0 < p.embeddedSize) :
    p.kinematics q = .error .outOfBounds := by
  cases q with
  | native i =>
      rw [kinematics, entry_of_le (Nat.not_lt.1 hnot)]
      rfl
  | embedded i =>
      have htable := htable i rfl
      unfold Has embeddedCount at hnot
      unfold embeddedSize at htable
      unfold kinematics
      cases he : p.embedded with
      | none =>
          rw [he] at htable
          exact absurd htable (Nat.lt_irrefl 0)
      | some e =>
          rw [he] at hnot
          dsimp only at hnot ⊢
          rw [entry_of_le (Nat.not_lt.1 hnot)]
          rfl

end Particles

namespace Bins

variable {p : Particles S} {p' : Particles T} {bins : Bins}

/-- Every particle of the bins has a velocity and a mass in a set. -/
def Readable (p : Particles S) (bins : Bins) : Prop :=
  ∀ c list, bins.cell c = .ok list → ∀ q ∈ list, ∃ k, p.kinematics q = .ok k

def EmbeddedBelow (n : Nat) (bins : Bins) : Prop :=
  ∀ c list, bins.cell c = .ok list → ∀ i, Particle.embedded i ∈ list → i.toNat < n

theorem readable_iff_fits : bins.Readable p ↔ bins.Fits p := by
  constructor
  · intro h c list hc q hq
    obtain ⟨k, hk⟩ := h c list hc q hq
    exact Particles.has_of_kinematics hk
  · intro h c list hc q hq
    exact (h c list hc q hq).exists_kinematics

theorem sizes_of_requireMatch (h : bins.requireMatch p = .ok ()) :
    p.nativeSize = bins.nativeSize ∧ p.embeddedSize = bins.embeddedSize := by
  unfold requireMatch Fallible.requireLength at h
  by_cases hnative : bins.nativeSize = p.nativeSize
  · by_cases hembedded : bins.embeddedSize = p.embeddedSize
    · exact ⟨hnative.symm, hembedded.symm⟩
    · rw [if_pos hnative, if_neg hembedded] at h
      cases h
  · rw [if_neg hnative] at h
    cases h

theorem Built.sizes_eq (hbins : bins.Built p) (hmatch : bins.requireMatch p' = .ok ()) :
    p'.nativeSize = p.nativeSize ∧ p'.embeddedSize = p.embeddedSize := by
  obtain ⟨hnative, hembedded⟩ := sizes_of_requireMatch hbins.requireMatch_eq
  obtain ⟨hnative', hembedded'⟩ := sizes_of_requireMatch hmatch
  omega

/-- Only embedded particles can be missing in a set that passes the check. -/
theorem Built.fits_iff (hbins : bins.Built p) (hmatch : bins.requireMatch p' = .ok ()) :
    bins.Fits p' ↔ bins.EmbeddedBelow p'.embeddedCount := by
  constructor
  · intro h c list hc i hi
    exact h c list hc _ hi
  · intro h c list hc q hq
    cases q with
    | native i =>
        have hown : i.toNat < p.nativeSize := hbins.fits c list hc _ hq
        have hsize := (hbins.sizes_eq hmatch).1
        change i.toNat < p'.nativeSize
        omega
    | embedded i => exact h c list hc i hq

theorem Built.embeddedBelow (hbins : bins.Built p) : bins.EmbeddedBelow p.embeddedCount :=
  (hbins.fits_iff hbins.requireMatch_eq).1 hbins.fits

theorem EmbeddedBelow.mono {m n : Nat} (h : bins.EmbeddedBelow m) (hmn : m ≤ n) :
    bins.EmbeddedBelow n :=
  fun c list hc i hi => Nat.lt_of_lt_of_le (h c list hc i hi) hmn

/-- A particle that a set passing the check does not have is looked for past the end of an array. -/
theorem Built.kinematics_of_not_has (hbins : bins.Built p) (hmatch : bins.requireMatch p' = .ok ())
    {c : Nat} {list : Array Particle} (hc : bins.cell c = .ok list) {q : Particle} (hq : q ∈ list)
    (hnot : ¬ p'.Has q) : p'.kinematics q = .error .outOfBounds := by
  apply Particles.kinematics_of_not_has hnot
  intro i hi
  obtain ⟨raw, hraw⟩ := hbins.exists_raw hc hq
  have htable := (Particles.has_of_resolve? hraw).2 i hi
  rw [(hbins.sizes_eq hmatch).2]
  exact htable

variable [Arith A] [Storage T A]

theorem Built.sumCell_of_not_has (hbins : bins.Built p) (hmatch : bins.requireMatch p' = .ok ())
    {c : Nat} (hc : c < bins.size) (hmissing : ∃ q ∈ bins.cells[c], ¬ p'.Has q) :
    (bins.sumCell p' c : Checked (Motion T × Heat T)) = .error .outOfBounds := by
  have hfault {q : Particle} (hq : q ∈ bins.cells[c]) (hnot : ¬ p'.Has q) :=
    hbins.kinematics_of_not_has hmatch (cell_of_lt hc) hq hnot
  have hsums : (CellSums.ofParticles p' bins.cells[c] : Checked (CellSums A)) =
      .error .outOfBounds := by
    apply foldlM_eq_error
    · intro q hq
      by_cases hhas : p'.Has q
      · obtain ⟨k, hk⟩ := hhas.exists_kinematics
        exact .inl fun sums => ⟨_, by rw [hk]; rfl⟩
      · exact .inr fun sums => by rw [hfault (Array.mem_toList_iff.1 hq) hhas]; rfl
    · obtain ⟨q, hq, hnot⟩ := hmissing
      exact ⟨q, Array.mem_toList_iff.2 hq, fun sums => by rw [hfault hq hnot]; rfl⟩
  rw [sumCell, cell_of_lt hc]
  change (CellSums.ofParticles p' bins.cells[c] >>= _) = _
  rw [hsums]
  rfl

theorem Built.mapM_sumCell_of_not_fits (hbins : bins.Built p)
    (hmatch : bins.requireMatch p' = .ok ()) (hnot : ¬ bins.Fits p') :
    (List.range bins.size).mapM (bins.sumCell p' : Nat → Checked (Motion T × Heat T)) =
      .error .outOfBounds := by
  apply mapM_eq_error
  · intro c hc
    have hc := List.mem_range.1 hc
    by_cases hcell : ∀ q ∈ bins.cells[c], p'.Has q
    · obtain ⟨cell, hcell, _⟩ := exists_sumCell hc hcell
      exact .inl ⟨cell, hcell⟩
    · simp only [Classical.not_forall] at hcell
      obtain ⟨q, hq, hmissing⟩ := hcell
      exact .inr (hbins.sumCell_of_not_has hmatch hc ⟨q, hq, hmissing⟩)
  · simp only [Fits, Classical.not_forall] at hnot
    obtain ⟨c, list, hlist, q, hq, hmissing⟩ := hnot
    have hc : c < bins.size := by
      by_contra hlarge
      rw [cell, Particles.entry_of_le (Nat.not_lt.1 hlarge)] at hlist
      cases hlist
    rw [cell_of_lt hc] at hlist
    cases hlist
    exact ⟨c, List.mem_range.2 hc, hbins.sumCell_of_not_has hmatch hc ⟨q, hq, hmissing⟩⟩

end Bins

section

variable [Arith A] [Storage T A]

/-- Bins that pass the check against a set of particles can be read in it, and accumulated over it,
exactly if it has all their embedded particles; a set with at least as many embedded particles as
the one that the bins were built for has them. -/
theorem accumulate_of_requireMatch (m : Mode) (e : Executor) {requested : Nat}
    (hrequested : requested ≠ 0) {p : Particles S} {p' : Particles T} {bins : Bins}
    (hbins : bins.Built p) (hmatch : bins.requireMatch p' = .ok ()) {cells : Cells T}
    (hmotion : cells.motion.size = bins.size) (hheat : cells.heat.size = bins.size) :
    (p.embeddedCount ≤ p'.embeddedCount → bins.Readable p') ∧
      (bins.Readable p' ↔ bins.EmbeddedBelow p'.embeddedCount) ∧
      (bins.Readable p' → ∃ cells' : Cells T,
        (cells.accumulate m e requested p' bins).result = .ok cells' ∧
          cells'.motion.size = bins.size ∧ cells'.heat.size = bins.size) ∧
      (¬ bins.Readable p' → (cells.accumulate m e requested p' bins).result =
        .error (.error (.launch .accumulate none))) := by
  rw [Bins.readable_iff_fits]
  refine ⟨fun hcount => ?_, hbins.fits_iff hmatch, fun hfits => ?_, fun hnot => ?_⟩
  · exact (hbins.fits_iff hmatch).2 (hbins.embeddedBelow.mono hcount)
  · obtain ⟨cells', haccumulate, hmotion', hheat', _⟩ :=
      Cells.exists_accumulate_of_fits m e hrequested hmatch hfits hmotion hheat
    exact ⟨cells', haccumulate, hmotion', hheat'⟩
  · rw [Cells.result_accumulate m e hrequested hmatch hmotion hheat,
      hbins.mapM_sumCell_of_not_fits hmatch hnot]
    rfl

end

def lone : Particles Binary64 :=
  ⟨#[.fill 0], 0, some ⟨#[.fill 0], #[0], #[0], rfl⟩⟩

def couple : Particles Binary64 :=
  ⟨#[.fill 0], 0, some ⟨#[.fill 0, .fill 0], #[0, 0], #[1], rfl⟩⟩

def loneBins : Bins := ⟨#[#[.native 0, .embedded 0], #[]], 1, 1⟩

def coupleBins : Bins := ⟨#[#[.embedded 1]], 1, 1⟩

theorem loneBins_built : loneBins.Built lone := .inl ⟨.debug, [[0, 1], []], rfl⟩

theorem accumulate_of_requireMatch_couple :
    loneBins.requireMatch couple = .ok () ∧ ∃ cells' : Cells Binary64,
      (Cells.accumulate ⟨.debug, .off⟩ .shared 64 couple loneBins
        ⟨#[.zero, .zero], #[.zero, .zero]⟩).result = .ok cells' ∧
        cells'.motion.size = 2 ∧ cells'.heat.size = 2 := by
  have hrequested : 64 ≠ 0 := by decide
  have hmatch : loneBins.requireMatch couple = .ok () := rfl
  let cells : Cells Binary64 := ⟨#[.zero, .zero], #[.zero, .zero]⟩
  have hmotion : cells.motion.size = loneBins.size := rfl
  have hheat : cells.heat.size = loneBins.size := rfl
  obtain ⟨hcount, _, hok, _⟩ := accumulate_of_requireMatch ⟨.debug, .off⟩ .shared hrequested
    loneBins_built hmatch hmotion hheat
  exact ⟨hmatch, hok (hcount (by decide))⟩

/-- Bins for two embedded particles pass the check against a set with a single one, where they
cannot be accumulated. -/
theorem requireMatch_accepts_missing :
    Bins.ofLists .debug couple [[1]] = .ok coupleBins ∧ coupleBins.requireMatch lone = .ok () ∧
      coupleBins.cell 0 = .ok #[.embedded 1] ∧
      lone.kinematics (.embedded 1) = .error .outOfBounds ∧
      (Cells.accumulate ⟨.release, .off⟩ .shared 1 lone coupleBins
        ⟨#[.zero], #[.zero]⟩).result = .error (.error (.launch .accumulate none)) := by
  refine ⟨rfl, rfl, rfl, rfl, ?_⟩
  rw [Cells.result_accumulate ⟨.release, .off⟩ .shared (by decide) rfl rfl rfl]
  rfl

end KineticGrid
