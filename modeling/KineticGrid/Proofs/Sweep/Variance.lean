import KineticGrid.Proofs.Sweep.Sample
import KineticGrid.Proofs.Sweep.Matching
import KineticGrid.Proofs.Sweep.Readings
/-!
# Temperatures

Accumulating and averaging, one after the other, without rounding. Main statement: a cell with at
least two particles gets the mean of their velocities and, as its temperature, the spread about this
mean per degree of freedom, so that the temperature is never negative, vanishes exactly where all
particles with a mass move alike, and is the same for particles that all drift.
-/

namespace KineticGrid

/-! ## Passes that succeed -/

section

variable {S A : Type} [Arith A] [Storage S A] {m : Mode} {e : Executor} {requested : Nat}
  {p : Particles S} {bins : Bins}

def Bins.rawCells (p : Particles S) (bins : Bins) : Cells S :=
  ⟨((List.range bins.size).map fun c => (bins.rawSums p c).1).toArray,
    ((List.range bins.size).map fun c => (bins.rawSums p c).2).toArray⟩

theorem Bins.fits_of_mapM_sumCell {sums : List (Motion S × Heat S)}
    (h : (List.range bins.size).mapM (bins.sumCell p) = .ok sums) : bins.Fits p := by
  rw [← readable_iff_fits]
  intro c list hlist q hq
  have hc : c < bins.size := by
    by_contra hlarge
    rw [cell, Particles.entry_of_le (Nat.not_lt.1 hlarge)] at hlist
    cases hlist
  obtain ⟨cell, hcell⟩ := forall_of_mapM_ok h c (List.mem_range.2 hc)
  rw [sumCell, hlist, ok_bind] at hcell
  obtain ⟨sums, hsums, _⟩ := exists_of_bind_eq_ok hcell
  obtain ⟨before, after, hstep⟩ := forall_of_foldlM_ok hsums q (Array.mem_toList_iff.2 hq)
  obtain ⟨k, hk, _⟩ := exists_of_bind_eq_ok hstep
  exact ⟨k, hk⟩

/-- Accumulating succeeds exactly if the request is one for at least one cell, the bins are accepted
and fit, and the arrays have a place for each bin. -/
theorem Cells.result_accumulate_eq_ok_iff {cells cells' : Cells S} :
    (cells.accumulate m e requested p bins).result = .ok cells' ↔
      requested ≠ 0 ∧ bins.requireMatch p = .ok () ∧ bins.Fits p ∧
        cells.motion.size = bins.size ∧ cells.heat.size = bins.size ∧ cells' = bins.rawCells p := by
  constructor
  · intro h
    have hall := h
    simp only [accumulate, Outcome.result_bind, Outcome.result_lift] at h
    obtain ⟨_, hmatch, h⟩ := exists_of_bind_eq_ok h
    obtain ⟨_, hmotion, h⟩ := exists_of_bind_eq_ok h
    obtain ⟨_, hheat, h⟩ := exists_of_bind_eq_ok h
    obtain ⟨block, hblock, h⟩ := exists_of_bind_eq_ok h
    obtain ⟨sums, hsums, _⟩ := exists_of_bind_eq_ok h
    have hfill := Executor.exists_of_run hsums
    rw [Groups.fill_eq (Executor.block_pos hblock)] at hfill
    have hrequested : requested ≠ 0 := by
      rintro rfl
      rw [e.result_block_zero] at hblock
      cases hblock
    have hfits := Bins.fits_of_mapM_sumCell hfill
    have hmotion := (eq_of_requireLength hmotion).symm
    have hheat := (eq_of_requireLength hheat).symm
    rw [result_accumulate_of_fits m e hrequested hmatch hfits hmotion hheat] at hall
    exact ⟨hrequested, hmatch, hfits, hmotion, hheat, (Except.ok.inj hall).symm⟩
  · rintro ⟨hrequested, hmatch, hfits, hmotion, hheat, rfl⟩
    exact result_accumulate_of_fits m e hrequested hmatch hfits hmotion hheat

theorem Cells.result_average_eq_ok_iff {d : Dimension} {cells averages : Cells S} :
    (cells.average m e requested d).result = .ok averages ↔
      requested ≠ 0 ∧ cells.motion.size = cells.heat.size ∧ averages = cells.averages d := by
  constructor
  · intro h
    have hsizes : cells.motion.size = cells.heat.size := by
      simp only [average, Outcome.result_bind, Outcome.result_lift] at h
      obtain ⟨_, hlength, _⟩ := exists_of_bind_eq_ok h
      exact eq_of_requireLength hlength
    rw [result_average_eq m e d hsizes] at h
    obtain ⟨block, hblock, h⟩ := exists_of_bind_eq_ok h
    refine ⟨?_, hsizes, (Except.ok.inj h).symm⟩
    rintro rfl
    rw [e.result_block_zero] at hblock
    cases hblock
  · rintro ⟨hrequested, hsizes, rfl⟩
    rw [result_average_eq m e d hsizes, e.result_block m .finalize hrequested]
    rfl

def Cells.measure (m : Mode) (accumulating averaging : Executor) (blocks : Nat × Nat)
    (d : Dimension) (p : Particles S) (bins : Bins) (cells : Cells S) : Outcome (Cells S) := do
  let sums ← cells.accumulate m accumulating blocks.1 p bins
  sums.average m averaging blocks.2 d

theorem Cells.result_measure_eq_ok_iff {accumulating averaging : Executor} {blocks : Nat × Nat}
    {d : Dimension} {cells averages : Cells S} :
    (cells.measure m accumulating averaging blocks d p bins).result = .ok averages ↔
      (blocks.1 ≠ 0 ∧ blocks.2 ≠ 0) ∧ (bins.requireMatch p = .ok () ∧ bins.Fits p) ∧
        (cells.motion.size = bins.size ∧ cells.heat.size = bins.size) ∧
        averages = (bins.rawCells p).averages d := by
  rw [measure, Outcome.result_bind]
  constructor
  · intro h
    obtain ⟨sums, hsums, haverages⟩ := exists_of_bind_eq_ok h
    obtain ⟨hfirst, hmatch, hfits, hmotion, hheat, rfl⟩ := result_accumulate_eq_ok_iff.1 hsums
    obtain ⟨hsecond, _, rfl⟩ := result_average_eq_ok_iff.1 haverages
    exact ⟨⟨hfirst, hsecond⟩, ⟨hmatch, hfits⟩, ⟨hmotion, hheat⟩, rfl⟩
  · rintro ⟨⟨hfirst, hsecond⟩, ⟨hmatch, hfits⟩, ⟨hmotion, hheat⟩, rfl⟩
    rw [result_accumulate_eq_ok_iff.2 ⟨hfirst, hmatch, hfits, hmotion, hheat, rfl⟩, ok_bind]
    exact result_average_eq_ok_iff.2 ⟨hsecond, by simp [Bins.rawCells], rfl⟩

theorem Bins.getElem?_averages_rawCells (d : Dimension) {c : Nat} (hc : c < bins.size) :
    ((bins.rawCells p).averages d).motion[c]? =
        some (averageCell d (bins.rawSums p c).1 (bins.rawSums p c).2).1 ∧
      ((bins.rawCells p).averages d).heat[c]? =
        some (averageCell d (bins.rawSums p c).1 (bins.rawSums p c).2).2 := by
  simp [rawCells, Cells.averages, List.getElem?_range hc]

end

/-! ## Cells of exact numbers -/

theorem sumOver_eq_sum (quantity : Vec3 Rat → Rat → Rat) (s : Sample) :
    sumOver quantity s = (s.map fun k => quantity k.1 k.2).sum := by
  rw [List.sum_eq_foldl, List.foldl_map]
  rfl

theorem Bins.rawSums_eq_moments {p : Particles Rat} {bins : Bins} {c : Nat} {s : Sample}
    (hs : bins.kinematics p c = s) :
    bins.rawSums p c = (⟨s.momentum, s.mass⟩, ⟨s.energy, 0, .ofNat (bins.load c)⟩) := by
  rw [rawSums, hs, CellSums.ofKinematics_eq]
  simp only [sumOver_eq_sum]
  rfl

namespace Sample

def temperature (d : Dimension) (s : Sample) : Rat :=
  s.spread s.mean / (d.freedom * (s.length - 1))

theorem meanVelocity_eq (s : Sample) : meanVelocity s.momentum s.mass = s.mean := by
  simp only [meanVelocity, mean, Arith.isPositive, decide_eq_true_eq]

/-- Exact numbers are not rounded between the passes. -/
theorem averageCell_moments (d : Dimension) (s : Sample) (count : UInt32) :
    averageCell d (⟨s.momentum, s.mass⟩ : Motion Rat) ⟨s.energy, 0, count⟩ =
      (⟨s.mean, s.mass⟩,
        ⟨s.energy, KineticGrid.temperature d s.energy s.mass s.mean count, count⟩) := by
  rw [← meanVelocity_eq]
  rfl

/-- The temperature that is computed from the moments of at least two particles is that of the
sample. -/
theorem NonNegative.temperature_eq {s : Sample} (h : s.NonNegative) (d : Dimension)
    (htwo : 2 ≤ s.length) (hcount : s.length < word32Size) :
    KineticGrid.temperature d s.energy s.mass s.mean (.ofNat s.length) = s.temperature d := by
  have hlength : (UInt32.ofNat s.length).toNat = s.length := UInt32.toNat_ofNat_of_lt' hcount
  have hmeasured : 1 < UInt32.ofNat s.length := by
    rw [UInt32.lt_iff_toNat_lt, hlength]
    exact htwo
  have hothers : ((UInt32.ofNat s.length - 1).toNat : Rat) = s.length - 1 := by
    rw [UInt32.toNat_sub_of_le _ _ (UInt32.le_of_lt hmeasured), hlength]
    push_cast [Nat.cast_sub (Nat.le_of_lt htwo)]
    rfl
  rw [KineticGrid.temperature, if_pos hmeasured, Sample.temperature, ← h.residual_eq, ← hothers]
  rfl

theorem freedom_mul_pos {s : Sample} (d : Dimension) (htwo : 2 ≤ s.length) :
    0 < (d.freedom * (s.length - 1) : Rat) := by
  have hfreedom : (0 : Rat) < d.freedom := by
    cases d <;> decide
  have hothers : (2 : Rat) ≤ s.length := by exact_mod_cast htwo
  exact mul_pos hfreedom (by linarith)

theorem NonNegative.temperature_nonneg {s : Sample} (h : s.NonNegative) (d : Dimension)
    (htwo : 2 ≤ s.length) : 0 ≤ s.temperature d :=
  div_nonneg (h.spread_nonneg _) (freedom_mul_pos d htwo).le

/-- Only a sample that moves as one is without temperature. -/
theorem NonNegative.temperature_eq_zero_iff {s : Sample} (h : s.NonNegative) (d : Dimension)
    (htwo : 2 ≤ s.length) : s.temperature d = 0 ↔ s.MovesAsOne := by
  rw [temperature, div_eq_zero_iff, or_iff_left (freedom_mul_pos d htwo).ne',
    h.spread_mean_eq_zero_iff]

theorem NonNegative.temperature_drift {s : Sample} (h : s.NonNegative) (d : Dimension)
    (w : Vec3 Rat) : (s.drift w).temperature d = s.temperature d := by
  have hlength : (s.drift w).length = s.length := List.length_map _
  rw [temperature, temperature, h.spread_mean_drift, hlength]

end Sample

/-! ## Sets of particles -/

namespace Particles

variable {p : Particles Rat} {q : Particle}

structure NonNegative (p : Particles Rat) : Prop where
  native : 0 ≤ p.mass
  embedded : ∀ e, p.embedded = some e → ∀ m ∈ e.masses, 0 ≤ m

theorem NonNegative.mass_nonneg (h : p.NonNegative) {k : Vec3 Rat × Rat}
    (hk : p.kinematics q = .ok k) : 0 ≤ k.2 := by
  cases q with
  | native i =>
      obtain ⟨v, _, hk⟩ := exists_of_bind_eq_ok hk
      cases hk
      exact h.native
  | embedded i =>
      unfold kinematics at hk
      cases he : p.embedded with
      | none =>
          rw [he] at hk
          cases hk
      | some e =>
          rw [he] at hk
          obtain ⟨v, _, hk⟩ := exists_of_bind_eq_ok hk
          obtain ⟨m, hm, hk⟩ := exists_of_bind_eq_ok hk
          cases hk
          refine h.embedded e he m ?_
          unfold entry at hm
          split at hm
          next hplace =>
            cases hm
            exact Array.mem_of_getElem? hplace
          next => cases hm

def drift (w : Vec3 Rat) (p : Particles Rat) : Particles Rat where
  velocities := p.velocities.map (· + w)
  mass := p.mass
  embedded := p.embedded.map fun e =>
    { e with
      velocities := e.velocities.map (· + w)
      size_masses := by rw [Array.size_map, e.size_masses] }

theorem NonNegative.drift (h : p.NonNegative) (w : Vec3 Rat) : (p.drift w).NonNegative where
  native := h.native
  embedded e he m hm := by
    obtain ⟨e', he', rfl⟩ := Option.map_eq_some_iff.1 he
    exact h.embedded e' he' m hm

theorem entry_map {α β : Type} (f : α → β) (items : Array α) (i : Nat) :
    entry (items.map f) i = (entry items i).map f := by
  rw [entry, entry, Array.getElem?_map]
  cases items[i]? <;> rfl

theorem kinematics_drift (w : Vec3 Rat) (p : Particles Rat) (q : Particle) :
    (p.drift w).kinematics q = (p.kinematics q).map fun k => (k.1 + w, k.2) := by
  cases q with
  | native i =>
      rw [kinematics, kinematics, drift, entry_map]
      cases entry p.velocities i.toNat <;> rfl
  | embedded i =>
      cases he : p.embedded with
      | none =>
          simp only [kinematics, drift, he, Option.map_none]
          rfl
      | some e =>
          simp only [kinematics, drift, he, Option.map_some, entry_map]
          cases entry e.velocities i.toNat with
          | error f => rfl
          | ok v => cases entry e.masses i.toNat <;> rfl

theorem nativeSize_drift (w : Vec3 Rat) (p : Particles Rat) :
    (p.drift w).nativeSize = p.nativeSize := Array.size_map

theorem embeddedSize_drift (w : Vec3 Rat) (p : Particles Rat) :
    (p.drift w).embeddedSize = p.embeddedSize := by
  unfold embeddedSize drift
  cases p.embedded <;> rfl

end Particles

namespace Bins

variable {p : Particles Rat} {bins : Bins}

theorem requireMatch_drift (w : Vec3 Rat) (p : Particles Rat) (bins : Bins) :
    bins.requireMatch (p.drift w) = bins.requireMatch p := by
  rw [requireMatch, requireMatch, Particles.nativeSize_drift, Particles.embeddedSize_drift]

theorem Fits.drift (h : bins.Fits p) (w : Vec3 Rat) : bins.Fits (p.drift w) := by
  rw [← readable_iff_fits] at h ⊢
  intro c list hlist q hq
  obtain ⟨k, hk⟩ := h c list hlist q hq
  exact ⟨_, by rw [p.kinematics_drift, hk]; rfl⟩

theorem kinematics_drift (w : Vec3 Rat) (p : Particles Rat) (bins : Bins) (c : Nat) :
    bins.kinematics (p.drift w) c = Sample.drift w (bins.kinematics p c) := by
  rw [kinematics, kinematics, Sample.drift, List.map_filterMap]
  congr 1
  funext q
  rw [p.kinematics_drift]
  cases p.kinematics q <;> rfl

theorem cells_of_cell {c : Nat} {list : Array Particle} (hlist : bins.cell c = .ok list) :
    bins.cells[c]? = some list := by
  unfold cell Particles.entry at hlist
  split at hlist
  next hcell =>
    cases hlist
    exact hcell
  next => cases hlist

theorem Fits.mapM_kinematics (h : bins.Fits p) {c : Nat} {list : Array Particle}
    (hlist : bins.cell c = .ok list) :
    list.toList.mapM p.kinematics = .ok (bins.kinematics p c) := by
  rw [kinematics, cells_of_cell hlist]
  apply mapM_eq_filterMap
  intro q hq
  exact (h c list hlist q (Array.mem_toList_iff.1 hq)).exists_kinematics

theorem nonNegative_kinematics (h : p.NonNegative) (c : Nat) :
    Sample.NonNegative (bins.kinematics p c) := by
  intro k hk
  obtain ⟨q, _, hq⟩ := List.mem_filterMap.1 hk
  cases hread : p.kinematics q with
  | error f =>
      rw [hread] at hq
      cases hq
  | ok k' =>
      rw [hread] at hq
      obtain rfl := Option.some.inj hq
      exact h.mass_nonneg hread

theorem getElem?_averages_of_two (hp : p.NonNegative) (hfits : bins.Fits p) (d : Dimension)
    {c : Nat} {list : Array Particle} (hlist : bins.cell c = .ok list) (htwo : 2 ≤ list.size)
    (hcount : list.size < word32Size) {s : Sample} (hs : bins.kinematics p c = s) :
    s.length = list.size ∧
      ((bins.rawCells p).averages d).motion[c]? = some ⟨s.mean, s.mass⟩ ∧
      ((bins.rawCells p).averages d).heat[c]? =
        some ⟨s.energy, s.temperature d, .ofNat list.size⟩ := by
  have hcell := cells_of_cell hlist
  have hc : c < bins.size := (Array.getElem?_eq_some_iff.1 hcell).1
  have hload : bins.load c = list.size := by
    rw [load, hcell]
    rfl
  have hlength : s.length = list.size := by
    rw [← hs, hfits.length_kinematics hc, hload]
  have hnonneg : s.NonNegative := hs ▸ nonNegative_kinematics hp c
  obtain ⟨hmotion, hheat⟩ := getElem?_averages_rawCells (p := p) d hc
  rw [rawSums_eq_moments hs, hload, ← hlength, Sample.averageCell_moments,
    hnonneg.temperature_eq d (by omega) (by omega)] at hmotion hheat
  exact ⟨hlength, hmotion, hlength ▸ hheat⟩

end Bins

/-- Accumulating and averaging succeed for bins that were built for a set of particles, by any
executors and for any requests of at least one cell. Where they succeed, a cell with at least two
particles, none of negative mass, has the mean velocity of these particles and their spread per
degree of freedom as its temperature. -/
theorem temperature_is_variance :
    (∀ (p : Particles Rat) (bins : Bins), bins.Built p →
      ∀ (m : Mode) (accumulating averaging : Executor) (blocks : Nat × Nat) (d : Dimension)
        (cells : Cells Rat), blocks.1 ≠ 0 → blocks.2 ≠ 0 → cells.motion.size = bins.size →
        cells.heat.size = bins.size →
        ∃ averages,
          (cells.measure m accumulating averaging blocks d p bins).result = .ok averages) ∧
    ∀ (p : Particles Rat) (bins : Bins), p.NonNegative →
      ∀ (m : Mode) (accumulating averaging : Executor) (blocks : Nat × Nat) (d : Dimension)
        (cells averages : Cells Rat),
        (cells.measure m accumulating averaging blocks d p bins).result = .ok averages →
      ∀ (c : Nat) (list : Array Particle), bins.cell c = .ok list → 2 ≤ list.size →
        list.size < word32Size →
        ∃ (s : Sample) (t : Rat), list.toList.mapM p.kinematics = .ok s ∧
          averages.motion[c]? = some ⟨s.mean, s.mass⟩ ∧
          averages.heat[c]? = some ⟨s.energy, t, .ofNat list.size⟩ ∧
          t = s.spread s.mean / (d.freedom * (list.size - 1)) ∧
          0 ≤ t ∧
          (t = 0 ↔ s.MovesAsOne) ∧
          ∀ w : Vec3 Rat, ∃ averages' h,
            (cells.measure m accumulating averaging blocks d (p.drift w) bins).result =
              .ok averages' ∧
            averages'.heat[c]? = some h ∧ h.temperature = t := by
  constructor
  · intro p bins hbins m accumulating averaging blocks d cells hfirst hsecond hmotion hheat
    exact ⟨_, Cells.result_measure_eq_ok_iff.2
      ⟨⟨hfirst, hsecond⟩, ⟨hbins.requireMatch_eq, hbins.fits⟩, ⟨hmotion, hheat⟩, rfl⟩⟩
  · intro p bins hp m accumulating averaging blocks d cells averages hmeasure c list hlist htwo
      hcount
    obtain ⟨hblocks, ⟨hmatch, hfits⟩, hsizes, rfl⟩ := Cells.result_measure_eq_ok_iff.1 hmeasure
    obtain ⟨hlength, hmotion, hheat⟩ :=
      Bins.getElem?_averages_of_two hp hfits d hlist htwo hcount rfl
    have hs : Sample.NonNegative (bins.kinematics p c) := Bins.nonNegative_kinematics hp c
    refine ⟨_, _, hfits.mapM_kinematics hlist, hmotion, hheat, ?_, ?_, ?_, fun w => ?_⟩
    · rw [Sample.temperature, hlength]
    · exact hs.temperature_nonneg d (by omega)
    · exact hs.temperature_eq_zero_iff d (by omega)
    · have hfits' := hfits.drift w
      obtain ⟨_, _, hheat'⟩ :=
        Bins.getElem?_averages_of_two (hp.drift w) hfits' d hlist htwo hcount
          (Bins.kinematics_drift w p bins c)
      refine ⟨_, _, Cells.result_measure_eq_ok_iff.2
        ⟨hblocks, ⟨(bins.requireMatch_drift w p).trans hmatch, hfits'⟩, hsizes, rfl⟩, hheat', ?_⟩
      exact hs.temperature_drift d w

theorem temperature_is_variance_four :
    let p : Particles Rat := ⟨#[⟨3, 0, 0⟩, ⟨1, 0, 0⟩], 2,
      some ⟨#[⟨5, 5, 5⟩, ⟨2, 4, 0⟩], #[0, 4], #[0, 1], rfl⟩⟩
    ∃ bins averages, Bins.ofLists .debug p [[0, 1, 2, 3], [0], [2, 2]] = .ok bins ∧
      (Cells.measure ⟨.debug, .off⟩ .shared (.ofThreads 2) (2, 1) .three p bins
        ⟨Array.replicate 3 ⟨.fill 9, 9⟩, Array.replicate 3 ⟨9, 9, 9⟩⟩).result = .ok averages ∧
      averages.motion[0]? = some ⟨⟨2, 2, 0⟩, 8⟩ ∧ averages.heat[0]? = some ⟨50, 4, 4⟩ ∧
      averages.heat[2]? = some ⟨0, 0, 2⟩ := by
  intro p
  obtain ⟨hsuccess, hcells⟩ := temperature_is_variance
  have hp : p.NonNegative := by
    refine ⟨by decide, fun e he => ?_⟩
    obtain rfl := Option.some.inj he
    decide
  obtain ⟨bins, hbins⟩ : ∃ bins, Bins.ofLists .debug p [[0, 1, 2, 3], [0], [2, 2]] = .ok bins :=
    ⟨_, rfl⟩
  have hsize : bins.size = 3 := Bins.size_ofLists hbins
  obtain ⟨averages, haverages⟩ := hsuccess p bins (.inl ⟨_, _, hbins⟩) ⟨.debug, .off⟩ .shared
    (.ofThreads 2) (2, 1) .three
    ⟨Array.replicate 3 ⟨.fill 9, 9⟩, Array.replicate 3 ⟨9, 9, 9⟩⟩ (by decide) (by decide)
    (by rw [hsize]; rfl) (by rw [hsize]; rfl)
  have hall := hcells p bins hp _ _ _ _ _ _ _ haverages
  cases hbins
  obtain ⟨s, t, hs, hmotion, hheat, ht, _⟩ := hall 0 _ rfl (by decide) (by decide)
  obtain ⟨s', t', hs', _, hheat', _, _, hzero, _⟩ := hall 2 _ rfl (by decide) (by decide)
  obtain rfl := Except.ok.inj hs
  obtain rfl := Except.ok.inj hs'
  refine ⟨_, averages, rfl, haverages, ?_, ?_, ?_⟩
  · rw [hmotion]
    decide +kernel
  · rw [hheat, ht]
    decide +kernel
  · rw [hheat', hzero.2 (by decide)]
    decide +kernel

end KineticGrid
