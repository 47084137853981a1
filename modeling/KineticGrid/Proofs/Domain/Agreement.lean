import KineticGrid.Proofs.Domain.TimeStep
import KineticGrid.Proofs.Message.Gathering
import KineticGrid.Proofs.Space.Globe
import KineticGrid.Proofs.Sweep.Summing
import Mathlib.Algebra.BigOperators.Group.Finset.Piecewise
/-!
# Agreement with one rank

The particles of a world may be spread over its ranks in many ways: a particle may be in any cell,
ghost cells included, that stands for its cell of the world. Main statement: whatever the way, the
ranks together count what one rank without ghost cells counts for the whole world.
-/

namespace KineticGrid

variable {W S A : Type}

/-! ## Particles of the world -/

/-- A family of particles, each with a cell of the world, and for each of them a rank and a cell of
that rank that stands for it. -/
structure Torus.Placement {n : Nat} (T : Torus n) (t : Topology) (ι : Type) where
  home : ι → Vec3 Nat
  rank : ι → Nat
  cell : ι → Vec3 Nat
  rank_lt : ∀ k, rank k < n
  has_cell : ∀ k, t.extent.Has (cell k)
  stands : ∀ k, T.worldCell t (rank k) (cell k) = home k

namespace Torus.Placement

variable {n : Nat} {T : Torus n} {t : Topology} {ι : Type} [Fintype ι]

def inCell (P : T.Placement t ι) (i : Nat) (c : Vec3 Nat) : Nat :=
  (Finset.univ.filter fun k => P.rank k = i ∧ P.cell k = c).card

def inWorld (P : T.Placement t ι) (g : Vec3 Nat) : Nat :=
  (Finset.univ.filter fun k => P.home k = g).card

theorem sum_loads (P : T.Placement t ι) {bins : Nat → Bins}
    (hloads : ∀ i < n, ∀ c, t.extent.Has c → (bins i).load (t.extent.slot c) = P.inCell i c)
    (i : Nat) (l : Vec3 Nat) :
    ∑ q ∈ T.copies t i l, loads t bins q.1 (t.extent.cell q.2) =
      ∑ q ∈ T.copies t i l, P.inCell q.1 (t.extent.cell q.2) := by
  apply Finset.sum_congr rfl
  intro q hq
  obtain ⟨hrank, hslot⟩ := mem_cells.1 (Finset.mem_filter.1 hq).1
  exact hloads q.1 hrank _ (Extent.has_cell hslot)

/-- The particles in a cell of a rank. -/
def placed (P : T.Placement t ι) (i : Nat) (c : Vec3 Nat) : Finset ι :=
  Finset.univ.filter fun k => P.rank k = i ∧ P.cell k = c

def homed (P : T.Placement t ι) (g : Vec3 Nat) : Finset ι :=
  Finset.univ.filter fun k => P.home k = g

/-- The particles in all copies of a cell are those of its cell of the world. -/
theorem sum_placed {M : Type} [AddCommMonoid M] (P : T.Placement t ι) (ht : t.Holds) {i : Nat}
    (hi : i < n) (l : Vec3 Nat) (f : ι → M) :
    ∑ q ∈ T.copies t i l, ∑ k ∈ P.placed q.1 (t.extent.cell q.2), f k =
      ∑ k ∈ P.homed (T.worldCell t i l), f k := by
  have hmaps : ∀ k ∈ P.homed (T.worldCell t i l),
      (P.rank k, t.extent.slot (P.cell k)) ∈ T.copies t i l := by
    intro k hk
    rw [homed, Finset.mem_filter, ← P.stands] at hk
    rw [copies, Finset.mem_filter, mem_cells]
    dsimp only
    rw [Extent.cell_slot (P.has_cell k)]
    exact ⟨⟨P.rank_lt k, Extent.slot_lt (P.has_cell k)⟩,
      (worldCell_eq_iff ht (P.rank_lt k) hi).1 hk.2⟩
  rw [← Finset.sum_fiberwise_of_maps_to hmaps]
  apply Finset.sum_congr rfl
  rintro ⟨j, s⟩ hq
  rw [copies, Finset.mem_filter, mem_cells] at hq
  obtain ⟨⟨hj, hs⟩, hsame⟩ := hq
  apply Finset.sum_congr _ fun _ _ => rfl
  ext k
  rw [placed, homed, Finset.mem_filter, Finset.mem_filter, Finset.mem_filter]
  dsimp only
  constructor
  · rintro ⟨hk, rfl, hcell⟩
    refine ⟨⟨hk, ?_⟩, ?_⟩
    · rw [← P.stands, hcell, (worldCell_eq_iff ht hj hi).2 hsame]
    · rw [hcell, Extent.slot_cell]
  · rintro ⟨⟨hk, _⟩, heq⟩
    rw [Prod.mk.injEq] at heq
    obtain ⟨rfl, rfl⟩ := heq
    exact ⟨hk, rfl, (Extent.cell_slot (P.has_cell k)).symm⟩

theorem sum_inCell (P : T.Placement t ι) (ht : t.Holds) {i : Nat} (hi : i < n) (l : Vec3 Nat) :
    ∑ q ∈ T.copies t i l, P.inCell q.1 (t.extent.cell q.2) = P.inWorld (T.worldCell t i l) := by
  have hones := P.sum_placed ht hi l fun _ => 1
  simp only [← Finset.card_eq_sum_ones] at hones
  exact hones

/-- What the ranks count in a time step: every particle in the owned cell for its cell of the
world. -/
theorem toNat_count [Storage S A] (P : T.Placement t ι) (ht : t.Holds) {bins : Nat → Bins}
    (hloads : ∀ i < n, ∀ c, t.extent.Has c → (bins i).load (t.extent.slot c) = P.inCell i c)
    (hfew : ∀ g, P.inWorld g < word32Size) {v : Values S}
    (hv : v.Counts (((loads t bins).folded t T.neighbours Axis.all).refreshed t T.neighbours))
    {i : Nat} (hi : i < n) {l : Vec3 Nat} (hl : t.Owns l) :
    (v.heat i l).count.toNat = P.inWorld (T.worldCell t i l) := by
  rw [hv, Fields.refreshed_of_owns _ ht hi hl, Fields.folded_of_owns _ ht hi hl,
    P.sum_loads hloads, P.sum_inCell ht hi, UInt32.toNat_ofNat']
  exact Nat.mod_eq_of_lt (hfew _)

def measuredCells (P : T.Placement t ι) : Nat :=
  ((Finset.range (T.world t).volume).filter fun s => 2 ≤ P.inWorld ((T.world t).cell s)).card

theorem measuredCells_le (P : T.Placement t ι) : P.measuredCells ≤ (T.world t).volume :=
  (Finset.card_filter_le _ _).trans_eq (Finset.card_range _)

end Torus.Placement

/-! ## Totals of a domain -/

def stagedCells (A : Type) [Arith A] [Storage S A] (t : Topology) (motion : Vec3 Nat → Motion S)
    (heat : Vec3 Nat → Heat S) : List (Totals A) :=
  (List.range t.ownedBox.shape.volume).map fun s =>
    Totals.ofCell (motion (t.ownedBox.cellAt s)) (heat (t.ownedBox.cellAt s))

/-- Whether so many particles make up a temperature, as a number. -/
def measured (count : Nat) : Nat := if 1 < count then 1 else 0

theorem measured_le (count : Nat) : measured count ≤ 1 := by
  unfold measured
  split
  · exact Nat.le_refl 1
  · exact Nat.zero_le 1

theorem hasTemperature_iff {e : Heat S} : e.hasTemperature = true ↔ 1 < e.count.toNat := by
  rw [Heat.hasTemperature, decide_eq_true_eq]
  exact UInt32.lt_iff_toNat_lt

theorem toNat_valid_ofCell [Arith A] [Storage S A] (v : Motion S) (e : Heat S) :
    (Totals.ofCell v e : Totals A).valid.toNat = measured e.count.toNat := by
  unfold Totals.ofCell measured
  dsimp only
  by_cases h : 1 < e.count.toNat
  · rw [if_pos (hasTemperature_iff.2 h), if_pos h]
    rfl
  · rw [if_neg (mt hasTemperature_iff.1 h), if_neg h]
    rfl

theorem validCells_stagedCells [Arith A] [Storage S A] (t : Topology)
    (motion : Vec3 Nat → Motion S) (heat : Vec3 Nat → Heat S) :
    validCells (stagedCells A t motion heat) =
      ∑ s ∈ Finset.range t.ownedBox.shape.volume,
        measured (heat (t.ownedBox.cellAt s)).count.toNat := by
  rw [validCells, stagedCells, List.map_map]
  change ((List.range _).map _).sum = ((List.range _).map _).sum
  congr 1
  apply List.map_congr_left
  intro s _
  exact toNat_valid_ofCell _ _

theorem validCells_stagedCells_le [Arith A] [Storage S A] (t : Topology)
    (motion : Vec3 Nat → Motion S) (heat : Vec3 Nat → Heat S) :
    validCells (stagedCells A t motion heat) ≤ t.ownedBox.shape.volume := by
  rw [validCells_stagedCells]
  calc ∑ s ∈ Finset.range t.ownedBox.shape.volume,
        measured (heat (t.ownedBox.cellAt s)).count.toNat
      ≤ ∑ s ∈ Finset.range t.ownedBox.shape.volume, 1 := Finset.sum_le_sum fun s _ => measured_le _
    _ = t.ownedBox.shape.volume := by
        rw [← Finset.card_eq_sum_ones, Finset.card_range]

theorem Domain.Built.result_stage [Arith A] [Storage S A] {m : Mode} {t : Topology} {d : Domain S}
    (hd : d.Built m t) (ht : t.Sized)
    (hspace : t.ownedBox.shape.volume * Cells.stagedBytes ≤ maxArrayBytes)
    (motion : Vec3 Nat → Motion S) (heat : Vec3 Nat → Heat S) :
    ((d.holding motion heat).stage m).result = .ok (stagedCells A t motion heat) := by
  have hstage := Cells.result_stage (A := A) m d.executor (hd.block_ne_zero ht .stage)
    (g := t.grid) ht.volume_lt ht.holds.ownedBox_within hspace motion heat
  unfold stage Domain.holding
  rw [hd.topology]
  dsimp only
  rw [Outcome.result_bind, ht.holds.owned_eq]
  exact hstage

/-- Staging reserves a buffer for all owned cells first. -/
theorem Domain.Built.result_summary_of_large [Arith A] [Storage S A] [Letter W] [Encoding W A]
    {m : Mode} {t : Topology} {d : Domain S} (hd : d.Built m t) (ht : t.Sized)
    (hlarge : maxArrayBytes < t.ownedBox.shape.volume * Cells.stagedBytes) :
    (d.summary W m).result = .error (.fault .capacity) := by
  have hsize := Box.size_eq (b := m.build) (r := t.ownedBox)
    (Nat.lt_of_le_of_lt ht.holds.ownedBox_within.volume_le ht.volume_lt)
  have hreserve : reserve (t.ownedBox.shape.volume * Cells.stagedBytes) = .error .capacity :=
    if_neg (Nat.not_le.2 hlarge)
  simp only [summary, totals, stage, Cells.stage, Outcome.result_bind, hd.topology,
    ht.holds.owned_eq, Outcome.result_lift_ok, ok_bind, hsize, hreserve]
  rfl

section

variable [Arith A] [Storage S A] [Encoding W A] [LawfulEncoding W A] [Letter W] [LawfulLetter W]
  {m : Mode} {t : Topology} {d : Domain S}

theorem Domain.Built.result_totals (hd : d.Built m t) (ht : t.Sized)
    (hspace : t.ownedBox.shape.volume * Cells.stagedBytes ≤ maxArrayBytes)
    (hwidth : Encoding.width W (Totals A) ≤ Cells.stagedBytes)
    (motion : Vec3 Nat → Motion S) (heat : Vec3 Nat → Heat S) :
    ((d.holding motion heat).totals W m).result =
      .ok (Reduction.grouped (min (d.settings.block .reduce) (d.executor.limit .reduce))
        (stagedCells A t motion heat)) := by
  have hcells := validCells_stagedCells_le (A := A) t motion heat
  have hlength : (stagedCells A t motion heat).length = t.ownedBox.shape.volume := by
    rw [stagedCells, List.length_map, List.length_range]
  have hvolume := Nat.lt_of_le_of_lt ht.holds.ownedBox_within.volume_le ht.volume_lt
  have hscratch :
      (stagedCells A t motion heat).length * Encoding.width W (Totals A) < wordSize := by
    have hle := Nat.mul_le_mul_left t.ownedBox.shape.volume hwidth
    rw [hlength]
    exact Nat.lt_of_le_of_lt (Nat.le_trans hle hspace) (by decide)
  rw [Domain.totals, Outcome.result_bind, hd.result_stage ht hspace]
  exact Reduction.result_total (W := W) m d.executor (hd.block_ne_zero ht .reduce) _ hscratch
    fun _ => by omega

theorem Domain.Built.exists_totals (hd : d.Built m t) (ht : t.Sized)
    (hspace : t.ownedBox.shape.volume * Cells.stagedBytes ≤ maxArrayBytes)
    (hwidth : Encoding.width W (Totals A) ≤ Cells.stagedBytes)
    (motion : Vec3 Nat → Motion S) (heat : Vec3 Nat → Heat S) :
    ∃ total : Totals A, ((d.holding motion heat).totals W m).result = .ok total ∧
      total.valid.toNat = validCells (stagedCells A t motion heat) := by
  have hcells := validCells_stagedCells_le (A := A) t motion heat
  have hvolume := Nat.lt_of_le_of_lt ht.holds.ownedBox_within.volume_le ht.volume_lt
  exact ⟨_, hd.result_totals ht hspace hwidth motion heat,
    (Reduction.toNat_valid_grouped _ (by omega)).2⟩

end

/-- Staging the owned cells of all ranks finds the cells of the world with two particles. -/
theorem sum_validCells [Arith A] [Storage S A] {n : Nat} {T : Torus n} {t : Topology} {ι : Type}
    [Fintype ι] (P : T.Placement t ι) (ht : t.Holds) {v : Values S}
    (hcount : ∀ i < n, ∀ l, t.Owns l →
      (v.heat i l).count.toNat = P.inWorld (T.worldCell t i l)) :
    ∑ i ∈ Finset.range n, validCells (stagedCells A t (v.motion i) (v.heat i)) =
      P.measuredCells := by
  rw [Torus.Placement.measuredCells, Finset.card_filter]
  refine Eq.trans ?_ (T.sum_world ht fun g => measured (P.inWorld g))
  apply Finset.sum_congr rfl
  intro i hi
  rw [validCells_stagedCells]
  apply Finset.sum_congr rfl
  intro s hs
  have howns := ht.ownedBox_has_iff.1 (Box.has_cellAt (Finset.mem_range.1 hs))
  rw [hcount i (Finset.mem_range.1 hi) _ howns]

theorem sum_grouped [Arith A] [Storage S A] {n : Nat} {T : Torus n} {t : Topology} {ι : Type}
    [Fintype ι] (P : T.Placement t ι) (ht : t.Sized) (hvolume : (T.world t).volume < wordSize)
    (b : Build) (block : Nat → Nat) {v : Values S}
    (hcount : ∀ i < n, ∀ l, t.Owns l →
      (v.heat i l).count.toNat = P.inWorld (T.worldCell t i l)) :
    let totals (i : Nat) := Reduction.grouped (block i) (stagedCells A t (v.motion i) (v.heat i))
    Totals.sum b ((List.range n).map totals) = .ok (Totals.total ((List.range n).map totals)) ∧
      (Totals.total ((List.range n).map totals)).valid.toNat = P.measuredCells := by
  intro totals
  have hgroup (i : Nat) :
      (totals i).valid.toNat = validCells (stagedCells A t (v.motion i) (v.heat i)) := by
    apply (Reduction.toNat_valid_grouped _ _).2
    calc validCells (stagedCells A t (v.motion i) (v.heat i))
        ≤ t.ownedBox.shape.volume := validCells_stagedCells_le _ _ _
      _ ≤ t.extent.volume := ht.holds.ownedBox_within.volume_le
      _ < wordSize := ht.volume_lt
  have hvalid : validCells ((List.range n).map totals) = P.measuredCells := by
    rw [← sum_validCells (A := A) P ht.holds hcount, validCells, List.map_map]
    change _ = ((List.range n).map _).sum
    congr 1
    apply List.map_congr_left
    intro i _
    exact hgroup i
  have hlt : validCells ((List.range n).map totals) < wordSize := by
    rw [hvalid]
    exact Nat.lt_of_le_of_lt P.measuredCells_le hvolume
  refine ⟨Totals.sum_eq b fun _ => hlt, ?_⟩
  rw [Totals.toNat_valid_total, Nat.mod_eq_of_lt hlt, hvalid]

/-! ## One rank -/

section

variable [Arith A] [Storage S A] {m : Mode} {t : Topology} {d : Domain S}

theorem Domain.Built.exists_compute (W : Type) (hd : d.Built m t) (ht : t.Sized)
    {p : Particles S} {bins : Bins} (hbins : bins.BuiltOn t p) :
    ∃ (d' : Domain S) (motion : Vec3 Nat → Motion S) (heat : Vec3 Nat → Heat S),
      d'.Built m t ∧
      (Domain.compute m p bins : Step W (Domain S)).Does 0 d [] (d'.holding motion heat) ∧
      ∀ c, (heat c).count = .ofNat (bins.load (t.extent.slot c)) :=
  ⟨d, _, _, hd, hd.does_compute W ht hbins, fun _ => rfl⟩

end

/-! ## All ranks -/

/-- The ranks of a world with their parts of its particles, and one rank with the undivided grid and
all particles. The topologies are accepted, cells and rows of cells can be counted, no cell of the
world has as many particles as a 32-bit word can count, and memory can hold the staged cells of a
rank. -/
structure Torus.Placement.Counterparts {n : Nat} {T : Torus n} {t : Topology} {ι : Type}
    [Fintype ι] (P : T.Placement t ι) [Storage S A] (m : Mode) (t₀ : Topology)
    (d : Nat → Domain S) (d₀ : Domain S) (particles : Nat → Particles S) (bins : Nat → Bins)
    (particles₀ : Particles S) (bins₀ : Bins) : Prop where
  ranks_pos : 0 < n
  fits : t.Fits
  extent_lt : ∀ a, (T.world t).get a < word32Size
  volume_lt : (T.world t).volume < wordSize
  undivided : Topology.undivided ((T.world t).map UInt32.ofNat) = .ok t₀
  built : ∀ i < n, (d i).Built m t
  built_whole : d₀.Built m t₀
  space_le : t.ownedBox.shape.volume * Cells.stagedBytes ≤ maxArrayBytes
  few : ∀ g, P.inWorld g < word32Size
  bins_built : ∀ i < n, (bins i).BuiltOn t (particles i)
  bins_built_whole : bins₀.BuiltOn t₀ particles₀

namespace Torus.Placement.Counterparts

variable {n : Nat} {T : Torus n} {t t₀ : Topology} {ι : Type} [Fintype ι] {P : T.Placement t ι}
  [Storage S A] {m : Mode} {d : Nat → Domain S} {d₀ : Domain S} {particles : Nat → Particles S}
  {bins : Nat → Bins} {particles₀ : Particles S} {bins₀ : Bins}

theorem eq_whole (h : P.Counterparts m t₀ d d₀ particles bins particles₀ bins₀) :
    t₀ = T.whole t := (Topology.make_eq_ok_iff.1 h.undivided).1

theorem sized_whole (h : P.Counterparts m t₀ d d₀ particles bins particles₀ bins₀) :
    (T.whole t).Sized := Torus.sized_whole h.ranks_pos h.fits.holds h.extent_lt h.volume_lt

/-- The counts of the ranks never leave a word while they are folded. -/
theorem folded_lt (h : P.Counterparts m t₀ d d₀ particles bins particles₀ bins₀)
    (hloads : ∀ i < n, ∀ c, t.extent.Has c → (bins i).load (t.extent.slot c) = P.inCell i c) :
    ∀ i < n, ∀ c, t.extent.Has c →
      (loads t bins).folded t T.neighbours Axis.all i c < word32Size := by
  intro i hi c hc
  have hle := Fields.folded_le (T := T) (loads t bins) h.fits.holds hi hc
  rw [P.sum_loads hloads, P.sum_inCell h.fits.holds hi] at hle
  exact Nat.lt_of_le_of_lt hle (h.few _)

end Torus.Placement.Counterparts

section

variable [Storage S Binary64] [Letter W] [LawfulLetter W] {m : Mode} {n : Nat} {T : Torus n}
  {t : Topology} {ι : Type} [Fintype ι]

private theorem width_totals_le (W : Type) [Letter W] :
    Encoding.width W (Totals Binary64) ≤ Cells.stagedBytes := Nat.le_refl 48

theorem exists_sum_totals (W : Type) [Letter W] [LawfulLetter W] (P : T.Placement t ι)
    (ht : t.Sized) (hvolume : (T.world t).volume < wordSize) {d : Nat → Domain S}
    (hd : ∀ i < n, (d i).Built m t)
    (hspace : t.ownedBox.shape.volume * Cells.stagedBytes ≤ maxArrayBytes) {v : Values S}
    (hcount : ∀ i < n, ∀ l, t.Owns l →
      (v.heat i l).count.toNat = P.inWorld (T.worldCell t i l)) :
    ∃ (totals : Nat → Totals Binary64) (sum : Totals Binary64),
      (∀ i < n, ((v.on d i).totals W m).result = .ok (totals i)) ∧
      Totals.sum m.build ((List.range n).map totals) = .ok sum ∧
      sum.valid.toNat = P.measuredCells := by
  obtain ⟨hsum, hvalid⟩ := sum_grouped (A := Binary64) P ht hvolume m.build
    (fun i => min ((d i).settings.block .reduce) ((d i).executor.limit .reduce)) hcount
  exact ⟨_, _, fun i hi => (hd i hi).result_totals ht hspace (width_totals_le W) _ _, hsum, hvalid⟩

theorem exists_summary_whole (W : Type) [Letter W] [LawfulLetter W] (P : T.Placement t ι)
    (hsized : (T.whole t).Sized) (hworld : ∀ a, (T.world t).get a < word32Size)
    {d : Domain S} (hd : d.Built m (T.whole t))
    (hspace : (T.world t).volume * Cells.stagedBytes ≤ maxArrayBytes)
    (motion : Vec3 Nat → Motion S) {heat : Vec3 Nat → Heat S}
    (hcount : ∀ g, (T.world t).Has g → (heat g).count.toNat = P.inWorld g) :
    ∃ s : Summary Binary64, ((d.holding motion heat).summary W m).result = .ok s ∧
      s.validCells.toNat = P.measuredCells := by
  obtain ⟨hshape, hcell⟩ := T.cellAt_ownedBox_whole hsized hworld
  obtain ⟨total, htotal, hvalid⟩ := hd.exists_totals (W := W) hsized (by rw [hshape]; exact hspace)
    (width_totals_le W) motion heat
  refine ⟨total.summary, ?_, ?_⟩
  · rw [Domain.summary, Outcome.result_bind, htotal]
    rfl
  · change total.valid.toNat = _
    rw [hvalid, validCells_stagedCells, hshape, Torus.Placement.measuredCells, Finset.card_filter]
    apply Finset.sum_congr rfl
    intro s hs
    rw [hcell, hcount _ (Extent.has_cell (Finset.mem_range.1 hs))]
    rfl

end

section

variable [Letter W] [LawfulLetter W] [Encoding W S] {m : Mode} {n : Nat} {t t₀ : Topology}
  {d : Nat → Domain S} {d₀ : Domain S}

theorem ends_summaryAcross_of_width [Arith A] [Storage S A] [Encoding W A] [LawfulEncoding W A]
    (hwidth : Encoding.width W (Totals A) ≤ Cells.stagedBytes)
    {p : Nat → Vec3 Neighbours} (hp : FullyLinked n p) {tag tag' : Tag}
    (htag : ∀ j < 24, tag' ≠ tag.offset (.ofNat j)) {steps : Nat → Step W (Domain S)}
    {message : Leg → Nat → Side → List W} {d' : Nat → Domain S}
    (hsteps : Lockstep n steps
      ((t.served Leg.all).map fun l => l.phase S n t p tag (message l)) d d')
    {totals : Nat → Totals A} {sum : Totals A}
    (htotals : ∀ i < n, ((d' i).totals W m).result = .ok (totals i))
    (hsum : Totals.sum m.build ((List.range n).map totals) = .ok sum) :
    (World.launch n fun i => ((steps i).follow fun d => d.summaryAcross m i n tag') (d i)).Ends n
      fun i a => a.1 = d' i ∧ a.2.result = .ok sum.summary := by
  have hserves := forall₂_serves_map (S := S) n t p tag (t.served Leg.all) message
  have hnodup := Leg.nodup_all.filter fun l => t.isDecomposed l.axis
  let last : Phase W := gatherPhase n tag' (Encoding.width W (Totals A)) fun i =>
    Encoding.encode (totals i)
  refine hsteps.ends_follow last (b := fun _ => sum.summary) (fun i hi => ?_) ?_ ?_
  · rw [← List.append_nil (last.script i)]
    refine .outcome_bind (htotals i hi) (.bind ?_ (Task.gives_pure i _))
    exact allSum_gives m tag' totals (Nat.lt_of_le_of_lt hwidth (by decide)) hsum hi
  · intro q hq
    rcases List.mem_append.1 hq with hq | hq
    · exact valid_of_serves hp hserves q hq
    · obtain rfl := List.mem_singleton.1 hq
      exact gatherPhase_valid
  · apply (spaced_of_serves hp hserves (alternating_of_nodup hnodup)).concat
    intro q hq a huses hlast
    obtain ⟨l, _, rfl⟩ := List.mem_map.1 hq
    obtain ⟨j, hj, heq⟩ := Leg.exists_offset_of_uses huses
    exact htag j hj ((tag_of_uses_gatherPhase hlast).symm.trans heq)

variable [Storage S Binary64]

theorem ends_summaryAcross {p : Nat → Vec3 Neighbours} (hp : FullyLinked n p) {tag tag' : Tag}
    (htag : ∀ j < 24, tag' ≠ tag.offset (.ofNat j)) {steps : Nat → Step W (Domain S)}
    {message : Leg → Nat → Side → List W} {d' : Nat → Domain S}
    (hsteps : Lockstep n steps
      ((t.served Leg.all).map fun l => l.phase S n t p tag (message l)) d d')
    {totals : Nat → Totals Binary64} {sum : Totals Binary64}
    (htotals : ∀ i < n, ((d' i).totals W m).result = .ok (totals i))
    (hsum : Totals.sum m.build ((List.range n).map totals) = .ok sum) :
    (World.launch n fun i => ((steps i).follow fun d => d.summaryAcross m i n tag') (d i)).Ends n
      fun i a => a.1 = d' i ∧ a.2.result = .ok sum.summary :=
  ends_summaryAcross_of_width (width_totals_le W) hp htag hsteps htotals hsum

/-- The distributed run agrees with the run of one rank on everything that is exact. In whatever
order the ranks act, all of them end with the same summary, and they have counted in each owned
cell, and as cells with a temperature, what one rank counts in the grid of the whole world. The
buffers that the cells are staged in have to be of a size that can be allocated. -/
theorem distributed_agrees_with_serial [Carrier W S] {T : Torus n} {ι : Type} [Fintype ι]
    (P : T.Placement t ι) {particles : Nat → Particles S} {bins : Nat → Bins}
    {particles₀ : Particles S} {bins₀ : Bins}
    (h : P.Counterparts m t₀ d d₀ particles bins particles₀ bins₀)
    (hloads : ∀ i < n, ∀ c, t.extent.Has c → (bins i).load (t.extent.slot c) = P.inCell i c)
    (hloads₀ : ∀ g, (T.world t).Has g → bins₀.load ((T.world t).slot g) = P.inWorld g)
    (tag tag' : Tag) (htag : ∀ j < 24, tag' ≠ tag.offset (.ofNat j)) :
    ∃ (d' : Nat → Domain S) (s : Summary Binary64) (d₀' : Domain S),
      (World.launch n fun i => ((Domain.computeDistributed m (particles i) (bins i)
        (T.neighbours i) tag : Step W (Domain S)).follow fun d =>
          d.summaryAcross m i n tag') (d i)).Ends n
            (fun i a => a.1 = d' i ∧ a.2.result = .ok s) ∧
      (Domain.compute m particles₀ bins₀ : Step W (Domain S)).Does 0 d₀ [] d₀' ∧
      (∀ i < n, ∀ l, t.Owns l → (d' i).count (t.extent.slot l) =
        d₀'.count ((T.world t).slot (T.worldCell t i l))) ∧
      s.validCells.toNat = P.measuredCells ∧
      ((T.world t).volume * Cells.stagedBytes ≤ maxArrayBytes →
        ∃ s₀ : Summary Binary64, (d₀'.summary W m).result = .ok s₀ ∧
          s₀.validCells = s.validCells) := by
  obtain rfl := h.eq_whole
  have ht := h.fits
  have hextent := Torus.extent_whole h.extent_lt
  obtain ⟨d', v, message, hbuilt, hcounts, hlockstep⟩ :=
    exists_timeStep W ht h.built h.bins_built (fun _ => h.folded_lt hloads) tag
  have hcount (i : Nat) (hi : i < n) (l : Vec3 Nat) (hl : t.Owns l) :=
    P.toNat_count ht.holds hloads h.few hcounts hi hl
  obtain ⟨totals, sum, htotals, hsum, hvalid⟩ :=
    exists_sum_totals W P ht.toSized h.volume_lt hbuilt h.space_le hcount
  obtain ⟨d₀', motion, heat, hbuilt₀, hcompute, hheat⟩ :=
    h.built_whole.exists_compute W h.sized_whole h.bins_built_whole
  have hcount₀ (g : Vec3 Nat) (hg : (T.world t).Has g) :
      (heat g).count.toNat = P.inWorld g := by
    rw [hheat, hextent, hloads₀ g hg, UInt32.toNat_ofNat']
    exact Nat.mod_eq_of_lt (h.few g)
  refine ⟨v.on d', sum.summary, d₀'.holding motion heat, ?_, hcompute, ?_, hvalid, ?_⟩
  · exact ends_summaryAcross T.rings htag hlockstep htotals hsum
  · intro i hi l hl
    have hhas := hl.has ht.holds
    have hworldCell := Torus.world_has_worldCell (T := T) ht.holds hi l
    rw [Values.on, Domain.count_holding (hbuilt i hi).topology _ _ (Extent.slot_lt hhas),
      Extent.cell_slot hhas, hcount i hi l hl,
      Domain.count_holding hbuilt₀.topology _ _ (by rw [hextent]; exact Extent.slot_lt hworldCell),
      hextent, Extent.cell_slot hworldCell, hcount₀ _ hworldCell]
  · intro hspace₀
    obtain ⟨s₀, hs₀, hvalid₀⟩ :=
      exists_summary_whole W P h.sized_whole h.extent_lt hbuilt₀ hspace₀ motion hcount₀
    refine ⟨s₀, hs₀, ?_⟩
    apply UInt64.toNat_inj.1
    rw [hvalid₀]
    exact hvalid.symm

end

/-- Three particles of a world with four cells. Two of them share a cell, of which the second rank
has one in a ghost cell. -/
def Torus.Placement.three : (Torus.ofShape ⟨2, 1, 1⟩).Placement .four (Fin 3) where
  home k := if k = 2 then ⟨2, 0, 0⟩ else ⟨0, 0, 0⟩
  rank k := if k = 0 then 0 else 1
  cell k := if k = 1 then ⟨3, 0, 0⟩ else ⟨1, 0, 0⟩
  rank_lt := by decide
  has_cell := by decide
  stands := by decide

theorem Torus.Placement.counterparts_three [Storage S A] {p : Particles S} {bins : Nat → Bins}
    {whole : Bins} (hd : ∀ i, (Domain.numbered .four i : Domain S).Built ⟨.debug, .off⟩ .four)
    (hd₀ : (Domain.numbered ⟨⟨4, 1, 1⟩, .fill 0⟩ 7 : Domain S).Built ⟨.debug, .off⟩
      ⟨⟨4, 1, 1⟩, .fill 0⟩)
    (hbins : ∀ i, (bins i).BuiltOn .four p) (hwhole : whole.BuiltOn ⟨⟨4, 1, 1⟩, .fill 0⟩ p) :
    Torus.Placement.three.Counterparts ⟨.debug, .off⟩ ⟨⟨4, 1, 1⟩, .fill 0⟩
      (fun i => (.numbered .four i : Domain S)) (.numbered ⟨⟨4, 1, 1⟩, .fill 0⟩ 7) (fun _ => p)
      bins p whole where
  ranks_pos := by decide
  fits := Topology.fits_four
  extent_lt a := by cases a <;> decide
  volume_lt := by decide
  undivided := rfl
  built i _ := hd i
  built_whole := hd₀
  space_le := by decide
  few g := Nat.lt_of_le_of_lt (Finset.card_filter_le _ _) (by decide)
  bins_built i _ := hbins i
  bins_built_whole := hwhole

theorem distributed_agrees_with_serial_three :
    let particles : Particles Binary32 := .native #[.fill 0, .fill 0, .fill 0] 0
    let bins (i : Nat) : Bins := .ofCells particles
      (if i = 0 then [[], [.native 0], [], []] else [[], [.native 0], [], [.native 1]])
    let whole : Bins := .ofCells particles [[.native 0, .native 1], [], [.native 2], []]
    ∃ (d' : Nat → Domain Binary32) (s : Summary Binary64) (d₀' : Domain Binary32),
      (World.launch 2 fun i => ((Domain.computeDistributed ⟨.debug, .off⟩ particles (bins i)
        ((Torus.ofShape ⟨2, 1, 1⟩).neighbours i) ⟨65530⟩ : Step UInt8 (Domain Binary32)).follow
          fun d => d.summaryAcross ⟨.debug, .off⟩ i 2 ⟨100⟩) (.numbered .four i)).Ends 2
            (fun i a => a.1 = d' i ∧ a.2.result = .ok s) ∧
      (Domain.compute ⟨.debug, .off⟩ particles whole : Step UInt8 (Domain Binary32)).Does 0
        (.numbered ⟨⟨4, 1, 1⟩, .fill 0⟩ 7) [] d₀' ∧
      (d' 1).count 2 = d₀'.count 3 ∧ s.validCells.toNat = 1 := by
  intro particles bins whole
  have hbins (i : Nat) : (bins i).BuiltOn .four particles := by
    by_cases hi : i = 0
    · subst hi
      exact ⟨.inl ⟨.debug, [[], [0], [], []], rfl⟩, rfl⟩
    · simp only [bins, if_neg hi]
      exact ⟨.inl ⟨.debug, [[], [0], [], [1]], rfl⟩, rfl⟩
  have hwhole : whole.BuiltOn ⟨⟨4, 1, 1⟩, .fill 0⟩ particles :=
    ⟨.inl ⟨.debug, [[0, 1], [], [2], []], rfl⟩, rfl⟩
  have hslots : ∀ i < 2, ∀ s < 4, (bins i).load s =
      Torus.Placement.three.inCell i (Topology.four.extent.cell s) := by
    decide +kernel
  have hloads (i : Nat) (hi : i < 2) (c : Vec3 Nat) (hc : Topology.four.extent.Has c) :
      (bins i).load (Topology.four.extent.slot c) = Torus.Placement.three.inCell i c := by
    rw [hslots i hi _ (Extent.slot_lt hc), Extent.cell_slot hc]
  let world : Extent := (Torus.ofShape ⟨2, 1, 1⟩).world .four
  have hslots' : ∀ s < 4, whole.load s = Torus.Placement.three.inWorld (world.cell s) := by
    decide +kernel
  have hloads' (g : Vec3 Nat) (hg : world.Has g) :
      whole.load (world.slot g) = Torus.Placement.three.inWorld g := by
    rw [hslots' _ (Extent.slot_lt hg), Extent.cell_slot hg]
  have hcounterparts := Torus.Placement.counterparts_three
    (fun i => Domain.built_numbered i ⟨_, rfl, rfl, rfl⟩)
    (Domain.built_numbered 7 ⟨_, rfl, rfl, rfl⟩) hbins hwhole
  obtain ⟨d', s, d₀', hends, hcompute, hcounts, hvalid, _⟩ :=
    distributed_agrees_with_serial (W := UInt8) Torus.Placement.three hcounterparts hloads hloads'
      ⟨65530⟩ ⟨100⟩ (by decide)
  refine ⟨d', s, d₀', hends, hcompute, hcounts 1 (by decide) ⟨2, 0, 0⟩ (by decide),
    hvalid.trans ?_⟩
  decide +kernel

end KineticGrid
