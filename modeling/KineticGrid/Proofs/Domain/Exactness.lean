import KineticGrid.Proofs.Domain.Agreement
import KineticGrid.Proofs.Sweep.Exact
/-!
# Exactness

A world of ranks that compute without rounding. Momentum, mass and kinetic energy add up over the
copies of a cell, and averages are taken only after everything has been added. Main statement: each
owned cell then holds what one rank computes for its cell of the world, and the summaries are the
same, for any assignment of the particles to the copies of their cells and any worker groups.
-/

namespace KineticGrid

variable {W S : Type}

/-! ## Particles of the world -/

namespace Torus.Placement

variable {n : Nat} {T : Torus n} {t : Topology} {ι : Type} [Fintype ι]

/-- The bins of a rank hold the particles that were put into its cells, each with its velocity and
mass and in any order. -/
def Fills (P : T.Placement t ι) (matter : ι → Vec3 S × S) (i : Nat) (p : Particles S)
    (bins : Bins) : Prop :=
  ∀ c, t.extent.Has c →
    (bins.kinematics p (t.extent.slot c) : Multiset (Vec3 S × S)) = (P.placed i c).val.map matter

/-- The bins of one rank for the whole world hold all particles. -/
def FillsWorld (P : T.Placement t ι) (matter : ι → Vec3 S × S) (p : Particles S)
    (bins : Bins) : Prop :=
  ∀ g, (T.world t).Has g →
    (bins.kinematics p ((T.world t).slot g) : Multiset (Vec3 S × S)) = (P.homed g).val.map matter

theorem Fills.load_eq {P : T.Placement t ι} {matter : ι → Vec3 S × S} {i : Nat} {p : Particles S}
    {bins : Bins} (h : P.Fills matter i p bins) (hbins : bins.BuiltOn t p) {c : Vec3 Nat}
    (hc : t.extent.Has c) : bins.load (t.extent.slot c) = P.inCell i c := by
  have hslot : t.extent.slot c < bins.size := by
    rw [hbins.size]
    exact Extent.slot_lt hc
  have hcard := congrArg Multiset.card (h c hc)
  rw [Multiset.coe_card, Multiset.card_map, hbins.built.fits.length_kinematics hslot] at hcard
  exact hcard

/-! ## Exact cells -/

/-- The averages over the particles of a cell of the world. -/
def exactCell (P : T.Placement t ι) (matter : ι → Vec3 Rat × Rat) (dimension : Dimension)
    (g : Vec3 Nat) : Motion Rat × Heat Rat :=
  averageCell dimension (∑ k ∈ P.homed g, Motion.ofParticle (matter k))
    (∑ k ∈ P.homed g, Heat.ofParticle (matter k))

end Torus.Placement

/-- The raw sums over some particles do not depend on their order. -/
theorem Bins.rawSums_of_kinematics {ι : Type} {matter : ι → Vec3 Rat × Rat} {p : Particles Rat}
    {bins : Bins} (hfits : bins.Fits p) {c : Nat} (hc : c < bins.size) {s : Finset ι}
    (h : (bins.kinematics p c : Multiset (Vec3 Rat × Rat)) = s.val.map matter) :
    bins.rawSums p c =
      (∑ k ∈ s, Motion.ofParticle (matter k), ∑ k ∈ s, Heat.ofParticle (matter k)) := by
  have hsum {M : Type} [AddCommMonoid M] (f : Vec3 Rat × Rat → M) :
      ((bins.kinematics p c).map f).sum = ∑ k ∈ s, f (matter k) :=
    calc
      ((bins.kinematics p c).map f).sum =
          ((bins.kinematics p c : Multiset (Vec3 Rat × Rat)).map f).sum := by
        rw [Multiset.map_coe, Multiset.sum_coe]
      _ = ((s.val.map matter).map f).sum := by rw [h]
      _ = ∑ k ∈ s, f (matter k) := by rw [Multiset.map_map]; rfl
  rw [rawSums_eq (hfits.length_kinematics hc), hsum, hsum]

section

variable {n : Nat} {T : Torus n} {t : Topology} {ι : Type} [Fintype ι] {P : T.Placement t ι}
  {matter : ι → Vec3 Rat × Rat}

/-- A fold of exact numbers adds up the momentum and the mass of all copies of a cell, and its
energy and count. -/
theorem after_fold_of_owns (v : Values Rat) (ht : t.Holds) {i : Nat} (hi : i < n) {l : Vec3 Nat}
    (hl : t.Owns l) :
    (v.after t T.neighbours Flow.fold.legs).motion i l =
        ∑ q ∈ T.copies t i l, v.motion q.1 (t.extent.cell q.2) ∧
      (v.after t T.neighbours Flow.fold.legs).heat i l =
        ∑ q ∈ T.copies t i l, v.heat q.1 (t.extent.cell q.2) :=
  ⟨v.motion.folded_of_owns ht hi hl, v.heat.folded_of_owns ht hi hl⟩

theorem folded_accumulated (ht : t.Holds) {particles : Nat → Particles Rat} {bins : Nat → Bins}
    (hbins : ∀ i < n, (bins i).BuiltOn t (particles i))
    (hfills : ∀ i < n, P.Fills matter i (particles i) (bins i)) {i : Nat} (hi : i < n)
    {l : Vec3 Nat} (hl : t.Owns l) :
    ((accumulated t particles bins).after t T.neighbours Flow.fold.legs).motion i l =
        ∑ k ∈ P.homed (T.worldCell t i l), Motion.ofParticle (matter k) ∧
      ((accumulated t particles bins).after t T.neighbours Flow.fold.legs).heat i l =
        ∑ k ∈ P.homed (T.worldCell t i l), Heat.ofParticle (matter k) := by
  obtain ⟨hmotion, hheat⟩ := after_fold_of_owns (T := T) (accumulated t particles bins) ht hi hl
  have hraw {q : Nat × Nat} (hq : q ∈ T.copies t i l) :
      (bins q.1).rawSums (particles q.1) (t.extent.slot (t.extent.cell q.2)) =
        (∑ k ∈ P.placed q.1 (t.extent.cell q.2), Motion.ofParticle (matter k),
          ∑ k ∈ P.placed q.1 (t.extent.cell q.2), Heat.ofParticle (matter k)) := by
    obtain ⟨hrank, hslot⟩ := Torus.mem_cells.1 (Finset.mem_filter.1 hq).1
    have hcell := Extent.has_cell hslot
    have hlt : t.extent.slot (t.extent.cell q.2) < (bins q.1).size := by
      rw [(hbins _ hrank).size]
      exact Extent.slot_lt hcell
    exact Bins.rawSums_of_kinematics (hbins _ hrank).built.fits hlt (hfills _ hrank _ hcell)
  constructor
  · rw [hmotion, ← P.sum_placed ht hi l]
    apply Finset.sum_congr rfl
    intro q hq
    exact congrArg Prod.fst (hraw hq)
  · rw [hheat, ← P.sum_placed ht hi l]
    apply Finset.sum_congr rfl
    intro q hq
    exact congrArg Prod.snd (hraw hq)

/-- After a time step an owned cell holds the averages over all particles of its cell of the
world. -/
theorem timeStepped_of_owns (ht : t.Holds) {particles : Nat → Particles Rat} {bins : Nat → Bins}
    (hbins : ∀ i < n, (bins i).BuiltOn t (particles i))
    (hfills : ∀ i < n, P.Fills matter i (particles i) (bins i)) (dimension : Nat → Dimension)
    {i : Nat} (hi : i < n) {l : Vec3 Nat} (hl : t.Owns l) :
    (timeStepped t T.neighbours dimension particles bins).motion i l =
        (P.exactCell matter (dimension i) (T.worldCell t i l)).1 ∧
      (timeStepped t T.neighbours dimension particles bins).heat i l =
        (P.exactCell matter (dimension i) (T.worldCell t i l)).2 := by
  obtain ⟨hmotion, hheat⟩ := folded_accumulated ht hbins hfills hi hl
  rw [timeStepped, Values.after_refresh]
  dsimp only
  rw [Fields.refreshed_of_owns _ ht hi hl, Fields.refreshed_of_owns _ ht hi hl]
  dsimp only [Values.averaged]
  rw [hmotion, hheat]
  exact ⟨rfl, rfl⟩

def Torus.Placement.exactTotals (P : T.Placement t ι) (matter : ι → Vec3 Rat × Rat)
    (dimension : Dimension) (g : Vec3 Nat) : Totals Rat :=
  Totals.ofCell (P.exactCell matter dimension g).1 (P.exactCell matter dimension g).2

theorem grouped_stagedCells (t : Topology) (block : Nat) (motion : Vec3 Nat → Motion Rat)
    (heat : Vec3 Nat → Heat Rat) :
    Reduction.grouped block (stagedCells Rat t motion heat) =
      ∑ s ∈ Finset.range t.ownedBox.shape.volume,
        Totals.ofCell (motion (t.ownedBox.cellAt s)) (heat (t.ownedBox.cellAt s)) :=
  Reduction.grouped_eq_sum _ _

/-- The sum over all ranks is the sum over the cells of the world, however the ranks grouped their
cells. -/
theorem total_grouped (ht : t.Holds) (block : Nat → Nat) {dimension : Dimension} {v : Values Rat}
    (hcell : ∀ i < n, ∀ l, t.Owns l →
      v.motion i l = (P.exactCell matter dimension (T.worldCell t i l)).1 ∧
        v.heat i l = (P.exactCell matter dimension (T.worldCell t i l)).2) :
    Totals.total ((List.range n).map fun i =>
        Reduction.grouped (block i) (stagedCells Rat t (v.motion i) (v.heat i))) =
      ∑ s ∈ Finset.range (T.world t).volume,
        P.exactTotals matter dimension ((T.world t).cell s) := by
  have hrank {i : Nat} (hi : i < n) :
      Reduction.grouped (block i) (stagedCells Rat t (v.motion i) (v.heat i)) =
        ∑ s ∈ Finset.range t.ownedBox.shape.volume,
          P.exactTotals matter dimension (T.worldCell t i (t.ownedBox.cellAt s)) := by
    rw [grouped_stagedCells]
    apply Finset.sum_congr rfl
    intro s hs
    have howns := ht.ownedBox_has_iff.1 (Box.has_cellAt (Finset.mem_range.1 hs))
    obtain ⟨hmotion, hheat⟩ := hcell i hi _ howns
    rw [hmotion, hheat]
    rfl
  calc
    Totals.total ((List.range n).map fun i =>
        Reduction.grouped (block i) (stagedCells Rat t (v.motion i) (v.heat i))) =
        ∑ i ∈ Finset.range n,
          Reduction.grouped (block i) (stagedCells Rat t (v.motion i) (v.heat i)) :=
      Totals.total_eq_sum _
    _ = ∑ i ∈ Finset.range n, ∑ s ∈ Finset.range t.ownedBox.shape.volume,
          P.exactTotals matter dimension (T.worldCell t i (t.ownedBox.cellAt s)) :=
      Finset.sum_congr rfl fun _ hi => hrank (Finset.mem_range.1 hi)
    _ = ∑ s ∈ Finset.range (T.world t).volume,
          P.exactTotals matter dimension ((T.world t).cell s) := T.sum_world ht _

end

/-! ## One rank -/

section

variable {m : Mode} {n : Nat} {T : Torus n} {t : Topology} {d : Domain Rat} {ι : Type} [Fintype ι]
  {P : T.Placement t ι} {matter : ι → Vec3 Rat × Rat}

/-- One rank computes the averages for all cells of the world. -/
theorem Domain.Built.does_compute_exact (W : Type) (hd : d.Built m (T.whole t))
    (hsized : (T.whole t).Sized) (hworld : ∀ a, (T.world t).get a < word32Size)
    {p : Particles Rat} {bins : Bins} (hbins : bins.BuiltOn (T.whole t) p)
    (hfills : P.FillsWorld matter p bins) :
    (compute m p bins : Step W (Domain Rat)).Does 0 d []
      (d.holding (fun g => (P.exactCell matter d.settings.dimension g).1)
        fun g => (P.exactCell matter d.settings.dimension g).2) := by
  have hextent := Torus.extent_whole hworld
  have hcell {g : Vec3 Nat} (hg : (T.world t).Has g) :
      averages d.settings.dimension p bins ((T.whole t).extent.slot g) =
        P.exactCell matter d.settings.dimension g := by
    rw [hextent]
    have hlt : (T.world t).slot g < bins.size := by
      rw [hbins.size, hextent]
      exact Extent.slot_lt hg
    rw [averages, Bins.rawSums_of_kinematics hbins.built.fits hlt (hfills g hg)]
    rfl
  have hcompute := hd.does_compute W hsized hbins
  have hmotion : (T.whole t).extent.table (fun g =>
        (averages d.settings.dimension p bins ((T.whole t).extent.slot g)).1) =
      (T.whole t).extent.table fun g => (P.exactCell matter d.settings.dimension g).1 := by
    apply Extent.table_congr
    intro g hg
    rw [hextent] at hg
    rw [hcell hg]
  have hheat : (T.whole t).extent.table (fun g =>
        (averages d.settings.dimension p bins ((T.whole t).extent.slot g)).2) =
      (T.whole t).extent.table fun g => (P.exactCell matter d.settings.dimension g).2 := by
    apply Extent.table_congr
    intro g hg
    rw [hextent] at hg
    rw [hcell hg]
  unfold Domain.holding at hcompute ⊢
  rw [hd.topology, hmotion, hheat] at hcompute
  rw [hd.topology]
  exact hcompute

theorem Domain.Built.result_summary_exact [Letter W] [LawfulLetter W] [Encoding W Rat]
    [LawfulEncoding W Rat] (hd : d.Built m (T.whole t)) (hsized : (T.whole t).Sized)
    (hworld : ∀ a, (T.world t).get a < word32Size)
    (hspace : (T.world t).volume * Cells.stagedBytes ≤ maxArrayBytes)
    (hwidth : Encoding.width W (Totals Rat) ≤ Cells.stagedBytes) (dimension : Dimension) :
    ((d.holding (fun g => (P.exactCell matter dimension g).1)
        fun g => (P.exactCell matter dimension g).2).summary W m).result =
      .ok (∑ s ∈ Finset.range (T.world t).volume,
        P.exactTotals matter dimension ((T.world t).cell s)).summary := by
  obtain ⟨hshape, hcellAt⟩ := T.cellAt_ownedBox_whole hsized hworld
  have hsum : ∑ s ∈ Finset.range (T.whole t).ownedBox.shape.volume,
        P.exactTotals matter dimension ((T.whole t).ownedBox.cellAt s) =
      ∑ s ∈ Finset.range (T.world t).volume,
        P.exactTotals matter dimension ((T.world t).cell s) := by
    rw [hshape]
    exact Finset.sum_congr rfl fun s _ => by rw [hcellAt]
  rw [summary, Outcome.result_bind,
    hd.result_totals hsized (by rw [hshape]; exact hspace) hwidth, grouped_stagedCells, ← hsum]
  rfl

end

/-! ## All ranks -/

section

variable [Letter W] [LawfulLetter W] [Encoding W Rat] [Carrier W Rat] {m : Mode} {n : Nat}
  {t t₀ : Topology} {d : Nat → Domain Rat} {d₀ : Domain Rat}

theorem width_totals_rat_le (W : Type) [Letter W] [Encoding W Rat] [Carrier W Rat] :
    Encoding.width W (Totals Rat) ≤ Cells.stagedBytes := by
  have hwidth : Encoding.width W Rat ≤ 8 := Carrier.width_le (W := W)
  change 5 * Encoding.width W Rat + 8 ≤ 48
  omega

/-- Without rounding the distributed run reproduces the run of one rank. In whatever order the ranks
act, each owned cell ends with the velocity, mass, energy, temperature and count that one rank
computes for its cell of the world, namely the averages over the particles there, and all ranks end
with the summary of that one rank. Executors and group sizes may differ from rank to rank. As in
the comparison of counts, a rank has at most `2 ^ 32` rows of cells along the first axis, and the
buffers that the cells are staged in have to be of a size that can be allocated. -/
theorem exact_run_reproduces_serial {T : Torus n} {ι : Type} [Fintype ι] (P : T.Placement t ι)
    (matter : ι → Vec3 Rat × Rat) {particles : Nat → Particles Rat} {bins : Nat → Bins}
    {particles₀ : Particles Rat} {bins₀ : Bins}
    (h : P.Counterparts m t₀ d d₀ particles bins particles₀ bins₀) {dimension : Dimension}
    (hdimension : ∀ i < n, (d i).settings.dimension = dimension)
    (hdimension₀ : d₀.settings.dimension = dimension)
    (hfills : ∀ i < n, P.Fills matter i (particles i) (bins i))
    (hfills₀ : P.FillsWorld matter particles₀ bins₀)
    (tag tag' : Tag) (htag : ∀ j < 24, tag' ≠ tag.offset (.ofNat j)) :
    ∃ (d' : Nat → Domain Rat) (s : Summary Rat) (d₀' : Domain Rat),
      (World.launch n fun i => ((Domain.computeDistributed m (particles i) (bins i)
        (T.neighbours i) tag : Step W (Domain Rat)).follow fun d =>
          d.summaryAcross m i n tag') (d i)).Ends n
            (fun i a => a.1 = d' i ∧ a.2.result = .ok s) ∧
      (Domain.compute m particles₀ bins₀ : Step W (Domain Rat)).Does 0 d₀ [] d₀' ∧
      (∀ i < n, ∀ l, t.Owns l →
        let cell := P.exactCell matter dimension (T.worldCell t i l)
        let slot₀ := (T.world t).slot (T.worldCell t i l)
        (d' i).cells.motion[t.extent.slot l]? = some cell.1 ∧
          d₀'.cells.motion[slot₀]? = some cell.1 ∧
          (d' i).cells.heat[t.extent.slot l]? = some cell.2 ∧
          d₀'.cells.heat[slot₀]? = some cell.2) ∧
      ((T.world t).volume * Cells.stagedBytes ≤ maxArrayBytes →
        (d₀'.summary W m).result = .ok s) := by
  obtain rfl := h.eq_whole
  have ht := h.fits
  have hextent := Torus.extent_whole h.extent_lt
  have hwidth := width_totals_rat_le W
  have hloads : ∀ i < n, ∀ c, t.extent.Has c →
      (bins i).load (t.extent.slot c) = P.inCell i c :=
    fun i hi c hc => (hfills i hi).load_eq (h.bins_built i hi) hc
  obtain ⟨message, hlockstep⟩ :=
    lockstep_timeStep W ht h.built h.bins_built (fun _ => h.folded_lt hloads) tag
  let v := timeStepped t T.neighbours (fun i => (d i).settings.dimension) particles bins
  have hcell : ∀ i < n, ∀ l, t.Owns l →
      v.motion i l = (P.exactCell matter dimension (T.worldCell t i l)).1 ∧
        v.heat i l = (P.exactCell matter dimension (T.worldCell t i l)).2 := by
    intro i hi l hl
    rw [← hdimension i hi]
    exact timeStepped_of_owns ht.holds h.bins_built hfills _ hi hl
  have hcount : ∀ i < n, ∀ l, t.Owns l →
      (v.heat i l).count.toNat = P.inWorld (T.worldCell t i l) :=
    fun i hi l hl =>
      P.toNat_count ht.holds hloads h.few (counts_timeStepped _ particles bins) hi hl
  let block (i : Nat) := min ((d i).settings.block .reduce) ((d i).executor.limit .reduce)
  obtain ⟨hsum, _⟩ := sum_grouped (A := Rat) P ht.toSized h.volume_lt m.build block hcount
  have hends := ends_summaryAcross_of_width hwidth T.rings htag hlockstep
    (fun i hi => (h.built i hi).result_totals ht.toSized h.space_le hwidth (v.motion i) (v.heat i))
    hsum
  rw [total_grouped ht.holds block hcell] at hends
  have hcompute :=
    h.built_whole.does_compute_exact W h.sized_whole h.extent_lt h.bins_built_whole hfills₀
  rw [hdimension₀] at hcompute
  refine ⟨v.on d, _, _, hends, hcompute, fun i hi l hl => ?_,
    fun hspace₀ =>
      h.built_whole.result_summary_exact h.sized_whole h.extent_lt hspace₀ hwidth dimension⟩
  have hhas := hl.has ht.holds
  have hworldCell := Torus.world_has_worldCell (T := T) ht.holds hi l
  obtain ⟨hmotion, hheat⟩ := hcell i hi l hl
  simp only [Values.on, Domain.holding, (h.built i hi).topology, h.built_whole.topology, hextent,
    Extent.getElem?_table _ hhas, Extent.getElem?_table _ hworldCell, hmotion, hheat, and_self]

end

/-- The three particles of the world with four cells, with velocities along the first two axes. The
two that share a cell are on two ranks, and the temperature of the cell is that of both. -/
theorem exact_run_reproduces_serial_three :
    let particles : Particles Rat := .native #[⟨3, 0, 0⟩, ⟨1, 0, 0⟩, ⟨0, 5, 0⟩] 2
    let bins (i : Nat) : Bins := .ofCells particles
      (if i = 0 then [[], [.native 0], [], []] else [[], [.native 2], [], [.native 1]])
    let whole : Bins := .ofCells particles [[.native 1, .native 0], [], [.native 2], []]
    ∃ (d' : Nat → Domain Rat) (s : Summary Rat) (d₀' : Domain Rat),
      (World.launch 2 fun i => ((Domain.computeDistributed ⟨.debug, .off⟩ particles (bins i)
        ((Torus.ofShape ⟨2, 1, 1⟩).neighbours i) ⟨65530⟩ : Step Symbol (Domain Rat)).follow
          fun d => d.summaryAcross ⟨.debug, .off⟩ i 2 ⟨100⟩) (.numbered .four i)).Ends 2
            (fun i a => a.1 = d' i ∧ a.2.result = .ok s) ∧
      (Domain.compute ⟨.debug, .off⟩ particles whole : Step Symbol (Domain Rat)).Does 0
        (.numbered ⟨⟨4, 1, 1⟩, .fill 0⟩ 7) [] d₀' ∧
      (d' 0).cells.motion[1]? = some ⟨⟨2, 0, 0⟩, 4⟩ ∧
      (d' 0).cells.heat[1]? = some ⟨10, 4 / 3, 2⟩ ∧
      (d₀'.summary Symbol ⟨.debug, .off⟩).result = .ok s := by
  intro particles bins whole
  let matter (k : Fin 3) : Vec3 Rat × Rat :=
    (if k = 0 then ⟨3, 0, 0⟩ else if k = 1 then ⟨1, 0, 0⟩ else ⟨0, 5, 0⟩, 2)
  have hbins (i : Nat) : (bins i).BuiltOn .four particles := by
    by_cases hi : i = 0
    · subst hi
      exact ⟨.inl ⟨.debug, [[], [0], [], []], rfl⟩, rfl⟩
    · simp only [bins, if_neg hi]
      exact ⟨.inl ⟨.debug, [[], [2], [], [1]], rfl⟩, rfl⟩
  have hwhole : whole.BuiltOn ⟨⟨4, 1, 1⟩, .fill 0⟩ particles :=
    ⟨.inl ⟨.debug, [[1, 0], [], [2], []], rfl⟩, rfl⟩
  have hslots : ∀ i < 2, ∀ s < 4, ((bins i).kinematics particles s : Multiset (Vec3 Rat × Rat)) =
      (Torus.Placement.three.placed i (Topology.four.extent.cell s)).val.map matter := by
    decide +kernel
  have hfills (i : Nat) (hi : i < 2) :
      Torus.Placement.three.Fills matter i particles (bins i) := by
    intro c hc
    rw [hslots i hi _ (Extent.slot_lt hc), Extent.cell_slot hc]
  let world : Extent := (Torus.ofShape ⟨2, 1, 1⟩).world .four
  have hslots' : ∀ s < 4, (whole.kinematics particles s : Multiset (Vec3 Rat × Rat)) =
      (Torus.Placement.three.homed (world.cell s)).val.map matter := by
    decide +kernel
  have hfills' : Torus.Placement.three.FillsWorld matter particles whole := by
    intro g hg
    rw [hslots' _ (Extent.slot_lt hg), Extent.cell_slot hg]
  have hcounterparts := Torus.Placement.counterparts_three
    (fun i => Domain.built_numbered i ⟨_, rfl, rfl, rfl⟩)
    (Domain.built_numbered 7 ⟨_, rfl, rfl, rfl⟩) hbins hwhole
  obtain ⟨d', s, d₀', hends, hcompute, hcells, hsummary⟩ :=
    exact_run_reproduces_serial (W := Symbol) Torus.Placement.three matter hcounterparts
      (fun _ _ => rfl) rfl hfills hfills' ⟨65530⟩ ⟨100⟩ (by decide)
  obtain ⟨hmotion, _, hheat, _⟩ := hcells 0 (by decide) ⟨1, 0, 0⟩ (by decide)
  refine ⟨d', s, d₀', hends, hcompute, hmotion.trans ?_, hheat.trans ?_, hsummary (by decide)⟩
  · decide +kernel
  · decide +kernel

end KineticGrid
