import KineticGrid.Proofs.Sweep.Variance
import KineticGrid.Proofs.Domain.Exactness
import KineticGrid.Proofs.Sweep.Grouping
/-!
# Conservation

One rank without ghost cells, and numbers that are not rounded. Averaging divides the momentum of a
cell by its mass, and staging multiplies by it again; only a cell without mass could lose something,
and it has nothing to lose. Main statement: the totals of the grid have the momentum and the kinetic
energy of all listed particles, for any executor and any group sizes.
-/

namespace KineticGrid

/-! ## Samples in parts -/

namespace Sample

theorem get_momentum_flatten (samples : List Sample) (a : Axis) :
    (momentum samples.flatten).get a = (samples.map fun s => s.momentum.get a).sum := by
  simp only [momentum, Vec3.get_ofAxis]
  rw [List.map_flatten, List.sum_flatten, List.map_map]
  rfl

theorem energy_flatten (samples : List Sample) :
    energy samples.flatten = (samples.map energy).sum := by
  rw [energy, List.map_flatten, List.sum_flatten, List.map_map]
  rfl

def motion (s : Sample) : Motion Rat := ⟨s.mean, s.mass⟩

def heat (d : Dimension) (s : Sample) : Heat Rat :=
  ⟨s.energy, KineticGrid.temperature d s.energy s.mass s.mean (.ofNat s.length), .ofNat s.length⟩

/-- What staging finds in a cell with these particles. -/
def totals (d : Dimension) (s : Sample) : Totals Rat where
  momentum := s.momentum
  energy := s.energy
  temperature := if 2 ≤ s.length then (s.heat d).temperature else 0
  valid := if 2 ≤ s.length then 1 else 0

/-- Staging an averaged cell gives back the momentum of its particles, with or without mass. -/
theorem NonNegative.ofCell_eq {s : Sample} (h : s.NonNegative) (hcount : s.length < word32Size)
    (d : Dimension) : Totals.ofCell s.motion (s.heat d) = s.totals d := by
  -- Without mass the mean is zero, but so is the momentum: `momentum_eq` holds in both branches.
  have hmomentum : s.mean.map (s.mass * ·) = s.momentum := by
    apply Vec3.ext_get
    intro a
    rw [Vec3.get_map, h.momentum_eq]
  have hmeasured : (s.heat d).hasTemperature = true ↔ 2 ≤ s.length := by
    have hlength : (s.heat d).count.toNat = s.length := UInt32.toNat_ofNat_of_lt' hcount
    rw [hasTemperature_iff, hlength]
    rfl
  have htemperature : (if (s.heat d).hasTemperature then (s.heat d).temperature else 0) =
      if 2 ≤ s.length then (s.heat d).temperature else 0 := by
    simp only [hmeasured]
  have hvalid : (if (s.heat d).hasTemperature then 1 else 0 : UInt64) =
      if 2 ≤ s.length then 1 else 0 := by
    simp only [hmeasured]
  exact Totals.mk_congr hmomentum rfl htemperature hvalid

end Sample

/-! ## Listed particles -/

namespace Particles

/-- The particles that some raw indices stand for, a particle as often as it is listed. -/
def sample (p : Particles Rat) (raws : List UInt32) : Sample := raws.filterMap p.reading?

variable {p : Particles Rat}

theorem sample_flatten (p : Particles Rat) (lists : List (List UInt32)) :
    p.sample lists.flatten = (lists.map p.sample).flatten :=
  List.filterMap_flatten

theorem sample_eq {raws : List UInt32} {items : Sample}
    (h : items.map some = raws.map p.reading?) : p.sample raws = items :=
  calc p.sample raws
      = (raws.map p.reading?).filterMap id := by rw [List.filterMap_map]; rfl
    _ = (items.map some).filterMap id := by rw [h]
    _ = items := by rw [List.filterMap_map]; exact List.filterMap_some

theorem map_sample {b : Build} {lists : List (List UInt32)} {bins : Bins}
    (h : Bins.ofLists b p lists = .ok bins) :
    (p.sample lists.flatten).map some = lists.flatten.map p.reading? := by
  have hreadings := exists_readings (Bins.resolved_of_ofLists h).1
  rw [sample_eq hreadings, hreadings]

end Particles

namespace Bins

variable {b : Build} {p : Particles Rat} {bins : Bins} {lists : List (List UInt32)}

theorem kinematics_eq_sample (h : ofLists b p lists = .ok bins) {c : Nat} {list : List UInt32}
    (hlist : lists[c]? = some list) : bins.kinematics p c = p.sample list :=
  (Particles.sample_eq (kinematics_ofLists h hlist)).symm

theorem length_sample (h : ofLists b p lists = .ok bins) {list : List UInt32}
    (hlist : list ∈ lists) : (p.sample list).length = list.length := by
  obtain ⟨c, hc⟩ := List.mem_iff_getElem?.1 hlist
  have hlength := congrArg List.length (kinematics_ofLists h hc)
  rw [List.length_map, List.length_map] at hlength
  rw [← kinematics_eq_sample h hc, hlength]

theorem averages_ofLists (h : ofLists b p lists = .ok bins) (d : Dimension) {c : Nat}
    {list : List UInt32} (hlist : lists[c]? = some list) :
    averages d p bins c = ((p.sample list).motion, (p.sample list).heat d) := by
  have hload : bins.load c = (p.sample list).length := by
    rw [load_ofLists h, List.getD_eq_getElem?_getD, hlist,
      length_sample h (List.mem_of_getElem? hlist)]
    rfl
  rw [averages, rawSums_eq_moments (kinematics_eq_sample h hlist), hload,
    Sample.averageCell_moments]
  rfl

theorem ofCell_averages (hp : p.NonNegative) (h : ofLists b p lists = .ok bins) (d : Dimension)
    {c : Nat} {list : List UInt32} (hlist : lists[c]? = some list)
    (hshort : list.length < word32Size) :
    (Totals.ofCell (averages d p bins c).1 (averages d p bins c).2 : Totals Rat) =
      (p.sample list).totals d := by
  have hnonneg : (p.sample list).NonNegative :=
    kinematics_eq_sample h hlist ▸ nonNegative_kinematics hp c
  rw [averages_ofLists h d hlist]
  exact hnonneg.ofCell_eq (by rwa [length_sample h (List.mem_of_getElem? hlist)]) d

end Bins

/-! ## Grids without ghost cells -/

/-- The totals of some lists add up to those of all particles in them. -/
theorem sum_totals (p : Particles Rat) (d : Dimension) (lists : List (List UInt32)) :
    let total := (lists.map fun list => (p.sample list).totals d).sum
    total.momentum = (p.sample lists.flatten).momentum ∧
      total.energy = (p.sample lists.flatten).energy ∧
      total.temperature = (lists.map fun list => ((p.sample list).totals d).temperature).sum := by
  intro total
  have hfield {f : Totals Rat → Rat} (hzero : f 0 = 0) (hadd : ∀ t u, f (t + u) = f t + f u) :
      f total = (lists.map fun list => f ((p.sample list).totals d)).sum := by
    rw [Reduction.map_sum_totals hzero hadd, List.map_map]
    rfl
  refine ⟨?_, ?_, hfield rfl fun _ _ => rfl⟩
  · apply Vec3.ext_get
    intro a
    rw [p.sample_flatten, Sample.get_momentum_flatten, List.map_map]
    exact hfield (f := fun u => u.momentum.get a) (by cases a <;> rfl)
      fun _ _ => by cases a <;> rfl
  · rw [p.sample_flatten, Sample.energy_flatten, List.map_map]
    exact hfield rfl fun _ _ => rfl

section

variable {m : Mode} {t : Topology} {d : Domain Rat} {b : Build} {p : Particles Rat} {bins : Bins}
  {lists : List (List UInt32)}

/-- The averages over the particles of some lists. -/
def Particles.averagedCells (p : Particles Rat) (d : Dimension) (lists : List (List UInt32)) :
    Cells Rat where
  motion := (lists.map fun list => (p.sample list).motion).toArray
  heat := (lists.map fun list => (p.sample list).heat d).toArray

theorem Domain.Built.holding_averagedCells (hd : d.Built m t)
    (hbins : Bins.ofLists b p lists = .ok bins) (hlists : lists.length = t.extent.volume)
    (dimension : Dimension) :
    d.holding (fun c => (averages dimension p bins (t.extent.slot c)).1)
        (fun c => (averages dimension p bins (t.extent.slot c)).2) =
      { d with cells := p.averagedCells dimension lists } := by
  have hmotion := Extent.table_eq_map hlists fun c list hlist =>
    congrArg Prod.fst (Bins.averages_ofLists hbins dimension hlist)
  have hheat := Extent.table_eq_map hlists fun c list hlist =>
    congrArg Prod.snd (Bins.averages_ofLists hbins dimension hlist)
  rw [Domain.holding, hd.topology, hmotion, hheat]
  rfl

theorem stagedCells_of_undivided (hs : t.Sized) (hghost : ∀ a, t.halo a = 0) (hp : p.NonNegative)
    (hbins : Bins.ofLists b p lists = .ok bins) (hlists : lists.length = t.extent.volume)
    (hshort : ∀ list ∈ lists, list.length < word32Size) (d : Dimension) :
    stagedCells Rat t (fun c => (averages d p bins (t.extent.slot c)).1)
        (fun c => (averages d p bins (t.extent.slot c)).2) =
      lists.map fun list => (p.sample list).totals d := by
  obtain ⟨hshape, hcell⟩ := hs.holds.ownedBox_of_undivided hghost
  have hslot (s : Nat) : t.extent.slot (t.ownedBox.cellAt s) = s := by
    rw [hcell, Extent.slot_cell]
  simp only [stagedCells, hslot, hshape]
  rw [← hlists]
  apply Extent.map_range_eq_map
  intro c list hlist
  exact Bins.ofCell_averages hp hbins d hlist (hshort list (List.mem_of_getElem? hlist))

end

section

variable {W : Type} [Letter W] [LawfulLetter W] [Encoding W Rat] [Carrier W Rat]

/-- On a grid without ghost cells the totals conserve the momentum and the kinetic energy of the
particles. Computing succeeds for any executor, any group sizes and whatever the cells held before,
and leaves the same cells. The totals then are the sums over all listed particles, a particle as
often as it is listed, and over the temperatures of the cells with at least two of them. They are
found unless the staged cells take more memory than there can be. -/
theorem totals_are_conserved {dims : Vec3 UInt32} {t : Topology}
    (ht : Topology.make dims (.fill 0) = .ok t) (hvolume : t.extent.volume < wordSize)
    {p : Particles Rat} (hp : p.NonNegative) {b : Build} {lists : List (List UInt32)} {bins : Bins}
    (hbins : Bins.ofLists b p lists = .ok bins) (hlists : lists.length = t.extent.volume)
    (hshort : ∀ list ∈ lists, list.length < word32Size) (dimension : Dimension) :
    ∃ (items : Sample) (cells : Cells Rat) (s : Summary Rat),
      items.map some = lists.flatten.map p.reading? ∧
      s.momentum = items.momentum ∧
      s.kineticEnergy = items.energy ∧
      cells.heat.size = lists.length ∧
      s.temperatureSum = (List.zipWith (fun list e => if 2 ≤ list.length then e.temperature else 0)
        lists cells.heat.toList).sum ∧
      ∀ (m : Mode) (d : Domain Rat), d.Built m t → d.settings.dimension = dimension →
        (Domain.compute m p bins : Step W (Domain Rat)).Does 0 d [] { d with cells := cells } ∧
        (({ d with cells := cells } : Domain Rat).summary W m).result =
          if t.extent.volume * Cells.stagedBytes ≤ maxArrayBytes then .ok s
          else .error (.fault .capacity) := by
  obtain ⟨hdims, hholds⟩ := Topology.make_eq_ok_iff.1 ht
  have hghost (a : Axis) : t.halo a = 0 := by
    rw [hdims]
    cases a <;> rfl
  have hs : t.Sized := ⟨Topology.make_eq_ok_iff.2 ⟨rfl, hholds⟩, hvolume⟩
  obtain ⟨hshape, _⟩ := hs.holds.ownedBox_of_undivided hghost
  obtain ⟨hmomentum, henergy, htemperature⟩ := sum_totals p dimension lists
  refine ⟨_, p.averagedCells dimension lists, Totals.summary _, p.map_sample hbins, hmomentum,
    henergy, ?_, ?_, fun m d hd hdimension => ⟨?_, ?_⟩⟩
  · rw [Particles.averagedCells, List.size_toArray, List.length_map]
  · refine htemperature.trans ?_
    rw [Particles.averagedCells, List.zipWith_map_right, List.zipWith_self]
    congr 1
    apply List.map_congr_left
    intro list hlist
    rw [Sample.totals, Bins.length_sample hbins hlist]
  · have hsize : bins.size = t.extent.volume := (Bins.size_ofLists hbins).trans hlists
    have hcompute := hd.does_compute W hs ⟨.inl ⟨b, lists, hbins⟩, hsize⟩
    rw [hdimension, hd.holding_averagedCells hbins hlists] at hcompute
    exact hcompute
  · have hholding := hd.holding_averagedCells hbins hlists dimension
    rw [← hshape]
    by_cases hspace : t.ownedBox.shape.volume * Cells.stagedBytes ≤ maxArrayBytes
    · rw [if_pos hspace, ← hholding, Domain.summary, Outcome.result_bind,
        hd.result_totals hs hspace (width_totals_rat_le W), Reduction.grouped_eq_sum,
        stagedCells_of_undivided hs hghost hp hbins hlists hshort]
      rfl
    · rw [if_neg hspace, ← hholding]
      exact (hd.holding hs _ _).result_summary_of_large hs (Nat.not_le.1 hspace)

end

theorem totals_are_conserved_two :
    let p : Particles Rat := ⟨#[⟨3, 0, 0⟩, ⟨1, 0, 1⟩], 2, some ⟨#[⟨5, 5, 5⟩], #[0], #[0], rfl⟩⟩
    ∃ (bins : Bins) (d : Domain Rat) (s : Summary Rat),
      Bins.ofLists .debug p [[0, 1, 0], [2, 2]] = .ok bins ∧
      (Domain.compute ⟨.debug, .off⟩ p bins : Step Symbol (Domain Rat)).Does 0
        (.numbered ⟨⟨2, 1, 1⟩, .fill 0⟩ 7) [] d ∧
      (d.summary Symbol ⟨.debug, .off⟩).result = .ok s ∧
      s.momentum = ⟨14, 0, 2⟩ ∧ s.kineticEnergy = 20 := by
  intro p
  obtain ⟨bins, hbins⟩ : ∃ bins, Bins.ofLists .debug p [[0, 1, 0], [2, 2]] = .ok bins := ⟨_, rfl⟩
  have hp : p.NonNegative := by
    refine ⟨by decide, fun e he => ?_⟩
    obtain rfl := Option.some.inj he
    decide
  have ht : Topology.make ⟨2, 1, 1⟩ (.fill 0) = .ok ⟨⟨2, 1, 1⟩, .fill 0⟩ := rfl
  obtain ⟨items, cells, s, hitems, hmomentum, henergy, _, _, hall⟩ :=
    totals_are_conserved (W := Symbol) ht (by decide) hp hbins (by decide) (by decide) .three
  obtain ⟨hcompute, hsummary⟩ := hall ⟨.debug, .off⟩ (.numbered ⟨⟨2, 1, 1⟩, .fill 0⟩ 7)
    (Domain.built_numbered 7 ⟨_, rfl, rfl, rfl⟩) rfl
  have hread : items =
      [(⟨3, 0, 0⟩, 2), (⟨1, 0, 1⟩, 2), (⟨3, 0, 0⟩, 2), (⟨5, 5, 5⟩, 0), (⟨5, 5, 5⟩, 0)] :=
    (List.map_inj_right fun _ _ => Option.some.inj).1 (hitems.trans rfl)
  subst hread
  refine ⟨bins, _, s, hbins, hcompute, hsummary.trans (if_pos (by decide)), ?_, ?_⟩
  · rw [hmomentum]
    decide +kernel
  · rw [henergy]
    decide +kernel

end KineticGrid
