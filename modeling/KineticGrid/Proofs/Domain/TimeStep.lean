import KineticGrid.Proofs.Domain.Fold
import KineticGrid.Proofs.Domain.Refresh
import KineticGrid.Proofs.Sweep.Passes
/-!
# Time steps

A time step accumulates, folds, averages and refreshes. Main statements: the ranks of a world go
through a time step in lockstep, with a message of known length per rank, side and leg, and each
cell ends with the count that its source had after the fold; one rank alone overwrites all its cells
with averages.
-/

namespace KineticGrid

variable {W S A : Type}

structure Bins.BuiltOn (t : Topology) (p : Particles S) (bins : Bins) : Prop where
  built : bins.Built p
  size : bins.size = t.extent.volume

def loads (t : Topology) (bins : Nat → Bins) : Fields Nat := fun i c =>
  (bins i).load (t.extent.slot c)

def Values.averaged [Arith A] [Storage S A] (dimension : Nat → Dimension) (v : Values S) :
    Values S where
  motion i c := (averageCell (dimension i) (v.motion i c) (v.heat i c)).1
  heat i c := (averageCell (dimension i) (v.motion i c) (v.heat i c)).2

section

variable [Arith A] [Storage S A] {m : Mode} {n : Nat} {t : Topology} {d : Nat → Domain S}
  {v : Values S} {particles : Nat → Particles S} {bins : Nat → Bins}

/-- The raw sums of the cells of all ranks. -/
def accumulated (t : Topology) (particles : Nat → Particles S) (bins : Nat → Bins) : Values S where
  motion i c := ((bins i).rawSums (particles i) (t.extent.slot c)).1
  heat i c := ((bins i).rawSums (particles i) (t.extent.slot c)).2

theorem counts_accumulated : (accumulated t particles bins).Counts (loads t bins) :=
  fun _ _ => rfl

theorem Domain.Built.result_accumulate {d : Domain S} (hd : d.Built m t) (ht : t.Sized)
    {p : Particles S} {bins : Bins} (hbins : bins.BuiltOn t p) :
    (d.accumulate m p bins).result =
      .ok (d.holding (fun c => (bins.rawSums p (t.extent.slot c)).1)
        fun c => (bins.rawSums p (t.extent.slot c)).2) := by
  have haccumulate := Cells.result_accumulate_of_fits m d.executor
    (hd.block_ne_zero ht .accumulate) hbins.built.requireMatch_eq hbins.built.fits
    (by rw [hd.size_motion ht, hbins.size]) (by rw [hd.size_heat ht, hbins.size])
  have htable {V : Type} (f : Nat → V) :
      ((List.range bins.size).map f).toArray = t.extent.table fun c => f (t.extent.slot c) := by
    simp only [Extent.table, Extent.slot_cell, hbins.size]
  rw [htable, htable] at haccumulate
  rw [accumulate, Outcome.result_bind, haccumulate, Domain.holding, hd.topology]
  rfl

theorem result_average (ht : t.Sized) {i : Nat} (hd : (d i).Built m t) (v : Values S) :
    ((v.on d i).average m).result =
      .ok ((v.averaged fun i => (d i).settings.dimension).on d i) := by
  have haverage := Cells.result_average m (v.on d i).executor (hd.block_ne_zero ht .finalize)
    (d i).settings.dimension (d i).topology.extent (v.motion i) (v.heat i)
  rw [Domain.average, Outcome.result_bind]
  refine (congrArg (· >>= _) haverage).trans ?_
  rfl

theorem Values.Counts.averaged {N : Fields Nat} (hv : v.Counts N)
    (dimension : Nat → Dimension) : (v.averaged dimension).Counts N :=
  fun i c => hv i c

end

/-! ## Counts after a refresh -/

section

variable {V V' : Type} {t : Topology}

private theorem map_exchanged (f : V → V') (F : Fields V) (flow : Flow) (a : Axis)
    (p : Nat → Neighbours) :
    (fun i c => f (F.exchanged (fun _ incoming => incoming) flow t a p i c)) =
      Fields.exchanged (fun _ incoming => incoming) flow t a p fun i c => f (F i c) := by
  funext i c
  unfold Fields.exchanged
  split
  · rfl
  · rfl

theorem Fields.map_refreshed (f : V → V') (F : Fields V) (p : Nat → Vec3 Neighbours) :
    (fun i c => f (F.refreshed t p i c)) = Fields.refreshed t p fun i c => f (F i c) := by
  simp only [refreshed, Axis.all, List.foldl_cons, List.foldl_nil]
  rw [map_exchanged, map_exchanged, map_exchanged]

theorem Values.Counts.after_refresh [Storage S A] {v : Values S} {N : Fields Nat}
    (hv : v.Counts N) (p : Nat → Vec3 Neighbours) :
    (v.after t p Flow.refresh.legs).Counts (N.refreshed t p) := by
  intro i c
  have hcount := congrFun (congrFun (Fields.map_refreshed (t := t) Heat.count v.heat p) i) c
  have hnumber := congrFun (congrFun (Fields.map_refreshed (t := t) UInt32.ofNat N p) i) c
  rw [Values.after_refresh, hnumber]
  refine hcount.trans ?_
  congr 1
  funext i c
  exact hv i c

end

/-! ## All ranks -/

section

variable [Arith A] [Storage S A] [Encoding W S] [Carrier W S] {m : Mode} {n : Nat}
  {t : Topology} {p : Nat → Vec3 Neighbours} {d : Nat → Domain S}

/-- The cells of all ranks after a time step. -/
def timeStepped (t : Topology) (p : Nat → Vec3 Neighbours) (dimension : Nat → Dimension)
    (particles : Nat → Particles S) (bins : Nat → Bins) : Values S :=
  (((accumulated t particles bins).after t p Flow.fold.legs).averaged dimension).after t p
    Flow.refresh.legs

/-- The ranks go through a time step in lockstep, as long as the folded loads fit in the words of
the debug build. -/
theorem lockstep_timeStep (W : Type) [Encoding W S] [Carrier W S] (ht : t.Fits)
    (hd : ∀ i < n, (d i).Built m t) {particles : Nat → Particles S} {bins : Nat → Bins}
    (hbins : ∀ i < n, (bins i).BuiltOn t (particles i))
    (hfits : m.build = .debug → ∀ i < n, ∀ c, t.extent.Has c →
      (loads t bins).folded t p Axis.all i c < word32Size) (tag : Tag) :
    ∃ message : Leg → Nat → Side → List W,
      Lockstep n (fun i => Domain.computeDistributed m (particles i) (bins i) (p i) tag)
        ((t.served Leg.all).map fun l => l.phase S n t p tag (message l)) d
        ((timeStepped t p (fun i => (d i).settings.dimension) particles bins).on d) := by
  let v := accumulated t particles bins
  let averaged := (v.after t p Flow.fold.legs).averaged fun i => (d i).settings.dimension
  have hsafe : LegsSafe m.build n t p Flow.fold.legs v :=
    legsSafe_of_fold counts_accumulated Axis.all hfits
  have hsafe' : LegsSafe m.build n t p Flow.refresh.legs averaged :=
    legsSafe_of_refresh (by decide) averaged
  have hserves : List.Forall₂ (Serves S n t p tag)
      (t.served Flow.fold.legs ++ t.served Flow.refresh.legs) _ := List.rel_append
    (forall₂_serves_legPhases (W := W) m.build n t p tag Flow.fold.legs v)
    (forall₂_serves_legPhases (W := W) m.build n t p tag Flow.refresh.legs averaged)
  rw [Topology.served, Topology.served, ← List.filter_append] at hserves
  obtain ⟨message, hmessage⟩ := exists_messages_of_serves hserves
    (Leg.nodup_all.filter fun l => t.isDecomposed l.axis)
  have haccumulate : Lockstep n
      (fun i => (.ofOutcome (Domain.accumulate m (particles i) (bins i)) : Step W (Domain S))) [] d
      (v.on d) :=
    Lockstep.ofOutcome fun i hi => (hd i hi).result_accumulate ht.toSized (hbins i hi)
  have hfold := lockstep_legs (W := W) (p := p) ht hd tag hsafe
  have haverage : Lockstep n (fun _ => (.ofOutcome (Domain.average m) : Step W (Domain S))) []
      ((v.after t p Flow.fold.legs).on d) (averaged.on d) :=
    Lockstep.ofOutcome fun i hi => result_average ht.toSized (hd i hi) _
  have hrefresh := lockstep_legs (W := W) (p := p) ht hd tag hsafe'
  simp only [← Leg.exchangeAll_fold, ← Leg.exchangeAll_refresh] at hfold hrefresh
  have hphases : (t.served Leg.all).map (fun l => l.phase S n t p tag (message l)) =
      [] ++ (legPhases m.build n t p tag Flow.fold.legs v ++
        ([] ++ (legPhases m.build n t p tag Flow.refresh.legs averaged ++ []))) := by
    rw [List.nil_append, List.nil_append, List.append_nil]
    exact hmessage.symm
  refine ⟨message, ?_⟩
  rw [hphases]
  exact haccumulate.andThen (hfold.andThen (haverage.andThen (hrefresh.andThen (.skip n _))))

theorem counts_timeStepped (dimension : Nat → Dimension) (particles : Nat → Particles S)
    (bins : Nat → Bins) : (timeStepped t p dimension particles bins).Counts
      (((loads t bins).folded t p Axis.all).refreshed t p) := by
  have hfolded : ((accumulated t particles bins).after t p Flow.fold.legs).Counts _ :=
    counts_accumulated.after_fold Axis.all
  exact (hfolded.averaged dimension).after_refresh p

/-- After a time step every cell has the count that its source had after the fold. -/
theorem exists_timeStep (W : Type) [Encoding W S] [Carrier W S] (ht : t.Fits)
    (hd : ∀ i < n, (d i).Built m t) {particles : Nat → Particles S} {bins : Nat → Bins}
    (hbins : ∀ i < n, (bins i).BuiltOn t (particles i))
    (hfits : m.build = .debug → ∀ i < n, ∀ c, t.extent.Has c →
      (loads t bins).folded t p Axis.all i c < word32Size) (tag : Tag) :
    ∃ (d' : Nat → Domain S) (v : Values S) (message : Leg → Nat → Side → List W),
      (∀ i < n, (d' i).Built m t) ∧
      v.Counts (((loads t bins).folded t p Axis.all).refreshed t p) ∧
      Lockstep n (fun i => Domain.computeDistributed m (particles i) (bins i) (p i) tag)
        ((t.served Leg.all).map fun l => l.phase S n t p tag (message l)) d (v.on d') := by
  obtain ⟨message, hlockstep⟩ := lockstep_timeStep W ht hd hbins hfits tag
  exact ⟨d, _, message, hd, counts_timeStepped _ particles bins, hlockstep⟩

end

/-! ## One rank -/

section

variable [Arith A] [Storage S A] {m : Mode} {t : Topology} {d : Domain S}

def averages (dimension : Dimension) (p : Particles S) (bins : Bins) (c : Nat) :
    Motion S × Heat S :=
  averageCell dimension (bins.rawSums p c).1 (bins.rawSums p c).2

theorem Domain.Built.does_compute (W : Type) (hd : d.Built m t) (ht : t.Sized) {p : Particles S}
    {bins : Bins} (hbins : bins.BuiltOn t p) :
    (compute m p bins : Step W (Domain S)).Does 0 d []
      (d.holding (fun c => (averages d.settings.dimension p bins (t.extent.slot c)).1)
        fun c => (averages d.settings.dimension p bins (t.extent.slot c)).2) := by
  have haccumulate := hd.result_accumulate ht hbins
  have haverage := result_average (d := fun _ => d) (i := 0) ht hd
    (accumulated t (fun _ => p) fun _ => bins)
  exact (Step.does_ofOutcome 0 haccumulate).andThen
    ((Step.does_ofOutcome 0 haverage).andThen (Step.does_skip 0 _))

end

end KineticGrid
