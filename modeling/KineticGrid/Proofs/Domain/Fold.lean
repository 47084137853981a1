import KineticGrid.Proofs.Domain.Tags
import KineticGrid.Proofs.Space.Copies
/-!
# Folding ghost cells

A fold along one axis adds to each cell what the neighbours hold in the ghost cells that stand for
it. Ghost cells are not cleared, but along the later axes only cells are added that no earlier axis
has added before. Main statements: folding numbers along all axes sums over all copies of an owned
cell, and in whatever order the ranks act, its count after a fold is that sum.
-/

namespace KineticGrid

variable {W V S A : Type}

/-! ## Numbers -/

def Fields.folded {M : Type} [Add M] (t : Topology) (p : Nat → Vec3 Neighbours)
    (axes : List Axis) (N : Fields M) : Fields M :=
  axes.foldl (fun N a => N.exchanged (· + ·) .fold t a fun i => (p i).get a) N

theorem Fields.le_exchanged (flow : Flow) (t : Topology) (a : Axis) (p : Nat → Neighbours)
    (N : Fields Nat) (i : Nat) (c : Vec3 Nat) : N i c ≤ N.exchanged (· + ·) flow t a p i c := by
  unfold exchanged
  split
  · exact Nat.le_refl _
  · exact Nat.le_add_right _ _

theorem Fields.le_folded (t : Topology) (p : Nat → Vec3 Neighbours) (axes : List Axis)
    (N : Fields Nat) (i : Nat) (c : Vec3 Nat) : N i c ≤ N.folded t p axes i c := by
  induction axes generalizing N with
  | nil => exact Nat.le_refl _
  | cons a axes ih => exact Nat.le_trans (N.le_exchanged .fold t a _ i c) (ih _)

section

variable {M : Type} [AddCommMonoid M] {n : Nat} {T : Torus n} {t : Topology} {h l : Vec3 Nat}

private theorem exchanged_fold (N : Fields M) (ht : t.Holds) (a : Axis) (hh : T.shape.Has h) :
    N.exchanged (· + ·) .fold t a (fun i => (T.neighbours i).get a) (T.rank h) l =
      ∑ q ∈ (T.lap t a).gathered (h.get a) (l.get a), N (T.rank (h.set a q.1)) (l.set a q.2) := by
  have hcore := ht.core_eq a
  have hhalo : (T.lap t a).halo = t.halo a := rfl
  have hwidth : (T.lap t a).core = t.core a := rfl
  have hself : N (T.rank (h.set a (h.get a))) (l.set a (l.get a)) = N (T.rank h) l := by
    rw [Vec3.set_get, Vec3.set_get]
  unfold Fields.exchanged Lap.gathered
  by_cases hleft : (T.lap t a).halo ≤ l.get a ∧ l.get a < 2 * (T.lap t a).halo
  · rw [Flow.source?_eq_left (by rw [Flow.inset]; omega), if_pos hleft,
      Finset.sum_pair (fun heq => by have := congrArg Prod.snd heq; dsimp only at this; omega)]
    simp only [Neighbours.on, Torus.neighbours, Vec3.get_ofAxis, T.place_rank h hh]
    rw [hself]
    rfl
  · rw [if_neg hleft]
    by_cases hright : (T.lap t a).core ≤ l.get a ∧
        l.get a < (T.lap t a).core + (T.lap t a).halo
    · rw [Flow.source?_eq_right ht (by rw [Flow.inset]; omega), if_pos hright,
        Finset.sum_pair (fun heq => by have := congrArg Prod.snd heq; dsimp only at this; omega)]
      simp only [Neighbours.on, Torus.neighbours, Vec3.get_ofAxis, T.place_rank h hh]
      rw [hself]
      rfl
    · rw [Flow.source?_eq_none (by rw [Flow.inset]; omega) (by rw [Flow.inset]; omega),
        if_neg hright, Finset.sum_singleton, hself]

/-- A fold along all axes adds up what all axes gather. The axes are undone from the last one to
the first. -/
theorem Fields.folded_eq (N : Fields M) (ht : t.Holds) (hh : T.shape.Has h)
    (hl : t.extent.Has l) :
    N.folded t T.neighbours Axis.all (T.rank h) l =
      ∑ q ∈ T.gathered t h l, N q.1 (t.extent.cell q.2) := by
  rw [Torus.sum_gathered ht hh hl, folded, Axis.all]
  simp only [List.foldl_cons, List.foldl_nil]
  rw [exchanged_fold _ ht .z hh]
  apply Finset.sum_congr rfl
  intro qz hz
  have hplace : T.shape.Has (h.set .z qz.1) :=
    hh.set (Lap.coordinate_of_mem_gathered (T.roomy ht .z) (hh .z) (T.lt_of_has ht hl .z) hz).1
  rw [exchanged_fold _ ht .y hplace]
  apply Finset.sum_congr rfl
  intro qy hy
  have hplace' : T.shape.Has ((h.set .z qz.1).set .y qy.1) :=
    hplace.set (Lap.coordinate_of_mem_gathered (T.roomy ht .y) (hh .y)
      (T.lt_of_has ht hl .y) hy).1
  exact exchanged_fold N ht .x hplace'

theorem Fields.folded_le (N : Fields Nat) (ht : t.Holds) {i : Nat} (hi : i < n)
    (hl : t.extent.Has l) :
    N.folded t T.neighbours Axis.all i l ≤
      ∑ q ∈ T.copies t i l, N q.1 (t.extent.cell q.2) := by
  have hsum := N.folded_eq ht (T.has_place i hi) hl
  rw [T.rank_place i hi] at hsum
  rw [hsum]
  exact Finset.sum_le_sum_of_subset (Torus.gathered_subset_copies ht hi hl)

theorem Fields.folded_of_owns (N : Fields M) (ht : t.Holds) {i : Nat} (hi : i < n)
    (hl : t.Owns l) :
    N.folded t T.neighbours Axis.all i l =
      ∑ q ∈ T.copies t i l, N q.1 (t.extent.cell q.2) := by
  have hsum := N.folded_eq ht (T.has_place i hi) (hl.has ht)
  rw [T.rank_place i hi] at hsum
  rw [hsum, Torus.gathered_eq_copies ht hi hl]

end

/-! ## Counts -/

def Values.Counts (v : Values S) (N : Fields Nat) : Prop :=
  ∀ i c, (v.heat i c).count = .ofNat (N i c)

section

variable [Storage S A] {n : Nat} {t : Topology} {p : Nat → Vec3 Neighbours} {v : Values S}
  {N : Fields Nat}

private theorem counts_apply (hv : v.Counts N) (a : Axis) :
    ((Leg.mk .fold a .heat).apply t p ((Leg.mk .fold a .motion).apply t p v)).Counts
      (N.exchanged (· + ·) .fold t a fun i => (p i).get a) := by
  intro i c
  change (v.heat.exchanged _ .fold t a (fun i => (p i).get a) i c).count = _
  unfold Fields.exchanged
  split
  · exact hv i c
  · rw [UInt32.ofNat_add, ← hv, ← hv]
    rfl

theorem Values.Counts.after_fold (hv : v.Counts N) (axes : List Axis) :
    (v.after t p (axes.flatMap fun a => [⟨.fold, a, .motion⟩, ⟨.fold, a, .heat⟩])).Counts
      (N.folded t p axes) := by
  induction axes generalizing v N with
  | nil => exact hv
  | cons a axes ih => exact ih (counts_apply hv a)

theorem legsSafe_of_fold {b : Build} (hv : v.Counts N) (axes : List Axis)
    (hfits : b = .debug → ∀ i < n, ∀ c, t.extent.Has c →
      N.folded t p axes i c < word32Size) :
    LegsSafe b n t p (axes.flatMap fun a => [⟨.fold, a, .motion⟩, ⟨.fold, a, .heat⟩]) v := by
  induction axes generalizing v N with
  | nil => trivial
  | cons a axes ih =>
      refine ⟨nofun, fun _ i hi c side c' hc hsource => ?_, ih (counts_apply hv a) hfits⟩
      change b.add32 (v.heat i c).count (v.heat (((p i).get a).on side) c').count =
        .ok ((v.heat i c).count + (v.heat (((p i).get a).on side) c').count)
      cases b with
      | release =>
          rw [Build.add32]
          split
          · rfl
          · rfl
      | debug =>
          have hle := Fields.le_folded t p axes
            (N.exchanged (· + ·) .fold t a fun i => (p i).get a) i c
          have hsum := Nat.lt_of_le_of_lt hle (hfits rfl i hi c hc)
          rw [Fields.exchanged, hsource] at hsum
          apply Build.add32_eq
          rw [hv, hv]
          exact Nat.lt_of_le_of_lt (Nat.add_le_add (Nat.mod_le _ _) (Nat.mod_le _ _)) hsum

end

/-! ## Folds of domains -/

def Domain.count (d : Domain S) (s : Nat) : Nat :=
  (d.cells.heat[s]?.map fun e => e.count.toNat).getD 0

section

variable [Storage S A] [Encoding W S] [Carrier W S] {m : Mode} {n : Nat} {t : Topology}
  {d : Nat → Domain S}

theorem Domain.count_holding {d : Domain S} (hd : d.topology = t) (motion : Vec3 Nat → Motion S)
    (heat : Vec3 Nat → Heat S) {s : Nat} (hs : s < t.extent.volume) :
    (d.holding motion heat).count s = (heat (t.extent.cell s)).count.toNat := by
  rw [count, Domain.holding, hd]
  dsimp only
  rw [Extent.getElem?_table_of_lt _ hs, Option.map_some, Option.getD_some]

theorem ends_fold (T : Torus n) (ht : t.Fits) (hd : ∀ i < n, (d i).Built m t) (tag : Tag)
    {v : Values S} (hsafe : LegsSafe m.build n t T.neighbours Flow.fold.legs v) :
    (World.launch n fun i => (Domain.exchangeAll m .fold (T.neighbours i) tag :
      Step W (Domain S)) (v.on d i)).Ends n fun i a =>
        a.1 = (v.after t T.neighbours Flow.fold.legs).on d i ∧ a.2.result = .ok () := by
  simp only [Leg.exchangeAll_fold]
  have hserves := forall₂_serves_legPhases (W := W) m.build n t T.neighbours tag Flow.fold.legs v
  refine (lockstep_legs ht hd _ hsafe).ends (valid_of_serves T.rings hserves)
    (spaced_of_serves T.rings hserves (alternating_of_nodup ?_))
  exact Flow.fold.nodup_legs.filter _

/-- Every contribution is counted exactly once: in whatever order the ranks of a periodic world
act, each rank ends with the sum of the counts of all copies of an owned cell, and all ranks
together have counted in the owned cells what they had counted in all cells. Counts wrap around in
the release build. The debug build needs sums that fit in a word. -/
theorem fold_counts_once (T : Torus n) (ht : t.Fits) (hd : ∀ i < n, (d i).Built m t) (tag : Tag)
    (hfits : m.build = .debug → ∀ i < n, ∀ l, t.Owns l →
      ∑ q ∈ T.copies t i l, (d q.1).count q.2 < word32Size) : ∃ d' : Nat → Domain S,
    (World.launch n fun i => (Domain.exchangeAll m .fold (T.neighbours i) tag :
      Step W (Domain S)) (d i)).Ends n (fun i a => a.1 = d' i ∧ a.2.result = .ok ()) ∧
    (∀ i < n, (d' i).Built m t) ∧
    (∀ i < n, ∀ l, t.Owns l →
      (d' i).count (t.extent.slot l) = (∑ q ∈ T.copies t i l, (d q.1).count q.2) % word32Size) ∧
    (∑ q ∈ Torus.ownedCells n t, (d' q.1).count q.2) % word32Size =
      (∑ q ∈ Torus.cells n t, (d q.1).count q.2) % word32Size ∧
    ((∀ i < n, ∀ l, t.Owns l → ∑ q ∈ T.copies t i l, (d q.1).count q.2 < word32Size) →
      ∑ q ∈ Torus.ownedCells n t, (d' q.1).count q.2 =
        ∑ q ∈ Torus.cells n t, (d q.1).count q.2) := by
  obtain ⟨v, hv⟩ := exists_values ht.toSized hd
  let N : Fields Nat := fun i c => (v.heat i c).count.toNat
  have hcounts : v.Counts N := fun i c => UInt32.ofNat_toNat.symm
  have hbefore (i : Nat) (l : Vec3 Nat) :
      ∑ q ∈ T.copies t i l, N q.1 (t.extent.cell q.2) =
        ∑ q ∈ T.copies t i l, (d q.1).count q.2 := by
    apply Finset.sum_congr rfl
    intro q hq
    obtain ⟨hrank, hslot⟩ := Torus.mem_cells.1 (Finset.mem_filter.1 hq).1
    rw [← hv q.1 hrank]
    exact (Domain.count_holding (hd q.1 hrank).topology _ _ hslot).symm
  have hsafe : LegsSafe m.build n t T.neighbours Flow.fold.legs v := by
    refine legsSafe_of_fold hcounts Axis.all fun hdebug i hi c hc => ?_
    obtain ⟨j, l, howner⟩ := T.exists_owner ht.holds hi hc
    have hsum := hfits hdebug j howner.lt l howner.owns
    rw [Torus.copies_congr howner.same, ← hbefore] at hsum
    exact Nat.lt_of_le_of_lt (N.folded_le ht.holds hi hc) hsum
  have hends := ends_fold (W := W) T ht hd tag hsafe
  rw [World.launch_congr fun i hi => by rw [hv i hi]] at hends
  have hcount {i : Nat} (hi : i < n) {l : Vec3 Nat} (hl : t.Owns l) :
      ((v.after t T.neighbours Flow.fold.legs).on d i).count (t.extent.slot l) =
        (∑ q ∈ T.copies t i l, (d q.1).count q.2) % word32Size := by
    have hhas := hl.has ht.holds
    rw [Values.on, Domain.count_holding (hd i hi).topology _ _ (Extent.slot_lt hhas),
      Extent.cell_slot hhas]
    refine (congrArg UInt32.toNat (hcounts.after_fold Axis.all i l)).trans ?_
    rw [UInt32.toNat_ofNat', N.folded_of_owns ht.holds hi hl, hbefore]
  have howned {q : Nat × Nat} (hq : q ∈ Torus.ownedCells n t) :
      ((v.after t T.neighbours Flow.fold.legs).on d q.1).count q.2 =
        (∑ q' ∈ T.copies t q.1 (t.extent.cell q.2), (d q'.1).count q'.2) % word32Size := by
    obtain ⟨hq, howns⟩ := Finset.mem_filter.1 hq
    have hrank := (Torus.mem_cells.1 hq).1
    have heq := hcount hrank howns
    rwa [Extent.slot_cell] at heq
  refine ⟨_, hends, fun i hi => (hd i hi).holding ht.toSized _ _,
    fun i hi l hl => hcount hi hl, ?_, ?_⟩
  · rw [← T.sum_copies ht.holds, Finset.sum_nat_mod, Finset.sum_congr rfl fun q hq => by
      rw [howned hq, Nat.mod_mod], ← Finset.sum_nat_mod]
  · intro hall
    rw [← T.sum_copies ht.holds]
    apply Finset.sum_congr rfl
    intro q hq
    obtain ⟨hmem, howns⟩ := Finset.mem_filter.1 hq
    rw [howned hq]
    exact Nat.mod_eq_of_lt (hall q.1 (Torus.mem_cells.1 hmem).1 _ howns)

/-- Two ranks in a row have counted particles of each other in their ghost cells. In the release
build sums wrap around. -/
theorem fold_counts_once_two :
    (∃ d' : Nat → Domain Binary32,
      (World.launch 2 fun i => (Domain.exchangeAll ⟨.debug, .off⟩ .fold
        ((Torus.ofShape ⟨2, 1, 1⟩).neighbours i) ⟨65530⟩ : Step UInt8 (Domain Binary32))
          (.numbered .four (10 * i))).Ends 2 (fun i a => a.1 = d' i ∧ a.2.result = .ok ()) ∧
      (d' 0).count 1 = 14 ∧ ∑ q ∈ Torus.ownedCells 2 .four, (d' q.1).count q.2 = 52) ∧
    ∃ d' : Nat → Domain Binary64,
      (World.launch 2 fun i => (Domain.exchangeAll ⟨.release, .trace⟩ .fold
        ((Torus.ofShape ⟨2, 1, 1⟩).neighbours i) ⟨65530⟩ : Step UInt8 (Domain Binary64))
          (.numbered .four (4294967294 * i))).Ends 2
            (fun i a => a.1 = d' i ∧ a.2.result = .ok ()) ∧
      (d' 0).count 2 = 0 ∧ (d' 1).count 1 = 2 := by
  constructor
  · have hfits : ∀ i < 2, ∀ l, Topology.four.Owns l →
        ∑ q ∈ (Torus.ofShape ⟨2, 1, 1⟩).copies .four i l,
          (Domain.numbered .four (10 * q.1) : Domain Binary32).count q.2 < word32Size := by
      intro i hi l _
      refine Nat.lt_of_le_of_lt (Finset.sum_le_sum_of_subset (Finset.filter_subset _ _)) ?_
      decide +kernel
    obtain ⟨d', hends, _, hcounts, _, htotal⟩ := fold_counts_once (W := UInt8) (S := Binary32)
      (m := ⟨.debug, .off⟩) (Torus.ofShape ⟨2, 1, 1⟩) Topology.fits_four
      (d := fun i => .numbered .four (10 * i))
      (fun i _ => Domain.built_numbered _ ⟨_, rfl, rfl, rfl⟩) ⟨65530⟩ fun _ => hfits
    refine ⟨d', hends, (hcounts 0 (by decide) ⟨1, 0, 0⟩ (by decide)).trans ?_,
      (htotal hfits).trans ?_⟩
    · decide +kernel
    · decide +kernel
  · obtain ⟨d', hends, _, hcounts, _⟩ := fold_counts_once (W := UInt8) (S := Binary64)
      (m := ⟨.release, .trace⟩) (Torus.ofShape ⟨2, 1, 1⟩) Topology.fits_four
      (d := fun i => .numbered .four (4294967294 * i))
      (fun i _ => Domain.built_numbered _ ⟨_, rfl, rfl, rfl⟩) ⟨65530⟩ nofun
    refine ⟨d', hends, (hcounts 0 (by decide) ⟨2, 0, 0⟩ (by decide)).trans ?_,
      (hcounts 1 (by decide) ⟨1, 0, 0⟩ (by decide)).trans ?_⟩
    · decide +kernel
    · decide +kernel

end

end KineticGrid
