import KineticGrid.Proofs.Domain.Tags
import KineticGrid.Proofs.Space.Torus
/-!
# Refreshing ghost cells

A refresh along one axis overwrites the ghost cells of that axis with the values that the owners
along that axis hold, whatever these are by then. Because the slabs span the ghost layers of the
other axes, the three axes one after the other bring each cell the value of its owner. Main
statement: after a refresh every cell of every rank, ghost cells of edges and corners included,
holds what its owner held before.
-/

namespace KineticGrid

variable {W V S A : Type}

section

variable {n : Nat} {T : Torus n} {t : Topology} {h l : Vec3 Nat}

private theorem exchanged_refresh (F : Fields V) (ht : t.Holds) (a : Axis) (hh : T.shape.Has h)
    (hl : l.get a < t.extent.get a) :
    F.exchanged (fun _ incoming => incoming) .refresh t a (fun i => (T.neighbours i).get a)
        (T.rank h) l =
      F (T.rank (h.set a ((T.lap t a).owner (h.get a) (l.get a)).1))
        (l.set a ((T.lap t a).owner (h.get a) (l.get a)).2) := by
  have hcore := ht.core_eq a
  unfold Fields.exchanged
  by_cases hleft : l.get a < t.halo a
  · rw [Flow.source?_eq_left (by rw [Flow.inset]; omega),
      Lap.owner_of_lt (p := T.lap t a) hleft]
    simp only [Neighbours.on, Torus.neighbours, Vec3.get_ofAxis, T.place_rank h hh]
    rfl
  · by_cases hright : t.core a + t.halo a ≤ l.get a
    · rw [Flow.source?_eq_right ht (by rw [Flow.inset]; omega),
        Lap.owner_of_le (p := T.lap t a) hright (T.roomy ht a)]
      simp only [Neighbours.on, Torus.neighbours, Vec3.get_ofAxis, T.place_rank h hh]
      rfl
    · rw [Flow.source?_eq_none (by rw [Flow.inset]; omega) (by rw [Flow.inset]; omega),
        Lap.owner_of_owns (p := T.lap t a) (show t.halo a ≤ l.get a ∧
          l.get a < t.core a + t.halo a by omega), Vec3.set_get, Vec3.set_get]

def Fields.refreshed (t : Topology) (p : Nat → Vec3 Neighbours) (F : Fields V) : Fields V :=
  Axis.all.foldl (fun F a =>
    F.exchanged (fun _ incoming => incoming) .refresh t a fun i => (p i).get a) F

/-- After a refresh along all axes, a cell holds what its owner held. The axes are undone from the
last one to the first, each of them at a place that the ones after it have not changed. -/
theorem Fields.refreshed_eq (F : Fields V) (ht : t.Holds) (hh : T.shape.Has h)
    (hl : t.extent.Has l) :
    F.refreshed t T.neighbours (T.rank h) l =
      F (T.rank (T.ownerPlace t h l)) (T.ownerCell t h l) := by
  have hplace := T.has_ownerPlace (t := t) hh l
  unfold Fields.refreshed Axis.all
  simp only [List.foldl_cons, List.foldl_nil]
  let lz := l.set .z ((T.ownerCell t h l).get .z)
  let lyz := lz.set .y ((T.ownerCell t h l).get .y)
  have hz := hh.set (hplace .z)
  have hyz := hz.set (hplace .y)
  have hx := exchanged_refresh (l := lyz) F ht .x hyz (hl .x)
  have hy := exchanged_refresh (l := lz) (F.exchanged (fun _ incoming => incoming) .refresh t .x
    fun i => (T.neighbours i).get .x) ht .y hz (hl .y)
  rw [exchanged_refresh _ ht .z hh (hl .z)]
  exact hy.trans hx

theorem Fields.refreshed_of_owns (F : Fields V) (ht : t.Holds) {i : Nat} (hi : i < n)
    (hl : t.Owns l) : F.refreshed t T.neighbours i l = F i l := by
  have hcell := F.refreshed_eq ht (T.has_place i hi) (hl.has ht)
  obtain ⟨hplace, howned⟩ := (Torus.Owner.refl (T := T) hi hl).eq_of_place ht hi (hl.has ht)
  rwa [T.rank_place i hi, ← hplace, ← howned] at hcell

end

section

variable [Storage S A] [Encoding W S] [Carrier W S] {m : Mode} {n : Nat} {t : Topology}
  {d : Nat → Domain S}

theorem Values.after_refresh (t : Topology) (p : Nat → Vec3 Neighbours) (v : Values S) :
    v.after t p Flow.refresh.legs = ⟨v.motion.refreshed t p, v.heat.refreshed t p⟩ := rfl

theorem legsSafe_of_refresh {b : Build} {p : Nat → Vec3 Neighbours} {legs : List Leg}
    (hlegs : ∀ l ∈ legs, l.flow = .refresh) (v : Values S) : LegsSafe b n t p legs v := by
  induction legs generalizing v with
  | nil => trivial
  | cons l legs ih =>
      refine ⟨fun _ i _ c side c' _ _ => ?_,
        ih (fun l' hl' => hlegs l' (List.mem_cons_of_mem l hl')) _⟩
      rw [hlegs l List.mem_cons_self]
      rfl

theorem ends_refresh (T : Torus n) (ht : t.Fits) (hd : ∀ i < n, (d i).Built m t) (tag : Tag)
    (v : Values S) :
    (World.launch n fun i => (Domain.exchangeAll m .refresh (T.neighbours i) tag :
      Step W (Domain S)) (v.on d i)).Ends n fun i a =>
        a.1 = (v.after t T.neighbours Flow.refresh.legs).on d i ∧ a.2.result = .ok () := by
  have hbase : tag = (tag.offset (0 - Domain.exchangeTags)).offset Domain.exchangeTags := by
    have hzero : 0 - Domain.exchangeTags + Domain.exchangeTags = 0 := by decide
    rw [Tag.offset, Tag.offset, UInt16.add_assoc, hzero, UInt16.add_zero]
  rw [hbase]
  simp only [Leg.exchangeAll_refresh]
  have hserves := forall₂_serves_legPhases (W := W) m.build n t T.neighbours
    (tag.offset (0 - Domain.exchangeTags)) Flow.refresh.legs v
  have hsafe : LegsSafe m.build n t T.neighbours Flow.refresh.legs v :=
    legsSafe_of_refresh (by decide) v
  refine (lockstep_legs ht hd _ hsafe).ends (valid_of_serves T.rings hserves)
    (spaced_of_serves T.rings hserves (alternating_of_nodup ?_))
  exact Flow.refresh.nodup_legs.filter _

/-- Ghost cells are refreshed on faces, edges and corners: in whatever order the ranks of a
periodic world act, each rank ends with the values of the owners in all of its cells, and with its
own cells as they were. -/
theorem refresh_mirrors_owners (T : Torus n) (ht : t.Fits) (hd : ∀ i < n, (d i).Built m t)
    (tag : Tag) : ∃ d' : Nat → Domain S,
      (World.launch n fun i => (Domain.exchangeAll m .refresh (T.neighbours i) tag :
        Step W (Domain S)) (d i)).Ends n (fun i a => a.1 = d' i ∧ a.2.result = .ok ()) ∧
      (∀ i < n, (d' i).Built m t) ∧
      (∀ i < n, ∀ l, t.extent.Has l → (∃ j l', T.Owner t i l j l') ∧
        ∀ j l', T.Owner t i l j l' →
          (d' i).cells.motion[t.extent.slot l]? = (d j).cells.motion[t.extent.slot l']? ∧
          (d' i).cells.heat[t.extent.slot l]? = (d j).cells.heat[t.extent.slot l']?) ∧
      ∀ i < n, ∀ l, t.Owns l →
        (d' i).cells.motion[t.extent.slot l]? = (d i).cells.motion[t.extent.slot l]? ∧
        (d' i).cells.heat[t.extent.slot l]? = (d i).cells.heat[t.extent.slot l]? := by
  obtain ⟨v, hv⟩ := exists_values ht.toSized hd
  have hends := ends_refresh (W := W) T ht hd tag v
  rw [World.launch_congr fun i hi => by rw [hv i hi]] at hends
  have hcells {i : Nat} (hi : i < n) {l : Vec3 Nat} (hl : t.extent.Has l) {j : Nat}
      {l' : Vec3 Nat} (howner : T.Owner t i l j l') :
      ((v.after t T.neighbours Flow.refresh.legs).on d i).cells.motion[t.extent.slot l]? =
          (d j).cells.motion[t.extent.slot l']? ∧
        ((v.after t T.neighbours Flow.refresh.legs).on d i).cells.heat[t.extent.slot l]? =
          (d j).cells.heat[t.extent.slot l']? := by
    obtain ⟨hj, hl'⟩ := howner.eq_of_place ht.holds hi hl
    have hhas := howner.owns.has ht.holds
    have hmotion := Fields.refreshed_eq v.motion ht.holds (T.has_place i hi) hl
    have hheat := Fields.refreshed_eq v.heat ht.holds (T.has_place i hi) hl
    rw [T.rank_place i hi] at hmotion hheat
    rw [← hv j howner.lt, Values.after_refresh]
    simp only [Values.on, Domain.holding, (hd i hi).topology, (hd j howner.lt).topology]
    rw [Extent.getElem?_table _ hl, Extent.getElem?_table _ hl, Extent.getElem?_table _ hhas,
      Extent.getElem?_table _ hhas, hmotion, hheat, hj, hl']
    exact ⟨rfl, rfl⟩
  refine ⟨_, hends, fun i hi => (hd i hi).holding ht.toSized _ _, fun i hi l hl => ?_,
    fun i hi l hl => ?_⟩
  · exact ⟨T.exists_owner ht.holds hi hl, fun j l' howner => hcells hi hl howner⟩
  · exact hcells hi (hl.has ht.holds) (.refl hi hl)

theorem refresh_mirrors_owners_two :
    (∃ d' : Nat → Domain Binary32,
      (World.launch 2 fun i => (Domain.exchangeAll ⟨.debug, .off⟩ .refresh
        ((Torus.ofShape ⟨2, 1, 1⟩).neighbours i) ⟨65530⟩ : Step UInt8 (Domain Binary32))
          (.numbered .four (10 * i))).Ends 2 (fun i a => a.1 = d' i ∧ a.2.result = .ok ()) ∧
      (d' 0).cells.heat[0]? = some ⟨0, 0, 12⟩) ∧
    ∃ d' : Nat → Domain Binary64,
      (World.launch 2 fun i => (Domain.exchangeAll ⟨.release, .trace⟩ .refresh
        ((Torus.ofShape ⟨2, 1, 1⟩).neighbours i) ⟨65530⟩ : Step UInt8 (Domain Binary64))
          (.numbered .four (10 * i))).Ends 2 (fun i a => a.1 = d' i ∧ a.2.result = .ok ()) ∧
      (d' 1).cells.heat[3]? = some ⟨0, 0, 1⟩ := by
  constructor
  · obtain ⟨d', hends, _, howners, _⟩ := refresh_mirrors_owners (W := UInt8) (S := Binary32)
      (m := ⟨.debug, .off⟩) (Torus.ofShape ⟨2, 1, 1⟩) Topology.fits_four
      (d := fun i => .numbered .four (10 * i))
      (fun i _ => Domain.built_numbered _ ⟨_, rfl, rfl, rfl⟩) ⟨65530⟩
    have howner : (Torus.ofShape ⟨2, 1, 1⟩).Owner .four 0 ⟨0, 0, 0⟩ 1 ⟨2, 0, 0⟩ :=
      ⟨by decide, fun a => by cases a <;> decide, by decide⟩
    exact ⟨d', hends, ((howners 0 (by decide) ⟨0, 0, 0⟩ (by decide)).2 _ _ howner).2⟩
  · obtain ⟨d', hends, _, howners, _⟩ := refresh_mirrors_owners (W := UInt8) (S := Binary64)
      (m := ⟨.release, .trace⟩) (Torus.ofShape ⟨2, 1, 1⟩) Topology.fits_four
      (d := fun i => .numbered .four (10 * i))
      (fun i _ => Domain.built_numbered _ ⟨_, rfl, rfl, rfl⟩) ⟨65530⟩
    have howner : (Torus.ofShape ⟨2, 1, 1⟩).Owner .four 1 ⟨3, 0, 0⟩ 0 ⟨1, 0, 0⟩ :=
      ⟨by decide, fun a => by cases a <;> decide, by decide⟩
    exact ⟨d', hends, ((howners 1 (by decide) ⟨3, 0, 0⟩ (by decide)).2 _ _ howner).2⟩

end

end KineticGrid
