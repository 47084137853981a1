import KineticGrid.Arith.Exact
import KineticGrid.Proofs.Sweep.Passes
/-!
# Raw indices

What a list of raw indices stands for, without bins. Main statements: bins are built from lists
exactly if every raw index stands for a particle, otherwise the first one without a particle is
named, and accumulating over the bins of some lists folds the velocities and masses that these
lists stand for, cell by cell and in the order of the list.
-/

namespace KineticGrid

variable {S A : Type}

namespace Particles

def reading? (p : Particles S) (raw : UInt32) : Option (Vec3 S × S) :=
  if raw.toNat < p.nativeSize then do
    return (← p.velocities[raw.toNat]?, p.mass)
  else do
    let e ← p.embedded
    let place ← e.lookup[raw.toNat - p.nativeSize]?
    return (← e.velocities[place.toNat]?, ← e.masses[place.toNat]?)

/-- A raw index that is past the native particles and leads to no embedded one: there are none, or
it is past the end of the lookup table, or the table leads past their end. -/
def Unresolved (p : Particles S) (raw : UInt32) : Prop :=
  p.nativeSize ≤ raw.toNat ∧
    (p.embedded = none ∨
      ∃ e, p.embedded = some e ∧
        (e.lookup.size ≤ raw.toNat - p.nativeSize ∨
          ∃ place, e.lookup[raw.toNat - p.nativeSize]? = some place ∧
            e.velocities.size ≤ place.toNat))

variable {p : Particles S} {raw : UInt32}

theorem resolve?_eq_none_iff : p.resolve? raw = none ↔ p.Unresolved raw := by
  unfold resolve? Unresolved
  by_cases hnative : raw.toNat < p.nativeSize
  · rw [if_pos hnative]
    exact ⟨nofun, fun h => absurd hnative (Nat.not_lt.2 h.1)⟩
  · rw [if_neg hnative, and_iff_right (Nat.not_lt.1 hnative)]
    cases p.embedded with
    | none => simp
    | some e =>
        cases hplace : e.lookup[raw.toNat - p.nativeSize]? with
        | none =>
            have hpast := Array.getElem?_eq_none_iff.1 hplace
            simp [hpast]
        | some place =>
            have hinside := (Array.getElem?_eq_some_iff.1 hplace).1
            simp [hplace, Nat.not_le.2 hinside]

instance (p : Particles S) (raw : UInt32) : Decidable (p.Unresolved raw) :=
  decidable_of_iff _ resolve?_eq_none_iff

def firstUnresolved? (p : Particles S) (raws : List UInt32) : Option UInt32 :=
  raws.find? fun raw => p.Unresolved raw

def invalid (p : Particles S) (raw : UInt32) : Error :=
  .invalidParticle raw p.nativeSize p.embeddedSize

theorem toOption_entry {α : Type} (items : Array α) (i : Nat) :
    (entry items i).toOption = items[i]? := by
  unfold entry
  cases items[i]? <;> rfl

theorem reading?_of_resolve? {q : Particle} (h : p.resolve? raw = some q) :
    p.reading? raw = (p.kinematics q).toOption := by
  unfold resolve? at h
  unfold reading?
  split at h
  next hnative =>
    obtain rfl := Option.some.inj h
    rw [if_pos hnative, kinematics, toOption_bind, toOption_entry]
    rfl
  next hembedded =>
    obtain ⟨e, he, h⟩ := Option.bind_eq_some_iff.1 h
    obtain ⟨place, hplace, h⟩ := Option.bind_eq_some_iff.1 h
    split at h
    next =>
      obtain rfl := Option.some.inj h
      simp only [if_neg hembedded, kinematics, he, hplace, Option.bind_eq_bind, Option.bind_some,
        toOption_bind, toOption_entry]
      rfl
    next => cases h

/-! ## Lists of raw indices -/

theorem firstUnresolved?_append (p : Particles S) (raws raws' : List UInt32) :
    p.firstUnresolved? (raws ++ raws') =
      (p.firstUnresolved? raws).or (p.firstUnresolved? raws') :=
  List.find?_append

theorem firstUnresolved?_cons (p : Particles S) (raw : UInt32) (raws : List UInt32) :
    p.firstUnresolved? (raw :: raws) =
      if p.Unresolved raw then some raw else p.firstUnresolved? raws := by
  rw [firstUnresolved?, List.find?_cons]
  by_cases h : p.Unresolved raw
  · simp only [h, decide_true, if_true]
  · simp only [h, decide_false, if_false]
    rfl

/-- Resolving a list stops at the first raw index without a particle. -/
theorem mapM_classify (p : Particles S) (raws : List UInt32) :
    raws.mapM p.classify =
      match p.firstUnresolved? raws with
      | none => .ok (raws.filterMap p.resolve?)
      | some raw => Fallible.reject (p.invalid raw) := by
  induction raws with
  | nil => rfl
  | cons raw raws ih =>
      rw [List.mapM_cons, firstUnresolved?_cons]
      cases hq : p.resolve? raw with
      | none =>
          rw [if_pos (resolve?_eq_none_iff.1 hq), classify, hq]
          rfl
      | some q =>
          have hresolved : ¬p.Unresolved raw := fun h => by
            rw [resolve?_eq_none_iff.2 h] at hq
            cases hq
          rw [if_neg hresolved, List.filterMap_cons_some hq, classify, hq, ih]
          cases p.firstUnresolved? raws <;> rfl

theorem mapM_mapM_classify (p : Particles S) (lists : List (List UInt32)) :
    (lists.mapM fun list => list.mapM p.classify) =
      match p.firstUnresolved? lists.flatten with
      | none => .ok (lists.map fun list => list.filterMap p.resolve?)
      | some raw => Fallible.reject (p.invalid raw) := by
  induction lists with
  | nil => rfl
  | cons list lists ih =>
      rw [List.mapM_cons, mapM_classify, ih, List.flatten_cons, firstUnresolved?_append]
      cases p.firstUnresolved? list with
      | none => cases p.firstUnresolved? lists.flatten <;> rfl
      | some raw => rfl

theorem firstUnresolved?_eq_none_iff {raws : List UInt32} :
    p.firstUnresolved? raws = none ↔ ∀ raw ∈ raws, ¬p.Unresolved raw := by
  simp only [firstUnresolved?, List.find?_eq_none, decide_eq_true_eq]

theorem exists_readings {raws : List UInt32} (h : p.firstUnresolved? raws = none) :
    ((raws.filterMap p.resolve?).filterMap fun q => (p.kinematics q).toOption).map some =
      raws.map p.reading? := by
  have hall := firstUnresolved?_eq_none_iff.1 h
  clear h
  induction raws with
  | nil => rfl
  | cons raw raws ih =>
      have hfirst := mt resolve?_eq_none_iff.1 (hall raw List.mem_cons_self)
      obtain ⟨q, hq⟩ := Option.ne_none_iff_exists'.1 hfirst
      obtain ⟨k, hk⟩ := (has_of_resolve? hq).1.exists_kinematics
      rw [List.filterMap_cons_some hq, List.filterMap_cons, List.map_cons,
        reading?_of_resolve? hq, hk, ← ih fun r hr => hall r (List.mem_cons_of_mem raw hr)]
      rfl

end Particles

namespace Bins

/-- Memory can hold the starts of so many cells, and the end of the last one. -/
def StartsFit (cells : Nat) : Prop := (cells + 1) * entryBytes ≤ maxArrayBytes
deriving Decidable

theorem reserve_eq {bytes : Nat} (h : bytes ≤ maxArrayBytes) : reserve bytes = .ok () := if_pos h

theorem reserve_eq_capacity {bytes : Nat} (h : ¬bytes ≤ maxArrayBytes) :
    reserve bytes = .error .capacity := if_neg h

theorem reserveStarts_eq {b : Build} {cells : Nat} (h : StartsFit cells) :
    reserveStarts b cells = .ok () := by
  have hword : cells + 1 < wordSize := by
    unfold StartsFit entryBytes maxArrayBytes at h
    unfold wordSize
    omega
  rw [reserveStarts, Build.word_eq hword]
  exact reserve_eq h

variable {b : Build} {p : Particles S} {bins : Bins} {lists : List (List UInt32)}

theorem ofLists_eq (hspace : StartsFit lists.length) :
    ofLists b p lists =
      match p.firstUnresolved? lists.flatten with
      | none => .ok (ofCells p (lists.map fun list => list.filterMap p.resolve?))
      | some raw => Fallible.reject (p.invalid raw) := by
  rw [ofLists, reserveStarts_eq hspace, p.mapM_mapM_classify]
  cases p.firstUnresolved? lists.flatten <;> rfl

theorem resolved_of_ofLists (h : ofLists b p lists = .ok bins) :
    p.firstUnresolved? lists.flatten = none ∧
      bins = ofCells p (lists.map fun list => list.filterMap p.resolve?) := by
  obtain ⟨cells, hcells, rfl⟩ := exists_of_ofLists h
  rw [p.mapM_mapM_classify] at hcells
  cases hfirst : p.firstUnresolved? lists.flatten with
  | none =>
      rw [hfirst] at hcells
      exact ⟨rfl, congrArg (ofCells p) (Except.ok.inj hcells).symm⟩
  | some raw =>
      rw [hfirst] at hcells
      cases hcells

theorem ofLists_eq_error_iff (hspace : StartsFit lists.length) :
    (∃ err, ofLists b p lists = .error err) ↔ ∃ list ∈ lists, ∃ raw ∈ list, p.Unresolved raw := by
  rw [ofLists_eq hspace]
  cases hfirst : p.firstUnresolved? lists.flatten with
  | none =>
      have hall := Particles.firstUnresolved?_eq_none_iff.1 hfirst
      refine ⟨nofun, ?_⟩
      rintro ⟨list, hlist, raw, hraw, hmissing⟩
      exact absurd hmissing (hall raw (List.mem_flatten_of_mem hlist hraw))
  | some raw =>
      refine ⟨fun _ => ?_, fun _ => ⟨_, rfl⟩⟩
      obtain ⟨list, hlist, hraw⟩ := List.mem_flatten.1 (List.mem_of_find?_eq_some hfirst)
      have hmissing := List.find?_some hfirst
      exact ⟨list, hlist, raw, hraw, by simpa using hmissing⟩

theorem ofLists_eq_invalid (hspace : StartsFit lists.length) {before after : List UInt32}
    {raw : UInt32} (hflatten : lists.flatten = before ++ raw :: after)
    (hbefore : ∀ r ∈ before, ¬p.Unresolved r) (hmissing : p.Unresolved raw) :
    ofLists b p lists = Fallible.reject (p.invalid raw) := by
  have hnone := Particles.firstUnresolved?_eq_none_iff.2 hbefore
  rw [ofLists_eq hspace, hflatten, Particles.firstUnresolved?_append, hnone,
    Particles.firstUnresolved?_cons, if_pos hmissing]
  rfl

theorem kinematics_ofLists (h : ofLists b p lists = .ok bins) {c : Nat} {list : List UInt32}
    (hlist : lists[c]? = some list) :
    (bins.kinematics p c).map some = list.map p.reading? := by
  obtain ⟨hresolved, rfl⟩ := resolved_of_ofLists h
  have hcell : p.firstUnresolved? list = none := by
    rw [Particles.firstUnresolved?_eq_none_iff] at hresolved ⊢
    intro raw hraw
    exact hresolved raw (List.mem_flatten_of_mem (List.mem_of_getElem? hlist) hraw)
  rw [← Particles.exists_readings hcell, kinematics, ofCells]
  simp [hlist]

end Bins

/-! ## Sums over readings -/

section

variable [Arith A] [Storage S A]

/-- The sum of a quantity over particles with given velocities and masses, from zero and in
order. -/
def sumOver (quantity : Vec3 A → A → A) (items : List (Vec3 S × S)) : A :=
  items.foldl (fun sum k => sum + quantity k.1.widen (Storage.widen k.2)) 0

theorem CellSums.ofKinematics_eq (items : List (Vec3 S × S)) :
    (ofKinematics items : CellSums A) =
      ⟨Vec3.ofAxis fun a => sumOver (fun v m => m * v.get a) items, sumOver (fun _ m => m) items,
        sumOver (fun v m => Arith.half * m * v.normSq) items⟩ := by
  have hpart (part : CellSums A → A) (quantity : Vec3 A → A → A) (hzero : part zero = 0)
      (hinsert : ∀ s v m, part (s.insert v m) = part s + quantity v m) :
      part (ofKinematics items) = sumOver quantity items := by
    rw [ofKinematics, sumOver, ← hzero]
    exact (List.foldl_hom part fun s k => (hinsert s _ _).symm).symm
  have hmomentum (a : Axis) :=
    hpart (fun s => s.momentum.get a) (fun v m => m * v.get a) (by cases a <;> rfl)
      (fun s v m => Vec3.get_zipWith _ _ _ _)
  have hmass := hpart (fun s => s.mass) (fun _ m => m) rfl fun _ _ _ => rfl
  have hkinetic := hpart (fun s => s.kinetic) (fun v m => Arith.half * m * v.normSq) rfl
    fun _ _ _ => rfl
  rw [← hmass, ← hkinetic, ← funext hmomentum]
  rfl

theorem Bins.rawSums_ofLists {b : Build} {p : Particles S} {lists : List (List UInt32)}
    {bins : Bins} (h : ofLists b p lists = .ok bins) {c : Nat} {list : List UInt32}
    (hlist : lists[c]? = some list) :
    bins.rawSums p c =
      (⟨Vec3.ofAxis fun a => Storage.narrow (sumOver (fun v m => m * v.get a) (bins.kinematics p c)),
        Storage.narrow (sumOver (fun _ m => m) (bins.kinematics p c))⟩,
      ⟨Storage.narrow (sumOver (fun v m => Arith.half * m * v.normSq) (bins.kinematics p c)), 0,
        .ofNat list.length⟩) := by
  have hload : bins.load c = list.length := by
    rw [load_ofLists h, List.getD_eq_getElem?_getD, hlist]
    rfl
  rw [rawSums, CellSums.ofKinematics_eq, hload]
  rfl

/-- Bins are built from lists unless some raw index stands for no particle, of which the first one
is named, as long as memory can hold the starts of the lists. Accumulating over them succeeds for
every group size, every limit and whatever the cells held, and leaves in each cell the sums over the
readings of its list and the length of the list. -/
theorem accumulate_folds_lists (b : Build) (p : Particles S) (lists : List (List UInt32)) :
    (Bins.StartsFit lists.length →
      ((∃ err, Bins.ofLists b p lists = .error err) ↔
        ∃ list ∈ lists, ∃ raw ∈ list, p.Unresolved raw) ∧
      ∀ before raw after, lists.flatten = before ++ raw :: after →
        (∀ r ∈ before, ¬p.Unresolved r) → p.Unresolved raw →
        Bins.ofLists b p lists =
          .error (.error (.invalidParticle raw p.nativeSize p.embeddedSize))) ∧
    ∀ bins, Bins.ofLists b p lists = .ok bins →
      ∀ (m : Mode) (e : Executor) (requested : Nat), requested ≠ 0 →
      ∀ cells : Cells S, cells.motion.size = lists.length → cells.heat.size = lists.length →
      ∃ cells' : Cells S, (cells.accumulate m e requested p bins).result = .ok cells' ∧
        cells'.motion.size = lists.length ∧ cells'.heat.size = lists.length ∧
        ∀ (c : Nat) (list : List UInt32), lists[c]? = some list →
        ∃ items : List (Vec3 S × S), items.map some = list.map p.reading? ∧
          cells'.motion[c]? = some
            ⟨Vec3.ofAxis fun a => Storage.narrow (sumOver (fun v m => m * v.get a) items),
              Storage.narrow (sumOver (fun _ m => m) items)⟩ ∧
          cells'.heat[c]? = some
            ⟨Storage.narrow (sumOver (fun v m => Arith.half * m * v.normSq) items), 0,
              .ofNat list.length⟩ := by
  refine ⟨fun hspace => ⟨Bins.ofLists_eq_error_iff hspace,
    fun _ _ _ => Bins.ofLists_eq_invalid hspace⟩, ?_⟩
  intro bins hbins m e requested hrequested cells hmotion hheat
  have hsize := Bins.size_ofLists hbins
  have hbuilt : bins.Built p := .inl ⟨b, lists, hbins⟩
  refine ⟨_, Cells.result_accumulate_of_fits m e hrequested hbuilt.requireMatch_eq hbuilt.fits
    (by rw [hmotion, hsize]) (by rw [hheat, hsize]), by simp [hsize], by simp [hsize], ?_⟩
  intro c list hlist
  have hc : c < bins.size := by
    rw [hsize]
    exact (List.getElem?_eq_some_iff.1 hlist).1
  refine ⟨_, Bins.kinematics_ofLists hbins hlist, ?_, ?_⟩
  · simp [List.getElem?_range hc, Bins.rawSums_ofLists hbins hlist]
  · simp [List.getElem?_range hc, Bins.rawSums_ofLists hbins hlist]

end

/-- A native particle and an embedded one together, none, and the embedded one alone, in groups of
two cells; and lists with two raw indices that stand for no particle. -/
theorem accumulate_folds_lists_three :
    let p : Particles Rat := ⟨#[⟨1, 0, 0⟩], 2, some ⟨#[⟨0, 2, 0⟩], #[3], #[0, 7], rfl⟩⟩
    (∃ bins cells', Bins.ofLists .debug p [[0, 1], [], [1]] = .ok bins ∧
      (Cells.accumulate ⟨.debug, .off⟩ (.withMaxBlock .shared 2) 5 p bins
        ⟨Array.replicate 3 ⟨.fill 9, 9⟩, Array.replicate 3 ⟨9, 9, 9⟩⟩).result = .ok cells' ∧
      cells'.motion[0]? = some ⟨⟨2, 6, 0⟩, 5⟩ ∧ cells'.heat[0]? = some ⟨7, 0, 2⟩) ∧
    Bins.ofLists .release p [[0, 1], [1, 2, 0], [3]] = .error (.error (.invalidParticle 2 1 2)) := by
  intro p
  obtain ⟨_, hsums⟩ := accumulate_folds_lists .debug p [[0, 1], [], [1]]
  obtain ⟨bins, hbins⟩ : ∃ bins, Bins.ofLists .debug p [[0, 1], [], [1]] = .ok bins := ⟨_, rfl⟩
  obtain ⟨cells', hresult, _, _, hcells⟩ :=
    hsums bins hbins ⟨.debug, .off⟩ (.withMaxBlock .shared 2) 5 (by decide)
      ⟨Array.replicate 3 ⟨.fill 9, 9⟩, Array.replicate 3 ⟨9, 9, 9⟩⟩ rfl rfl
  obtain ⟨items, hitems, hmotion, hheat⟩ := hcells 0 [0, 1] rfl
  have hread : items = [(⟨1, 0, 0⟩, 2), (⟨0, 2, 0⟩, 3)] :=
    (List.map_inj_right fun _ _ => Option.some.inj).1 (hitems.trans rfl)
  subst hread
  refine ⟨⟨bins, cells', hbins, hresult, ?_, ?_⟩, ?_⟩
  · rw [hmotion]
    decide +kernel
  · rw [hheat]
    decide +kernel
  · obtain ⟨hspace, _⟩ := accumulate_folds_lists .release p [[0, 1], [1, 2, 0], [3]]
    exact (hspace (by decide)).2 [0, 1, 1] 2 [0, 3] rfl
      (Particles.firstUnresolved?_eq_none_iff.1 rfl) (by decide)

end KineticGrid
