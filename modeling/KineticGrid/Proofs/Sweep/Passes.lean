import KineticGrid.Proofs.Report.Success
import KineticGrid.Proofs.Space.Layout
import KineticGrid.Sweep.Accumulate
import KineticGrid.Sweep.Average
/-!
# Accumulating and averaging

Bins that were built for a set of particles can be accumulated over it, and so can all others whose
particles it has. Main statements: both passes succeed on arrays of the right sizes, accumulating
overwrites every cell with the sums over its particles and counts them, averaging keeps these
counts, and neither pass changes the size of an array.
-/

namespace KineticGrid

variable {S A : Type}

/-! ## Bins -/

/-- The bins were built for a set of particles, from lists or from a table. -/
def Bins.Built (p : Particles S) (bins : Bins) : Prop :=
  (∃ b lists, ofLists b p lists = .ok bins) ∨
    ∃ b memory counts width raw, ofTable b memory p counts width raw = .ok bins

def Bins.load (bins : Bins) (s : Nat) : Nat := (bins.cells[s]?.map Array.size).getD 0

def Particles.embeddedCount (p : Particles S) : Nat :=
  match p.embedded with
  | none => 0
  | some e => e.velocities.size

/-- A particle has a place in the arrays of its population. -/
def Particles.Has (p : Particles S) : Particle → Prop
  | .native i => i.toNat < p.nativeSize
  | .embedded i => i.toNat < p.embeddedCount

namespace Particles

variable {p : Particles S}

theorem entry_of_lt {α : Type} {items : Array α} {i : Nat} (h : i < items.size) :
    entry items i = .ok items[i] := by
  rw [entry, Array.getElem?_eq_getElem h]

theorem entry_of_le {α : Type} {items : Array α} {i : Nat} (h : items.size ≤ i) :
    entry items i = .error .outOfBounds := by
  rw [entry, Array.getElem?_eq_none h]

theorem Has.exists_kinematics {q : Particle} (h : p.Has q) : ∃ k, p.kinematics q = .ok k := by
  cases q with
  | native i =>
      rw [kinematics, entry_of_lt h]
      exact ⟨_, rfl⟩
  | embedded i =>
      unfold Has embeddedCount at h
      unfold kinematics
      cases he : p.embedded with
      | none =>
          rw [he] at h
          exact absurd h (Nat.not_lt_zero _)
      | some e =>
          rw [he] at h
          dsimp only at h ⊢
          rw [entry_of_lt h, entry_of_lt (e.size_masses ▸ h)]
          exact ⟨_, rfl⟩

/-- What a raw index stands for has a place in the set that it was resolved in, and an embedded
particle was found through the lookup table. -/
theorem has_of_resolve? {raw : UInt32} {q : Particle} (h : p.resolve? raw = some q) :
    p.Has q ∧ ∀ i, q = .embedded i → 0 < p.embeddedSize := by
  unfold resolve? at h
  split at h
  next hnative =>
    obtain rfl := Option.some.inj h
    exact ⟨hnative, fun _ hq => by cases hq⟩
  next =>
    obtain ⟨e, he, h⟩ := Option.bind_eq_some_iff.1 h
    obtain ⟨slot, hslot, h⟩ := Option.bind_eq_some_iff.1 h
    split at h
    next hlt =>
      obtain rfl := Option.some.inj h
      have htable := (Array.getElem?_eq_some_iff.1 hslot).1
      simp only [Has, embeddedCount, embeddedSize, he]
      exact ⟨hlt, fun _ _ => Nat.zero_lt_of_lt htable⟩
    next => cases h

end Particles

namespace Bins

def Fits (p : Particles S) (bins : Bins) : Prop :=
  ∀ c list, bins.cell c = .ok list → ∀ q ∈ list, p.Has q

variable {b : Build} {p : Particles S} {bins : Bins}

theorem exists_of_ofLists {lists : List (List UInt32)} (h : ofLists b p lists = .ok bins) :
    ∃ cells, (lists.mapM fun list => list.mapM p.classify) = .ok cells ∧
      bins = ofCells p cells := by
  obtain ⟨_, _, h⟩ := exists_of_bind_eq_ok h
  obtain ⟨cells, hcells, h⟩ := exists_of_bind_eq_ok h
  exact ⟨cells, hcells, (Except.ok.inj h).symm⟩

theorem exists_of_ofTable {memory : Nat} {counts : List UInt32} {width : Nat}
    {raw : Array UInt32} (h : ofTable b memory p counts width raw = .ok bins) :
    ∃ cells, (counts.zipIdx.mapM fun (count, cell) => do
        (← tableRow b width raw count cell).mapM p.classify) = .ok cells ∧
      bins = ofCells p cells := by
  unfold ofTable at h
  dsimp only at h
  split at h
  · cases h
  · obtain ⟨_, _, h⟩ := exists_of_bind_eq_ok h
    obtain ⟨_, _, h⟩ := exists_of_bind_eq_ok h
    obtain ⟨_, _, h⟩ := exists_of_bind_eq_ok h
    obtain ⟨cells, hcells, h⟩ := exists_of_bind_eq_ok h
    exact ⟨cells, hcells, (Except.ok.inj h).symm⟩

private theorem exists_resolve {raws : List UInt32} {list : List Particle}
    (h : raws.mapM p.classify = .ok list) : ∀ q ∈ list, ∃ raw, p.resolve? raw = some q := by
  intro q hq
  obtain ⟨raw, _, hraw⟩ := exists_of_mem_mapM h hq
  unfold Particles.classify at hraw
  split at hraw
  · rename_i hresolve
    cases hraw
    exact ⟨raw, hresolve⟩
  · cases hraw

private theorem Built.exists_ofCells (h : bins.Built p) :
    ∃ cells, bins = ofCells p cells ∧
      ∀ list ∈ cells, ∀ q ∈ list, ∃ raw, p.resolve? raw = some q := by
  rcases h with ⟨b, lists, h⟩ | ⟨b, memory, counts, width, raw, h⟩
  · obtain ⟨cells, hcells, rfl⟩ := exists_of_ofLists h
    refine ⟨cells, rfl, fun list hlist => ?_⟩
    obtain ⟨raws, _, hraws⟩ := exists_of_mem_mapM hcells hlist
    exact exists_resolve hraws
  · obtain ⟨cells, hcells, rfl⟩ := exists_of_ofTable h
    refine ⟨cells, rfl, fun list hlist => ?_⟩
    obtain ⟨entry, _, hentry⟩ := exists_of_mem_mapM hcells hlist
    obtain ⟨raws, _, hraws⟩ := exists_of_bind_eq_ok hentry
    exact exists_resolve hraws

theorem Built.requireMatch_eq (h : bins.Built p) : bins.requireMatch p = .ok () := by
  obtain ⟨cells, rfl, _⟩ := h.exists_ofCells
  simp only [requireMatch, Fallible.requireLength, ofCells, if_true]
  rfl

theorem Built.exists_raw (h : bins.Built p) {c : Nat} {list : Array Particle}
    (hc : bins.cell c = .ok list) {q : Particle} (hq : q ∈ list) :
    ∃ raw, p.resolve? raw = some q := by
  obtain ⟨cells, rfl, hcells⟩ := h.exists_ofCells
  unfold cell Particles.entry at hc
  split at hc
  next hlist =>
    cases hc
    have hmem := Array.mem_of_getElem? hlist
    simp only [ofCells, List.mem_toArray, List.mem_map] at hmem
    obtain ⟨items, hitems, rfl⟩ := hmem
    exact hcells items hitems q (List.mem_toArray.1 hq)
  next => cases hc

theorem Built.fits (h : bins.Built p) : bins.Fits p := by
  intro c list hc q hq
  obtain ⟨raw, hraw⟩ := h.exists_raw hc hq
  exact (Particles.has_of_resolve? hraw).1

theorem size_ofLists {lists : List (List UInt32)} (h : ofLists b p lists = .ok bins) :
    bins.size = lists.length := by
  obtain ⟨cells, hcells, rfl⟩ := exists_of_ofLists h
  simp [size, ofCells, length_mapM_ok hcells]

theorem load_ofLists {lists : List (List UInt32)} (h : ofLists b p lists = .ok bins) (c : Nat) :
    bins.load c = (lists.getD c []).length := by
  obtain ⟨cells, hcells, rfl⟩ := exists_of_ofLists h
  have hlengths : cells.map List.length = lists.map List.length :=
    map_eq_of_mapM_ok hcells fun _ _ hlist => length_mapM_ok hlist
  have hc := congrArg (·[c]?) hlengths
  simp only [List.getElem?_map] at hc
  simp only [load, ofCells, List.getElem?_toArray, List.getElem?_map, Option.map_map]
  change (cells[c]?.map List.length).getD 0 = _
  rw [hc, List.getD_eq_getElem?_getD]
  cases lists[c]? <;> rfl

theorem cell_of_lt {c : Nat} (hc : c < bins.size) : bins.cell c = .ok bins.cells[c] :=
  Particles.entry_of_lt hc

def kinematics (p : Particles S) (bins : Bins) (c : Nat) : List (Vec3 S × S) :=
  (bins.cells[c]?.getD #[]).toList.filterMap fun q => (p.kinematics q).toOption

end Bins

def CellSums.ofKinematics [Arith A] [Storage S A] (items : List (Vec3 S × S)) : CellSums A :=
  items.foldl (fun sums k => sums.insert k.1.widen (Storage.widen k.2)) zero

theorem CellSums.ofParticles_eq [Arith A] [Storage S A] {p : Particles S} {list : Array Particle}
    (h : ∀ q ∈ list, p.Has q) :
    (ofParticles p list : Checked (CellSums A)) =
      .ok (ofKinematics (list.toList.filterMap fun q => (p.kinematics q).toOption)) := by
  have hfrom (items : List Particle) (hitems : ∀ q ∈ items, p.Has q) (start : CellSums A) :
      items.foldlM (fun sums q => do
        let k ← p.kinematics q
        return sums.insert k.1.widen (Storage.widen k.2)) start =
      (.ok ((items.filterMap fun q => (p.kinematics q).toOption).foldl
        (fun sums k => sums.insert k.1.widen (Storage.widen k.2)) start) :
          Checked (CellSums A)) := by
    induction items generalizing start with
    | nil => rfl
    | cons q items ih =>
        obtain ⟨k, hk⟩ := (hitems q List.mem_cons_self).exists_kinematics
        have hrest := ih (fun r hr => hitems r (List.mem_cons_of_mem q hr))
          (start.insert k.1.widen (Storage.widen k.2))
        rw [List.foldlM_cons, hk, List.filterMap_cons, hk]
        exact hrest
  exact hfrom list.toList (fun q hq => h q (Array.mem_toList_iff.1 hq)) zero

namespace Bins

variable {p : Particles S} {bins : Bins}

def rawSums [Arith A] [Storage S A] (p : Particles S) (bins : Bins) (c : Nat) :
    Motion S × Heat S :=
  (CellSums.ofKinematics (bins.kinematics p c)).cell (.ofNat (bins.load c))

theorem load_of_lt {c : Nat} (hc : c < bins.size) : bins.load c = bins.cells[c].size := by
  rw [load, Array.getElem?_eq_getElem hc]
  rfl

theorem Fits.length_kinematics (h : bins.Fits p) {c : Nat} (hc : c < bins.size) :
    (bins.kinematics p c).length = bins.load c := by
  have hall : ∀ q ∈ bins.cells[c].toList, (p.kinematics q).toOption.isSome = true := by
    intro q hq
    obtain ⟨k, hk⟩ := (h c _ (cell_of_lt hc) q (Array.mem_toList_iff.1 hq)).exists_kinematics
    rw [hk]
    rfl
  rw [kinematics, Array.getElem?_eq_getElem hc, Option.getD_some, load_of_lt hc,
    List.filterMap_length_eq_length.2 hall, Array.length_toList]

theorem sumCell_eq [Arith A] [Storage S A] {c : Nat} (hc : c < bins.size)
    (h : ∀ q ∈ bins.cells[c], p.Has q) : bins.sumCell p c = .ok (bins.rawSums p c) := by
  rw [sumCell, count, cell_of_lt hc]
  change (CellSums.ofParticles p bins.cells[c] >>= _) = _
  rw [CellSums.ofParticles_eq h, rawSums, kinematics, load_of_lt hc,
    Array.getElem?_eq_getElem hc]
  rfl

theorem exists_sumCell [Arith A] [Storage S A] {c : Nat} (hc : c < bins.size)
    (h : ∀ q ∈ bins.cells[c], p.Has q) :
    ∃ cell : Motion S × Heat S, bins.sumCell p c = .ok cell ∧
      cell.2.count = .ofNat (bins.load c) :=
  ⟨_, sumCell_eq hc h, rfl⟩

theorem Fits.mapM_sumCell [Arith A] [Storage S A] (h : bins.Fits p) :
    (List.range bins.size).mapM (bins.sumCell p) =
      .ok ((List.range bins.size).map (bins.rawSums p)) := by
  apply mapM_eq_ok
  intro c hc
  have hlt := List.mem_range.1 hc
  exact sumCell_eq hlt (h c _ (cell_of_lt hlt))

end Bins

/-! ## Passes -/

section

variable [Arith A] [Storage S A] (m : Mode) (e : Executor) {requested : Nat}

theorem Cells.result_accumulate (hrequested : requested ≠ 0) {p : Particles S} {bins : Bins}
    (hmatch : bins.requireMatch p = .ok ()) {cells : Cells S}
    (hmotion : cells.motion.size = bins.size) (hheat : cells.heat.size = bins.size) :
    (cells.accumulate m e requested p bins).result =
      (((List.range bins.size).mapM (bins.sumCell p)).mapError
        fun f => .error (.launch .accumulate f.text?)).map fun sums =>
          ⟨(sums.map Prod.fst).toArray, (sums.map Prod.snd).toArray⟩ := by
  have hlimit := e.limit_pos .accumulate
  simp only [accumulate, Outcome.result_bind, Outcome.result_lift, hmatch,
    Fallible.requireLength, hmotion, hheat, if_true, e.result_block m .accumulate hrequested,
    Executor.result_run]
  change (Except.mapError _ (Groups.fill (min requested (e.limit .accumulate)) (bins.sumCell p)
    bins.size) >>= _) = _
  rw [Groups.fill_eq (by omega)]
  cases (List.range bins.size).mapM (bins.sumCell p) <;> rfl

theorem Cells.result_accumulate_of_fits (hrequested : requested ≠ 0) {p : Particles S}
    {bins : Bins} (hmatch : bins.requireMatch p = .ok ()) (hfits : bins.Fits p) {cells : Cells S}
    (hmotion : cells.motion.size = bins.size) (hheat : cells.heat.size = bins.size) :
    (cells.accumulate m e requested p bins).result =
      .ok ⟨((List.range bins.size).map fun c => (bins.rawSums p c).1).toArray,
        ((List.range bins.size).map fun c => (bins.rawSums p c).2).toArray⟩ := by
  rw [result_accumulate m e hrequested hmatch hmotion hheat, hfits.mapM_sumCell]
  change Except.ok (⟨(((List.range bins.size).map (bins.rawSums p)).map Prod.fst).toArray,
    (((List.range bins.size).map (bins.rawSums p)).map Prod.snd).toArray⟩ : Cells S) = _
  rw [List.map_map, List.map_map]
  rfl

/-- Accumulating counts the particles of every cell. -/
theorem Cells.exists_accumulate_of_fits (hrequested : requested ≠ 0) {p : Particles S} {bins : Bins}
    (hmatch : bins.requireMatch p = .ok ()) (hfits : bins.Fits p) {cells : Cells S}
    (hmotion : cells.motion.size = bins.size) (hheat : cells.heat.size = bins.size) :
    ∃ cells' : Cells S, (cells.accumulate m e requested p bins).result = .ok cells' ∧
      cells'.motion.size = bins.size ∧ cells'.heat.size = bins.size ∧
      ∀ c < bins.size, ∃ e, cells'.heat[c]? = some e ∧ e.count = .ofNat (bins.load c) := by
  refine ⟨_, result_accumulate_of_fits m e hrequested hmatch hfits hmotion hheat, by simp,
    by simp, ?_⟩
  intro c hc
  exact ⟨(bins.rawSums p c).2, by simp [List.getElem?_range hc], rfl⟩

def Cells.averages (dimension : Dimension) (cells : Cells S) : Cells S where
  motion := cells.motion.zipWith (fun v h => (averageCell dimension v h).1) cells.heat
  heat := cells.motion.zipWith (fun v h => (averageCell dimension v h).2) cells.heat

theorem Cells.result_average_eq (dimension : Dimension) {cells : Cells S}
    (hsizes : cells.motion.size = cells.heat.size) :
    (cells.average m e requested dimension).result =
      (e.block m .finalize requested).result >>= fun _ => .ok (cells.averages dimension) := by
  have hlengths : cells.motion.toList.length = cells.heat.toList.length := hsizes
  have hpairs (block : Nat) :
      (⟨((Groups.zipWith block (averageCell dimension) cells.motion.toList
          cells.heat.toList).map Prod.fst).toArray,
        ((Groups.zipWith block (averageCell dimension) cells.motion.toList
          cells.heat.toList).map Prod.snd).toArray⟩ : Cells S) = cells.averages dimension := by
    rw [Groups.zipWith_eq block _ hlengths, List.map_zipWith, List.map_zipWith,
      ← Array.toList_zipWith, ← Array.toList_zipWith, Array.toArray_toList, Array.toArray_toList]
    rfl
  simp only [average, Outcome.result_bind, Outcome.result_lift, Fallible.requireLength, hsizes,
    if_true, ok_bind, Executor.result_run]
  congr 1
  funext block
  exact congrArg Except.ok (hpairs block)

theorem Cells.result_average (hrequested : requested ≠ 0) (dimension : Dimension)
    (extent : Extent) (motion : Vec3 Nat → Motion S) (heat : Vec3 Nat → Heat S) :
    ((⟨extent.table motion, extent.table heat⟩ : Cells S).average m e requested dimension).result =
      .ok ⟨extent.table fun c => (averageCell dimension (motion c) (heat c)).1,
        extent.table fun c => (averageCell dimension (motion c) (heat c)).2⟩ := by
  rw [result_average_eq m e dimension (by simp only [Extent.size_table]),
    e.result_block m .finalize hrequested, ok_bind]
  simp only [averages, Extent.table, List.zipWith_toArray, List.zipWith_map, List.zipWith_self]

/-! ## Sizes -/

theorem Executor.block_pos {m : Mode} {e : Executor} {pass : Pass} {block : Nat}
    (h : (e.block m pass requested).result = .ok block) : 0 < block := by
  have hlimit := e.limit_pos pass
  by_cases hrequested : requested = 0
  · rw [hrequested, result_block_zero] at h
    cases h
  · rw [e.result_block m pass hrequested] at h
    cases h
    omega

theorem eq_of_requireLength {what : Quantity} {expected found : Nat}
    (h : Fallible.requireLength what expected found = .ok ()) : expected = found := by
  unfold Fallible.requireLength at h
  split at h
  · assumption
  · cases h

theorem Executor.exists_of_run {m : Mode} {pass : Pass} {α : Type} {work : Checked α} {a : α}
    (h : (Executor.run m pass work).result = .ok a) : work = .ok a := by
  rw [result_run] at h
  cases work with
  | ok b =>
      cases h
      rfl
  | error f => cases h

theorem Cells.size_accumulate {m : Mode} {e : Executor} {p : Particles S} {bins : Bins}
    {cells cells' : Cells S} (h : (cells.accumulate m e requested p bins).result = .ok cells') :
    cells'.motion.size = cells.motion.size ∧ cells'.heat.size = cells.heat.size := by
  simp only [accumulate, Outcome.result_bind, Outcome.result_lift] at h
  obtain ⟨_, _, h⟩ := exists_of_bind_eq_ok h
  obtain ⟨_, hmotion, h⟩ := exists_of_bind_eq_ok h
  obtain ⟨_, hheat, h⟩ := exists_of_bind_eq_ok h
  obtain ⟨block, hblock, h⟩ := exists_of_bind_eq_ok h
  obtain ⟨sums, hsums, h⟩ := exists_of_bind_eq_ok h
  cases h
  have hfill := Executor.exists_of_run hsums
  rw [Groups.fill_eq (Executor.block_pos hblock)] at hfill
  have hlength := length_mapM_ok hfill
  rw [List.length_range] at hlength
  rw [← eq_of_requireLength hmotion, ← eq_of_requireLength hheat]
  simp [hlength]

theorem Cells.size_average {m : Mode} {e : Executor} {dimension : Dimension}
    {cells cells' : Cells S} (h : (cells.average m e requested dimension).result = .ok cells') :
    cells'.motion.size = cells.motion.size ∧ cells'.heat.size = cells.heat.size := by
  simp only [average, Outcome.result_bind, Outcome.result_lift] at h
  obtain ⟨_, hsizes, h⟩ := exists_of_bind_eq_ok h
  obtain ⟨block, _, h⟩ := exists_of_bind_eq_ok h
  obtain ⟨averages, haverages, h⟩ := exists_of_bind_eq_ok h
  cases h
  have hsizes := eq_of_requireLength hsizes
  have hzip := Except.ok.inj (Executor.exists_of_run haverages)
  rw [Groups.zipWith_eq block _ (by simpa using hsizes)] at hzip
  simp [← hzip, hsizes]

end

end KineticGrid
