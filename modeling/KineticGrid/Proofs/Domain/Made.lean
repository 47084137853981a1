import KineticGrid.Domain.Basic
import KineticGrid.Proofs.Report.Success
import KineticGrid.Proofs.Space.Slabs
/-!
# Construction and what a domain keeps of it

Main statements: construction returns empty cells exactly if its settings are valid, the cells can
be counted in a word and memory holds their arrays, and a domain keeps the sizes of its arrays
whatever its cells are overwritten with.
-/

namespace KineticGrid

variable {S A : Type}

/-! ## Cells -/

section

variable [Storage S A]

abbrev Cells.Fit (S : Type) {A : Type} [Storage S A] (n : Nat) : Prop :=
  n * (4 * Storage.bytes S) ≤ maxArrayBytes

def Cells.empty (S : Type) {A : Type} [Storage S A] (n : Nat) : Cells S :=
  ⟨.replicate n .zero, .replicate n .zero⟩

/-- The larger one of the two arrays decides. -/
theorem Cells.result_allocate (m : Mode) (n : Nat) :
    (allocate m n : Outcome (Cells S)).result =
      if Fit S n then .ok (empty S n)
      else Fallible.reject
        (.allocation .velocityArray (min (n * (4 * Storage.bytes S)) (wordSize - 1))) := by
  unfold allocate requireSpace
  by_cases h : Fit S n
  · have hheat : n * (3 * Storage.bytes S) ≤ maxArrayBytes :=
      Nat.le_trans (Nat.mul_le_mul_left _ (Nat.mul_le_mul_right _ (by decide))) h
    rw [if_pos h, if_pos hheat, if_pos h]
    rfl
  · rw [if_neg h, if_neg h]
    rfl

theorem Cells.empty_eq_table (e : Extent) :
    empty S e.volume = ⟨e.table fun _ => .zero, e.table fun _ => .zero⟩ := by
  have htable {V : Type} (v : V) : e.table (fun _ => v) = .replicate e.volume v := by
    rw [Extent.table, List.map_const', List.length_range, List.toArray_replicate]
  rw [htable, htable]
  rfl

end

/-! ## Construction -/

/-- The first pass in order whose group size is zero is named. -/
theorem Settings.validate_eq_error_iff {s : Settings} {e : Failure} :
    s.validate = .error e ↔ ∃ before pass after, checkedPasses = before ++ pass :: after ∧
      (∀ other ∈ before, s.block other ≠ 0) ∧ s.block pass = 0 ∧ e = .error (.zeroBlock pass) := by
  unfold validate
  constructor
  · intro h
    split at h
    next => cases h
    next pass hpass =>
      cases h
      obtain ⟨hzero, before, after, hsplit, hbefore⟩ := List.find?_eq_some_iff_append.1 hpass
      exact ⟨before, pass, after, hsplit, by simpa using hbefore, by simpa using hzero, rfl⟩
  · rintro ⟨before, pass, after, hsplit, hbefore, hzero, rfl⟩
    have hpass : (checkedPasses.find? fun pass => s.block pass = 0) = some pass :=
      List.find?_eq_some_iff_append.2
        ⟨by simpa using hzero, before, after, hsplit, by simpa using hbefore⟩
    rw [hpass]
    rfl

/-- Only a group size of zero is refused. -/
theorem Settings.exists_validate_eq_error_iff {s : Settings} :
    (∃ e, s.validate = .error e) ↔ ∃ pass ∈ checkedPasses, s.block pass = 0 := by
  constructor
  · rintro ⟨e, he⟩
    obtain ⟨before, pass, after, hsplit, _, hzero, _⟩ := validate_eq_error_iff.1 he
    exact ⟨pass, hsplit ▸ List.mem_append_right before List.mem_cons_self, hzero⟩
  · rintro ⟨pass, hpass, hzero⟩
    unfold validate
    split
    next hnone => exact absurd (decide_eq_true hzero) (List.find?_eq_none.1 hnone pass hpass)
    next => exact ⟨_, rfl⟩

theorem Settings.block_ne_zero {s : Settings} (h : s.validate = .ok ()) (pass : Pass) :
    s.block pass ≠ 0 := by
  have hpass (p : Pass) (hp : p ∈ checkedPasses) : s.block p ≠ 0 := by
    intro hzero
    obtain ⟨e, he⟩ := exists_validate_eq_error_iff.2 ⟨p, hp, hzero⟩
    rw [h] at he
    cases he
  cases pass with
  | unpack => exact hpass .pack (by decide)
  | _ => exact hpass _ (by decide)

section

variable [Storage S A]

def Domain.fresh (t : Topology) (s : Settings) (n : Nat) : Domain S :=
  ⟨s, s.executor, t, .empty S n⟩

theorem Domain.result_make (m : Mode) (t : Topology) {s : Settings} (hs : s.validate = .ok ()) :
    (make m t s : Outcome (Domain S)).result =
      (m.build.word t.extent.volume : Fallible Nat) >>= fun n =>
        if Cells.Fit S n then .ok (fresh t s n)
        else Fallible.reject
          (.allocation .velocityArray (min (n * (4 * Storage.bytes S)) (wordSize - 1))) := by
  have hsize : t.size m.build = m.build.word t.extent.volume := Grid.size_eq_word m.build t.grid
  simp only [make, Outcome.result_bind, Outcome.result_lift, hs, ok_bind, hsize]
  cases m.build.word t.extent.volume with
  | error e => rfl
  | ok n =>
      rw [Outcome.result_lift_ok, ok_bind, Cells.result_allocate]
      by_cases h : Cells.Fit S n
      · rw [if_pos h]
        change _ = if Cells.Fit S n then _ else _
        rw [if_pos h]
        rfl
      · rw [if_neg h]
        change _ = if Cells.Fit S n then _ else _
        rw [if_neg h]
        rfl

/-- Where the cells can be counted, construction succeeds exactly if the settings are valid and
memory holds the arrays. -/
theorem Domain.make_eq_ok_iff {m : Mode} {t : Topology} {s : Settings} {d : Domain S}
    (hvolume : t.extent.volume < wordSize) :
    (make m t s : Outcome (Domain S)).result = .ok d ↔
      s.validate = .ok () ∧ Cells.Fit S t.extent.volume ∧ d = fresh t s t.extent.volume := by
  cases hs : s.validate with
  | error e =>
      rw [make, Outcome.result_bind, Outcome.result_lift, hs]
      constructor
      · rintro ⟨⟩
      · rintro ⟨⟨⟩, _⟩
  | ok =>
      rw [result_make m t hs, Build.word_eq hvolume]
      change (if Cells.Fit S t.extent.volume then _ else _) = _ ↔ _
      by_cases hfit : Cells.Fit S t.extent.volume
      · rw [if_pos hfit]
        constructor
        · intro h
          exact ⟨rfl, hfit, (Except.ok.inj h).symm⟩
        · rintro ⟨_, _, rfl⟩
          rfl
      · rw [if_neg hfit]
        constructor
        · rintro ⟨⟩
        · rintro ⟨_, h, _⟩
          exact absurd h hfit

end

/-! ## Domains -/

def Domain.holding (d : Domain S) (motion : Vec3 Nat → Motion S) (heat : Vec3 Nat → Heat S) :
    Domain S :=
  { d with cells := ⟨d.topology.extent.table motion, d.topology.extent.table heat⟩ }

/-- A domain that was made on a topology and has kept the sizes of its arrays. Its executor and
the contents of its cells may be any. -/
structure Domain.Built [Storage S A] (m : Mode) (t : Topology) (d : Domain S) : Prop where
  topology : d.topology = t
  made : ∃ d₀ : Domain S, (Domain.make m t d.settings).result = .ok d₀ ∧
    d.cells.motion.size = d₀.cells.motion.size ∧ d.cells.heat.size = d₀.cells.heat.size

namespace Domain.Built

variable [Storage S A] {m : Mode} {t : Topology} {d : Domain S}

theorem of_make (ht : t.Sized) {m' : Mode} {s : Settings}
    (h : (make m' t s : Outcome (Domain S)).result = .ok d) : d.Built m t := by
  obtain ⟨hvalid, hfit, rfl⟩ := (make_eq_ok_iff ht.volume_lt).1 h
  exact ⟨rfl, _, (make_eq_ok_iff ht.volume_lt).2 ⟨hvalid, hfit, rfl⟩, rfl, rfl⟩

private theorem made_eq (ht : t.Sized) (h : d.Built m t) :
    d.settings.validate = .ok () ∧ Cells.Fit S t.extent.volume ∧
      d.cells.motion.size = t.extent.volume ∧ d.cells.heat.size = t.extent.volume := by
  obtain ⟨d₀, hmade, hmotion, hheat⟩ := h.made
  obtain ⟨hvalid, hfit, rfl⟩ := (make_eq_ok_iff ht.volume_lt).1 hmade
  exact ⟨hvalid, hfit, hmotion.trans Array.size_replicate, hheat.trans Array.size_replicate⟩

theorem block_ne_zero (h : d.Built m t) (ht : t.Sized) (pass : Pass) :
    d.settings.block pass ≠ 0 :=
  Settings.block_ne_zero (made_eq ht h).1 pass

theorem space_le (h : d.Built m t) (ht : t.Sized) :
    t.extent.volume * (4 * Storage.bytes S) ≤ maxArrayBytes :=
  (made_eq ht h).2.1

theorem size_motion (h : d.Built m t) (ht : t.Sized) :
    d.cells.motion.size = t.extent.volume := (made_eq ht h).2.2.1

theorem size_heat (h : d.Built m t) (ht : t.Sized) : d.cells.heat.size = t.extent.volume :=
  (made_eq ht h).2.2.2

theorem exists_holding (h : d.Built m t) (ht : t.Sized) :
    ∃ motion heat, d = d.holding motion heat := by
  obtain ⟨motion, hmotion⟩ := Extent.exists_table (h.size_motion ht) ht.holds.volume_pos
  obtain ⟨heat, hheat⟩ := Extent.exists_table (h.size_heat ht) ht.holds.volume_pos
  have hcells : d.cells = ⟨d.topology.extent.table motion, d.topology.extent.table heat⟩ := by
    rw [h.topology, ← hmotion, ← hheat]
  exact ⟨motion, heat, by rw [holding, ← hcells]⟩

theorem overwritten (h : d.Built m t) {cells : Cells S}
    (hmotion : cells.motion.size = d.cells.motion.size)
    (hheat : cells.heat.size = d.cells.heat.size) :
    ({ d with cells := cells } : Domain S).Built m t := by
  obtain ⟨d₀, hmade, hmotion₀, hheat₀⟩ := h.made
  exact ⟨h.topology, d₀, hmade, hmotion.trans hmotion₀, hheat.trans hheat₀⟩

theorem holding (h : d.Built m t) (ht : t.Sized) (motion : Vec3 Nat → Motion S)
    (heat : Vec3 Nat → Heat S) : (d.holding motion heat).Built m t := by
  apply h.overwritten
  · rw [h.topology, Extent.size_table, h.size_motion ht]
  · rw [h.topology, Extent.size_table, h.size_heat ht]

end Domain.Built

/-- A domain with the slots of its cells, counted from a first number on, as their counts. -/
def Domain.numbered [Storage S A] (t : Topology) (first : Nat) : Domain S where
  settings := .standard
  executor := .shared
  topology := t
  cells := ⟨t.extent.table fun _ => ⟨.fill 0, 0⟩,
    t.extent.table fun c => ⟨0, 0, .ofNat (first + t.extent.slot c)⟩⟩

theorem Domain.built_numbered [Storage S A] {m : Mode} {t : Topology} (first : Nat)
    (hmade : ∃ d₀ : Domain S, (Domain.make m t .standard).result = .ok d₀ ∧
      d₀.cells.motion.size = t.extent.volume ∧ d₀.cells.heat.size = t.extent.volume) :
    (Domain.numbered t first : Domain S).Built m t := by
  obtain ⟨d₀, hmade, hmotion, hheat⟩ := hmade
  refine ⟨rfl, d₀, hmade, ?_, ?_⟩
  · rw [hmotion]
    exact Extent.size_table _ _
  · rw [hheat]
    exact Extent.size_table _ _

end KineticGrid
