import Mathlib.Algebra.BigOperators.Group.Finset.Basic
import Mathlib.Algebra.Order.Field.Rat
import KineticGrid.Proofs.Sweep.Exact
/-!
# Groups and orders of a reduction

The worker groups of a reduction and the order of its items are accidents of a run. Main statement:
the number of valid cells depends on neither of them, nor does the fault of the checked build that
cannot count them, nor do the other sums where arithmetic is exact.
-/

namespace KineticGrid

variable {W A : Type}

/-! ## Sums that leave their word -/

theorem Totals.add_eq_overflow [Arith A] {t u : Totals A}
    (h : wordSize ≤ t.valid.toNat + u.valid.toNat) : add .debug t u = .error .overflow := by
  rw [add, Build.add64, if_neg (Nat.not_lt.2 h)]
  rfl

/-- The checked build finds out if the valid cells of a sum cannot be counted in a word. -/
theorem Totals.sum_eq_overflow [Arith A] {items : List (Totals A)}
    (h : wordSize ≤ validCells items) : sum .debug items = .error .overflow := by
  have hfrom (start : Totals A) (hstart : wordSize ≤ start.valid.toNat + validCells items) :
      items.foldlM (add .debug) start = .error .overflow := by
    clear h
    induction items generalizing start with
    | nil => exact absurd start.valid.toNat_lt (Nat.not_lt.2 hstart)
    | cons t items ih =>
        rw [validCells_cons] at hstart
        rw [List.foldlM_cons]
        by_cases hfirst : start.valid.toNat + t.valid.toNat < wordSize
        · have hplus : (plus start t).valid.toNat = start.valid.toNat + t.valid.toNat :=
            (UInt64.toNat_add _ _).trans (Nat.mod_eq_of_lt hfirst)
          rw [add_eq fun _ => hfirst]
          exact ih (plus start t) (by omega)
        · rw [add_eq_overflow (Nat.not_lt.1 hfirst)]
          rfl
  refine hfrom zero ?_
  exact (Nat.zero_add _).symm ▸ h

namespace Reduction

section

variable [Letter W] [LawfulLetter W] [Arith A] [Encoding W A] [LawfulEncoding W A]

/-- One group with too many valid cells is enough for all partial sums to stop. -/
private theorem mapM_partialSum_eq_overflow {slots : List (List W)}
    {groups : List (List (Totals A))} (hlength : slots.length = groups.length)
    (hslots : ∀ slot ∈ slots, slot.length = Encoding.width W (Totals A))
    (hgroups : ∃ group ∈ groups, wordSize ≤ validCells group) :
    (slots.zip groups).mapM (fun (slot, group) => partialSum .debug slot group) =
      .error .overflow := by
  have hlarge (slot : List W) {group : List (Totals A)} (h : wordSize ≤ validCells group) :
      partialSum .debug slot group = .error .overflow := by
    rw [partialSum, Totals.sum_eq_overflow h]
    rfl
  apply mapM_eq_error
  · rintro ⟨slot, group⟩ hmem
    have hslot := hslots slot (List.of_mem_zip hmem).1
    by_cases hgroup : validCells group < wordSize
    · exact .inl ⟨_, partialSum_eq .debug hslot fun _ => hgroup⟩
    · exact .inr (hlarge slot (Nat.not_lt.1 hgroup))
  · obtain ⟨group, hmem, hgroup⟩ := hgroups
    rw [← List.map_snd_zip (Nat.le_of_eq hlength.symm)] at hmem
    obtain ⟨pair, hpair, rfl⟩ := List.mem_map.1 hmem
    exact ⟨pair, hpair, hlarge pair.1 hgroup⟩

/-- Too many valid cells are found in one of the groups or in the sum of all of them. -/
theorem work_eq_overflow (block : Nat) {input : List (Totals A)} (h : wordSize ≤ validCells input)
    (used : List W)
    (hused : used.length = (Groups.split block input).length * Encoding.width W (Totals A)) :
    work .debug block input used = .error .overflow := by
  by_cases hgroups : ∀ group ∈ Groups.split block input, validCells group < wordSize
  · have hpartials : wordSize ≤ validCells ((Groups.split block input).map Totals.total) := by
      rw [validCells_totals hgroups]
      exact h
    rw [work_eq_map .debug block (fun group hmem _ => hgroups group hmem) used hused,
      Totals.sum_eq_overflow hpartials]
    rfl
  · push Not at hgroups
    have hwidth : 0 < Encoding.width W (Totals A) := LawfulEncoding.width_pos
    have hwritten := mapM_partialSum_eq_overflow (Groups.length_split_of_mul hwidth hused)
      (fun _ hmem => Groups.length_of_mem_split hwidth hused hmem) hgroups
    unfold work
    change (List.mapM _ ((Groups.split _ used).zip _) >>= _) = _
    rw [hwritten]
    rfl

theorem result_total_eq_launch (e : Executor) (level : Level) {requested : Nat}
    (hrequested : requested ≠ 0) {input : List (Totals A)}
    (hspace : input.length * Encoding.width W (Totals A) < wordSize)
    (h : wordSize ≤ validCells input) :
    (total W ⟨.debug, level⟩ e requested input).result =
      .error (.error (.launch .reduce none)) := by
  obtain ⟨used, hused, hresult⟩ :=
    exists_result_total (W := W) ⟨.debug, level⟩ e hrequested input hspace
  rw [hresult, Executor.result_run, work_eq_overflow _ h used hused]
  rfl

end

/-! ## Sums in any order -/

theorem validCells_perm {input input' : List (Totals A)} (h : input'.Perm input) :
    validCells input' = validCells input :=
  (h.map _).sum_eq

/-- Groups count valid cells modulo the size of a word, as their items do. -/
theorem toNat_valid_grouped_mod [Arith A] (block : Nat) (input : List (Totals A)) :
    (grouped block input).valid.toNat = validCells input % wordSize := by
  have hpartials : ((Groups.split block input).map Totals.total).map (fun t => t.valid.toNat) =
      ((Groups.split block input).map validCells).map (· % wordSize) := by
    rw [List.map_map, List.map_map]
    exact List.map_congr_left fun group _ => Totals.toNat_valid_total group
  calc (grouped block input).valid.toNat
      = validCells ((Groups.split block input).map Totals.total) % wordSize :=
        Totals.toNat_valid_total _
    _ = (((Groups.split block input).map validCells).map (· % wordSize)).sum % wordSize := by
        rw [validCells, hpartials]
    _ = ((Groups.split block input).map validCells).sum % wordSize :=
        (List.sum_nat_mod _ _).symm
    _ = validCells input % wordSize := by rw [sum_validCells_split]

/-- A field of a sum of totals is the sum of this field. -/
theorem map_sum_totals {f : Totals Rat → Rat} (hzero : f 0 = 0)
    (hadd : ∀ t u, f (t + u) = f t + f u) (items : List (Totals Rat)) :
    f items.sum = (items.map f).sum :=
  map_list_sum (⟨⟨f, hzero⟩, hadd⟩ : Totals Rat →+ Rat) items

/-- A reduction counts the same number of valid cells in every order of its items and for every
group size; the checked build stops in all of these cases if their number does not fit into a word.
Where arithmetic is exact, every other field of the result is the sum of that field. -/
theorem total_forgets_grouping :
    (∀ (W A : Type) [Letter W] [LawfulLetter W] [Arith A] [Encoding W A] [LawfulEncoding W A]
      (input : List (Totals A)), input.length * Encoding.width W (Totals A) < wordSize →
      ∃ valid : UInt64, valid.toNat = validCells input % wordSize ∧
        ∀ input', input'.Perm input →
        ∀ (m : Mode) (e : Executor) (requested : Nat), requested ≠ 0 →
          ((m.build = .debug → validCells input < wordSize) →
            ∃ t, (total W m e requested input').result = .ok t ∧ t.valid = valid) ∧
          (m.build = .debug → wordSize ≤ validCells input →
            (total W m e requested input').result = .error (.error (.launch .reduce none)))) ∧
    (∀ (W : Type) [Letter W] [LawfulLetter W] [Encoding W Rat] [LawfulEncoding W Rat]
      (input : List (Totals Rat)), input.length * Encoding.width W (Totals Rat) < wordSize →
      ∀ input', input'.Perm input →
      ∀ (m : Mode) (e : Executor) (requested : Nat), requested ≠ 0 →
        (m.build = .debug → validCells input < wordSize) →
        ∃ t, (total W m e requested input').result = .ok t ∧
          (∀ a, t.momentum.get a = (input.map fun u => u.momentum.get a).sum) ∧
          t.energy = (input.map fun u => u.energy).sum ∧
          t.temperature = (input.map fun u => u.temperature).sum) := by
  constructor
  · intro W A _ _ _ _ _ input hspace
    refine ⟨.ofNat (validCells input), UInt64.toNat_ofNat', fun input' hperm m e requested
      hrequested => ⟨fun hvalid => ?_, fun hdebug hlarge => ?_⟩⟩
    all_goals
      have hcells := validCells_perm hperm
      rw [← hperm.length_eq] at hspace
    · refine ⟨_, result_total m e hrequested input' hspace (by rwa [hcells]), ?_⟩
      apply UInt64.toNat_inj.1
      rw [toNat_valid_grouped_mod, hcells]
      exact UInt64.toNat_ofNat'.symm
    · cases m
      cases hdebug
      exact result_total_eq_launch e _ hrequested hspace (by rwa [hcells])
  · intro W _ _ _ _ input hspace input' hperm m e requested hrequested hvalid
    rw [← hperm.length_eq] at hspace
    rw [← validCells_perm hperm] at hvalid
    refine ⟨_, result_total m e hrequested input' hspace hvalid, ?_⟩
    rw [grouped_eq_sum, hperm.sum_eq]
    refine ⟨fun a => ?_, ?_, ?_⟩
    · exact map_sum_totals (f := fun u => u.momentum.get a) (by cases a <;> rfl)
        (fun _ _ => by cases a <;> rfl) input
    · exact map_sum_totals rfl (fun _ _ => rfl) input
    · exact map_sum_totals rfl (fun _ _ => rfl) input

/-- Three items, one by one and in another order in groups of two, with few and with too many valid
cells, and two items of exact numbers. -/
theorem total_forgets_grouping_three :
    let few : List (Totals Binary64) :=
      [⟨.fill 0, 0, 0, 1⟩, ⟨.fill 0, 0, 0, 2⟩, ⟨.fill 0, 0, 0, 4⟩]
    let many : List (Totals Binary64) :=
      [⟨.fill 0, 0, 0, 18446744073709551615⟩, ⟨.fill 0, 0, 0, 0⟩, ⟨.fill 0, 0, 0, 1⟩]
    let exact : List (Totals Rat) := [⟨⟨1, 2, 3⟩, 1 / 3, 300, 1⟩, ⟨⟨0, 0, 1⟩, 1 / 6, 1 / 2, 1⟩]
    (∃ t t', (total UInt8 ⟨.debug, .off⟩ .shared 1 few).result = .ok t ∧
      (total UInt8 ⟨.debug, .off⟩ .shared 2 few.reverse).result = .ok t' ∧ t.valid = t'.valid) ∧
    (total UInt8 ⟨.debug, .off⟩ .shared 1 many).result =
      .error (.error (.launch .reduce none)) ∧
    (total UInt8 ⟨.debug, .off⟩ .shared 2 many.reverse).result =
      .error (.error (.launch .reduce none)) ∧
    ∃ t, (total Symbol ⟨.debug, .off⟩ .shared 1 exact.reverse).result = .ok t ∧
      t.momentum.z = 4 ∧ t.energy = 1 / 2 := by
  intro few many exact
  obtain ⟨valid, _, hfew⟩ := total_forgets_grouping.1 UInt8 Binary64 few (by decide)
  obtain ⟨_, _, hmany⟩ := total_forgets_grouping.1 UInt8 Binary64 many (by decide)
  obtain ⟨t, ht, heq⟩ :=
    (hfew few (.refl _) ⟨.debug, .off⟩ .shared 1 (by decide)).1 fun _ => by decide
  obtain ⟨t', ht', heq'⟩ :=
    (hfew few.reverse few.reverse_perm ⟨.debug, .off⟩ .shared 2 (by decide)).1 fun _ => by decide
  obtain ⟨s, hs, hmomentum, henergy, _⟩ := total_forgets_grouping.2 Symbol exact (by decide)
    exact.reverse exact.reverse_perm ⟨.debug, .off⟩ .shared 1 (by decide) fun _ => by decide
  refine ⟨⟨t, t', ht, ht', heq.trans heq'.symm⟩, ?_, ?_, s, hs, ?_, ?_⟩
  · exact (hmany many (.refl _) ⟨.debug, .off⟩ .shared 1 (by decide)).2 rfl (by decide)
  · exact (hmany many.reverse many.reverse_perm ⟨.debug, .off⟩ .shared 2 (by decide)).2 rfl
      (by decide)
  · exact (hmomentum .z).trans (by decide +kernel)
  · exact henergy.trans (by decide +kernel)

end Reduction

end KineticGrid
