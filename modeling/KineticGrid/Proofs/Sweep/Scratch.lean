import KineticGrid.Proofs.Sweep.Summing
/-!
# The scratch buffer of a reduction

A reduction leaves the sums of its worker groups in the buffer that it was given. Main statement:
whatever the buffer held before, one group after the other fills one slot, every item is in exactly
one group, the result is the sum of the slots, and what lies behind the slots stays as it was; a
list of another length or a buffer that is too short is refused before anything is written.
-/

namespace KineticGrid

variable {W E A : Type}

namespace Groups

/-- A list is cut at the multiples of the block. -/
theorem split_eq_map {block : Nat} (hblock : 0 < block) {α : Type} (items : List α) :
    split block items = (List.range ((items.length + block - 1) / block)).map fun i =>
      (items.drop (i * block)).take block := by
  fun_induction split block items with
  | case1 => rw [List.length_nil, Nat.zero_add, Nat.div_eq_of_lt (by omega)]; rfl
  | case2 a rest ih =>
    have hcount : ((a :: rest).length + block - 1) / block =
        ((rest.drop (block - 1)).length + block - 1) / block + 1 := by
      rw [← length_split hblock, ← length_split hblock, split_cons, List.length_cons]
    have hfirst : (a :: rest).take block = a :: rest.take (block - 1) := by
      rw [← List.take_succ_cons, Nat.sub_add_cancel hblock]
    rw [hcount, List.range_succ_eq_map, List.map_cons, List.map_map, Nat.zero_mul, List.drop_zero,
      hfirst, ih]
    congr 1
    apply List.map_congr_left
    intro i _
    rw [Function.comp, List.drop_drop, Nat.succ_mul, ← List.drop_succ_cons (a := a)]
    congr 2
    omega

end Groups

/-- Behind other letters, the letters of each of several values are found at its place. -/
theorem Encoding.take_drop_encodeAll [Encoding W E] [LawfulEncoding W E] {values : List E} {i : Nat}
    (h : i < values.length) (rest : List W) :
    ((encodeAll values ++ rest).drop (width W E * i)).take (width W E) = encode values[i] := by
  induction values generalizing i with
  | nil => cases h
  | cons v values ih =>
      have hlength : (encode v : List W).length = width W E := LawfulEncoding.length_encode v
      have hall : (encodeAll (v :: values) : List W) = encode v ++ encodeAll values := rfl
      rw [hall, List.append_assoc]
      cases i with
      | zero =>
          rw [Nat.mul_zero, List.drop_zero, ← hlength, List.take_left]
          rfl
      | succ i =>
          rw [Nat.mul_succ, Nat.add_comm, ← hlength, List.drop_length_add_append, hlength,
            ih (Nat.lt_of_succ_lt_succ h)]
          rfl

namespace Reduction

def part (r : Reduction) (input : List (Totals A)) (i : Nat) : List (Totals A) :=
  (input.drop (i * r.block)).take r.block

def partials [Arith A] (r : Reduction) (input : List (Totals A)) : List (Totals A) :=
  (List.range r.groups).map fun i => Totals.total (r.part input i)

section

variable [Arith A]

theorem length_partials (r : Reduction) (input : List (Totals A)) :
    (r.partials input).length = r.groups := by
  rw [partials, List.length_map, List.length_range]

theorem getElem_partials {r : Reduction} {input : List (Totals A)} {i : Nat}
    (h : i < (r.partials input).length) :
    (r.partials input)[i] = Totals.total (r.part input i) := by
  simp only [partials, List.getElem_map, List.getElem_range]

/-- The items are cut into as many groups as there are slots for their sums. -/
theorem map_total_split {r : Reduction} (hblock : 0 < r.block) {input : List (Totals A)}
    (hinput : input.length = r.items) :
    (Groups.split r.block input).map Totals.total = r.partials input := by
  rw [Groups.split_eq_map hblock, hinput, List.map_map]
  rfl

variable [Letter W] [LawfulLetter W] [Encoding W A] [LawfulEncoding W A]

/-- The sums of the groups are what a reduction writes, and their sum is what it returns. -/
theorem result_execute_eq (m : Mode) {r : Reduction} (hblock : 0 < r.block)
    {input : List (Totals A)} (hinput : input.length = r.items)
    (hspace : r.groups * Encoding.width W (Totals A) < wordSize) {scratch : List W}
    (hscratch : r.groups * Encoding.width W (Totals A) ≤ scratch.length)
    (hvalid : m.build = .debug → validCells input < wordSize) :
    (r.execute m input scratch).result = .ok (Totals.total (r.partials input),
      Encoding.encodeAll (r.partials input) ++
        scratch.drop (r.groups * Encoding.width W (Totals A))) := by
  have hused : (scratch.take (r.groups * Encoding.width W (Totals A))).length =
      (Groups.split r.block input).length * Encoding.width W (Totals A) := by
    rw [List.length_take, Nat.min_eq_left hscratch, Groups.length_split hblock, hinput]
    rfl
  rw [result_execute m hinput (Build.word_eq hspace) hscratch, Executor.result_run,
    work_eq m.build r.block hvalid _ hused, grouped, map_total_split hblock hinput]
  rfl

omit [LawfulLetter W] [LawfulEncoding W A] in
theorem execute_eq_reject_length (m : Mode) {r : Reduction} {input : List (Totals A)}
    (hinput : input.length ≠ r.items) (scratch : List W) :
    r.execute m input scratch =
      Outcome.reject (.lengthMismatch .stagedElements r.items input.length) := by
  rw [execute, Fallible.requireLength, if_neg (Ne.symm hinput)]
  rfl

omit [LawfulLetter W] [LawfulEncoding W A] in
theorem execute_eq_reject_scratch (m : Mode) {r : Reduction} {input : List (Totals A)}
    (hinput : input.length = r.items) {n : Nat} (hsize : r.scratchSize W A m.build = .ok n)
    {scratch : List W} (hscratch : scratch.length < n) :
    r.execute m input scratch = Outcome.reject (.scratchTooSmall n scratch.length) := by
  rw [execute, Fallible.requireLength, if_pos hinput.symm, hsize]
  change (if scratch.length < n then (Outcome.reject (.scratchTooSmall n scratch.length) >>= _)
    else _) = _
  rw [if_pos hscratch]
  rfl

end

/-- A planned reduction needs 48 bytes of scratch for each of its worker groups. Given a list of the
planned length and so many bytes, of any contents, it returns the sum of the sums of the groups,
which are consecutive items in order, and leaves these sums in the buffer; the bytes behind them
stay as they were. A list of another length, and otherwise a buffer that is too short, is refused
without anything being launched or written. -/
theorem execute_sums_groups (m : Mode) (e : Executor) {requested : Nat} (hrequested : requested ≠ 0)
    (items : Nat)
    (hspace : 48 * (⟨items, min requested (e.limit .reduce)⟩ : Reduction).groups < wordSize) :
    ∃ r : Reduction, (make UInt8 Binary64 m e items requested).result = .ok r ∧
      r.items = items ∧ r.block = min requested (e.limit .reduce) ∧
      r.scratchSize UInt8 Binary64 m.build = .ok (48 * r.groups) ∧
      ∀ (input : List (Totals Binary64)) (scratch : List UInt8),
        (input.length ≠ items →
          r.execute m input scratch =
              Outcome.reject (.lengthMismatch .stagedElements items input.length) ∧
            ∀ t, (r.execute m input scratch).valueD (t, scratch) = (t, scratch)) ∧
        (input.length = items → scratch.length < 48 * r.groups →
          r.execute m input scratch =
              Outcome.reject (.scratchTooSmall (48 * r.groups) scratch.length) ∧
            ∀ t, (r.execute m input scratch).valueD (t, scratch) = (t, scratch)) ∧
        (input.length = items → 48 * r.groups ≤ scratch.length →
          (m.build = .debug → validCells input < wordSize) →
          ∃ scratch', (r.execute m input scratch).result =
              .ok (Totals.total (r.partials input), scratch') ∧
            scratch'.length = scratch.length ∧
            (∀ i < r.groups, (scratch'.drop (48 * i)).take 48 =
              Encoding.encode (Totals.total (r.part input i))) ∧
            scratch'.drop (48 * r.groups) = scratch.drop (48 * r.groups)) := by
  have hlimit := e.limit_pos .reduce
  let r : Reduction := ⟨items, min requested (e.limit .reduce)⟩
  have hblock : 0 < r.block := by
    change 0 < min requested (e.limit .reduce)
    omega
  have hcomm : r.groups * Encoding.width UInt8 (Totals Binary64) = 48 * r.groups :=
    Nat.mul_comm _ _
  have hsize : r.scratchSize UInt8 Binary64 m.build = .ok (48 * r.groups) := by
    rw [scratchSize, hcomm]
    exact Build.word_eq hspace
  refine ⟨r, result_make m e hrequested hsize, rfl, rfl, hsize, fun input scratch => ⟨?_, ?_, ?_⟩⟩
  · intro hinput
    have hreject := execute_eq_reject_length m (r := r) hinput scratch
    exact ⟨hreject, fun t => by rw [hreject]; rfl⟩
  · intro hinput hscratch
    have hreject := execute_eq_reject_scratch m (r := r) hinput hsize hscratch
    exact ⟨hreject, fun t => by rw [hreject]; rfl⟩
  · intro hinput hscratch hvalid
    have hexecute := result_execute_eq m hblock (r := r) hinput (by rw [hcomm]; exact hspace)
      (by rw [hcomm]; exact hscratch) hvalid
    have hall : (Encoding.encodeAll (r.partials input) : List UInt8).length = 48 * r.groups := by
      rw [Encoding.length_encodeAll, length_partials, hcomm]
    rw [hcomm] at hexecute
    refine ⟨_, hexecute, ?_, fun i hi => ?_, ?_⟩
    · rw [List.length_append, hall, List.length_drop]
      omega
    · have hi : i < (r.partials input).length := by rwa [length_partials]
      rw [← getElem_partials hi]
      exact Encoding.take_drop_encodeAll hi _
    · rw [← hall, List.drop_left]

theorem execute_sums_groups_three :
    let input : List (Totals Binary64) :=
      [⟨.fill 0, 0, 0, 1⟩, ⟨.fill 0, 0, 0, 2⟩, ⟨.fill 0, 0, 0, 4⟩]
    ∃ scratch' : List UInt8,
      (execute ⟨.debug, .off⟩ ⟨3, 2⟩ input (List.replicate 100 255)).result =
        .ok (⟨.fill 0, 0, 0, 7⟩, scratch') ∧
      scratch'.take 48 = Encoding.encode (⟨.fill 0, 0, 0, 3⟩ : Totals Binary64) ∧
      scratch'.drop 96 = [255, 255, 255, 255] := by
  intro input
  obtain ⟨r, _, hitems, hblock, _, hexecute⟩ :=
    execute_sums_groups ⟨.debug, .off⟩ .shared (show 2 ≠ 0 by decide) 3 (by decide)
  obtain rfl : r = ⟨3, 2⟩ := by
    cases r
    cases hitems
    cases hblock
    rfl
  obtain ⟨scratch', hresult, _, hslots, hrest⟩ :=
    (hexecute input (List.replicate 100 255)).2.2 rfl (by decide) fun _ => by decide
  have htotal : Totals.total ((⟨3, 2⟩ : Reduction).partials input) = ⟨.fill 0, 0, 0, 7⟩ := by
    decide
  have hfirst : Totals.total ((⟨3, 2⟩ : Reduction).part input 0) = ⟨.fill 0, 0, 0, 3⟩ := by
    decide
  refine ⟨scratch', by rw [hresult, htotal], ?_, hrest.trans (by decide)⟩
  rw [← hfirst, ← hslots 0 (by decide)]
  rfl

end Reduction

end KineticGrid
