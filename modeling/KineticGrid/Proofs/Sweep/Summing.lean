import KineticGrid.Proofs.Message.Codec
import KineticGrid.Proofs.Report.Success
import KineticGrid.Proofs.Space.Layout
import KineticGrid.Sweep.Reduction
import KineticGrid.Sweep.Staging
import Mathlib.Algebra.Order.BigOperators.Group.Finset
import Mathlib.Algebra.Ring.Nat
/-!
# Staging and reducing

Main statements: staging lists the totals of the cells of a box in slot order, a reduction is the
sum of the sums of its worker groups, and it counts as many valid cells as there are, however the
groups are cut.
-/

namespace KineticGrid

variable {W S A : Type}

namespace Cells

variable [Arith A] [Storage S A] (m : Mode) (e : Executor) {requested : Nat} {g : Grid} {box : Box}

theorem totalsAt_eq {b : Build} {cells : Cells S} (hg : g.extent.volume < wordSize)
    (hbox : box.Within g.extent) {s : Nat} (hs : s < box.shape.volume) {v : Motion S} {h : Heat S}
    (hv : cells.motion[g.extent.slot (box.cellAt s)]? = some v)
    (hh : cells.heat[g.extent.slot (box.cellAt s)]? = some h) :
    cells.totalsAt b g box s = .ok (Totals.ofCell v h : Totals A) := by
  rw [totalsAt, ← bind_assoc, Box.slot_eq hbox hg hs, ok_bind, Particles.entry, hv, ok_bind,
    Particles.entry, hh]
  rfl

theorem result_stageInto {cells : Cells S} (hg : g.extent.volume < wordSize)
    (hbox : box.Within g.extent) (hmotion : cells.motion.size = g.extent.volume)
    (hheat : cells.heat.size = g.extent.volume) :
    (cells.stageInto m e requested g box box.shape.volume : Outcome (List (Totals A))).result =
      (e.block m .stage requested).result >>= fun block =>
        (Executor.run m .stage
          (Groups.fill block (cells.totalsAt m.build g box) box.shape.volume)).result := by
  simp only [stageInto, Outcome.result_bind, Outcome.result_lift, Outcome.result_lift_ok,
    Grid.size_eq hg, Box.size_eq (Nat.lt_of_le_of_lt hbox.volume_le hg), hmotion, hheat,
    Fallible.requireLength, ok_bind, if_true, Box.requireInside_eq hbox]

theorem result_stage (hrequested : requested ≠ 0) (hg : g.extent.volume < wordSize)
    (hbox : box.Within g.extent) (hspace : box.shape.volume * stagedBytes ≤ maxArrayBytes)
    (motion : Vec3 Nat → Motion S) (heat : Vec3 Nat → Heat S) :
    ((⟨g.extent.table motion, g.extent.table heat⟩ : Cells S).stage m e requested g box).result =
      .ok ((List.range box.shape.volume).map fun s =>
        Totals.ofCell (motion (box.cellAt s)) (heat (box.cellAt s))) := by
  have hreserve : reserve (box.shape.volume * stagedBytes) = .ok () := if_pos hspace
  have hlimit := e.limit_pos .stage
  have hfill : Groups.fill (min requested (e.limit .stage))
      (totalsAt m.build g box ⟨g.extent.table motion, g.extent.table heat⟩) box.shape.volume =
        .ok ((List.range box.shape.volume).map fun s =>
          (Totals.ofCell (motion (box.cellAt s)) (heat (box.cellAt s)) : Totals A)) := by
    rw [Groups.fill_eq (by omega)]
    apply mapM_eq_ok
    intro s hs
    have hcell := hbox.has (Box.has_cellAt (List.mem_range.1 hs))
    exact totalsAt_eq hg hbox (List.mem_range.1 hs) (Extent.getElem?_table _ hcell)
      (Extent.getElem?_table _ hcell)
  rw [stage, Outcome.result_bind, Box.size_eq (Nat.lt_of_le_of_lt hbox.volume_le hg),
    Outcome.result_lift_ok, ok_bind, Outcome.result_bind, hreserve, Outcome.result_lift_ok, ok_bind,
    result_stageInto m e hg hbox (Extent.size_table _ _) (Extent.size_table _ _),
    e.result_block m .stage hrequested, ok_bind, hfill]
  rfl

end Cells

/-! ## Sums -/

def validCells (items : List (Totals A)) : Nat := (items.map fun t => t.valid.toNat).sum

theorem validCells_cons (t : Totals A) (items : List (Totals A)) :
    validCells (t :: items) = t.valid.toNat + validCells items := rfl

theorem validCells_append (items items' : List (Totals A)) :
    validCells (items ++ items') = validCells items + validCells items' := by
  rw [validCells, List.map_append, List.sum_append]
  rfl

namespace Totals

variable [Arith A]

def plus (t u : Totals A) : Totals A where
  momentum := t.momentum.zipWith (· + ·) u.momentum
  energy := t.energy + u.energy
  temperature := t.temperature + u.temperature
  valid := t.valid + u.valid

def total (items : List (Totals A)) : Totals A := items.foldl plus zero

theorem add_eq {b : Build} {t u : Totals A}
    (h : b = .debug → t.valid.toNat + u.valid.toNat < wordSize) : add b t u = .ok (plus t u) := by
  have hadd : b.add64 t.valid u.valid = .ok (t.valid + u.valid) := by
    cases b with
    | debug => exact Build.add64_eq (h rfl)
    | release =>
        unfold Build.add64
        split <;> rfl
  rw [add, hadd]
  rfl

private theorem toNat_foldl_plus (items : List (Totals A)) (start : Totals A) :
    (items.foldl plus start).valid.toNat =
      (start.valid.toNat + validCells items) % wordSize := by
  induction items generalizing start with
  | nil => exact (Nat.mod_eq_of_lt start.valid.toNat_lt).symm
  | cons t items ih =>
      have hplus : (plus start t).valid.toNat =
          (start.valid.toNat + t.valid.toNat) % wordSize := UInt64.toNat_add _ _
      rw [List.foldl_cons, ih, hplus, validCells_cons, Nat.mod_add_mod, Nat.add_assoc]

/-- The valid cells of a sum are counted modulo the size of a word. -/
theorem toNat_valid_total (items : List (Totals A)) :
    (total items).valid.toNat = validCells items % wordSize := by
  rw [total, toNat_foldl_plus]
  exact congrArg (· % wordSize) (Nat.zero_add _)

/-- Summing succeeds where the valid cells can be counted in a word, and always in the build that
does not check. -/
theorem sum_eq (b : Build) {items : List (Totals A)}
    (h : b = .debug → validCells items < wordSize) : sum b items = .ok (total items) := by
  have hfrom (start : Totals A)
      (hstart : b = .debug → start.valid.toNat + validCells items < wordSize) :
      items.foldlM (add b) start = .ok (items.foldl plus start) := by
    clear h
    induction items generalizing start with
    | nil => rfl
    | cons t items ih =>
        simp only [validCells_cons] at hstart
        have hvalid := toNat_foldl_plus [t] start
        rw [List.foldlM_cons, add_eq fun hb => by have := hstart hb; omega]
        refine ih (plus start t) fun hb => ?_
        have hlt := hstart hb
        change (plus start t).valid.toNat = (_ + (t.valid.toNat + 0)) % wordSize at hvalid
        rw [hvalid, Nat.mod_eq_of_lt (by omega)]
        omega
  refine hfrom zero fun hb => ?_
  have hlt := h hb
  exact (Nat.zero_add _).symm ▸ hlt

end Totals

theorem validCells_flatten (groups : List (List (Totals A))) :
    validCells groups.flatten = (groups.map validCells).sum := by
  induction groups with
  | nil => rfl
  | cons group groups ih =>
      rw [List.flatten_cons, validCells_append, ih, List.map_cons, List.sum_cons]

/-! ## Groups -/

namespace Groups

variable {α : Type} {block : Nat}

theorem length_split (hblock : 0 < block) (items : List α) :
    (split block items).length = (items.length + block - 1) / block := by
  fun_induction split block items with
  | case1 =>
    rw [List.length_nil, List.length_nil, Nat.zero_add, Nat.div_eq_of_lt (by omega)]
  | case2 a rest ih =>
    rw [List.length_cons, ih, List.length_drop, List.length_cons]
    by_cases hlast : rest.length < block
    · rw [show rest.length - (block - 1) = 0 by omega, Nat.zero_add, Nat.div_eq_of_lt (by omega),
        show rest.length + 1 + block - 1 = rest.length + block * 1 by omega,
        Nat.add_mul_div_left _ _ hblock, Nat.div_eq_of_lt hlast]
    · rw [show rest.length + 1 + block - 1 = rest.length - (block - 1) + block - 1 + block * 1 by
        omega, Nat.add_mul_div_left _ _ hblock]

theorem length_split_of_mul (hblock : 0 < block) {k : Nat} {items : List α}
    (h : items.length = k * block) : (split block items).length = k := by
  rw [length_split hblock, h, Nat.add_sub_assoc hblock, Nat.mul_comm, Nat.mul_add_div hblock,
    Nat.div_eq_of_lt (by omega), Nat.add_zero]

theorem length_of_mem_split (hblock : 0 < block) {k : Nat} {items : List α}
    (h : items.length = k * block) {group : List α} (hgroup : group ∈ split block items) :
    group.length = block := by
  induction k generalizing items with
  | zero =>
      rw [Nat.zero_mul, List.length_eq_zero_iff] at h
      rw [h, split] at hgroup
      cases hgroup
  | succ k ih =>
      rw [Nat.succ_mul] at h
      have hfirst : (items.take block).length = block := by
        rw [List.length_take]
        omega
      rw [← List.take_append_drop block items, split_append hblock hfirst] at hgroup
      rcases List.mem_cons.1 hgroup with rfl | hgroup
      · exact hfirst
      · apply ih _ hgroup
        rw [List.length_drop]
        omega

end Groups

theorem sum_validCells_split (block : Nat) (input : List (Totals A)) :
    ((Groups.split block input).map validCells).sum = validCells input := by
  rw [← validCells_flatten, Groups.flatten_split]

theorem validCells_le_of_mem_split {block : Nat} {input group : List (Totals A)}
    (hmem : group ∈ Groups.split block input) : validCells group ≤ validCells input := by
  rw [← sum_validCells_split block input]
  exact List.single_le_sum (fun _ _ => Nat.zero_le _) _ (List.mem_map_of_mem hmem)

/-! ## Reductions -/

namespace Reduction

variable [Letter W] [LawfulLetter W] [Arith A] [Encoding W A] [LawfulEncoding W A]

theorem partialSum_eq (b : Build) {slot : List W} {group : List (Totals A)}
    (hslot : slot.length = Encoding.width W (Totals A))
    (hgroup : b = .debug → validCells group < wordSize) :
    partialSum b slot group = .ok (Encoding.encode (Totals.total group)) := by
  rw [partialSum, Totals.sum_eq b hgroup]
  change (if (Encoding.encode (Totals.total group) : List W).length = _ then _ else _) = _
  rw [if_pos (by rw [LawfulEncoding.length_encode, hslot])]
  rfl

private theorem mapM_partialSum (b : Build) {slots : List (List W)}
    {groups : List (List (Totals A))} (hlength : slots.length = groups.length)
    (hslots : ∀ slot ∈ slots, slot.length = Encoding.width W (Totals A))
    (hgroups : ∀ group ∈ groups, b = .debug → validCells group < wordSize) :
    (slots.zip groups).mapM (fun (slot, group) => partialSum b slot group) =
      .ok (groups.map fun group => Encoding.encode (Totals.total group)) := by
  have hpairs : (slots.zip groups).map (fun pair => Encoding.encode (Totals.total pair.2)) =
      groups.map fun group => (Encoding.encode (Totals.total group) : List W) := by
    conv_rhs => rw [← List.map_snd_zip (Nat.le_of_eq hlength.symm)]
    rw [List.map_map]
    rfl
  rw [← hpairs]
  apply mapM_eq_ok
  rintro ⟨slot, group⟩ hmem
  have hmem := List.of_mem_zip hmem
  exact partialSum_eq b (hslots slot hmem.1) (hgroups group hmem.2)

omit [Arith A] in
private theorem decode_partials (f : List (Totals A) → Totals A)
    (groups : List (List (Totals A))) :
    (Groups.whole (Encoding.width W (Totals A))
      (groups.flatMap fun group => (Encoding.encode (f group) : List W))).map Encoding.decode =
        groups.map f := by
  rw [Groups.whole_flatMap LawfulEncoding.width_pos
    fun group => LawfulEncoding.length_encode (f group), List.map_map]
  apply List.map_congr_left
  intro group _
  exact LawfulEncoding.decode_encode (W := W) (f group)

/-- The sum of some items by way of the sums of their groups. -/
def grouped (block : Nat) (input : List (Totals A)) : Totals A :=
  Totals.total ((Groups.split block input).map Totals.total)

section

omit [Letter W] [LawfulLetter W] [Encoding W A] [LawfulEncoding W A]

theorem validCells_totals {block : Nat} {input : List (Totals A)}
    (hgroups : ∀ group ∈ Groups.split block input, validCells group < wordSize) :
    validCells ((Groups.split block input).map Totals.total) = validCells input := by
  rw [← sum_validCells_split block input, validCells, List.map_map]
  congr 1
  apply List.map_congr_left
  intro group hmem
  change (Totals.total group).valid.toNat = _
  rw [Totals.toNat_valid_total, Nat.mod_eq_of_lt (hgroups group hmem)]

/-- No valid cells are lost in groups, as long as all of them can be counted in a word. -/
theorem toNat_valid_grouped (block : Nat) {input : List (Totals A)}
    (h : validCells input < wordSize) :
    validCells ((Groups.split block input).map Totals.total) = validCells input ∧
      (grouped block input).valid.toNat = validCells input := by
  have hpartials :
      validCells ((Groups.split block input).map Totals.total) = validCells input :=
    validCells_totals fun group hmem => Nat.lt_of_le_of_lt (validCells_le_of_mem_split hmem) h
  refine ⟨hpartials, ?_⟩
  rw [grouped, Totals.toNat_valid_total, hpartials, Nat.mod_eq_of_lt h]

end

/-- The partial sums of all groups are written to the scratch buffer, read back from it, and
summed. -/
theorem work_eq_map (b : Build) (block : Nat) {input : List (Totals A)}
    (hgroups : ∀ group ∈ Groups.split block input, b = .debug → validCells group < wordSize)
    (used : List W)
    (hused : used.length = (Groups.split block input).length * Encoding.width W (Totals A)) :
    work b block input used =
      (Totals.sum b ((Groups.split block input).map Totals.total)).map fun total =>
        (total, Encoding.encodeAll ((Groups.split block input).map Totals.total)) := by
  let groups := Groups.split block input
  let width := Encoding.width W (Totals A)
  have hwidth : 0 < width := LawfulEncoding.width_pos
  have hwritten := mapM_partialSum (W := W) b (Groups.length_split_of_mul hwidth hused)
    (fun slot hslot => Groups.length_of_mem_split hwidth hused hslot) hgroups
  -- the encoded partial sums take up the used part of the buffer exactly
  let written := groups.map fun group => (Encoding.encode (Totals.total group) : List W)
  have hflat : written.flatten =
      groups.flatMap fun group => Encoding.encode (Totals.total group) :=
    List.flatMap_def.symm
  have hlength : written.flatten.length = used.length := by
    rw [hflat, hused, List.length_flatMap]
    simp only [LawfulEncoding.length_encode, List.map_const', List.sum_replicate_nat]
    rfl
  have hafter : written.flatten ++ used.drop written.flatten.length = written.flatten := by
    rw [hlength, List.drop_length, List.append_nil]
  have hdecoded : (Groups.whole width written.flatten).map Encoding.decode =
      groups.map Totals.total := by
    rw [hflat, decode_partials]
  have hencoded : written.flatten = Encoding.encodeAll (groups.map Totals.total) := by
    rw [hflat, Encoding.encodeAll, List.flatMap_map]
  unfold work
  change (List.mapM _ ((Groups.split width used).zip groups) >>= _) = _
  rw [hwritten, ok_bind]
  change (Totals.sum b ((Groups.whole width
    (written.flatten ++ used.drop written.flatten.length)).map Encoding.decode) >>= fun total =>
      .ok (total, written.flatten ++ used.drop written.flatten.length)) = _
  rw [hafter, hdecoded, hencoded]
  cases Totals.sum b (groups.map Totals.total) <;> rfl

/-- The sums that a reduction works out are right where its valid cells can be counted, and always
in the build that does not check. -/
theorem work_eq (b : Build) (block : Nat) {input : List (Totals A)}
    (h : b = .debug → validCells input < wordSize) (used : List W)
    (hused : used.length = (Groups.split block input).length * Encoding.width W (Totals A)) :
    work b block input used = .ok (grouped block input,
      Encoding.encodeAll ((Groups.split block input).map Totals.total)) := by
  have hgroups : ∀ group ∈ Groups.split block input, b = .debug → validCells group < wordSize :=
    fun group hmem hb => Nat.lt_of_le_of_lt (validCells_le_of_mem_split hmem) (h hb)
  have hpartials (hb : b = .debug) :
      validCells ((Groups.split block input).map Totals.total) < wordSize := by
    rw [validCells_totals fun group hmem => hgroups group hmem hb]
    exact h hb
  rw [work_eq_map b block hgroups used hused, Totals.sum_eq b hpartials]
  rfl

/-! ## Plans -/

omit [Letter W] [LawfulLetter W] [Arith A] [Encoding W A] [LawfulEncoding W A] in
theorem groups_le_items {r : Reduction} (hblock : 0 < r.block) : r.groups ≤ r.items := by
  rw [groups, Nat.div_le_iff_le_mul_add_pred hblock]
  have hmul := Nat.le_mul_of_pos_left r.items hblock
  omega

omit [LawfulLetter W] [Arith A] [LawfulEncoding W A] in
/-- Logging the size of the scratch buffer makes no difference as long as it can be counted. -/
theorem result_make (m : Mode) (e : Executor) {items requested : Nat} (hrequested : requested ≠ 0)
    {n : Nat} (hsize : (⟨items, min requested (e.limit .reduce)⟩ : Reduction).scratchSize W A
      m.build = .ok n) :
    (make W A m e items requested).result = .ok ⟨items, min requested (e.limit .reduce)⟩ := by
  rw [make, Outcome.result_bind, e.result_block m .reduce hrequested, ok_bind]
  change (if m.level.takes .debug then (liftM (scratchSize W A m.build _) >>= _ : Outcome _)
    else _).result = _
  rw [hsize]
  split
  · rfl
  · rfl

omit [LawfulLetter W] [LawfulEncoding W A] in
theorem result_execute (m : Mode) {r : Reduction} {input : List (Totals A)} {scratch : List W}
    (hinput : input.length = r.items) {n : Nat} (hsize : r.scratchSize W A m.build = .ok n)
    (hscratch : n ≤ scratch.length) :
    (r.execute m input scratch).result =
      (Executor.run m .reduce (work m.build r.block input (scratch.take n))).result.map
        fun (total, used) => (total, used ++ scratch.drop n) := by
  simp only [execute, Outcome.result_bind, Outcome.result_lift, Fallible.requireLength, hinput,
    if_true, ok_bind, hsize, Outcome.result_lift_ok, Nat.not_lt.2 hscratch, if_false]
  cases (Executor.run m .reduce (work m.build r.block input (scratch.take n))).result <;> rfl

omit [LawfulLetter W] [LawfulEncoding W A] in
/-- A reduction is what its worker groups work out in a buffer that is large enough for them. -/
theorem exists_result_total (m : Mode) (e : Executor) {requested : Nat} (hrequested : requested ≠ 0)
    (input : List (Totals A)) (hspace : input.length * Encoding.width W (Totals A) < wordSize) :
    ∃ used : List W, used.length = (Groups.split (min requested (e.limit .reduce)) input).length *
        Encoding.width W (Totals A) ∧
      (total W m e requested input).result = (Executor.run m .reduce
        (work m.build (min requested (e.limit .reduce)) input used)).result.map Prod.fst := by
  have hlimit := e.limit_pos .reduce
  let r : Reduction := ⟨input.length, min requested (e.limit .reduce)⟩
  have hblock : 0 < r.block := by
    change 0 < min requested (e.limit .reduce)
    omega
  have hsize : r.scratchSize W A m.build = .ok (r.groups * Encoding.width W (Totals A)) :=
    Build.word_eq (Nat.lt_of_le_of_lt (Nat.mul_le_mul_right _ (groups_le_items hblock)) hspace)
  let scratch := List.replicate (r.groups * Encoding.width W (Totals A)) (Letter.ofByte 0 : W)
  have hlength : scratch.length = r.groups * Encoding.width W (Totals A) := List.length_replicate
  refine ⟨scratch, ?_, ?_⟩
  · rw [hlength, groups, ← Groups.length_split hblock input]
  · have hexecute : (r.execute m input scratch).result = _ :=
      result_execute m rfl hsize (Nat.le_of_eq hlength.symm)
    rw [List.take_of_length_le (Nat.le_of_eq hlength)] at hexecute
    have hmake : (make W A m e input.length requested).result = .ok r :=
      result_make m e hrequested hsize
    simp only [total, Outcome.result_bind, hmake, ok_bind, hsize, Outcome.result_lift_ok]
    change ((r.execute m input scratch).result >>= _) = _
    rw [hexecute]
    cases (Executor.run m .reduce (work m.build r.block input scratch)).result <;> rfl

theorem result_total (m : Mode) (e : Executor) {requested : Nat} (hrequested : requested ≠ 0)
    (input : List (Totals A)) (hspace : input.length * Encoding.width W (Totals A) < wordSize)
    (h : m.build = .debug → validCells input < wordSize) :
    (total W m e requested input).result =
      .ok (grouped (min requested (e.limit .reduce)) input) := by
  obtain ⟨used, hused, hresult⟩ := exists_result_total (W := W) m e hrequested input hspace
  rw [hresult, Executor.result_run, work_eq m.build _ h used hused]
  rfl

end Reduction

end KineticGrid
