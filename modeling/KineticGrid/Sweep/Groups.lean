import KineticGrid.Arith.Word
/-!
# Worker groups

A pass cuts its items into groups of `block` consecutive ones, and a worker finds the slot of an
item again from the number of its group and the place inside it. Main statements: cutting loses
nothing, groups of full length that were put in a row are found again, and filling and combining by
groups give what they give without groups.
-/

namespace KineticGrid.Groups

variable {α β γ : Type}

/-- The groups of a list; only the last one may be shorter than the others. -/
def split (block : Nat) : List α → List (List α)
  | [] => []
  | a :: rest => (a :: rest.take (block - 1)) :: split block (rest.drop (block - 1))
termination_by items => items.length
decreasing_by
  simp only [List.length_cons, List.length_drop]
  omega

/-- The groups of full length. What is left over after them is dropped. -/
def whole (block : Nat) (items : List α) : List (List α) :=
  (split block items).filter fun group => group.length = block

/-- Fills the slots of one group after the other, of which `n` are left from group `group` on. -/
def fillFrom (block : Nat) (f : Nat → Checked α) (group n : Nat) : Checked (List α) :=
  if _h : n = 0 ∨ block = 0 then
    return []
  else do
    let items ← (List.range (min block n)).mapM fun place => f (group * block + place)
    let rest ← fillFrom block f (group + 1) (n - block)
    return items ++ rest
termination_by n
decreasing_by omega

def fill (block : Nat) (f : Nat → Checked α) (n : Nat) : Checked (List α) := fillFrom block f 0 n

/-- Combines two lists that are cut into groups on their own. -/
def zipWith (block : Nat) (f : α → β → γ) (as : List α) (bs : List β) : List γ :=
  ((split block as).zip (split block bs)).flatMap fun (a, b) => List.zipWith f a b

theorem split_cons (block : Nat) (a : α) (rest : List α) :
    split block (a :: rest) =
      (a :: rest.take (block - 1)) :: split block (rest.drop (block - 1)) := by
  rw [split]

theorem flatten_split (block : Nat) (items : List α) : (split block items).flatten = items := by
  fun_induction split block items with
  | case1 => rfl
  | case2 a rest ih =>
    rw [List.flatten_cons, ih, List.cons_append, List.take_append_drop]

/-- A list that starts with a full group is cut behind it. -/
theorem split_append {block : Nat} (hblock : 0 < block) {group : List α}
    (hgroup : group.length = block) (rest : List α) :
    split block (group ++ rest) = group :: split block rest := by
  cases group with
  | nil => simp only [List.length_nil] at hgroup; omega
  | cons a group =>
    simp only [List.length_cons] at hgroup
    have hlength : block - 1 = group.length := by omega
    rw [List.cons_append, split_cons, hlength, List.take_left, List.drop_left]

theorem split_flatMap {block : Nat} (hblock : 0 < block) {f : β → List α}
    (hf : ∀ b, (f b).length = block) (items : List β) :
    split block (items.flatMap f) = items.map f := by
  induction items with
  | nil => rw [List.flatMap_nil, List.map_nil, split]
  | cons b items ih =>
    rw [List.flatMap_cons, split_append hblock (hf b), ih, List.map_cons]

theorem whole_flatMap {block : Nat} (hblock : 0 < block) {f : β → List α}
    (hf : ∀ b, (f b).length = block) (items : List β) :
    whole block (items.flatMap f) = items.map f := by
  rw [whole, split_flatMap hblock hf, List.filter_eq_self]
  intro group hgroup
  obtain ⟨b, _, rfl⟩ := List.mem_map.1 hgroup
  exact decide_eq_true (hf b)

theorem whole_eq {block k : Nat} (hblock : 0 < block) {items : List α}
    (h : items.length = k * block) :
    whole block items =
      (List.range k).map fun q => (items.drop (q * block)).take block := by
  induction k generalizing items with
  | zero =>
      rw [Nat.zero_mul, List.length_eq_zero_iff] at h
      rw [h, whole, split]
      rfl
  | succ k ih =>
      rw [Nat.succ_mul] at h
      have hgroup : (items.take block).length = block := by
        rw [List.length_take]
        omega
      have hrest : (items.drop block).length = k * block := by
        rw [List.length_drop]
        omega
      have hwhole := ih hrest
      unfold whole at hwhole ⊢
      rw [← List.take_append_drop block items, split_append hblock hgroup,
        List.filter_cons_of_pos (by simpa using hgroup), hwhole, List.range_succ_eq_map,
        List.map_cons, List.map_map, Nat.zero_mul, List.drop_zero, List.take_append_drop]
      congr 1
      apply List.map_congr_left
      intro q _
      rw [List.drop_drop, Function.comp, Nat.succ_mul, Nat.add_comm]

/-- Filling from a group on fills all the slots from its first one on, one after the other. -/
theorem fillFrom_eq {block : Nat} (hblock : 0 < block) (f : Nat → Checked α) (group n : Nat) :
    fillFrom block f group n = (List.range' (group * block) n).mapM f := by
  induction n using Nat.strongRecOn generalizing group with
  | ind n ih =>
    unfold fillFrom
    split
    · have hn : n = 0 := by omega
      subst hn
      rfl
    · have hsplit : List.range' (group * block) n =
          List.range' (group * block) (min block n) ++
            List.range' ((group + 1) * block) (n - block) := by
        by_cases hlast : n ≤ block
        · rw [Nat.min_eq_right hlast, Nat.sub_eq_zero_of_le hlast, List.range'_zero,
            List.append_nil]
        · have hstart : (group + 1) * block = group * block + block := by
            rw [Nat.add_mul, Nat.one_mul]
          rw [Nat.min_eq_left (by omega), hstart]
          have hrange := List.range'_append_1 (s := group * block) (m := block) (n := n - block)
          rw [hrange, Nat.add_sub_cancel' (by omega)]
      rw [hsplit, List.mapM_append, ih (n - block) (by omega)]
      have hplaces : (List.range (min block n)).mapM (fun place => f (group * block + place)) =
          (List.range' (group * block) (min block n)).mapM f := by
        rw [List.range'_eq_map_range, List.mapM_map]
        rfl
      rw [hplaces]

/-- Filling by groups is filling the slots one after the other. -/
theorem fill_eq {block : Nat} (hblock : 0 < block) (f : Nat → Checked α) (n : Nat) :
    fill block f n = (List.range n).mapM f := by
  rw [fill, fillFrom_eq hblock, Nat.zero_mul, List.range_eq_range']

theorem zipWith_eq (block : Nat) (f : α → β → γ) {as : List α} {bs : List β}
    (h : as.length = bs.length) : zipWith block f as bs = List.zipWith f as bs := by
  fun_induction split block as generalizing bs with
  | case1 =>
    obtain rfl := List.length_eq_zero_iff.1 h.symm
    rw [zipWith, split, List.zip_nil_left, List.flatMap_nil, List.zipWith_nil_left]
  | case2 a rest ih =>
    cases bs with
    | nil => cases h
    | cons b bs =>
      have hrest : (rest.drop (block - 1)).length = (bs.drop (block - 1)).length := by
        rw [List.length_drop, List.length_drop, Nat.succ.inj h]
      have htail := ih hrest
      rw [zipWith] at htail ⊢
      rw [split_cons, split_cons, List.zip_cons_cons, List.flatMap_cons, htail]
      dsimp only
      rw [List.zipWith_cons_cons, List.zipWith_cons_cons, ← List.take_zipWith, ← List.drop_zipWith,
        List.cons_append, List.take_append_drop]

end KineticGrid.Groups
