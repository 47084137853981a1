import KineticGrid.Proofs.Domain.Legs
/-!
# Tags of a time step

The legs of a time step use 24 tags, two for each leg, also where the tags start over from the
first one. Main statements: a slot is used by one leg only, so that legs without repetition are
spaced, and so are the same legs over and over, because between two uses of a slot the other cargo
went along the same axis.
-/

namespace KineticGrid

variable {W S A : Type}

namespace Leg

theorem distance_injective {l l' : Leg} (h : l.distance = l'.distance) : l = l' := by
  obtain ⟨flow, axis, cargo⟩ := l
  obtain ⟨flow', axis', cargo'⟩ := l'
  revert h
  cases flow <;> cases axis <;> cases cargo <;> cases flow' <;> cases axis' <;> cases cargo' <;>
    decide

private theorem distance_eq_two_mul (l : Leg) : ∃ k < 12, l.distance = 2 * k := by
  refine ⟨l.distance / 2, ?_⟩
  obtain ⟨flow, axis, cargo⟩ := l
  cases flow <;> cases axis <;> cases cargo <;> decide

private theorem toNat_tag (base : Tag) (l : Leg) :
    (l.tag base).value.toNat = (base.value.toNat + l.distance) % 65536 := by
  obtain ⟨k, hk, hdistance⟩ := l.distance_eq_two_mul
  change (base.value + .ofNat l.distance).toNat = _
  rw [UInt16.toNat_add, UInt16.toNat_ofNat_of_lt' (by
    change _ < 65536
    omega)]

private theorem toNat_offset_one (tag : Tag) :
    (tag.offset 1).value.toNat = (tag.value.toNat + 1) % 65536 := by
  change (tag.value + 1).toNat = _
  rw [UInt16.toNat_add]
  rfl

theorem tag_injective {base : Tag} {l l' : Leg} (h : l.tag base = l'.tag base) : l = l' := by
  obtain ⟨k, hk, hdistance⟩ := l.distance_eq_two_mul
  obtain ⟨k', hk', hdistance'⟩ := l'.distance_eq_two_mul
  have hnat := congrArg (fun tag => tag.value.toNat) h
  rw [toNat_tag, toNat_tag] at hnat
  apply distance_injective
  omega

theorem tag_ne_offset_one (base : Tag) (l l' : Leg) : l.tag base ≠ (l'.tag base).offset 1 := by
  intro h
  obtain ⟨k, hk, hdistance⟩ := l.distance_eq_two_mul
  obtain ⟨k', hk', hdistance'⟩ := l'.distance_eq_two_mul
  have hnat := congrArg (fun tag => tag.value.toNat) h
  rw [toNat_offset_one, toNat_tag, toNat_tag] at hnat
  omega

theorem offset_one_injective {base : Tag} {l l' : Leg}
    (h : (l.tag base).offset 1 = (l'.tag base).offset 1) : l = l' := by
  obtain ⟨k, hk, hdistance⟩ := l.distance_eq_two_mul
  obtain ⟨k', hk', hdistance'⟩ := l'.distance_eq_two_mul
  have hnat := congrArg (fun tag => tag.value.toNat) h
  rw [toNat_offset_one, toNat_offset_one, toNat_tag, toNat_tag] at hnat
  apply distance_injective
  omega

end Leg

/-! ## Phases of legs -/

/-- A phase is that of a leg, whatever messages the ranks send. -/
def Serves (S : Type) [Encoding W S] (n : Nat) (t : Topology) (p : Nat → Vec3 Neighbours)
    (base : Tag) (l : Leg) (q : Phase W) : Prop :=
  ∃ message, q = l.phase S n t p base message

def Topology.served (t : Topology) (legs : List Leg) : List Leg :=
  legs.filter fun l => t.isDecomposed l.axis

/-- Where a leg comes back, another one along the same axis came in between. -/
def Alternating (legs : List Leg) : Prop :=
  ∀ (k j : Nat) (l : Leg), k < j → legs[k]? = some l → legs[j]? = some l →
    ∃ (i : Nat) (l' : Leg), k < i ∧ i < j ∧ legs[i]? = some l' ∧ l'.axis = l.axis

section

variable [Encoding W S] {n : Nat} {t : Topology} {p : Nat → Vec3 Neighbours} {base : Tag}
  {legs : List Leg} {phases : List (Phase W)}

theorem forall₂_serves_legPhases [Storage S A] (b : Build) (n : Nat)
    (t : Topology) (p : Nat → Vec3 Neighbours) (base : Tag) (legs : List Leg) (v : Values S) :
    List.Forall₂ (Serves S n t p base) (t.served legs)
      (legPhases b n t p base legs v : List (Phase W)) := by
  induction legs generalizing v with
  | nil => exact .nil
  | cons l legs ih =>
      rw [legPhases, Leg.phases, Topology.served, List.filter_cons]
      by_cases hdecomposed : t.isDecomposed l.axis = true
      · rw [if_pos hdecomposed, if_pos hdecomposed]
        exact .cons ⟨_, rfl⟩ (ih _)
      · rw [if_neg hdecomposed, if_neg hdecomposed]
        exact ih _

theorem exists_messages_of_serves (h : List.Forall₂ (Serves S n t p base) legs phases)
    (hnodup : legs.Nodup) :
    ∃ message : Leg → Nat → Side → List W,
      phases = legs.map fun l => l.phase S n t p base (message l) := by
  induction h with
  | nil => exact ⟨fun _ _ _ => [], rfl⟩
  | @cons l q legs phases hserves _ ih =>
      obtain ⟨first, rfl⟩ := hserves
      obtain ⟨hfresh, hnodup⟩ := List.nodup_cons.1 hnodup
      obtain ⟨message, rfl⟩ := ih hnodup
      refine ⟨Function.update message l first, ?_⟩
      rw [List.map_cons, Function.update_self]
      congr 1
      apply List.map_congr_left
      intro l' hl'
      rw [Function.update_of_ne]
      rintro rfl
      exact hfresh hl'

theorem forall₂_serves_map (n : Nat) (t : Topology) (p : Nat → Vec3 Neighbours) (base : Tag)
    (legs : List Leg) (message : Leg → Nat → Side → List W) :
    List.Forall₂ (Serves S n t p base) legs
      (legs.map fun l => l.phase S n t p base (message l)) :=
  List.forall₂_map_right_iff.2 (List.forall₂_same.2 fun l _ => ⟨message l, rfl⟩)

private theorem exists_getElem?_left {α β : Type} {r : α → β → Prop} {as : List α}
    {bs : List β} (h : List.Forall₂ r as bs) {k : Nat} {b : β} (hb : bs[k]? = some b) :
    ∃ a, as[k]? = some a ∧ r a b := by
  obtain ⟨hk, rfl⟩ := List.getElem?_eq_some_iff.1 hb
  have hka : k < as.length := by rw [h.length_eq]; exact hk
  exact ⟨_, List.getElem?_eq_getElem hka, h.get hka hk⟩

private theorem exists_getElem?_right {α β : Type} {r : α → β → Prop} {as : List α}
    {bs : List β} (h : List.Forall₂ r as bs) {k : Nat} {a : α} (ha : as[k]? = some a) :
    ∃ b, bs[k]? = some b ∧ r a b :=
  exists_getElem?_left h.flip ha

theorem valid_of_serves (hp : FullyLinked n p)
    (h : List.Forall₂ (Serves S n t p base) legs phases) : ∀ q ∈ phases, q.Valid n := by
  intro q hq
  obtain ⟨k, hk⟩ := List.mem_iff_getElem?.1 hq
  obtain ⟨l, _, _, rfl⟩ := exists_getElem?_left h hk
  exact (hp l.axis).swapPhase_valid

/-- Phases of legs are spaced if no leg comes back before its axis was used by another one. -/
theorem spaced_of_serves (hp : FullyLinked n p) (h : List.Forall₂ (Serves S n t p base) legs phases)
    (hlegs : Alternating legs) : Spaced phases := by
  intro k j q q' a hkj hq hq' huses huses'
  obtain ⟨l, hl, _, rfl⟩ := exists_getElem?_left h hq
  obtain ⟨l', hl', _, rfl⟩ := exists_getElem?_left h hq'
  rw [Leg.phase, uses_swapPhase_iff] at huses huses'
  obtain ⟨hsource, hside⟩ := huses
  obtain ⟨_, hside'⟩ := huses'
  -- the tag of the slot says which leg uses it, and in which direction
  obtain rfl : l = l' := by
    rcases hside with ⟨_, htag⟩ | ⟨_, htag⟩ <;> rcases hside' with ⟨_, htag'⟩ | ⟨_, htag'⟩
    · exact Leg.tag_injective (htag.symm.trans htag')
    · exact absurd (htag.symm.trans htag') (Leg.tag_ne_offset_one base l l')
    · exact absurd (htag'.symm.trans htag) (Leg.tag_ne_offset_one base l' l)
    · exact Leg.offset_one_injective (htag.symm.trans htag')
  obtain ⟨i, back, hki, hij, hback, haxis⟩ := hlegs k j l hkj hl hl'
  obtain ⟨r, hr, message, rfl⟩ := exists_getElem?_right h hback
  have hring := hp l.axis
  have hsame : back.ring p = l.ring p := by
    funext i'
    rw [Leg.ring, Leg.ring, haxis]
  rcases hside with ⟨htarget, _⟩ | ⟨htarget, _⟩
  · refine ⟨i, _, (back.tag base).offset 1, hki, hij, hr, uses_swapPhase_iff.2 ⟨?_, .inr ⟨?_, rfl⟩⟩⟩
    · dsimp only
      rw [htarget]
      exact hring.left_lt _ hsource
    · dsimp only
      rw [hsame, htarget]
      exact (hring.right_left _ hsource).symm
  · refine ⟨i, _, back.tag base, hki, hij, hr, uses_swapPhase_iff.2 ⟨?_, .inl ⟨?_, rfl⟩⟩⟩
    · dsimp only
      rw [htarget]
      exact hring.right_lt _ hsource
    · dsimp only
      rw [hsame, htarget]
      exact (hring.left_right _ hsource).symm

end

section

variable [Encoding W S] {n : Nat} {t : Topology} {p : Nat → Vec3 Neighbours} {base : Tag} {l : Leg}

theorem Leg.exists_offset_of_uses {message : Nat → Side → List W} {a : Address}
    (h : (l.phase S n t p base message).Uses a) : ∃ j < 24, a.tag = base.offset (.ofNat j) := by
  obtain ⟨k, hk, hdistance⟩ := l.distance_eq_two_mul
  rcases (uses_swapPhase_iff.1 h).2 with ⟨_, htag⟩ | ⟨_, htag⟩
  · exact ⟨l.distance, by omega, htag⟩
  · refine ⟨l.distance + 1, by omega, ?_⟩
    rw [htag, Leg.tag, Tag.offset, Tag.offset, Tag.offset, UInt16.ofNat_add, UInt16.add_assoc]
    rfl

end

/-! ## Legs that come back -/

def Leg.all : List Leg := Flow.fold.legs ++ Flow.refresh.legs

theorem Leg.nodup_all : Leg.all.Nodup := by decide

theorem Flow.nodup_legs (flow : Flow) : flow.legs.Nodup := by cases flow <;> decide

theorem alternating_of_nodup {legs : List Leg} (h : legs.Nodup) : Alternating legs := by
  intro k j l hkj hk hj
  have heq := (List.getElem?_inj (by
    rw [List.getElem?_eq_some_iff] at hk
    exact hk.1) h).1 (hk.trans hj.symm)
  omega

private theorem getElem?_round {α : Type} (items : List α) {k r s : Nat} (hr : r < k)
    (hs : s < items.length) :
    (List.replicate k items).flatten[r * items.length + s]? = items[s]? := by
  induction k generalizing r with
  | zero => omega
  | succ k ih =>
      rw [List.replicate_succ, List.flatten_cons]
      cases r with
      | zero => rw [Nat.zero_mul, Nat.zero_add, List.getElem?_append_left hs]
      | succ r =>
          rw [Nat.succ_mul, List.getElem?_append_right (by omega),
            show r * items.length + items.length + s - items.length = r * items.length + s by omega,
            ih (Nat.lt_of_succ_lt_succ hr)]

private theorem exists_round {α : Type} {items : List α} {k i : Nat} {a : α}
    (h : (List.replicate k items).flatten[i]? = some a) :
    ∃ r < k, ∃ s, i = r * items.length + s ∧ items[s]? = some a := by
  induction k generalizing i with
  | zero => cases h
  | succ k ih =>
      rw [List.replicate_succ, List.flatten_cons] at h
      by_cases hfirst : i < items.length
      · rw [List.getElem?_append_left hfirst] at h
        exact ⟨0, Nat.succ_pos k, i, by omega, h⟩
      · rw [List.getElem?_append_right (Nat.le_of_not_lt hfirst)] at h
        obtain ⟨r, hr, s, hi, hs⟩ := ih h
        exact ⟨r + 1, Nat.succ_lt_succ hr, s, by rw [Nat.succ_mul]; omega, hs⟩

/-- Legs without repetition that are gone through over and over are alternating, if each of them
has another one along its axis. -/
theorem alternating_replicate {legs : List Leg} (hnodup : legs.Nodup)
    (hother : ∀ l ∈ legs, ∃ l' ∈ legs, l' ≠ l ∧ l'.axis = l.axis) (k : Nat) :
    Alternating (List.replicate k legs).flatten := by
  intro i j l hij hi hj
  obtain ⟨r, hr, s, rfl, hs⟩ := exists_round hi
  obtain ⟨r', hr', s', rfl, hs'⟩ := exists_round hj
  have hslt := (List.getElem?_eq_some_iff.1 hs).1
  obtain rfl : s = s' := (List.getElem?_inj hslt hnodup).1 (hs.trans hs'.symm)
  obtain ⟨l', hl', hne, haxis⟩ := hother l (List.mem_of_getElem? hs)
  obtain ⟨q, hq⟩ := List.mem_iff_getElem?.1 hl'
  have hqlt := (List.getElem?_eq_some_iff.1 hq).1
  have hqne : q ≠ s := by
    rintro rfl
    exact hne (Option.some.inj (hq.symm.trans hs))
  have hlt : r < r' := Nat.lt_of_mul_lt_mul_right (a := legs.length) (by omega)
  have hround := Nat.mul_le_mul_right legs.length (Nat.succ_le_of_lt hlt)
  rw [Nat.succ_mul] at hround
  -- the other leg comes later in the same round, or else early in the next one
  by_cases hlater : s < q
  · exact ⟨r * legs.length + q, l', by omega, by omega,
      (getElem?_round legs hr hqlt).trans hq, haxis⟩
  · refine ⟨(r + 1) * legs.length + q, l', ?_, ?_,
      (getElem?_round legs (by omega) hqlt).trans hq, haxis⟩
    · rw [Nat.succ_mul]
      omega
    · rw [Nat.succ_mul]
      omega

end KineticGrid
