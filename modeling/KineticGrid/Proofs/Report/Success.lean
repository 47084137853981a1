import KineticGrid.Report.Outcome
/-!
# Computations over lists

A computation over a list succeeds exactly if it succeeds on each item. Where all items that fail do
so with the same error, one of them is enough for the list to fail with it.
-/

namespace KineticGrid

variable {ε α β γ : Type}

theorem ok_bind (a : α) (f : α → Except ε β) : (Except.ok a >>= f) = f a := rfl

@[simp]
theorem Outcome.result_lift_ok (a : α) :
    (liftM (Except.ok a : Checked α) : Outcome α).result = .ok a := rfl

theorem mapM_eq_ok {f : α → Except ε β} {g : α → β} {items : List α}
    (h : ∀ a ∈ items, f a = .ok (g a)) : items.mapM f = .ok (items.map g) := by
  induction items with
  | nil => rfl
  | cons a items ih =>
      rw [List.mapM_cons, h a List.mem_cons_self, ih fun c hc => h c (List.mem_cons_of_mem a hc)]
      rfl

theorem mapM_congr {f g : α → Except ε β} {items : List α} (h : ∀ a ∈ items, f a = g a) :
    items.mapM f = items.mapM g := by
  induction items with
  | nil => rfl
  | cons a items ih =>
      rw [List.mapM_cons, List.mapM_cons, h a List.mem_cons_self,
        ih fun c hc => h c (List.mem_cons_of_mem a hc)]

/-- Computations that agree on every number below `n` have one list of results, and what is known of
the single results holds in their places. -/
theorem exists_mapM_range {ι : Type} {f : ι → Nat → Except ε α} {P : Nat → α → Prop} {n : Nat}
    (h : ∀ k < n, ∃ a, P k a ∧ ∀ i, f i k = .ok a) :
    ∃ results, results.length = n ∧ (∀ i, (List.range n).mapM (f i) = .ok results) ∧
      ∀ k < n, ∃ a, results[k]? = some a ∧ P k a := by
  induction n with
  | zero => exact ⟨[], rfl, fun _ => rfl, fun k hk => absurd hk (Nat.not_lt_zero k)⟩
  | succ n ih =>
      obtain ⟨results, hlength, hresults, hall⟩ := ih fun k hk => h k (Nat.lt_succ_of_lt hk)
      obtain ⟨last, hlast, hcomputed⟩ := h n (Nat.lt_succ_self n)
      refine ⟨results ++ [last], ?_, fun i => ?_, fun k hk => ?_⟩
      · rw [List.length_append, hlength, List.length_singleton]
      · rw [List.range_succ, List.mapM_append, hresults i, ok_bind, List.mapM_cons, hcomputed i]
        rfl
      · rcases Nat.lt_succ_iff_lt_or_eq.1 hk with hk | rfl
        · obtain ⟨a, ha, hknown⟩ := hall k hk
          exact ⟨a, by rw [List.getElem?_append_left (hlength ▸ hk), ha], hknown⟩
        · refine ⟨last, ?_, hlast⟩
          rw [List.getElem?_append_right (Nat.le_of_eq hlength), hlength, Nat.sub_self]
          rfl

theorem toOption_bind (x : Except ε α) (f : α → Except ε β) :
    (x >>= f).toOption = x.toOption.bind fun a => (f a).toOption := by
  cases x <;> rfl

theorem exists_of_bind_eq_ok {x : Except ε α} {f : α → Except ε β} {b : β}
    (h : x >>= f = .ok b) : ∃ a, x = .ok a ∧ f a = .ok b := by
  cases x with
  | error e => cases h
  | ok a => exact ⟨a, rfl, h⟩

theorem exists_of_mem_mapM {f : α → Except ε β} {items : List α} {results : List β}
    (h : items.mapM f = .ok results) {b : β} (hb : b ∈ results) : ∃ a ∈ items, f a = .ok b := by
  induction items generalizing results with
  | nil =>
      cases h
      cases hb
  | cons a items ih =>
      rw [List.mapM_cons] at h
      obtain ⟨b', hfirst, h⟩ := exists_of_bind_eq_ok h
      obtain ⟨rest, hrest, h⟩ := exists_of_bind_eq_ok h
      cases h
      rcases List.mem_cons.1 hb with rfl | hb
      · exact ⟨a, List.mem_cons_self, hfirst⟩
      · obtain ⟨a', ha', heq⟩ := ih hrest hb
        exact ⟨a', List.mem_cons_of_mem a ha', heq⟩

theorem map_eq_of_mapM_ok {f : α → Except ε β} {g : β → γ} {k : α → γ} {items : List α}
    {results : List β} (h : items.mapM f = .ok results) (hf : ∀ a b, f a = .ok b → g b = k a) :
    results.map g = items.map k := by
  induction items generalizing results with
  | nil =>
      cases h
      rfl
  | cons a items ih =>
      rw [List.mapM_cons] at h
      obtain ⟨b, hfirst, h⟩ := exists_of_bind_eq_ok h
      obtain ⟨rest, hrest, h⟩ := exists_of_bind_eq_ok h
      cases h
      rw [List.map_cons, List.map_cons, hf a b hfirst, ih hrest]

theorem length_mapM_ok {f : α → Except ε β} {items : List α} {results : List β}
    (h : items.mapM f = .ok results) : results.length = items.length := by
  have hunits := map_eq_of_mapM_ok (g := fun _ => ()) (k := fun _ => ()) h fun _ _ _ => rfl
  simpa using congrArg List.length hunits

theorem mapM_eq_filterMap {f : α → Except ε β} {items : List α}
    (h : ∀ a ∈ items, ∃ b, f a = .ok b) :
    items.mapM f = .ok (items.filterMap fun a => (f a).toOption) := by
  induction items with
  | nil => rfl
  | cons a items ih =>
      obtain ⟨⟨b, hb⟩, hrest⟩ := List.forall_mem_cons.1 h
      rw [List.mapM_cons, hb, ih hrest, List.filterMap_cons, hb]
      rfl

theorem forall_of_mapM_ok {f : α → Except ε β} {items : List α} {results : List β}
    (h : items.mapM f = .ok results) : ∀ a ∈ items, ∃ b, f a = .ok b := by
  induction items generalizing results with
  | nil => exact fun a ha => by cases ha
  | cons a items ih =>
      rw [List.mapM_cons] at h
      obtain ⟨b, hfirst, h⟩ := exists_of_bind_eq_ok h
      obtain ⟨rest, hrest, _⟩ := exists_of_bind_eq_ok h
      exact List.forall_mem_cons.2 ⟨⟨b, hfirst⟩, ih hrest⟩

theorem forall_of_foldlM_ok {f : β → α → Except ε β} {items : List α} {start result : β}
    (h : items.foldlM f start = .ok result) : ∀ a ∈ items, ∃ b b', f b a = .ok b' := by
  induction items generalizing start with
  | nil => exact fun a ha => by cases ha
  | cons a items ih =>
      rw [List.foldlM_cons] at h
      obtain ⟨b, hfirst, hrest⟩ := exists_of_bind_eq_ok h
      exact List.forall_mem_cons.2 ⟨⟨start, b, hfirst⟩, ih hrest⟩

theorem mapM_eq_error {f : α → Except ε β} {items : List α} {e : ε}
    (h : ∀ a ∈ items, (∃ b, f a = .ok b) ∨ f a = .error e) (hfail : ∃ a ∈ items, f a = .error e) :
    items.mapM f = .error e := by
  induction items with
  | nil =>
      obtain ⟨a, ha, _⟩ := hfail
      cases ha
  | cons a items ih =>
      rw [List.mapM_cons]
      rcases h a List.mem_cons_self with ⟨b, hb⟩ | herror
      · obtain ⟨a', ha', hfail⟩ := hfail
        have hmem : a' ∈ items := by
          rcases List.mem_cons.1 ha' with rfl | hmem
          · rw [hb] at hfail
            cases hfail
          · exact hmem
        rw [hb, ih (fun c hc => h c (List.mem_cons_of_mem a hc)) ⟨a', hmem, hfail⟩]
        rfl
      · rw [herror]
        rfl

theorem foldlM_eq_error {f : β → α → Except ε β} {items : List α} {e : ε}
    (h : ∀ a ∈ items, (∀ b, ∃ b', f b a = .ok b') ∨ ∀ b, f b a = .error e)
    (hfail : ∃ a ∈ items, ∀ b, f b a = .error e) (b : β) : items.foldlM f b = .error e := by
  induction items generalizing b with
  | nil =>
      obtain ⟨a, ha, _⟩ := hfail
      cases ha
  | cons a items ih =>
      rw [List.foldlM_cons]
      rcases h a List.mem_cons_self with hok | herror
      · obtain ⟨b', hb'⟩ := hok b
        obtain ⟨a', ha', hfail⟩ := hfail
        have hmem : a' ∈ items := by
          rcases List.mem_cons.1 ha' with rfl | hmem
          · rw [hfail b] at hb'
            cases hb'
          · exact hmem
        rw [hb']
        exact ih (fun c hc => h c (List.mem_cons_of_mem a hc)) ⟨a', hmem, hfail⟩ b'
      · rw [herror]
        rfl

end KineticGrid
