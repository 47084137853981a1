import KineticGrid.Ghost.Buffer
import KineticGrid.Proofs.Report.Success
import KineticGrid.Proofs.Space.Layout
import Mathlib.Data.List.Nodup
import Mathlib.Data.List.Perm.Subperm
/-!
# Packing

Pairs of slabs that pass their checks, and what packing reads. Main statements: the checks of a
pair succeed exactly if both slabs lie inside the grid and share no cell, and packing lists the
cells of both slabs in slot order, in front of what the buffers hold further on.
-/

namespace KineticGrid

variable {V E : Type}

/-! ## Packing -/

def Box.packs (op : Transfer V E) (f : Vec3 Nat → V) (r : Box) : List E :=
  (List.range r.shape.volume).map fun s => op.pack (f (r.cellAt s))

@[simp]
theorem Box.length_packs (op : Transfer V E) (f : Vec3 Nat → V) (r : Box) :
    (r.packs op f).length = r.shape.volume := by
  rw [packs, List.length_map, List.length_range]

theorem Box.getElem?_packs {r : Box} {s : Nat} (op : Transfer V E) (f : Vec3 Nat → V)
    (h : s < r.shape.volume) : (r.packs op f)[s]? = some (op.pack (f (r.cellAt s))) := by
  rw [packs, List.getElem?_map, List.getElem?_range h, Option.map_some]

def Box.packAt (b : Build) (op : Transfer V E) (cells : Array V) (g : Grid) (r : Box)
    (slot : Nat) : Checked E := do
  let c ← g.slot b (← r.coords b slot)
  return op.pack (← Particles.entry cells c)

/-- A list holds the packed values of the cells of a box, in slot order. -/
structure Box.Packed (op : Transfer V E) (e : Extent) (cells : Array V) (r : Box)
    (values : List E) : Prop where
  length_eq : values.length = r.shape.volume
  value : ∀ k < r.shape.volume, ∃ v, cells[e.slot (r.cellAt k)]? = some v ∧
    values[k]? = some (op.pack v)

namespace Box

variable {b : Build} {block : Nat} {g : Grid} {r : Box} {cells : Array V} (op : Transfer V E)

private theorem pack_eq_mapM (hblock : 0 < block) (hsize : r.shape.volume < wordSize) :
    r.pack b block op cells g = (List.range r.shape.volume).mapM (r.packAt b op cells g) := by
  rw [pack, Box.size_eq hsize, ok_bind, Groups.fill_eq hblock]
  rfl

private theorem packAt_eq (hg : g.extent.volume < wordSize) (hr : r.Within g.extent) {s : Nat}
    (hs : s < r.shape.volume) {v : V} (hv : cells[g.extent.slot (r.cellAt s)]? = some v) :
    r.packAt b op cells g s = .ok (op.pack v) := by
  rw [packAt, ← bind_assoc, Box.slot_eq hr hg hs, ok_bind, Particles.entry, hv]
  rfl

theorem pack_eq (f : Vec3 Nat → V) (hblock : 0 < block) (hg : g.extent.volume < wordSize)
    (hr : r.Within g.extent) : r.pack b block op (g.extent.table f) g = .ok (r.packs op f) := by
  rw [pack_eq_mapM op hblock (Nat.lt_of_le_of_lt hr.volume_le hg)]
  apply mapM_eq_ok
  intro s hs
  have hs := List.mem_range.1 hs
  exact packAt_eq op hg hr hs (Extent.getElem?_table f (hr.has (has_cellAt hs)))

/-- Packing a box of an array of any values gives the same list in both builds and for all
groups. -/
theorem exists_pack (hg : g.extent.volume < wordSize) (hr : r.Within g.extent)
    (hcells : cells.size = g.extent.volume) :
    ∃ values, r.Packed op g.extent cells values ∧
      ∀ b block, 0 < block → r.pack b block op cells g = .ok values := by
  have hpacked (s : Nat) (hs : s < r.shape.volume) :
      ∃ e, (∃ v, cells[g.extent.slot (r.cellAt s)]? = some v ∧ e = op.pack v) ∧
        ∀ b, r.packAt b op cells g s = .ok e := by
    have hv := Array.getElem?_eq_getElem (hcells ▸ Extent.slot_lt (hr.has (has_cellAt hs)))
    exact ⟨_, ⟨_, hv, rfl⟩, fun _ => packAt_eq op hg hr hs hv⟩
  obtain ⟨values, hlength, hvalues, hall⟩ := exists_mapM_range hpacked
  refine ⟨values, ⟨hlength, fun s hs => ?_⟩, fun b block hblock => ?_⟩
  · obtain ⟨_, hvalue, v, hv, rfl⟩ := hall s hs
    exact ⟨v, hv, hvalue⟩
  · rw [pack_eq_mapM op hblock (Nat.lt_of_le_of_lt hr.volume_le hg)]
    exact hvalues b

end Box

/-! ## Valid pairs -/

structure Slabs.Inside (s : Slabs) : Prop where
  left : s.left.Within s.grid.extent
  right : s.right.Within s.grid.extent

/-- Both slabs lie inside the grid and share no cell. -/
structure Slabs.Valid (s : Slabs) : Prop where
  left : s.left.Within s.grid.extent
  right : s.right.Within s.grid.extent
  disjoint : ∀ c, s.left.Has c → ¬s.right.Has c

theorem Slabs.Valid.inside {s : Slabs} (h : s.Valid) : s.Inside := ⟨h.left, h.right⟩

namespace Box

variable {b : Build} {r s : Box}

theorem isEmpty_eq (h : r.shape.volume < wordSize) :
    r.isEmpty b = .ok (decide (r.shape.volume = 0)) := by
  rw [isEmpty, size_eq h]
  rfl

private theorem not_has {t : Box} (ht : t.shape.volume = 0) (c : Vec3 Nat) : ¬t.Has c := by
  intro hc
  have hlt := slotAt_lt hc
  omega

/-- Boxes whose ranges meet along every axis share the cell with the largest first coordinates. -/
private theorem ranges_meet_iff (hr : r.shape.volume ≠ 0) (hs : s.shape.volume ≠ 0) :
    (∀ a, (r.origin.get a).toNat < s.stop a ∧ (s.origin.get a).toNat < r.stop a) ↔
      ∃ c, r.Has c ∧ s.Has c := by
  have hpos {t : Box} (ht : t.shape.volume ≠ 0) (a : Axis) : 0 < (t.extent.get a).toNat := by
    obtain ⟨hx, hy, hz⟩ := Extent.pos_of_volume (Nat.pos_of_ne_zero ht)
    cases a
    · exact hx
    · exact hy
    · exact hz
  unfold stop
  constructor
  · intro h
    refine ⟨r.first.zipWith max s.first, fun a => ?_, fun a => ?_⟩
    all_goals
      have ha := h a
      have hra := hpos hr a
      have hsa := hpos hs a
      rw [Vec3.get_zipWith]
      simp only [first, shape, Vec3.get_map]
      omega
  · rintro ⟨c, hrc, hsc⟩ a
    have hra := hrc a
    have hsa := hsc a
    simp only [first, shape, Vec3.get_map] at hra hsa
    omega

/-- Two boxes are found to meet exactly if they share a cell. -/
theorem meets_eq (hr : r.shape.volume < wordSize) (hs : s.shape.volume < wordSize) :
    ∃ v, r.meets b s = .ok v ∧ (v = true ↔ ∃ c, r.Has c ∧ s.Has c) := by
  rw [meets, isEmpty_eq hr, isEmpty_eq hs]
  by_cases hr0 : r.shape.volume = 0
  · rw [decide_eq_true hr0]
    refine ⟨false, rfl, ?_⟩
    simp only [Bool.false_eq_true, false_iff]
    rintro ⟨c, hc, _⟩
    exact not_has hr0 c hc
  · by_cases hs0 : s.shape.volume = 0
    · rw [decide_eq_false hr0, decide_eq_true hs0]
      refine ⟨false, rfl, ?_⟩
      simp only [Bool.false_eq_true, false_iff]
      rintro ⟨c, _, hc⟩
      exact not_has hs0 c hc
    · rw [decide_eq_false hr0, decide_eq_false hs0]
      refine ⟨_, rfl, ?_⟩
      rw [Vec3.all_eq_true_iff]
      simp only [Bool.and_eq_true, decide_eq_true_eq]
      exact ranges_meet_iff hr0 hs0

theorem within_of_requireInside {g : Grid} (h : r.requireInside g = .ok ()) :
    r.Within g.extent := by
  rw [requireInside] at h
  split at h
  · exact fitsIn_iff.1 ‹_›
  · cases h

def slotsIn (e : Extent) (r : Box) : List Nat :=
  (List.range r.shape.volume).map fun k => e.slot (r.cellAt k)

variable {e : Extent}

theorem length_slotsIn (e : Extent) (r : Box) : (r.slotsIn e).length = r.shape.volume := by
  rw [slotsIn, List.length_map, List.length_range]

theorem mem_slotsIn {i : Nat} : i ∈ r.slotsIn e ↔ ∃ c, r.Has c ∧ e.slot c = i := by
  rw [slotsIn, List.mem_map]
  constructor
  · rintro ⟨k, hk, rfl⟩
    exact ⟨_, has_cellAt (List.mem_range.1 hk), rfl⟩
  · rintro ⟨c, hc, rfl⟩
    exact ⟨_, List.mem_range.2 (slotAt_lt hc), by rw [cellAt_slotAt hc]⟩

theorem slotsIn_subset (hr : r.Within e) : r.slotsIn e ⊆ List.range e.volume := by
  intro i hi
  obtain ⟨c, hc, rfl⟩ := mem_slotsIn.1 hi
  exact List.mem_range.2 (Extent.slot_lt (hr.has hc))

theorem nodup_slotsIn (hr : r.Within e) : (r.slotsIn e).Nodup := by
  refine List.nodup_range.map_on fun k hk k' hk' heq => ?_
  have hcell := Extent.slot_inj (hr.has (has_cellAt (List.mem_range.1 hk)))
    (hr.has (has_cellAt (List.mem_range.1 hk'))) heq
  rw [← r.slotAt_cellAt k, hcell, slotAt_cellAt]

end Box

namespace Slabs

variable {b : Build} {s : Slabs}

namespace Inside

theorem requireInside_eq (h : s.Inside) : s.requireInside = .ok () := by
  rw [requireInside, Box.requireInside_eq h.left]
  exact Box.requireInside_eq h.right

theorem left_lt (h : s.Inside) (hg : s.grid.extent.volume < wordSize) :
    s.left.shape.volume < wordSize := Nat.lt_of_le_of_lt h.left.volume_le hg

theorem right_lt (h : s.Inside) (hg : s.grid.extent.volume < wordSize) :
    s.right.shape.volume < wordSize := Nat.lt_of_le_of_lt h.right.volume_le hg

theorem requireBuffers_eq (h : s.Inside) (hg : s.grid.extent.volume < wordSize)
    {left right : Nat} (hl : s.left.shape.volume ≤ left) (hr : s.right.shape.volume ≤ right) :
    s.requireBuffers b s.grid.extent.volume left right = .ok () := by
  rw [requireBuffers, Grid.size_eq hg, Box.size_eq (h.left_lt hg), Box.size_eq (h.right_lt hg)]
  change (Fallible.requireLength _ s.grid.extent.volume s.grid.extent.volume >>= _) = _
  rw [Fallible.requireLength, if_pos rfl]
  change (if left < s.left.shape.volume then _ else if right < s.right.shape.volume then _ else _)
    = _
  rw [if_neg (by omega), if_neg (by omega)]
  rfl

theorem validate_eq (h : s.Inside) (hg : s.grid.extent.volume < wordSize) :
    s.validate b = .ok () ∧ s.Valid ∨
      s.validate b = Fallible.reject s.overlap ∧ ∃ c, s.left.Has c ∧ s.right.Has c := by
  obtain ⟨v, hmeets, hv⟩ := Box.meets_eq (b := b) (h.left_lt hg) (h.right_lt hg)
  rw [validate, h.requireInside_eq, hmeets]
  cases v with
  | false =>
      have hdisjoint (c : Vec3 Nat) (hl : s.left.Has c) : ¬s.right.Has c := fun hr =>
        absurd (hv.2 ⟨c, hl, hr⟩) Bool.false_ne_true
      exact .inl ⟨rfl, h.left, h.right, hdisjoint⟩
  | true => exact .inr ⟨rfl, hv.1 rfl⟩

end Inside

theorem inside_of_requireInside (h : s.requireInside = .ok ()) : s.Inside := by
  obtain ⟨_, hleft, hright⟩ := exists_of_bind_eq_ok h
  exact ⟨Box.within_of_requireInside hleft, Box.within_of_requireInside hright⟩

theorem validate_eq_ok_iff (hg : s.grid.extent.volume < wordSize) :
    s.validate b = .ok () ↔ s.Valid := by
  constructor
  · intro h
    obtain ⟨_, hinside, _⟩ := exists_of_bind_eq_ok h
    rcases (inside_of_requireInside hinside).validate_eq (b := b) hg with ⟨_, hvalid⟩ | ⟨herr, _⟩
    · exact hvalid
    · rw [herr] at h
      cases h
  · intro h
    rcases h.inside.validate_eq (b := b) hg with ⟨hok, _⟩ | ⟨_, c, hl, hr⟩
    · exact hok
    · exact absurd hr (h.disjoint c hl)

namespace Valid

theorem assert_eq (h : s.Valid) (hg : s.grid.extent.volume < wordSize) : s.assert b = .ok () := by
  rw [assert, (validate_eq_ok_iff hg).2 h]
  cases b <;> rfl

/-- Both slabs together have no more cells than the grid. -/
theorem volume_add_le (h : s.Valid) :
    s.left.shape.volume + s.right.shape.volume ≤ s.grid.extent.volume := by
  have hdisjoint : (s.left.slotsIn s.grid.extent).Disjoint (s.right.slotsIn s.grid.extent) := by
    intro i hleft hright
    obtain ⟨c, hc, rfl⟩ := Box.mem_slotsIn.1 hleft
    obtain ⟨c', hc', heq⟩ := Box.mem_slotsIn.1 hright
    obtain rfl := Extent.slot_inj (h.right.has hc') (h.left.has hc) heq
    exact h.disjoint c' hc hc'
  have hsub : s.left.slotsIn s.grid.extent ++ s.right.slotsIn s.grid.extent ⊆
      List.range s.grid.extent.volume :=
    List.append_subset.2 ⟨Box.slotsIn_subset h.left, Box.slotsIn_subset h.right⟩
  have hnodup := (Box.nodup_slotsIn h.left).append (Box.nodup_slotsIn h.right) hdisjoint
  have hle := (hnodup.subperm hsub).length_le
  rwa [List.length_append, Box.length_slotsIn, Box.length_slotsIn, List.length_range] at hle

theorem isEmpty_eq (h : s.Valid) (hg : s.grid.extent.volume < wordSize) :
    s.isEmpty b = .ok (decide (s.left.shape.volume + s.right.shape.volume = 0)) := by
  rw [isEmpty, size, Box.size_eq (h.inside.left_lt hg), Box.size_eq (h.inside.right_lt hg)]
  change (b.word (s.left.shape.volume + s.right.shape.volume) >>= _) = _
  rw [Build.word_eq (Nat.lt_of_le_of_lt h.volume_add_le hg)]
  rfl

theorem result_packed_eq (h : s.Valid) (hg : s.grid.extent.volume < wordSize) (m : Mode)
    (e : Executor) {requested left right : Nat} {op : Transfer V E} {cells : Array V}
    (hcells : cells.size = s.grid.extent.volume) (hl : s.left.shape.volume ≤ left)
    (hr : s.right.shape.volume ≤ right) :
    (s.packed m e requested op cells left right).result =
      (e.block m .pack requested).result >>= fun block => (Executor.run m .pack (do
        let l ← s.left.pack m.build block op cells s.grid
        let r ← s.right.pack m.build block op cells s.grid
        return (l, r))).result := by
  rw [packed, h.assert_eq hg, hcells, h.inside.requireBuffers_eq hg hl hr]
  simp only [Outcome.result_bind]
  rfl

theorem result_packed_of (h : s.Valid) (hg : s.grid.extent.volume < wordSize) (m : Mode)
    (e : Executor) {requested left right : Nat} {op : Transfer V E} {cells : Array V}
    {l r : List E} (hrequested : requested ≠ 0) (hcells : cells.size = s.grid.extent.volume)
    (hl : s.left.shape.volume ≤ left) (hr : s.right.shape.volume ≤ right)
    (hleft : ∀ block, 0 < block → s.left.pack m.build block op cells s.grid = .ok l)
    (hright : ∀ block, 0 < block → s.right.pack m.build block op cells s.grid = .ok r) :
    (s.packed m e requested op cells left right).result = .ok (l, r) := by
  have hblock : 0 < min requested (e.limit .pack) := by
    have hlimit := e.limit_pos .pack
    omega
  rw [h.result_packed_eq hg m e hcells hl hr, e.result_block m .pack hrequested, ok_bind,
    hleft _ hblock, ok_bind, hright _ hblock]
  rfl

theorem result_packed (h : s.Valid) (hg : s.grid.extent.volume < wordSize) (m : Mode)
    (e : Executor) {requested left right : Nat} (op : Transfer V E) (f : Vec3 Nat → V)
    (hrequested : requested ≠ 0) (hl : s.left.shape.volume ≤ left)
    (hr : s.right.shape.volume ≤ right) :
    (s.packed m e requested op (s.grid.extent.table f) left right).result =
      .ok (s.left.packs op f, s.right.packs op f) :=
  h.result_packed_of hg m e hrequested (Extent.size_table _ _) hl hr
    (fun _ hblock => Box.pack_eq op f hblock hg h.left)
    (fun _ hblock => Box.pack_eq op f hblock hg h.right)

theorem result_pack_eq (h : s.Valid) (hg : s.grid.extent.volume < wordSize) (m : Mode)
    (e : Executor) {requested : Nat} {op : Transfer V E} {cells : Array V} {left right : List E}
    (hcells : cells.size = s.grid.extent.volume) (hl : s.left.shape.volume ≤ left.length)
    (hr : s.right.shape.volume ≤ right.length) :
    (s.pack m e requested op cells left right).result =
      (e.block m .pack requested).result >>= fun block => (Executor.run m .pack (do
        let l ← s.left.pack m.build block op cells s.grid
        let r ← s.right.pack m.build block op cells s.grid
        return (l, r))).result >>= fun (l, r) =>
          .ok (l ++ left.drop l.length, r ++ right.drop r.length) := by
  rw [pack, Outcome.result_bind, h.result_packed_eq hg m e hcells hl hr, bind_assoc]
  rfl

theorem exists_packed (h : s.Valid) (hg : s.grid.extent.volume < wordSize) (m : Mode)
    (e : Executor) {requested left right : Nat} (op : Transfer V E) (hrequested : requested ≠ 0)
    {cells : Array V} (hcells : cells.size = s.grid.extent.volume)
    (hl : s.left.shape.volume ≤ left) (hr : s.right.shape.volume ≤ right) :
    ∃ l r, (s.packed m e requested op cells left right).result = .ok (l, r) ∧
      s.left.Packed op s.grid.extent cells l ∧ s.right.Packed op s.grid.extent cells r := by
  obtain ⟨l, hpl, hleft⟩ := Box.exists_pack op hg h.left hcells
  obtain ⟨r, hpr, hright⟩ := Box.exists_pack op hg h.right hcells
  exact ⟨l, r, h.result_packed_of hg m e hrequested hcells hl hr (hleft m.build) (hright m.build),
    hpl, hpr⟩

theorem exists_pack (h : s.Valid) (hg : s.grid.extent.volume < wordSize) (m : Mode)
    (e : Executor) {requested : Nat} (op : Transfer V E) (hrequested : requested ≠ 0)
    {cells : Array V} (hcells : cells.size = s.grid.extent.volume) {left right : List E}
    (hl : s.left.shape.volume ≤ left.length) (hr : s.right.shape.volume ≤ right.length) :
    ∃ l r, (s.pack m e requested op cells left right).result =
        .ok (l ++ left.drop s.left.shape.volume, r ++ right.drop s.right.shape.volume) ∧
      s.left.Packed op s.grid.extent cells l ∧ s.right.Packed op s.grid.extent cells r := by
  obtain ⟨l, r, hpacked, hpl, hpr⟩ := h.exists_packed hg m e op hrequested hcells hl hr
  refine ⟨l, r, ?_, hpl, hpr⟩
  rw [pack, Outcome.result_bind, hpacked, ← hpl.length_eq, ← hpr.length_eq]
  rfl

end Valid

end Slabs

end KineticGrid
