import KineticGrid.Space.Box
/-!
# Layout

Cells, grids and boxes in natural numbers, where nothing wraps around. Main statements: as long as
the cells of a grid can be counted in a word, sizes, slots and coordinates are exact in both
builds, and slots and cells determine each other.
-/

namespace KineticGrid

abbrev Extent := Vec3 Nat

namespace Extent

variable {V : Type}

def volume (e : Extent) : Nat := e.x * e.y * e.z

def Has (e : Extent) (c : Vec3 Nat) : Prop := ∀ a, c.get a < e.get a

instance (e : Extent) (c : Vec3 Nat) : Decidable (e.Has c) :=
  decidable_of_iff (Vec3.all (fun a => c.get a < e.get a) = true) (by
    simp only [Vec3.all_eq_true_iff, decide_eq_true_eq, Has])

def slot (e : Extent) (c : Vec3 Nat) : Nat := c.x + e.x * (c.y + e.y * c.z)

def cell (e : Extent) (i : Nat) : Vec3 Nat := ⟨i % e.x, i / e.x % e.y, i / e.x / e.y⟩

theorem has_iff {e : Extent} {c : Vec3 Nat} :
    e.Has c ↔ c.x < e.x ∧ c.y < e.y ∧ c.z < e.z := by
  constructor
  · intro h
    exact ⟨h .x, h .y, h .z⟩
  · rintro ⟨hx, hy, hz⟩ a
    cases a
    · exact hx
    · exact hy
    · exact hz

theorem Has.set {e : Extent} {c : Vec3 Nat} {a : Axis} {k : Nat} (hc : e.Has c)
    (hk : k < e.get a) : e.Has (c.set a k) := by
  intro b
  by_cases hb : b = a
  · subst hb
    rw [Vec3.get_set_self]
    exact hk
  · rw [Vec3.get_set_of_ne _ _ hb]
    exact hc b

private theorem digits_lt {x y m n : Nat} (hx : x < m) (hy : y < n) : x + m * y < m * n := by
  calc x + m * y < m + m * y := Nat.add_lt_add_right hx _
    _ = m * (y + 1) := by rw [Nat.mul_succ, Nat.add_comm]
    _ ≤ m * n := Nat.mul_le_mul_left m hy

theorem volume_eq (e : Extent) : e.volume = e.x * (e.y * e.z) := Nat.mul_assoc _ _ _

theorem slot_lt {e : Extent} {c : Vec3 Nat} (h : e.Has c) : e.slot c < e.volume := by
  obtain ⟨hx, hy, hz⟩ := has_iff.1 h
  rw [volume_eq]
  exact digits_lt hx (digits_lt hy hz)

theorem volume_pos {e : Extent} (h : ∀ a, 0 < e.get a) : 0 < e.volume :=
  Nat.mul_pos (Nat.mul_pos (h .x) (h .y)) (h .z)

theorem pos_of_volume {e : Extent} (h : 0 < e.volume) : 0 < e.x ∧ 0 < e.y ∧ 0 < e.z := by
  have hxy := Nat.pos_of_mul_pos_right h
  exact ⟨Nat.pos_of_mul_pos_right hxy, Nat.pos_of_mul_pos_left hxy, Nat.pos_of_mul_pos_left h⟩

theorem has_cell {e : Extent} {i : Nat} (h : i < e.volume) : e.Has (e.cell i) := by
  obtain ⟨hx, hy, _⟩ := pos_of_volume (Nat.zero_lt_of_lt h)
  refine has_iff.2 ⟨Nat.mod_lt _ hx, Nat.mod_lt _ hy, ?_⟩
  rw [volume_eq] at h
  exact Nat.div_lt_of_lt_mul (Nat.div_lt_of_lt_mul h)

@[simp]
theorem slot_cell (e : Extent) (i : Nat) : e.slot (e.cell i) = i := by
  unfold slot cell
  dsimp only
  rw [Nat.mod_add_div, Nat.mod_add_div]

theorem cell_slot {e : Extent} {c : Vec3 Nat} (h : e.Has c) : e.cell (e.slot c) = c := by
  obtain ⟨hx, hy, _⟩ := has_iff.1 h
  have hrows : e.slot c / e.x = c.y + e.y * c.z := by
    rw [slot, Nat.add_mul_div_left _ _ (by omega), Nat.div_eq_of_lt hx, Nat.zero_add]
  rw [cell, hrows, slot, Nat.add_mul_mod_self_left, Nat.add_mul_mod_self_left,
    Nat.add_mul_div_left _ _ (by omega), Nat.mod_eq_of_lt hx, Nat.mod_eq_of_lt hy,
    Nat.div_eq_of_lt hy, Nat.zero_add]

theorem slot_inj {e : Extent} {c c' : Vec3 Nat} (h : e.Has c) (h' : e.Has c')
    (heq : e.slot c = e.slot c') : c = c' := by
  rw [← cell_slot h, heq, cell_slot h']

/-! ## Tables -/

def table (e : Extent) (f : Vec3 Nat → V) : Array V :=
  ((List.range e.volume).map fun i => f (e.cell i)).toArray

@[simp]
theorem size_table (e : Extent) (f : Vec3 Nat → V) : (e.table f).size = e.volume := by
  simp only [table, List.size_toArray, List.length_map, List.length_range]

theorem getElem?_table_of_lt {e : Extent} {i : Nat} (f : Vec3 Nat → V) (h : i < e.volume) :
    (e.table f)[i]? = some (f (e.cell i)) := by
  simp only [table, List.getElem?_toArray, List.getElem?_map, List.getElem?_range h,
    Option.map_some]

theorem getElem?_table {e : Extent} {c : Vec3 Nat} (f : Vec3 Nat → V) (h : e.Has c) :
    (e.table f)[e.slot c]? = some (f c) := by
  rw [getElem?_table_of_lt f (slot_lt h), cell_slot h]

theorem table_congr {e : Extent} {f g : Vec3 Nat → V} (h : ∀ c, e.Has c → f c = g c) :
    e.table f = e.table g := by
  unfold table
  congr 1
  apply List.map_congr_left
  intro i hi
  exact h _ (has_cell (List.mem_range.1 hi))

theorem map_range_eq_map {α β : Type} {items : List α} {f : Nat → β} {g : α → β}
    (h : ∀ (c : Nat) (a : α), items[c]? = some a → f c = g a) :
    (List.range items.length).map f = items.map g := by
  apply List.ext_getElem (by simp)
  intro c _ hc
  rw [List.length_map] at hc
  rw [List.getElem_map, List.getElem_map, List.getElem_range]
  exact h c _ (List.getElem?_eq_getElem hc)

/-- A table of values that are known from a list of items, one for each cell. -/
theorem table_eq_map {α : Type} {e : Extent} {items : List α} (hlength : items.length = e.volume)
    {f : Nat → V} {g : α → V} (h : ∀ (c : Nat) (a : α), items[c]? = some a → f c = g a) :
    e.table (fun c => f (e.slot c)) = (items.map g).toArray := by
  rw [table, ← map_range_eq_map h, hlength]
  congr 1
  apply List.map_congr_left
  intro s _
  rw [slot_cell]

theorem exists_table {e : Extent} {values : Array V} (hsize : values.size = e.volume)
    (hpos : 0 < e.volume) : ∃ f, values = e.table f := by
  have hzero : 0 < values.size := by omega
  refine ⟨fun c => values[e.slot c]?.getD values[0], ?_⟩
  apply Array.ext
  · rw [size_table, hsize]
  · intro i hi _
    apply Option.some.inj
    rw [← Array.getElem?_eq_getElem, ← Array.getElem?_eq_getElem,
      getElem?_table_of_lt _ (by omega), slot_cell, Array.getElem?_eq_getElem hi, Option.getD_some]

end Extent

/-! ## Grids -/

namespace Vec3

@[simp]
theorem set_get {α : Type} (v : Vec3 α) (a : Axis) : v.set a (v.get a) = v := by
  cases a <;> rfl

@[simp]
theorem set_set {α : Type} (v : Vec3 α) (a : Axis) (k k' : α) :
    (v.set a k).set a k' = v.set a k' := by
  cases a <;> rfl

theorem map_toNat_ofNat {c : Vec3 Nat} (h : ∀ a, c.get a < word32Size) :
    (c.map UInt32.ofNat).map UInt32.toNat = c := by
  apply ext_get
  intro a
  rw [get_map, get_map]
  exact UInt32.toNat_ofNat_of_lt' (h a)

theorem map_ofNat_toNat (c : Vec3 UInt32) : (c.map UInt32.toNat).map UInt32.ofNat = c := by
  apply ext_get
  intro a
  rw [get_map, get_map, UInt32.ofNat_toNat]

@[simp]
theorem get_zipWith {α β γ : Type} (f : α → β → γ) (v : Vec3 α) (w : Vec3 β) (a : Axis) :
    (v.zipWith f w).get a = f (v.get a) (w.get a) := by
  cases a <;> rfl

theorem ofAxisM_eq {ε α : Type} {f : Axis → Except ε α} {v : Vec3 α}
    (h : ∀ a, f a = .ok (v.get a)) : ofAxisM f = .ok v := by
  rw [ofAxisM, h .x, h .y, h .z]
  rfl

end Vec3

namespace Grid

variable {b : Build} {g : Grid}

def extent (g : Grid) : Extent := g.dims.map UInt32.toNat

theorem extent_lt (g : Grid) (a : Axis) : g.extent.get a < word32Size := by
  rw [extent, Vec3.get_map]
  exact UInt32.toNat_lt _

theorem contains_iff {c : Coords} : g.contains c = true ↔ g.extent.Has (c.map UInt32.toNat) := by
  rw [contains, Vec3.all_eq_true_iff]
  simp only [decide_eq_true_eq, UInt32.lt_iff_toNat_lt]
  simp only [Extent.Has, extent, Vec3.get_map]

theorem exists_coords {c : Vec3 Nat} (hc : g.extent.Has c) :
    ∃ words : Coords, words.map UInt32.toNat = c :=
  ⟨_, Vec3.map_toNat_ofNat fun a => Nat.lt_trans (hc a) (g.extent_lt a)⟩

/-- Only the product of all three extents can leave its word. -/
theorem size_eq_word (b : Build) (g : Grid) : g.size b = b.word g.extent.volume := by
  have hplane : g.dims.x.toNat * g.dims.y.toNat < wordSize :=
    Nat.mul_lt_mul'' (g.extent_lt .x) (g.extent_lt .y)
  rw [size, Build.word_eq hplane]
  rfl

theorem size_eq (h : g.extent.volume < wordSize) : g.size b = .ok g.extent.volume :=
  (size_eq_word b g).trans (Build.word_eq h)

theorem exists_size (h : b = .debug → g.extent.volume < wordSize) : ∃ n, g.size b = .ok n := by
  cases b with
  | debug => exact ⟨_, size_eq (h rfl)⟩
  | release =>
      rw [size_eq_word, Build.word]
      split
      · exact ⟨_, rfl⟩
      · exact ⟨_, rfl⟩

theorem slot_eq (h : g.extent.volume < wordSize) {c : Coords}
    (hc : g.extent.Has (c.map UInt32.toNat)) :
    g.slot b c = .ok (g.extent.slot (c.map UInt32.toNat)) := by
  have hslot : g.extent.slot (c.map UInt32.toNat) < wordSize :=
    Nat.lt_trans (Extent.slot_lt hc) h
  have hx : 0 < g.dims.x.toNat := Nat.zero_lt_of_lt (hc .x)
  unfold Extent.slot at hslot ⊢
  change c.x.toNat + g.dims.x.toNat * (c.y.toNat + g.dims.y.toNat * c.z.toNat) < wordSize
    at hslot
  have hcells : g.dims.x.toNat * (c.y.toNat + g.dims.y.toNat * c.z.toNat) < wordSize := by omega
  have hrows : c.y.toNat + g.dims.y.toNat * c.z.toNat < wordSize :=
    Nat.lt_of_le_of_lt (Nat.le_mul_of_pos_left _ hx) hcells
  rw [slot, Build.word_eq (n := g.dims.y.toNat * c.z.toNat) (by omega)]
  change (b.word (c.y.toNat + g.dims.y.toNat * c.z.toNat) >>= _) = _
  rw [Build.word_eq hrows]
  change (b.word (g.dims.x.toNat * (c.y.toNat + g.dims.y.toNat * c.z.toNat)) >>= _) = _
  rw [Build.word_eq hcells]
  exact Build.word_eq hslot

theorem coords_eq (h : g.extent.volume < wordSize) {i : Nat} (hi : i < g.extent.volume) :
    g.coords b i = .ok ((g.extent.cell i).map UInt32.ofNat) := by
  obtain ⟨hx, hy, _⟩ := Extent.pos_of_volume (Nat.zero_lt_of_lt hi)
  change 0 < g.dims.x.toNat at hx
  change 0 < g.dims.y.toNat at hy
  cases b with
  | release =>
      rw [coords, if_neg (by decide), if_neg (by omega), if_neg (by omega)]
      rfl
  | debug =>
      rw [coords, if_pos rfl, size_eq h, if_neg (by omega), if_neg (by omega)]
      change (if g.extent.volume ≤ i then _ else _) = _
      rw [if_neg (by omega)]
      rfl

theorem cell_of_coords (h : g.extent.volume < wordSize) {i : Nat} (hi : i < g.extent.volume)
    {c : Coords} (hc : g.coords b i = .ok c) : c.map UInt32.toNat = g.extent.cell i := by
  rw [coords_eq h hi] at hc
  cases hc
  exact Vec3.map_toNat_ofNat fun a => Nat.lt_trans (Extent.has_cell hi a) (g.extent_lt a)

end Grid

/-! ## Boxes -/

namespace Box

def first (r : Box) : Vec3 Nat := r.origin.map UInt32.toNat

def shape (r : Box) : Extent := r.extent.map UInt32.toNat

def Has (r : Box) (c : Vec3 Nat) : Prop :=
  ∀ a, r.first.get a ≤ c.get a ∧ c.get a < r.first.get a + r.shape.get a

instance (r : Box) (c : Vec3 Nat) : Decidable (r.Has c) :=
  decidable_of_iff (Vec3.all (fun a => decide (r.first.get a ≤ c.get a ∧
    c.get a < r.first.get a + r.shape.get a)) = true) (by
    simp only [Vec3.all_eq_true_iff, decide_eq_true_eq, Has])

def Within (r : Box) (e : Extent) : Prop := ∀ a, r.first.get a + r.shape.get a ≤ e.get a

def cellAt (r : Box) (s : Nat) : Vec3 Nat := r.first.zipWith (· + ·) (r.shape.cell s)

def slotAt (r : Box) (c : Vec3 Nat) : Nat := r.shape.slot (c.zipWith (· - ·) r.first)

theorem fitsIn_iff {r : Box} {g : Grid} : r.fitsIn g = true ↔ r.Within g.extent := by
  rw [fitsIn, Vec3.all_eq_true_iff]
  simp only [decide_eq_true_eq]
  simp only [Within, stop, first, shape, Grid.extent, Vec3.get_map]

variable {b : Build} {r : Box} {e : Extent}

theorem Has.shape_has {c : Vec3 Nat} (h : r.Has c) :
    r.shape.Has (c.zipWith (· - ·) r.first) := by
  intro a
  have ha := h a
  rw [Vec3.get_zipWith]
  omega

theorem has_cellAt {s : Nat} (h : s < r.shape.volume) : r.Has (r.cellAt s) := by
  intro a
  have ha := Extent.has_cell h a
  rw [cellAt, Vec3.get_zipWith]
  omega

theorem slotAt_lt {c : Vec3 Nat} (h : r.Has c) : r.slotAt c < r.shape.volume :=
  Extent.slot_lt h.shape_has

theorem cellAt_slotAt {c : Vec3 Nat} (h : r.Has c) : r.cellAt (r.slotAt c) = c := by
  rw [cellAt, slotAt, Extent.cell_slot h.shape_has]
  apply Vec3.ext_get
  intro a
  have ha := h a
  rw [Vec3.get_zipWith, Vec3.get_zipWith]
  omega

theorem slotAt_cellAt (r : Box) (s : Nat) : r.slotAt (r.cellAt s) = s := by
  have hinner : (r.cellAt s).zipWith (· - ·) r.first = r.shape.cell s := by
    apply Vec3.ext_get
    intro a
    rw [Vec3.get_zipWith, cellAt, Vec3.get_zipWith]
    omega
  rw [slotAt, hinner, Extent.slot_cell]

theorem Within.has (h : r.Within e) {c : Vec3 Nat} (hc : r.Has c) : e.Has c := by
  intro a
  have ha := h a
  have hca := hc a
  omega

theorem Within.shape_le (h : r.Within e) (a : Axis) : r.shape.get a ≤ e.get a := by
  have ha := h a
  omega

theorem Within.volume_le (h : r.Within e) : r.shape.volume ≤ e.volume :=
  Nat.mul_le_mul (Nat.mul_le_mul (h.shape_le .x) (h.shape_le .y)) (h.shape_le .z)

theorem Within.rows_le (h : r.Within e) : r.shape.y * r.shape.z ≤ e.y * e.z :=
  Nat.mul_le_mul (h.shape_le .y) (h.shape_le .z)

theorem size_eq (h : r.shape.volume < wordSize) : r.size b = .ok r.shape.volume :=
  Grid.size_eq h

theorem coords_eq {g : Grid} (hr : r.Within g.extent) (h : r.shape.volume < wordSize) {s : Nat}
    (hs : s < r.shape.volume) : r.coords b s = .ok ((r.cellAt s).map UInt32.ofNat) := by
  have hcell := Extent.has_cell hs
  have hsmall (a : Axis) : (r.shape.cell s).get a < word32Size := by
    have ha := hcell a
    have hshape := Grid.extent_lt r.grid a
    change r.shape.get a < word32Size at hshape
    omega
  rw [coords, Grid.coords_eq (g := r.grid) h hs]
  change Vec3.ofAxisM (fun a => b.add32 (r.origin.get a)
    (((r.grid.extent.cell s).map UInt32.ofNat).get a)) = _
  apply Vec3.ofAxisM_eq
  intro a
  have hinner : ((r.grid.extent.cell s).map UInt32.ofNat).get a =
      UInt32.ofNat ((r.shape.cell s).get a) := Vec3.get_map _ _ _
  have hsum : (r.origin.get a).toNat + (r.shape.cell s).get a < word32Size := by
    have ha := hcell a
    have hra := hr a
    have hga := g.extent_lt a
    rw [first, Vec3.get_map] at hra
    omega
  rw [hinner, Build.add32_eq (by rw [UInt32.toNat_ofNat_of_lt' (hsmall a)]; exact hsum),
    Vec3.get_map, cellAt, Vec3.get_zipWith, first, Vec3.get_map, UInt32.ofNat_add,
    UInt32.ofNat_toNat]

theorem slot_eq {g : Grid} (hr : r.Within g.extent) (hg : g.extent.volume < wordSize) {s : Nat}
    (hs : s < r.shape.volume) :
    r.coords b s >>= g.slot b = .ok (g.extent.slot (r.cellAt s)) := by
  have hcell := hr.has (has_cellAt hs)
  have hwords : ((r.cellAt s).map UInt32.ofNat).map UInt32.toNat = r.cellAt s := by
    apply Vec3.map_toNat_ofNat
    exact fun a => Nat.lt_trans (hcell a) (g.extent_lt a)
  rw [coords_eq hr (Nat.lt_of_le_of_lt hr.volume_le hg) hs]
  change g.slot b _ = _
  rw [Grid.slot_eq hg (by rw [hwords]; exact hcell), hwords]

/-- The check of a cell's coordinates does not wrap around, wherever the box ends. -/
theorem contains_iff {c : Coords} : r.contains c = true ↔ r.Has (c.map UInt32.toNat) := by
  rw [contains, Vec3.all_eq_true_iff]
  apply forall_congr'
  intro a
  rw [Bool.and_eq_true, decide_eq_true_eq, decide_eq_true_eq, first, shape, Vec3.get_map,
    Vec3.get_map, Vec3.get_map, UInt32.le_iff_toNat_le, UInt32.lt_iff_toNat_lt]
  apply and_congr_right
  intro hle
  rw [UInt32.toNat_sub_of_le _ _ (UInt32.le_iff_toNat_le.2 hle)]
  omega

theorem slot?_eq (h : r.shape.volume < wordSize) (c : Coords) :
    r.slot? b c = .ok (if r.Has (c.map UInt32.toNat) then some (r.slotAt (c.map UInt32.toNat))
      else none) := by
  rw [slot?]
  by_cases hc : r.Has (c.map UInt32.toNat)
  · have hinner : (c.zipWith (· - ·) r.origin).map UInt32.toNat =
        (c.map UInt32.toNat).zipWith (· - ·) r.first := by
      apply Vec3.ext_get
      intro a
      have ha := (hc a).1
      rw [first, Vec3.get_map, Vec3.get_map] at ha
      rw [Vec3.get_map, Vec3.get_zipWith, Vec3.get_zipWith, first, Vec3.get_map, Vec3.get_map,
        UInt32.toNat_sub_of_le _ _ (UInt32.le_iff_toNat_le.2 ha)]
    have hhas : r.grid.extent.Has ((c.zipWith (· - ·) r.origin).map UInt32.toNat) := by
      rw [hinner]
      exact hc.shape_has
    rw [if_pos (contains_iff.2 hc), if_pos hc, Grid.slot_eq (g := r.grid) h hhas, hinner]
    rfl
  · rw [if_neg (mt contains_iff.1 hc), if_neg hc]
    rfl

theorem requireInside_eq {g : Grid} (h : r.Within g.extent) : r.requireInside g = .ok () := by
  rw [requireInside, if_pos (fitsIn_iff.2 h)]

end Box

end KineticGrid
