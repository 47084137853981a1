import KineticGrid.Proofs.Space.Layout
/-!
# The order of cells

The slot order of a grid or box is given three times: by division with remainder, by multiplying
and adding, and by three nested loops. Main statement: as long as the cells of a grid can be counted
in a word, all three agree in both builds, for the grid and for every box inside it, and slots and
cells determine each other.
-/

namespace KineticGrid

variable {α β γ : Type}

/-! ## Nested loops -/

/-- Two nested loops run through the numbers of two digits, of which the inner one counts the low
digit. -/
theorem flatMap_range_map_range (f : Nat → Nat → γ) (m k : Nat) :
    ((List.range k).flatMap fun q => (List.range m).map fun r => f r q) =
      (List.range (m * k)).map fun i => f (i % m) (i / m) := by
  induction k with
  | zero => rfl
  | succ k ih =>
      have hrow : ((List.range m).map fun r => f r k) =
          (List.range m).map fun r => f ((m * k + r) % m) ((m * k + r) / m) := by
        apply List.map_congr_left
        intro r hr
        have hr := List.mem_range.1 hr
        rw [Nat.mul_add_mod, Nat.mod_eq_of_lt hr, Nat.mul_add_div (Nat.zero_lt_of_lt hr),
          Nat.div_eq_of_lt hr, Nat.add_zero]
      rw [List.range_succ, List.flatMap_append, ih, List.flatMap_singleton, hrow, Nat.mul_succ,
        List.range_add, List.map_append, List.map_map]
      rfl

section

variable {n m k : Nat} {items : List α} {f g : α → List β}

/-- A loop with at most `n` results in rounds of `m` each needs no more than `n / m + 1` rounds. -/
theorem flatMap_take_eq (hlength : ∀ a, (g a).length = m) (hrounds : n / m < k)
    (hwhole : m ≤ n → f = g) (hfew : items.length * m ≤ n) :
    (items.take k).flatMap f = items.flatMap g := by
  cases items with
  | nil => rw [List.take_nil, List.flatMap_nil, List.flatMap_nil]
  | cons a items =>
      rw [List.length_cons, Nat.succ_mul] at hfew
      rw [hwhole (by omega)]
      rcases Nat.eq_zero_or_pos m with rfl | hpos
      · have hnil (a : α) : g a = [] := List.length_eq_zero_iff.1 (hlength a)
        rw [List.flatMap_eq_nil_iff.2 fun a _ => hnil a,
          List.flatMap_eq_nil_iff.2 fun a _ => hnil a]
      · have hcount : items.length + 1 ≤ n / m := by
          rw [Nat.le_div_iff_mul_le hpos, Nat.succ_mul]
          exact hfew
        rw [List.take_of_length_le (by rw [List.length_cons]; omega)]

/-- The first `n` results of a loop in rounds of `m` need no more than `n / m + 1` rounds, and of
each round no more than its first `n` results. -/
theorem take_flatMap_take (hlength : ∀ a, (g a).length = m) (hrounds : n / m < k)
    (hwhole : m ≤ n → f = g) (hfirst : ∀ a, (f a).take n = (g a).take n) :
    ((items.take k).flatMap f).take n = (items.flatMap g).take n := by
  rcases Nat.lt_or_ge n (items.length * m) with hmany | hfew
  · rcases Nat.lt_or_ge n m with hshort | hlong
    · -- the first round has enough results
      cases items with
      | nil => rw [List.take_nil, List.flatMap_nil, List.flatMap_nil]
      | cons a items =>
          obtain ⟨k, rfl⟩ := Nat.exists_eq_succ_of_ne_zero (Nat.ne_zero_of_lt hrounds)
          have hg : n ≤ (g a).length := by rw [hlength]; omega
          have hf : n ≤ (f a).length := by
            have hcut := congrArg List.length (hfirst a)
            rw [List.length_take, List.length_take] at hcut
            omega
          rw [List.take_succ_cons, List.flatMap_cons, List.flatMap_cons,
            List.take_append_of_le_length hf, List.take_append_of_le_length hg, hfirst]
    · rw [hwhole hlong]
      rcases Nat.lt_or_ge items.length k with hall | hsome
      · rw [List.take_of_length_le (Nat.le_of_lt hall)]
      · have hpos : 0 < m := Nat.pos_of_mul_pos_left (Nat.zero_lt_of_lt hmany)
        have henough : n ≤ ((items.take k).flatMap g).length := by
          rw [List.length_flatMap, List.map_congr_left fun a _ => hlength a, List.map_const',
            List.sum_replicate_nat, List.length_take, Nat.min_eq_left hsome]
          exact Nat.le_of_lt ((Nat.div_lt_iff_lt_mul hpos).1 hrounds)
        calc ((items.take k).flatMap g).take n
            = ((items.take k).flatMap g ++ (items.drop k).flatMap g).take n :=
              (List.take_append_of_le_length henough).symm
          _ = (items.flatMap g).take n := by
              rw [← List.flatMap_append, List.take_append_drop]
  · rw [flatMap_take_eq hlength hrounds hwhole hfew]

end

namespace Extent

/-- Three nested loops, the first coordinate in the innermost one, run through the cells in slot
order. -/
theorem flatMap_cells (e : Extent) (f : Nat → Nat → Nat → γ) :
    ((List.range e.z).flatMap fun z => (List.range e.y).flatMap fun y =>
      (List.range e.x).map fun x => f x y z) =
      (List.range e.volume).map fun i => f (e.cell i).x (e.cell i).y (e.cell i).z := by
  have hplane (z : Nat) : ((List.range e.y).flatMap fun y => (List.range e.x).map fun x => f x y z)
      = (List.range (e.x * e.y)).map fun i => f (i % e.x) (i / e.x) z :=
    flatMap_range_map_range (fun x y => f x y z) _ _
  simp only [hplane]
  rw [flatMap_range_map_range fun i z => f (i % e.x) (i / e.x) z]
  simp only [Nat.mod_mul_right_mod, Nat.mod_mul_right_div_self, ← Nat.div_div_eq_div_mul]
  rfl

/-- Loops that stop early, in each row after `n` cells and otherwise after as many rows and planes
as `n` cells may begin, run through the same first `n` cells. -/
theorem take_cells (e : Extent) (f : Nat → Nat → Nat → γ) (n : Nat) :
    (((List.range e.z).take ((n / e.x + 1) / e.y + 1)).flatMap fun z =>
      ((List.range e.y).take (n / e.x + 1)).flatMap fun y =>
        ((List.range e.x).take n).map fun x => f x y z).take n =
      (List.range (min n e.volume)).map fun i => f (e.cell i).x (e.cell i).y (e.cell i).z := by
  have hrow (z y : Nat) : ((List.range e.x).map fun x => f x y z).length = e.x := by
    rw [List.length_map, List.length_range]
  have hrowWhole (z : Nat) (h : e.x ≤ n) : (fun y => ((List.range e.x).take n).map fun x => f x y z)
      = fun y => (List.range e.x).map fun x => f x y z := by
    rw [List.take_of_length_le (by rwa [List.length_range])]
  have hrowFirst (z y : Nat) : (((List.range e.x).take n).map fun x => f x y z).take n =
      ((List.range e.x).map fun x => f x y z).take n := by
    rw [← List.map_take, List.take_take, Nat.min_self, ← List.map_take]
  have hplane (z : Nat) :
      ((List.range e.y).flatMap fun y => (List.range e.x).map fun x => f x y z).length =
        e.x * e.y := by
    rw [flatMap_range_map_range (fun x y => f x y z), List.length_map, List.length_range]
  rw [take_flatMap_take hplane ?_ ?_ ?_, flatMap_cells, ← List.map_take, List.take_range]
  · rw [← Nat.div_div_eq_div_mul]
    have hle := Nat.div_le_div_right (c := e.y) (Nat.le_succ (n / e.x))
    exact Nat.lt_succ_of_le hle
  · intro hlong
    funext z
    refine flatMap_take_eq (hrow z) (Nat.lt_succ_self _) (hrowWhole z) ?_
    rwa [List.length_range, Nat.mul_comm]
  · exact fun z => take_flatMap_take (hrow z) (Nat.lt_succ_self _) (hrowWhole z) (hrowFirst z)

end Extent

namespace Box

variable {b : Build} {r : Box} {g : Grid}

theorem span_eq (n : Nat) (first extent last : UInt32)
    (h : last.toNat = first.toNat + extent.toNat) :
    span n first last =
      ((List.range extent.toNat).take n).map fun k => UInt32.ofNat (first.toNat + k) := by
  rw [span, h, Nat.add_sub_cancel_left, List.range'_eq_map_range, List.map_map, List.take_range]
  rfl

/-- The nested loops over a box inside a grid run through its cells in slot order. -/
theorem cells_eq (hr : r.Within g.extent) (n : Nat) :
    r.cells b n = .ok ((List.range (min n r.shape.volume)).map fun s =>
      (r.cellAt s).map UInt32.ofNat) := by
  have hstop (a : Axis) : (r.origin.get a).toNat + (r.extent.get a).toNat < word32Size := by
    have hra := hr a
    have hga := g.extent_lt a
    rw [first, shape, Vec3.get_map, Vec3.get_map] at hra
    omega
  have hlast : Vec3.ofAxisM (fun a => b.add32 (r.origin.get a) (r.extent.get a)) =
      .ok (r.origin.zipWith (· + ·) r.extent) := by
    apply Vec3.ofAxisM_eq
    intro a
    rw [Build.add32_eq (hstop a), Vec3.get_zipWith]
  have hspan (a : Axis) (k : Nat) :
      span k (r.origin.get a) ((r.origin.zipWith (· + ·) r.extent).get a) =
        ((List.range (r.shape.get a)).take k).map fun i => UInt32.ofNat (r.first.get a + i) := by
    rw [shape, first, Vec3.get_map, Vec3.get_map]
    apply span_eq
    rw [Vec3.get_zipWith, UInt32.toNat_add, Nat.mod_eq_of_lt (hstop a)]
  have hx := hspan .x n
  have hy := hspan .y (n / r.shape.x + 1)
  have hz := hspan .z ((n / r.shape.x + 1) / r.shape.y + 1)
  simp only [Vec3.get] at hx hy hz
  have htake := r.shape.take_cells (fun x y z => (⟨UInt32.ofNat (r.first.x + x),
    UInt32.ofNat (r.first.y + y), UInt32.ofNat (r.first.z + z)⟩ : Coords)) n
  rw [cells, hlast]
  change Except.ok (List.take n (List.flatMap _ (span ((n / r.shape.x + 1) / r.shape.y + 1) _ _)))
    = _
  rw [hz, List.flatMap_map]
  change Except.ok (List.take n (List.flatMap (fun z => List.flatMap _
    (span (n / r.shape.x + 1) _ _)) _)) = _
  simp only [hx, hy, List.flatMap_map, List.map_map, Function.comp_def]
  exact congrArg Except.ok htake

end Box

/-! ## Slots and cells -/

/-- The cells of a grid are numbered: every cell has a slot, every slot below the size a cell, and
the one leads back to the other. -/
structure Grid.Numbered (b : Build) (g : Grid) : Prop where
  size_eq : g.size b = .ok g.extent.volume
  slot_eq : ∀ c, g.contains c = true → ∃ i < g.extent.volume,
    i = g.extent.slot (c.map UInt32.toNat) ∧ g.slot b c = .ok i ∧ g.coords b i = .ok c
  coords_eq : ∀ i < g.extent.volume, ∃ c, g.contains c = true ∧
    c.map UInt32.toNat = g.extent.cell i ∧ g.coords b i = .ok c ∧ g.slot b c = .ok i

/-- The cells of a box inside a grid are numbered, and the loops over the box list them in the order
of their slots. Cells outside the box have no slot there. -/
structure Box.Numbered (b : Build) (g : Grid) (r : Box) : Prop where
  size_eq : r.size b = .ok r.shape.volume
  cells_eq : ∃ all : List Coords, all.length = r.shape.volume ∧
    (∀ n, r.cells b n = .ok (all.take n)) ∧
    ∀ s < r.shape.volume, ∃ c, all[s]? = some c ∧ r.coords b s = .ok c
  coords_eq : ∀ s < r.shape.volume, ∃ c, r.coords b s = .ok c ∧ g.contains c = true ∧
    r.slot? b c = .ok (some s)
  coords_of_slot : ∀ c s, r.slot? b c = .ok (some s) → s < r.shape.volume ∧ r.coords b s = .ok c
  slot_eq_none_iff : ∀ c, r.slot? b c = .ok none ↔ ¬r.Has (c.map UInt32.toNat)

variable {b : Build} {g : Grid} {r : Box}

theorem Grid.numbered (hg : g.extent.volume < wordSize) : g.Numbered b where
  size_eq := size_eq hg
  slot_eq c hc := by
    have hhas := contains_iff.1 hc
    have hlt := Extent.slot_lt hhas
    refine ⟨_, hlt, rfl, slot_eq hg hhas, ?_⟩
    rw [coords_eq hg hlt, Extent.cell_slot hhas, Vec3.map_ofNat_toNat]
  coords_eq i hi := by
    have hcoords := coords_eq (b := b) hg hi
    have hwords := cell_of_coords hg hi hcoords
    have hhas := Extent.has_cell hi
    rw [← hwords] at hhas
    refine ⟨_, contains_iff.2 hhas, hwords, hcoords, ?_⟩
    rw [slot_eq hg hhas, hwords, Extent.slot_cell]

theorem Box.numbered (hg : g.extent.volume < wordSize) (hr : r.Within g.extent) :
    r.Numbered b g := by
  have hsize : r.shape.volume < wordSize := Nat.lt_of_le_of_lt hr.volume_le hg
  have hwords {s : Nat} (hs : s < r.shape.volume) :
      ((r.cellAt s).map UInt32.ofNat).map UInt32.toNat = r.cellAt s :=
    Vec3.map_toNat_ofNat fun a => Nat.lt_trans (hr.has (has_cellAt hs) a) (g.extent_lt a)
  constructor
  case size_eq => exact size_eq hsize
  case cells_eq =>
    refine ⟨(List.range r.shape.volume).map fun s => (r.cellAt s).map UInt32.ofNat, ?_, ?_, ?_⟩
    · rw [List.length_map, List.length_range]
    · intro n
      rw [cells_eq hr, ← List.map_take, List.take_range]
    · intro s hs
      exact ⟨_, by rw [List.getElem?_map, List.getElem?_range hs, Option.map_some],
        coords_eq hr hsize hs⟩
  case coords_eq =>
    intro s hs
    refine ⟨_, coords_eq hr hsize hs, ?_, ?_⟩
    · rw [Grid.contains_iff, hwords hs]
      exact hr.has (has_cellAt hs)
    · rw [slot?_eq hsize, hwords hs, if_pos (has_cellAt hs), slotAt_cellAt]
  case coords_of_slot =>
    intro c s hslot
    rw [slot?_eq hsize] at hslot
    split at hslot
    next hc =>
      cases hslot
      have hlt := slotAt_lt hc
      refine ⟨hlt, ?_⟩
      rw [coords_eq hr hsize hlt, cellAt_slotAt hc, Vec3.map_ofNat_toNat]
    next => cases hslot
  case slot_eq_none_iff =>
    intro c
    rw [slot?_eq hsize]
    by_cases hc : r.Has (c.map UInt32.toNat)
    · simp [hc]
    · simp [hc]

/-- If the cells of a grid can be counted in a word, they are numbered without gaps, in both builds,
and so are the cells of every box inside the grid, in the order of the nested loops over it. -/
theorem slots_and_cells_inverse (b : Build) {g : Grid} (hg : g.extent.volume < wordSize) :
    g.Numbered b ∧ ∀ r : Box, r.fitsIn g = true → r.Numbered b g :=
  ⟨Grid.numbered hg, fun _ hr => Box.numbered hg (Box.fitsIn_iff.1 hr)⟩

/-- A box at the far end of the first axis of a grid whose cells nearly leave the word. -/
theorem slots_and_cells_inverse_far :
    let g : Grid := ⟨⟨4294967295, 4294967295, 1⟩⟩
    let r : Box := ⟨⟨4294967292, 4294967293, 0⟩, ⟨3, 2, 1⟩⟩
    g.extent.volume < wordSize ∧ r.fitsIn g = true ∧
      g.slot .debug ⟨4294967294, 4294967294, 0⟩ = .ok 18446744065119617024 ∧
      ∃ all : List Coords, all.length = 6 ∧ (∀ n, r.cells .debug n = .ok (all.take n)) ∧
        all[5]? = some ⟨4294967294, 4294967294, 0⟩ := by
  intro g r
  have hg : g.extent.volume < wordSize := by decide
  have hr : r.fitsIn g = true := by decide
  obtain ⟨hgrid, hboxes⟩ := slots_and_cells_inverse .debug hg
  obtain ⟨i, _, hi, hslot, _⟩ := hgrid.slot_eq ⟨4294967294, 4294967294, 0⟩ (by decide)
  obtain ⟨all, hlength, hcells, hlist⟩ := (hboxes r hr).cells_eq
  obtain ⟨c, hc, hcoords⟩ := hlist 5 (by decide)
  refine ⟨hg, hr, ?_, all, hlength, hcells, ?_⟩
  · rw [hslot, hi]
    exact congrArg Except.ok (by decide)
  · rw [Box.coords_eq (Box.fitsIn_iff.1 hr) (by decide) (by decide)] at hcoords
    rw [hc, ← Except.ok.inj hcoords]
    exact congrArg some (by decide)

end KineticGrid
