import KineticGrid.Proofs.Ghost.Transaction
/-!
# Shipping cells

The cells of two slabs of one grid, packed, sent as letters and merged into two slabs of another
grid, with another shape and another place of the slabs in it. Main statement: where received values
replace the local ones, every cell arrives as it was in the cell of the same slot, and no other cell
changes.
-/

namespace KineticGrid

variable {W V E : Type}

/-! ## Replacing -/

/-- The transfers that replace local values. A count replaces another one only in a storage format
that gives it back. -/
inductive Transfer.Overwrites : {V E : Type} → Transfer V E → Prop
  | copy {V : Type} : Overwrites (copy : Transfer V V)
  | motion {S A : Type} [Storage S A] : Overwrites (motion .overwrite : Transfer (Motion S) _)
  | heat {S A : Type} [Storage S A] (b : Build)
    (h : ∀ n : UInt32, Storage.unpackCount (Storage.packCount n : S) = n) :
    Overwrites (heat b .overwrite : Transfer (Heat S) _)

theorem Transfer.Overwrites.exists_mergeAt {op : Transfer V E} (h : op.Overwrites) (here : V)
    (incoming : Option E) : ∃ v, op.mergeAt here incoming = .ok v := by
  cases incoming with
  | none => exact ⟨here, rfl⟩
  | some x =>
      cases h with
      | copy => exact ⟨x, rfl⟩
      | motion => exact ⟨_, rfl⟩
      | heat => exact ⟨_, rfl⟩

theorem Transfer.Overwrites.merge_pack {op : Transfer V E} (h : op.Overwrites) (here v : V) :
    op.merge here (op.pack v) = .ok v := by
  cases h with
  | copy => rfl
  | motion =>
      obtain ⟨⟨x, y, z⟩, mass⟩ := v
      rfl
  | heat b hcount =>
      obtain ⟨energy, temperature, count⟩ := v
      change Except.ok (⟨energy, temperature, Storage.unpackCount (Storage.packCount count)⟩ :
        Heat _) = _
      rw [hcount]

/-! ## From grid to grid -/

/-- The cell of each slot of one box holds what the cell of the same slot of another box held. -/
def Box.Carries (b : Build) (g g' : Grid) (r r' : Box) (cells after : Array V) : Prop :=
  ∀ k < r.shape.volume, ∃ i i' v, r.coords b k >>= g.slot b = .ok i ∧
    r'.coords b k >>= g'.slot b = .ok i' ∧ cells[i]? = some v ∧ after[i']? = some v

theorem Box.Carries.value {b : Build} {g g' : Grid} {r r' : Box} {cells after : Array V}
    (h : Box.Carries b g g' r r' cells after) {k i i' : Nat} {v : V} (hk : k < r.shape.volume)
    (hi : r.coords b k >>= g.slot b = .ok i) (hi' : r'.coords b k >>= g'.slot b = .ok i')
    (hv : cells[i]? = some v) : after[i']? = some v := by
  obtain ⟨j, j', v', hj, hj', hv', hafter⟩ := h k hk
  obtain rfl : i = j := Except.ok.inj (hi.symm.trans hj)
  obtain rfl : i' = j' := Except.ok.inj (hi'.symm.trans hj')
  exact hafter.trans (hv'.symm.trans hv)

/-- Cells of one pair of slabs have arrived in another one, and nowhere else. -/
structure Slabs.Delivered (b : Build) (source dest : Slabs) (cells before after : Array V) :
    Prop where
  size_eq : after.size = before.size
  left : Box.Carries b source.grid dest.grid source.left dest.left cells after
  right : Box.Carries b source.grid dest.grid source.right dest.right cells after
  outside : ∀ i c, dest.grid.coords b i = .ok c → dest.left.contains c = false →
    dest.right.contains c = false → after[i]? = before[i]?

namespace Slabs

variable {s : Slabs} {left right : List E}

theorem incoming?_left {k : Nat} (hk : k < s.left.shape.volume) :
    s.incoming? left right (s.left.cellAt k) = left[k]? := by
  rw [incoming?, if_pos (Box.has_cellAt hk), Box.slotAt_cellAt]

theorem Valid.incoming?_right (h : s.Valid) {k : Nat} (hk : k < s.right.shape.volume) :
    s.incoming? left right (s.right.cellAt k) = right[k]? := by
  have hhas := Box.has_cellAt hk
  rw [incoming?, if_neg fun hleft => h.disjoint _ hleft hhas, if_pos hhas, Box.slotAt_cellAt]

end Slabs

/-- What was packed from one box and is received for the slots of another one replaces the values
of the cells there. -/
theorem Box.Packed.carries {op : Transfer V E} (hop : op.Overwrites) {b : Build} {g g' : Grid}
    {r r' : Box} {cells before after : Array V} {values : List E}
    {received : Vec3 Nat → Option E} (h : r.Packed op g.extent cells values)
    (hr : r.Within g.extent) (hr' : r'.Within g'.extent) (hg : g.extent.volume < wordSize)
    (hg' : g'.extent.volume < wordSize) (hshape : r'.shape = r.shape)
    (hbefore : before.size = g'.extent.volume)
    (hreceived : ∀ k < r'.shape.volume, received (r'.cellAt k) = values[k]?)
    (hafter : ∀ i v, before[i]? = some v →
      ∃ v', op.mergeAt v (received (g'.extent.cell i)) = .ok v' ∧ after[i]? = some v') :
    Box.Carries b g g' r r' cells after := by
  intro k hk
  have hk' : k < r'.shape.volume := by rwa [hshape]
  have hcell := hr'.has (has_cellAt hk')
  have hslot : g'.extent.slot (r'.cellAt k) < before.size := by
    rw [hbefore]
    exact Extent.slot_lt hcell
  obtain ⟨v, hv, hvalue⟩ := h.value k hk
  obtain ⟨v', hv', hnew⟩ := hafter _ _ (Array.getElem?_eq_getElem hslot)
  rw [Extent.cell_slot hcell, hreceived k hk', hvalue] at hv'
  have heq : v' = v := Except.ok.inj (hv'.symm.trans (hop.merge_pack _ v))
  rw [heq] at hnew
  exact ⟨_, _, v, slot_eq hr hg hk, slot_eq hr' hg' hk', hv, hnew⟩

namespace Slabs

/-- Cells that are packed, sent as letters and merged by replacing arrive as they were: for every
pair of valid slabs of one grid and every pair of the same extents of another one, packing fills the
buffers up to the ends of the slabs, the letters of what it packed are decoded, and merging that
gives an array with each cell of a slot of the first pair in the cell of the same slot of the second
pair, and the other cells unchanged. -/
theorem overwriting_delivers [Encoding W E] [LawfulEncoding W E] (m : Mode) (e e' : Executor)
    {requested requested' : Nat} (hrequested : requested ≠ 0) (hrequested' : requested' ≠ 0)
    {op : Transfer V E} (hop : op.Overwrites) {source dest : Slabs}
    (hsource : source.validate m.build = .ok ()) (hdest : dest.validate m.build = .ok ())
    (hg : source.grid.extent.volume < wordSize) (hg' : dest.grid.extent.volume < wordSize)
    (hrows : dest.left.shape.volume ≠ 0 →
      dest.left.shape.y * dest.left.shape.z ≤ word32Size)
    (hrows' : dest.right.shape.volume ≠ 0 →
      dest.right.shape.y * dest.right.shape.z ≤ word32Size)
    (hleft : source.left.extent = dest.left.extent)
    (hright : source.right.extent = dest.right.extent) (hroom : source.HasRoom W E)
    {cells before : Array V} (hcells : cells.size = source.grid.extent.volume)
    (hbefore : before.size = dest.grid.extent.volume) {left right : List E}
    (hl : source.left.shape.volume ≤ left.length)
    (hr : source.right.shape.volume ≤ right.length) (p : Neighbours) :
    ∃ leftOut rightOut leftIn rightIn after,
      (source.pack m e requested op cells left right).result = .ok (leftOut, rightOut) ∧
      leftOut.length = left.length ∧ rightOut.length = right.length ∧
      leftOut.drop source.left.shape.volume = left.drop source.left.shape.volume ∧
      rightOut.drop source.right.shape.volume = right.drop source.right.shape.volume ∧
      Encoding.decodeAll m.build p.left
        (Encoding.encodeAll (leftOut.take source.left.shape.volume) : List W)
        dest.left.shape.volume = .ok leftIn ∧
      Encoding.decodeAll m.build p.right
        (Encoding.encodeAll (rightOut.take source.right.shape.volume) : List W)
        dest.right.shape.volume = .ok rightIn ∧
      (dest.unpack m e' requested' op before leftIn rightIn).result = .ok after ∧
      Delivered m.build source dest cells before after := by
  have hs := (validate_eq_ok_iff hg).1 hsource
  have hd := (validate_eq_ok_iff hg').1 hdest
  have hleft' : dest.left.shape = source.left.shape := by rw [Box.shape, Box.shape, hleft]
  have hright' : dest.right.shape = source.right.shape := by rw [Box.shape, Box.shape, hright]
  have hword {n : Nat} (h : n ≤ maxArrayBytes) : n < wordSize := Nat.lt_of_le_of_lt h (by decide)
  obtain ⟨l, r, hpack, hpl, hpr⟩ := hs.exists_pack hg m e op hrequested hcells hl hr
  have hlengthl := hpl.length_eq
  have hlengthr := hpr.length_eq
  have hload : dest.Loaded before l r :=
    ⟨hg', hrows, hrows', hbefore, by rw [hleft', hlengthl], by rw [hright', hlengthr]⟩
  obtain ⟨after, hunpack, hsize, hvalues⟩ :=
    hd.exists_unpacked hload m e' op hrequested' fun _ v _ => hop.exists_mergeAt v _
  refine ⟨_, _, l, r, after, hpack, ?_, ?_, ?_, ?_, ?_, ?_, hunpack, hsize, ?_, ?_, ?_⟩
  · simp only [List.length_append, List.length_drop]
    omega
  · simp only [List.length_append, List.length_drop]
    omega
  · rw [← hlengthl, List.drop_left]
  · rw [← hlengthr, List.drop_left]
  · rw [hleft', ← hlengthl, List.take_left]
    exact Encoding.decodeAll_encodeAll _ _ l (hword (by rw [hlengthl]; exact hroom.1))
  · rw [hright', ← hlengthr, List.take_left]
    exact Encoding.decodeAll_encodeAll _ _ r (hword (by rw [hlengthr]; exact hroom.2))
  · exact hpl.carries hop hs.left hd.left hg hg' hleft' hbefore (fun _ => incoming?_left) hvalues
  · exact hpr.carries hop hs.right hd.right hg hg' hright' hbefore (fun _ => hd.incoming?_right)
      hvalues
  · exact fun _ _ => outside_of_merged hload hsize hvalues

def rowSlabs : Slabs := ⟨⟨⟨3, 1, 1⟩⟩, ⟨⟨0, 0, 0⟩, ⟨2, 1, 1⟩⟩, ⟨⟨2, 0, 0⟩, ⟨1, 1, 1⟩⟩⟩

def squareSlabs : Slabs := ⟨⟨⟨2, 2, 1⟩⟩, ⟨⟨0, 1, 0⟩, ⟨2, 1, 1⟩⟩, ⟨⟨1, 0, 0⟩, ⟨1, 1, 1⟩⟩⟩

/-- A signalling NaN, negative zero, and a count whose bits are those of a NaN. -/
def oddHeat : Heat Binary32 := ⟨⟨0x7f800001⟩, ⟨0x80000000⟩, 0x7fa00001⟩

theorem overwriting_delivers_odd :
    ∃ leftIn rightIn after, (squareSlabs.unpack ⟨.debug, .off⟩ .shared 1
        (.heat .debug .overwrite : Transfer (Heat Binary32) _) (Array.replicate 4 .zero)
        leftIn rightIn).result = .ok after ∧
      after[0]? = some .zero ∧ after[1]? = some oddHeat ∧ after[2]? = some .zero ∧
      after[3]? = some oddHeat := by
  have hop : (Transfer.heat .debug .overwrite : Transfer (Heat Binary32) _).Overwrites :=
    .heat .debug fun _ => rfl
  have hsource : rowSlabs.validate .debug = .ok () := by decide
  have hdest : squareSlabs.validate .debug = .ok () := by decide
  have hroom : rowSlabs.HasRoom UInt8 (HeatRecord Binary32) := ⟨by decide, by decide⟩
  let cells : Array (Heat Binary32) := #[.zero, oddHeat, oddHeat]
  have hcells : cells.size = rowSlabs.grid.extent.volume := rfl
  let before : Array (Heat Binary32) := Array.replicate 4 .zero
  have hbefore : before.size = squareSlabs.grid.extent.volume := rfl
  let buffer : List (HeatRecord Binary32) := List.replicate 3 ⟨⟨0⟩, ⟨0⟩, ⟨0⟩⟩
  have hl : rowSlabs.left.shape.volume ≤ buffer.length := by decide
  have hr : rowSlabs.right.shape.volume ≤ buffer.length := by decide
  obtain ⟨_, _, leftIn, rightIn, after, _, _, _, _, _, _, _, hunpack, hdelivered⟩ :=
    overwriting_delivers ⟨.debug, .off⟩ .shared .shared (Nat.succ_ne_zero 4) (Nat.succ_ne_zero 0)
      hop hsource hdest (by decide) (by decide) (by decide) (by decide) rfl rfl hroom hcells
      hbefore hl hr ⟨0, 1⟩
  refine ⟨leftIn, rightIn, after, hunpack, ?_, ?_, ?_, ?_⟩
  · exact hdelivered.outside 0 ⟨0, 0, 0⟩ rfl rfl rfl
  · exact hdelivered.right.value Nat.zero_lt_one rfl rfl rfl
  · exact hdelivered.left.value Nat.zero_lt_two rfl rfl rfl
  · exact hdelivered.left.value Nat.one_lt_two rfl rfl rfl

end Slabs

end KineticGrid
