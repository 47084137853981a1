import KineticGrid.Proofs.Sweep.Builds
import KineticGrid.Proofs.Sweep.Readings
import Mathlib.Data.List.TakeWhile
/-!
# Tables of raw indices

Bins from a table with room for `width` raw indices per cell, against bins from lists. A table that
is long enough should give the bins, or the error, of the lists of those of its entries that count,
unless a cell asks for more than `width` entries; such a cell should be reported after the lists of
the cells before it, and all other entries never be looked at. Main statement: this is so exactly if
memory has room for as many entries as all the counts together ask for, those of an overfull cell
included.
-/

namespace KineticGrid

namespace Bins

variable {S : Type} {b : Build} {memory : Nat} {p : Particles S} {width : Nat}
  {raw raw' : Array UInt32} {counts : List UInt32}

def row (width : Nat) (raw : Array UInt32) (count : UInt32) (cell : Nat) : List UInt32 :=
  (raw.extract (cell * width) (cell * width + count.toNat)).toList

def rowsFrom (cell : Nat) (counts : List UInt32) (width : Nat) (raw : Array UInt32) :
    List (List UInt32) :=
  (counts.zipIdx cell).map fun (count, cell) => row width raw count cell

def rows (counts : List UInt32) (width : Nat) (raw : Array UInt32) : List (List UInt32) :=
  rowsFrom 0 counts width raw

theorem rowsFrom_cons (cell : Nat) (count : UInt32) (counts : List UInt32) (width : Nat)
    (raw : Array UInt32) :
    rowsFrom cell (count :: counts) width raw =
      row width raw count cell :: rowsFrom (cell + 1) counts width raw := rfl

/-- The counts of the cells before the first one that asks for more entries than it has. -/
def fitting (width : Nat) (counts : List UInt32) : List UInt32 :=
  counts.takeWhile fun count => count.toNat ≤ width

def resolveRow (p : Particles S) (width : Nat) (raw : Array UInt32) (count : UInt32)
    (cell : Nat) : Fallible (List Particle) := do
  if width < count.toNat then
    Fallible.reject (.lengthMismatch .binWidth width count.toNat)
  (row width raw count cell).mapM p.classify

theorem resolveRow_of_le {count : UInt32} {cell : Nat} (h : count.toNat ≤ width) :
    resolveRow p width raw count cell = (row width raw count cell).mapM p.classify := by
  rw [resolveRow, if_neg (Nat.not_lt.2 h)]

theorem resolveRow_of_lt {count : UInt32} {cell : Nat} (h : width < count.toNat) :
    resolveRow p width raw count cell =
      Fallible.reject (.lengthMismatch .binWidth width count.toNat) := by
  rw [resolveRow, if_pos h]
  rfl

/-- Resolving a table stops at the first raw index without a particle, or else at the first cell
that asks for too much. -/
theorem mapM_resolveRow (p : Particles S) (width : Nat) (raw : Array UInt32)
    (counts : List UInt32) (cell : Nat) :
    ((counts.zipIdx cell).mapM fun (count, cell) => resolveRow p width raw count cell) =
      match p.firstUnresolved? (rowsFrom cell (fitting width counts) width raw).flatten with
      | some bad => Fallible.reject (p.invalid bad)
      | none =>
        match counts.find? fun count => width < count.toNat with
        | some count => Fallible.reject (.lengthMismatch .binWidth width count.toNat)
        | none => .ok ((rowsFrom cell (fitting width counts) width raw).map fun list =>
            list.filterMap p.resolve?) := by
  induction counts generalizing cell with
  | nil => rfl
  | cons count counts ih =>
      rw [List.zipIdx_cons, List.mapM_cons, ih (cell + 1)]
      by_cases hfits : count.toNat ≤ width
      · have hfitting : fitting width (count :: counts) = count :: fitting width counts :=
          List.takeWhile_cons_of_pos (decide_eq_true hfits)
        rw [hfitting, rowsFrom_cons, List.flatten_cons, Particles.firstUnresolved?_append,
          List.find?_cons_of_neg (by simpa using hfits)]
        dsimp only
        rw [resolveRow_of_le hfits, p.mapM_classify]
        cases p.firstUnresolved? (row width raw count cell) with
        | some bad => rfl
        | none =>
            cases p.firstUnresolved?
                (rowsFrom (cell + 1) (fitting width counts) width raw).flatten with
            | some bad => rfl
            | none =>
                cases counts.find? fun count => decide (width < count.toNat) <;> rfl
      · have hfitting : fitting width (count :: counts) = [] :=
          List.takeWhile_cons_of_neg (by simpa using hfits)
        rw [hfitting, List.find?_cons_of_pos (by simpa using hfits)]
        dsimp only
        rw [resolveRow_of_lt (Nat.not_le.1 hfits)]
        rfl

/-! ## Words and memory -/

/-- The sizes that a table leads to are words: its own, that of the starts of its cells, and that of
the entries that its counts ask for. -/
structure InWords (counts : List UInt32) (width : Nat) : Prop where
  table_lt : counts.length * width < wordSize
  starts_lt : counts.length + 1 < wordSize
  entries_lt : (counts.map UInt32.toNat).sum < wordSize

/-- The two arrays of the bins of a table can exist: the starts of its cells, and as many entries
as its counts ask for. -/
structure Addressable (counts : List UInt32) : Prop where
  starts_fit : StartsFit counts.length
  entries_le : (counts.map UInt32.toNat).sum * entryBytes ≤ maxArrayBytes

/-- Both arrays can exist, and an allocator that hands out at most `memory` bytes at once grants
the entries. -/
structure HasRoom (memory : Nat) (counts : List UInt32) : Prop extends Addressable counts where
  entries_granted : (counts.map UInt32.toNat).sum * entryBytes ≤ memory

instance (counts : List UInt32) : Decidable (Addressable counts) :=
  decidable_of_iff (StartsFit counts.length ∧
    (counts.map UInt32.toNat).sum * entryBytes ≤ maxArrayBytes)
    ⟨fun h => ⟨h.1, h.2⟩, fun h => ⟨h.1, h.2⟩⟩

instance (memory : Nat) (counts : List UInt32) : Decidable (HasRoom memory counts) :=
  decidable_of_iff (Addressable counts ∧ (counts.map UInt32.toNat).sum * entryBytes ≤ memory)
    ⟨fun h => ⟨h.1, h.2⟩, fun h => ⟨h.1, h.2⟩⟩

/-- What stops a table without room. -/
def shortage (counts : List UInt32) : Fault :=
  if Addressable counts then .outOfMemory else .capacity

theorem tableSize_eq (h : (counts.map UInt32.toNat).sum < wordSize) :
    tableSize b counts = .ok (counts.map UInt32.toNat).sum := by
  have hfrom (start : Nat) (hstart : start + (counts.map UInt32.toNat).sum < wordSize) :
      counts.foldlM (fun total count => b.word (total + count.toNat)) start =
        .ok (start + (counts.map UInt32.toNat).sum) := by
    clear h
    induction counts generalizing start with
    | nil => rfl
    | cons count counts ih =>
        rw [List.map_cons, List.sum_cons, ← Nat.add_assoc] at hstart ⊢
        rw [List.foldlM_cons, Build.word_eq (by omega)]
        exact ih (start + count.toNat) hstart
  have htotal := hfrom 0 (by omega)
  rwa [Nat.zero_add] at htotal

theorem tableRow_eq (hsize : counts.length * width < wordSize)
    (h : counts.length * width ≤ raw.size) {count : UInt32} {cell : Nat}
    (hcell : cell < counts.length) (hcount : count.toNat ≤ width) :
    tableRow b width raw count cell = .ok (row width raw count cell) := by
  have hstop : cell * width + count.toNat ≤ counts.length * width :=
    calc cell * width + count.toNat ≤ cell * width + width := Nat.add_le_add_left hcount _
      _ = (cell + 1) * width := (Nat.succ_mul _ _).symm
      _ ≤ counts.length * width := Nat.mul_le_mul_right _ hcell
  rw [tableRow, if_neg (Nat.not_lt.2 hcount), Build.word_eq (by omega)]
  change (liftM (b.word (cell * width + count.toNat)) >>= fun stop =>
    liftM (slice raw (cell * width) stop) : Fallible (List UInt32)) = _
  rw [Build.word_eq (by omega)]
  change (liftM (slice raw (cell * width) (cell * width + count.toNat)) :
    Fallible (List UInt32)) = _
  rw [slice, if_pos (by omega)]
  rfl

/-- A table that is long enough is resolved cell by cell. -/
theorem mapM_tableRow (hwords : InWords counts width) (h : counts.length * width ≤ raw.size) :
    (counts.zipIdx.mapM fun (count, cell) => do
      (← tableRow b width raw count cell).mapM p.classify) =
      counts.zipIdx.mapM fun (count, cell) => resolveRow p width raw count cell := by
  apply mapM_congr
  rintro ⟨count, cell⟩ hmem
  obtain ⟨hcell, _⟩ := List.getElem?_eq_some_iff.1 (List.mk_mem_zipIdx_iff_getElem?.1 hmem)
  dsimp only
  rcases Nat.lt_or_ge width count.toNat with hover | hfits
  · rw [resolveRow_of_lt hover, tableRow, if_pos hover]
    rfl
  · rw [resolveRow_of_le hfits, tableRow_eq hwords.table_lt h hcell hfits]
    rfl

theorem reserveEntries_eq {entries : Nat} (h : entries * entryBytes ≤ maxArrayBytes) :
    reserveEntries memory entries =
      if memory < entries * entryBytes then .error .outOfMemory else .ok () := by
  rw [reserveEntries, reserve_eq h]
  rfl

/-- Both reservations of a table, one after the other. -/
def reserveTable (b : Build) (memory : Nat) (counts : List UInt32) : Checked Unit := do
  reserveStarts b counts.length
  reserveEntries memory (counts.map UInt32.toNat).sum

theorem reserveTable_of_hasRoom (h : HasRoom memory counts) :
    reserveTable b memory counts = .ok () := by
  rw [reserveTable, reserveStarts_eq h.starts_fit, reserveEntries_eq h.entries_le,
    if_neg (Nat.not_lt.2 h.entries_granted)]
  rfl

theorem reserveTable_of_not_hasRoom (hstarts : counts.length + 1 < wordSize)
    (h : ¬HasRoom memory counts) : reserveTable b memory counts = .error (shortage counts) := by
  rw [reserveTable, shortage]
  by_cases hexists : Addressable counts
  · have hrefused : memory < (counts.map UInt32.toNat).sum * entryBytes :=
      Nat.lt_of_not_le fun hle => h ⟨hexists, hle⟩
    rw [reserveStarts_eq hexists.starts_fit, reserveEntries_eq hexists.entries_le,
      if_pos hrefused, if_pos hexists]
    rfl
  · rw [if_neg hexists]
    by_cases hfit : StartsFit counts.length
    · have hentries : ¬(counts.map UInt32.toNat).sum * entryBytes ≤ maxArrayBytes :=
        fun hle => hexists ⟨hfit, hle⟩
      rw [reserveStarts_eq hfit, reserveEntries, reserve_eq_capacity hentries]
      rfl
    · have hcapacity : reserve ((counts.length + 1) * entryBytes) = .error .capacity :=
        reserve_eq_capacity hfit
      rw [reserveStarts, Build.word_eq hstarts, ok_bind, hcapacity]
      rfl

theorem ofTable_of_lt (hwords : InWords counts width) (h : raw.size < counts.length * width) :
    ofTable b memory p counts width raw =
      Fallible.reject (.lengthMismatch .rawBins (counts.length * width) raw.size) := by
  have hsize := hwords.table_lt
  rw [ofTable, Nat.min_eq_left (by omega), if_pos h]
  rfl

/-- Before a table that is long enough is resolved, memory is reserved for all entries that it asks
for. -/
theorem ofTable_eq (hwords : InWords counts width) (h : counts.length * width ≤ raw.size) :
    ofTable b memory p counts width raw =
      (liftM (reserveTable b memory counts) : Fallible Unit) >>= fun _ =>
        (counts.zipIdx.mapM fun (count, cell) => resolveRow p width raw count cell) >>= fun cells =>
          .ok (ofCells p cells) := by
  rw [ofTable, if_neg (by omega), tableSize_eq hwords.entries_lt, ← mapM_tableRow hwords h,
    reserveTable]
  cases reserveStarts b counts.length <;> rfl

/-- The bins, or the error, of a table that is long enough. -/
theorem ofTable_of_le (hwords : InWords counts width) (h : counts.length * width ≤ raw.size)
    (hroom : HasRoom memory counts) :
    ofTable b memory p counts width raw =
      match p.firstUnresolved? (rows (fitting width counts) width raw).flatten with
      | some bad => Fallible.reject (p.invalid bad)
      | none =>
        match counts.find? fun count => width < count.toNat with
        | some count => Fallible.reject (.lengthMismatch .binWidth width count.toNat)
        | none => .ok (ofCells p ((rows (fitting width counts) width raw).map fun list =>
            list.filterMap p.resolve?)) := by
  rw [ofTable_eq hwords h, reserveTable_of_hasRoom hroom, mapM_resolveRow, rows]
  cases p.firstUnresolved? (rowsFrom 0 (fitting width counts) width raw).flatten with
  | some bad => rfl
  | none => cases counts.find? fun count => decide (width < count.toNat) <;> rfl

theorem ofTable_of_not_hasRoom (hwords : InWords counts width)
    (h : counts.length * width ≤ raw.size) (hroom : ¬HasRoom memory counts) :
    ofTable b memory p counts width raw = .error (.fault (shortage counts)) := by
  rw [ofTable_eq hwords h, reserveTable_of_not_hasRoom hwords.starts_lt hroom]
  rfl

/-! ## Tables and lists -/

theorem fitting_eq_self (h : ∀ count ∈ counts, count.toNat ≤ width) :
    fitting width counts = counts :=
  List.takeWhile_eq_self_iff.2 fun count hcount => decide_eq_true (h count hcount)

theorem find?_eq_none_of_le (h : ∀ count ∈ counts, count.toNat ≤ width) :
    (counts.find? fun count => width < count.toNat) = none := by
  rw [List.find?_eq_none]
  intro count hcount
  simpa using h count hcount

theorem length_rows (counts : List UInt32) (width : Nat) (raw : Array UInt32) :
    (rows counts width raw).length = counts.length := by
  rw [rows, rowsFrom, List.length_map, List.length_zipIdx]

theorem ofTable_eq_ofLists (hwords : InWords counts width) (h : counts.length * width ≤ raw.size)
    (hroom : HasRoom memory counts) (hfits : ∀ count ∈ counts, count.toNat ≤ width) :
    ofTable b memory p counts width raw = ofLists b p (rows counts width raw) := by
  have hspace : StartsFit (rows counts width raw).length := by
    rw [length_rows]
    exact hroom.starts_fit
  rw [ofTable_of_le hwords h hroom, ofLists_eq hspace, fitting_eq_self hfits,
    find?_eq_none_of_le hfits]
  cases p.firstUnresolved? (rows counts width raw).flatten <;> rfl

theorem ofTable_overfull {before after : List UInt32} {count : UInt32}
    (hwords : InWords (before ++ count :: after) width)
    (h : (before ++ count :: after).length * width ≤ raw.size)
    (hroom : HasRoom memory (before ++ count :: after))
    (hbefore : ∀ k ∈ before, k.toNat ≤ width) (hcount : width < count.toNat) :
    ofTable b memory p (before ++ count :: after) width raw =
      match p.firstUnresolved? (rows before width raw).flatten with
      | some bad => Fallible.reject (p.invalid bad)
      | none => Fallible.reject (.lengthMismatch .binWidth width count.toNat) := by
  have hfitting : fitting width (before ++ count :: after) = before := by
    rw [fitting, List.takeWhile_append_of_pos fun k hk => decide_eq_true (hbefore k hk),
      List.takeWhile_cons_of_neg (by simpa using hcount), List.append_nil]
  have hfirst : ((before ++ count :: after).find? fun count => width < count.toNat) =
      some count := by
    rw [List.find?_append, find?_eq_none_of_le hbefore, Option.none_or,
      List.find?_cons_of_pos (by simpa using hcount)]
  rw [ofTable_of_le hwords h hroom, hfitting, hfirst]

/-! ## Entries that are looked at -/

def AgreeOn (counts : List UInt32) (width : Nat) (raw raw' : Array UInt32) : Prop :=
  ∀ (cell : Nat) (count : UInt32), counts[cell]? = some count → count.toNat ≤ width →
    ∀ k < count.toNat, raw'[cell * width + k]? = raw[cell * width + k]?

theorem row_congr {count : UInt32} {cell : Nat} (hsize : raw'.size = raw.size)
    (h : ∀ k < count.toNat, raw'[cell * width + k]? = raw[cell * width + k]?) :
    row width raw' count cell = row width raw count cell := by
  unfold row
  congr 1
  apply Array.ext_getElem?
  intro k
  rw [Array.getElem?_extract, Array.getElem?_extract, hsize]
  split
  · exact h k (by omega)
  · rfl

theorem rows_fitting_congr (hsize : raw'.size = raw.size) (h : AgreeOn counts width raw raw') :
    rows (fitting width counts) width raw' = rows (fitting width counts) width raw := by
  apply List.map_congr_left
  rintro ⟨count, cell⟩ hcell
  have hcell := List.mk_mem_zipIdx_iff_getElem?.1 hcell
  have hfits : count.toNat ≤ width := by
    simpa using List.mem_takeWhile_imp (List.mem_of_getElem? hcell)
  have hprefix : fitting width counts <+: counts := List.takeWhile_prefix _
  obtain ⟨hlt, hcount⟩ := List.getElem?_eq_some_iff.1 hcell
  have hcounts : counts[cell]? = some count := by
    rw [List.prefix_iff_getElem?.1 hprefix cell hlt, hcount]
  exact row_congr hsize (h cell count hcounts hfits)

theorem ofTable_congr (hwords : InWords counts width) (hsize : raw'.size = raw.size)
    (h : AgreeOn counts width raw raw') :
    ofTable b memory p counts width raw' = ofTable b memory p counts width raw := by
  rcases Nat.lt_or_ge raw.size (counts.length * width) with hshort | hlong
  · rw [ofTable_of_lt hwords hshort, ofTable_of_lt hwords (by rwa [hsize]), hsize]
  · by_cases hroom : HasRoom memory counts
    · rw [ofTable_of_le hwords hlong hroom, ofTable_of_le hwords (by rwa [hsize]) hroom,
        rows_fitting_congr hsize h]
    · rw [ofTable_of_not_hasRoom hwords hlong hroom,
        ofTable_of_not_hasRoom hwords (by rwa [hsize]) hroom]

/-! ## The promise of a table -/

theorem ofTable_ne_fault (hwords : InWords counts width)
    (hroom : counts.length * width ≤ raw.size → HasRoom memory counts) (f : Fault) :
    ofTable b memory p counts width raw ≠ .error (.fault f) := by
  rcases Nat.lt_or_ge raw.size (counts.length * width) with hshort | hlong
  · rw [ofTable_of_lt hwords hshort]
    exact nofun
  · rw [ofTable_of_le hwords hlong (hroom hlong)]
    cases p.firstUnresolved? (rows (fitting width counts) width raw).flatten with
    | some bad => exact nofun
    | none => cases counts.find? fun count => decide (width < count.toNat) <;> exact nofun

/-- A table that is too short is refused. One whose cells have room for the entries they ask for
gives what its lists give, the bins or the error. Otherwise the first cell without room is
refused, unless a raw index of the cells before it stands for no particle. Entries that do not count
are never looked at, and nothing stops with a fault. -/
structure AgreesWithLists (b : Build) (memory : Nat) (p : Particles S) (counts : List UInt32)
    (width : Nat) (raw : Array UInt32) : Prop where
  short : raw.size < counts.length * width → ofTable b memory p counts width raw =
    .error (.error (.lengthMismatch .rawBins (counts.length * width) raw.size))
  fitting : counts.length * width ≤ raw.size → (∀ count ∈ counts, count.toNat ≤ width) →
    ofTable b memory p counts width raw = ofLists b p (rows counts width raw)
  overfull : counts.length * width ≤ raw.size →
    ∀ before count after, counts = before ++ count :: after →
    (∀ k ∈ before, k.toNat ≤ width) → width < count.toNat →
    ofTable b memory p counts width raw = .error (.error (
      match p.firstUnresolved? (rows before width raw).flatten with
      | some bad => .invalidParticle bad p.nativeSize p.embeddedSize
      | none => .lengthMismatch .binWidth width count.toNat))
  unseen : ∀ raw' : Array UInt32, raw'.size = raw.size → AgreeOn counts width raw raw' →
    ofTable b memory p counts width raw' = ofTable b memory p counts width raw
  ne_fault : ∀ f, ofTable b memory p counts width raw ≠ .error (.fault f)

/-- As long as all sizes are words, a table keeps its promise exactly if it is refused for its
length or memory has room for what its counts ask for. Without room both builds stop, even if the
first count is past the width and bins would not need any entry. -/
theorem ofTable_agrees_iff_hasRoom (b : Build) (memory : Nat) (p : Particles S)
    (counts : List UInt32) (width : Nat) (raw : Array UInt32) (hwords : InWords counts width) :
    (AgreesWithLists b memory p counts width raw ↔
      (counts.length * width ≤ raw.size → HasRoom memory counts)) ∧
    (counts.length * width ≤ raw.size → ¬HasRoom memory counts →
      ofTable b memory p counts width raw = .error (.fault (shortage counts))) := by
  refine ⟨⟨fun h hlong => ?_, fun hroom => ?_⟩, ofTable_of_not_hasRoom hwords⟩
  · by_contra hroom
    exact h.ne_fault _ (ofTable_of_not_hasRoom hwords hlong hroom)
  · refine ⟨ofTable_of_lt hwords, fun hlong => ofTable_eq_ofLists hwords hlong (hroom hlong), ?_,
      fun _ => ofTable_congr hwords, ofTable_ne_fault hwords hroom⟩
    rintro hlong before count after rfl hbefore hcount
    rw [ofTable_overfull hwords hlong (hroom hlong) hbefore hcount]
    cases p.firstUnresolved? (rows before width raw).flatten <;> rfl

/-- Two native particles and tables of width three, two and one: entries that do not count may name
anything, and of a bad raw index and a cell that asks for too much the first one is reported. -/
theorem ofTable_agrees_iff_hasRoom_two :
    let p : Particles Rat := .native #[.fill 0, .fill 1] 1
    (∃ bins, ofTable .debug 64 p [1, 2] 3 #[0, 99, 99, 1, 0, 99] = .ok bins ∧
      ofTable .debug 64 p [1, 2] 3 #[0, 7, 8, 1, 0, 9] = .ok bins ∧
      ofLists .debug p [[0], [1, 0]] = .ok bins) ∧
    ofTable .debug 64 p [1, 4] 3 #[0, 99, 99, 1, 0, 99] =
      .error (.error (.lengthMismatch .binWidth 3 4)) ∧
    ofTable .release 64 p [2, 3] 2 #[0, 7, 1, 1] =
      .error (.error (.invalidParticle 7 2 0)) ∧
    ofTable .release 64 p [1, 1] 1 #[0] = .error (.error (.lengthMismatch .rawBins 2 1)) := by
  intro p
  have hfit := (ofTable_agrees_iff_hasRoom .debug 64 p [1, 2] 3 #[0, 99, 99, 1, 0, 99]
    ⟨by decide, by decide, by decide⟩).1.2 fun _ => by decide
  have hover := (ofTable_agrees_iff_hasRoom .debug 64 p [1, 4] 3 #[0, 99, 99, 1, 0, 99]
    ⟨by decide, by decide, by decide⟩).1.2 fun _ => by decide
  have hbad := (ofTable_agrees_iff_hasRoom .release 64 p [2, 3] 2 #[0, 7, 1, 1]
    ⟨by decide, by decide, by decide⟩).1.2 fun _ => by decide
  have hshort := (ofTable_agrees_iff_hasRoom .release 64 p [1, 1] 1 #[0]
    ⟨by decide, by decide, by decide⟩).1.2 fun _ => by decide
  refine ⟨?_, ?_, ?_, hshort.short (by decide)⟩
  · obtain ⟨bins, hbins⟩ : ∃ bins, ofLists .debug p [[0], [1, 0]] = .ok bins := ⟨_, rfl⟩
    have htable := (hfit.fitting (by decide) (by simp)).trans hbins
    have hagree : AgreeOn [1, 2] 3 #[0, 99, 99, 1, 0, 99] #[0, 7, 8, 1, 0, 9] := by
      rintro (_ | _ | cell) count hcount _ k hk
      · cases hcount
        obtain rfl : k = 0 := Nat.lt_one_iff.1 hk
        rfl
      · cases hcount
        obtain rfl | rfl : k = 0 ∨ k = 1 :=
          Nat.le_one_iff_eq_zero_or_eq_one.1 (Nat.le_of_lt_succ hk)
        · rfl
        · rfl
      · cases hcount
    exact ⟨bins, htable, (hfit.unseen #[0, 7, 8, 1, 0, 9] rfl hagree).trans htable, hbins⟩
  · rw [hover.overfull (by decide) [1] 4 [] rfl (by simp) (by decide)]
    rfl
  · rw [hbad.overfull (by decide) [2] 3 [] rfl (by simp) (by decide)]
    rfl

/-- Cells that each ask for as many entries as a count can name. -/
def greatest (cells : Nat) : List UInt32 := List.replicate cells 4294967295

theorem sum_greatest (cells : Nat) :
    ((greatest cells).map UInt32.toNat).sum = cells * 4294967295 := by
  rw [greatest, List.map_replicate, List.sum_replicate_nat]
  rfl

theorem inWords_greatest {cells : Nat} (h : cells ≤ 2 ^ 28 + 1) : InWords (greatest cells) 0 := by
  refine ⟨?_, ?_, ?_⟩
  · exact Nat.zero_lt_of_lt (by decide : 0 < wordSize)
  · rw [greatest, List.length_replicate]
    unfold wordSize
    omega
  · rw [sum_greatest]
    unfold wordSize
    omega

theorem addressable_greatest_iff {cells : Nat} :
    Addressable (greatest cells) ↔ cells ≤ 2 ^ 28 := by
  constructor
  · rintro ⟨_, hentries⟩
    rw [sum_greatest] at hentries
    unfold entryBytes maxArrayBytes at hentries
    omega
  · intro h
    refine ⟨?_, ?_⟩
    · rw [StartsFit, greatest, List.length_replicate]
      unfold entryBytes maxArrayBytes
      omega
    · rw [sum_greatest]
      unfold entryBytes maxArrayBytes
      omega

/-- In a table of width zero already the first of such cells is past the width, but the table is
not refused for that. What 8193 of them ask for is more than 48 bits can address, and what 2^28 + 1
of them ask for is more than an array can hold. -/
theorem ofTable_stops_before_width :
    let p : Particles Rat := .native #[] 0
    (∀ (b : Build) (memory : Nat), memory ≤ 2 ^ 48 →
      ofTable b memory p (greatest 8193) 0 #[] = .error (.fault .outOfMemory) ∧
      ¬AgreesWithLists b memory p (greatest 8193) 0 #[]) ∧
    ∀ (b : Build) (memory : Nat),
      ofTable b memory p (greatest (2 ^ 28 + 1)) 0 #[] = .error (.fault .capacity) ∧
      ¬AgreesWithLists b memory p (greatest (2 ^ 28 + 1)) 0 #[] := by
  intro p
  have hlong (cells : Nat) : (greatest cells).length * 0 ≤ (#[] : Array UInt32).size :=
    Nat.le_refl 0
  refine ⟨fun b memory hmemory => ?_, fun b memory => ?_⟩
  · have hroom : ¬HasRoom memory (greatest 8193) := by
      rintro ⟨_, hgranted⟩
      rw [sum_greatest] at hgranted
      unfold entryBytes at hgranted
      omega
    have hstops : ofTable b memory p (greatest 8193) 0 #[] = _ :=
      ofTable_of_not_hasRoom (inWords_greatest (by omega)) (hlong _) hroom
    rw [shortage, if_pos (addressable_greatest_iff.2 (by omega))] at hstops
    exact ⟨hstops, fun h => h.ne_fault .outOfMemory hstops⟩
  · have hexists : ¬Addressable (greatest (2 ^ 28 + 1)) := fun h =>
      absurd (addressable_greatest_iff.1 h) (by omega)
    have hstops : ofTable b memory p (greatest (2 ^ 28 + 1)) 0 #[] = _ :=
      ofTable_of_not_hasRoom (inWords_greatest (Nat.le_refl _)) (hlong _) fun h =>
        hexists h.toAddressable
    rw [shortage, if_neg hexists] at hstops
    exact ⟨hstops, fun h => h.ne_fault .capacity hstops⟩

end Bins

end KineticGrid
