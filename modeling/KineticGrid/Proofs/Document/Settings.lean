import KineticGrid.Proofs.Document.Reading
import KineticGrid.Proofs.Domain.Made
import Mathlib.Data.List.Nodup
/-!
# Settings documents

Settings are written as an object of some of their fields. Main statement: reading such an object
gives the fields that it has and the standard values of the others, in whatever order and with
whatever blanks it is written, and a number of dimensions that is not supported is refused wherever
it stands.
-/

namespace KineticGrid

/-! ## Fields -/

inductive Settings.Field where
  | dimension
  | accumulateBlock
  | finalizeBlock
  | stageBlock
  | reduceBlock
  | packBlock
  | threads
deriving DecidableEq, Repr

def Settings.only (c : Settings) (F : List Field) : Settings where
  dimension := if .dimension ∈ F then c.dimension else standard.dimension
  accumulateBlock := if .accumulateBlock ∈ F then c.accumulateBlock else standard.accumulateBlock
  finalizeBlock := if .finalizeBlock ∈ F then c.finalizeBlock else standard.finalizeBlock
  stageBlock := if .stageBlock ∈ F then c.stageBlock else standard.stageBlock
  reduceBlock := if .reduceBlock ∈ F then c.reduceBlock else standard.reduceBlock
  packBlock := if .packBlock ∈ F then c.packBlock else standard.packBlock
  threads := if .threads ∈ F then c.threads else standard.threads

namespace Settings.Field

open Document Document.Reader

def name : Field → String
  | .dimension => "dimensions"
  | .accumulateBlock => "accumulate_block"
  | .finalizeBlock => "finalize_block"
  | .stageBlock => "stage_block"
  | .reduceBlock => "reduce_block"
  | .packBlock => "pack_block"
  | .threads => "threads"

def write (c : Settings) : Field → List Token
  | .dimension => Schema.dimension.write c.dimension
  | .accumulateBlock => writeNat c.accumulateBlock.toNat
  | .finalizeBlock => writeNat c.finalizeBlock.toNat
  | .stageBlock => writeNat c.stageBlock.toNat
  | .reduceBlock => writeNat c.reduceBlock.toNat
  | .packBlock => writeNat c.packBlock.toNat
  | .threads => (c.threads.map fun n => writeNat n.toNat).getD [.null]

def writeNumbered (n : UInt32) (c : Settings) : Field → List Token
  | .dimension => writeNat n.toNat
  | f => f.write c

theorem writeNumbered_of_ne (n : UInt32) (c : Settings) {f : Field} (h : f ≠ .dimension) :
    writeNumbered n c f = f.write c := by
  cases f with
  | dimension => exact absurd rfl h
  | _ => rfl

def all : List Field :=
  [.dimension, .accumulateBlock, .finalizeBlock, .stageBlock, .reduceBlock, .packBlock, .threads]

theorem mem_all (f : Field) : f ∈ all := by cases f <;> decide

theorem plain_name (f : Field) : (writeName f.name).Plain := by
  cases f <;> rfl

def draft (c : Settings) (F : List Field) : SettingsDraft where
  dimension := if .dimension ∈ F then some c.dimension else none
  accumulateBlock := if .accumulateBlock ∈ F then some c.accumulateBlock else none
  finalizeBlock := if .finalizeBlock ∈ F then some c.finalizeBlock else none
  stageBlock := if .stageBlock ∈ F then some c.stageBlock else none
  reduceBlock := if .reduceBlock ∈ F then some c.reduceBlock else none
  packBlock := if .packBlock ∈ F then some c.packBlock else none
  threads := if .threads ∈ F then some c.threads else none

def set (c : Settings) (f : Field) (s : SettingsDraft) : SettingsDraft :=
  match f with
  | .dimension => { s with dimension := some c.dimension }
  | .accumulateBlock => { s with accumulateBlock := some c.accumulateBlock }
  | .finalizeBlock => { s with finalizeBlock := some c.finalizeBlock }
  | .stageBlock => { s with stageBlock := some c.stageBlock }
  | .reduceBlock => { s with reduceBlock := some c.reduceBlock }
  | .packBlock => { s with packBlock := some c.packBlock }
  | .threads => { s with threads := some c.threads }

theorem set_draft (c : Settings) (f : Field) (F : List Field) :
    set c f (draft c F) = draft c (f :: F) := by
  cases f <;> simp [set, draft]

theorem settings_draft (c : Settings) (F : List Field) : (draft c F).settings = c.only F := by
  have hvalue {α : Type} {P : Prop} [Decidable P] (a b : α) :
      (if P then some a else none).getD b = if P then a else b := by
    split <;> rfl
  simp only [SettingsDraft.settings, draft, Settings.only, hvalue]

variable {c : Settings} {F : List Field}

theorem read_dimension (d : Dimension) (rest : List Token) :
    Schema.dimension.read (Schema.dimension.write d ++ rest) = .ok (d, rest) := by
  refine (bind_of_ok (word32_writeNat d.number rest)).trans ?_
  rw [Dimension.ofNumber_number]
  rfl

theorem read_threads (threads : Option UInt64) (rest : List Token) :
    optional word64 ((threads.map fun n => writeNat n.toNat).getD [.null] ++ rest) =
      .ok (threads, rest) := by
  cases threads with
  | none => rfl
  | some n => exact optional_word64 n rest

/-- A field that has not been set is read as it was written, and no other field changes. -/
theorem entry_write (f : Field) (hf : f ∉ F) (rest : List Token) :
    entry SettingsDraft.fields (draft c F) (writeName f.name :: .colon :: (f.write c ++ rest)) =
      .ok (draft c (f :: F), rest) := by
  have hset {α : Type} (a : α) : (if f ∈ F then some a else none).isSome = false := by
    rw [if_neg hf]
    rfl
  rw [← set_draft]
  cases f with
  | dimension =>
      exact (entry_of_find (plain_name .dimension) rfl (hset _) _).trans
        (bind_of_ok (read_dimension c.dimension rest))
  | threads =>
      exact (entry_of_find (plain_name .threads) rfl (hset _) _).trans
        (bind_of_ok (read_threads c.threads rest))
  | _ =>
      exact (entry_of_find (plain_name _) rfl (hset _) _).trans
        (bind_of_ok (word64_writeNat _ rest))

theorem entry_invalid {n : UInt32} (htwo : n ≠ 2) (hthree : n ≠ 3) (hF : .dimension ∉ F)
    (rest : List Token) :
    entry SettingsDraft.fields (draft c F)
        (writeName (name .dimension) :: .colon :: (writeNat n.toNat ++ rest)) =
      .error (.invalid (.invalidDimension n)) := by
  have hread : Schema.dimension.read (writeNat n.toNat ++ rest) =
      .error (.invalid (.invalidDimension n)) := by
    refine (bind_of_ok (word32_writeNat n rest)).trans ?_
    rw [Dimension.ofNumber, if_neg htwo, if_neg hthree]
    rfl
  have hset : (if .dimension ∈ F then some c.dimension else none).isSome = false := by
    rw [if_neg hF]
    rfl
  exact (entry_of_find (plain_name .dimension) rfl hset _).trans (bind_of_error hread)

/-! ## Objects -/

def item (value : Field → List Token) (f : Field) : List Token :=
  writeName f.name :: .colon :: value f

def object (F : List Field) (value : Field → List Token) : List Token :=
  .openBrace :: separated (F.map (item value)) ++ [.closeBrace]

theorem write_settings (c : Settings) : Schema.settings.write c = object all (write c) := rfl

variable {value : Field → List Token} {before after done : List Field} {f : Field}

theorem entries_append (hvalue : ∀ g ∈ before, value g = g.write c)
    (hnodup : (before ++ done).Nodup) (n : Nat) (rest : List Token) :
    entries SettingsDraft.fields (n + before.length) (draft c done)
        (separated ((before ++ f :: after).map (item value)) ++ rest) =
      entries SettingsDraft.fields n (draft c (before.reverse ++ done))
        (separated ((f :: after).map (item value)) ++ rest) := by
  -- The draft has the fields that were read so far, the last one first.
  induction before generalizing done with
  | nil => rfl
  | cons g before ih =>
      have hdone : g ∉ done := fun hg =>
        (List.nodup_cons.1 hnodup).1 (List.mem_append_right before hg)
      have hnext := ih (fun g hg => hvalue g (List.mem_cons_of_mem _ hg))
        (List.nodup_middle.2 hnodup)
      rw [List.cons_append, List.map_cons, separated_cons (by simp), item,
        hvalue g List.mem_cons_self, List.reverse_cons, List.append_assoc, List.append_assoc,
        List.singleton_append, ← hnext]
      exact entries_comma (entry_write g hdone _)

theorem exists_fields_object (value : Field → List Token) (hF : F ≠ []) (s : SettingsDraft) :
    ∃ n, Reader.fields SettingsDraft.fields s (object F value) =
      entries SettingsDraft.fields (n + F.length) s
        (separated (F.map (item value)) ++ [.closeBrace]) := by
  have hlength : F.length ≤ (separated (F.map (item value)) ++ [Token.closeBrace]).length := by
    have hne : ∀ tokens ∈ F.map (item value), tokens ≠ [] := by
      intro tokens htokens
      obtain ⟨g, _, rfl⟩ := List.mem_map.1 htokens
      exact List.cons_ne_nil _ _
    have hle := length_le_length_separated hne
    rw [List.length_map] at hle
    exact Nat.le_trans hle (by simp)
  obtain ⟨n, hn⟩ := Nat.exists_eq_add_of_le' hlength
  obtain ⟨f, rest, rfl⟩ := List.exists_cons_of_ne_nil hF
  obtain ⟨tail, htail⟩ := exists_separated_cons (item value f) (rest.map (item value))
  refine ⟨n, ?_⟩
  rw [← hn, object, List.map_cons, htail]
  rfl

theorem draft_nil (c : Settings) : draft c [] = {} := rfl

/-- An object is read up to a field that comes after others with the values of the settings. -/
theorem exists_fields_up_to (hvalue : ∀ g ∈ before, value g = g.write c)
    (hnodup : (before ++ f :: after).Nodup) :
    ∃ n, Reader.fields SettingsDraft.fields {} (object (before ++ f :: after) value) =
      entries SettingsDraft.fields (n + 1) (draft c before.reverse)
        (separated ((f :: after).map (item value)) ++ [.closeBrace]) := by
  have hbefore : (before ++ []).Nodup := by
    rw [List.append_nil]
    exact (List.nodup_append.1 hnodup).1
  have hne : before ++ f :: after ≠ [] :=
    List.append_ne_nil_of_right_ne_nil _ (List.cons_ne_nil _ _)
  obtain ⟨n, hfields⟩ := exists_fields_object value hne (draft c [])
  have hlength : n + (before ++ f :: after).length = n + after.length + 1 + before.length := by
    rw [List.length_append, List.length_cons]
    omega
  refine ⟨n + after.length, ?_⟩
  rw [← draft_nil c, hfields, hlength, entries_append hvalue hbefore, List.append_nil]

theorem only_congr {G : List Field} (h : ∀ f, f ∈ F ↔ f ∈ G) : c.only F = c.only G := by
  simp only [Settings.only, h]

theorem read_object (c : Settings) {F : List Field} (hF : F.Nodup) :
    Schema.settings.read (object F (write c)) = .ok (c.only F, []) := by
  rcases List.eq_nil_or_concat F with rfl | ⟨before, f, rfl⟩
  · rfl
  · rw [List.concat_eq_append] at hF ⊢
    have hlast : f ∉ before.reverse := fun hf =>
      (List.nodup_append.1 hF).2.2 f (List.mem_reverse.1 hf) f List.mem_cons_self rfl
    obtain ⟨n, hfields⟩ := exists_fields_up_to (c := c) (fun _ _ => rfl) hF
    have hread := hfields.trans (entries_closeBrace (entry_write f hlast [.closeBrace]))
    refine (bind_of_ok hread).trans ?_
    have hsame (g : Field) : g ∈ f :: before.reverse ↔ g ∈ before ++ [f] := by simp [or_comm]
    rw [settings_draft, only_congr hsame]
    rfl

/-- A number of dimensions that is not supported is refused wherever it stands. -/
theorem read_object_numbered (c : Settings) {F : List Field} (hF : F.Nodup)
    (hdimension : .dimension ∈ F) {n : UInt32} (htwo : n ≠ 2) (hthree : n ≠ 3) :
    Schema.settings.read (object F (writeNumbered n c)) =
      .error (.invalid (.invalidDimension n)) := by
  obtain ⟨before, after, rfl⟩ := List.append_of_mem hdimension
  have hother : .dimension ∉ before := fun h =>
    (List.nodup_append.1 hF).2.2 _ h _ List.mem_cons_self rfl
  obtain ⟨k, hfields⟩ := exists_fields_up_to
    (fun g hg => writeNumbered_of_ne n c fun h => hother (h ▸ hg)) hF
  obtain ⟨tail, htail⟩ := exists_separated_cons (item (writeNumbered n c) .dimension)
    (after.map (item (writeNumbered n c)))
  rw [List.map_cons, htail] at hfields
  have hentry := entry_invalid (c := c) (F := before.reverse) htwo hthree (by simpa using hother)
  exact bind_of_error (hfields.trans (bind_of_error (hentry _)))

/-! ## Texts -/

theorem legible_object {F : List Field} (h : ∀ f ∈ F, Legible (value f)) :
    Legible (object F value) := by
  have hitems : Legible (separated (F.map (item value))) := by
    apply legible_separated
    intro tokens htokens
    obtain ⟨f, hf, rfl⟩ := List.mem_map.1 htokens
    exact ((h f hf).cons (t := .colon) trivial rfl).cons (plain_name f) rfl
  refine Legible.cons (hitems.append (.singleton trivial) fun u hu => ?_) trivial rfl
  obtain rfl := Option.some.inj hu
  rfl

theorem legible_write (c : Settings) (f : Field) : Legible (f.write c) := by
  cases f with
  | threads =>
      rw [write]
      cases c.threads with
      | none => exact .singleton trivial
      | some n => exact legible_writeNat _
  | _ => exact legible_writeNat _

theorem legible_writeNumbered (n : UInt32) (c : Settings) (f : Field) :
    Legible (writeNumbered n c f) := by
  by_cases hf : f = .dimension
  · subst hf
    exact legible_writeNat _
  · rw [writeNumbered_of_ne n c hf]
    exact legible_write c f

theorem only_all (c : Settings) : c.only all = c := by
  simp only [Settings.only, mem_all, if_true]

end Settings.Field

namespace Document

open Settings

/-- An object of some fields is read as the settings with the values of these fields, and with the
standard values of the others, in whatever order and with whatever blanks it is written. In
particular settings are read back from their own text. With a number of dimensions that is not
supported the object is refused, wherever this field stands and whatever comes with it, and the
number is named. Settings that have been read are valid unless the group size of a pass is zero, and
the first such pass is named. -/
theorem settings_read_as_written :
    (∀ (c : Settings) (F : List Field), F.Nodup → ∀ text : String,
      Spells (Field.object F (Field.write c)) text.toList →
        Schema.settings.parse text = .ok (c.only F)) ∧
    (∀ c : Settings, Schema.settings.parse (Schema.settings.print c) = .ok c) ∧
    (∀ (c : Settings) (F : List Field), F.Nodup → .dimension ∈ F →
      ∀ n : UInt32, n ≠ 2 → n ≠ 3 → ∀ text : String,
      Spells (Field.object F (Field.writeNumbered n c)) text.toList →
        Schema.settings.parse text = .error (.invalid (.invalidDimension n))) ∧
    ∀ s : Settings,
      ((∃ e, s.validate = .error e) ↔ s.accumulateBlock = 0 ∨ s.finalizeBlock = 0 ∨
        s.stageBlock = 0 ∨ s.reduceBlock = 0 ∨ s.packBlock = 0) ∧
      ∀ e, s.validate = .error e ↔ ∃ before pass after,
        [.accumulate, .finalize, .stage, .reduce, .pack] = before ++ pass :: after ∧
        (∀ other ∈ before, s.block other ≠ 0) ∧ s.block pass = 0 ∧
        e = .error (.zeroBlock pass) := by
  have hread (c : Settings) (F : List Field) (hF : F.Nodup) (text : String)
      (htext : Spells (Field.object F (Field.write c)) text.toList) :
      Schema.settings.parse text = .ok (c.only F) := by
    rw [Schema.parse_of_spells htext (Field.legible_object fun f _ => Field.legible_write c f),
      Field.read_object c hF]
  refine ⟨hread, fun c => ?_, fun c F hF hdimension n htwo hthree text htext => ?_,
    fun s => ⟨?_, ?_⟩⟩
  · have hspells : Spells (Field.object Field.all (Field.write c))
        (Schema.settings.print c).toList := by
      rw [← Field.write_settings]
      exact spells_render _
    rw [hread c Field.all (by decide) _ hspells, Field.only_all]
  · rw [Schema.parse_of_spells htext
        (Field.legible_object fun f _ => Field.legible_writeNumbered n c f),
      Field.read_object_numbered c hF hdimension htwo hthree]
  · have hword (n : UInt64) : n.toNat = 0 ↔ n = 0 := UInt64.toNat_inj (b := 0)
    rw [Settings.exists_validate_eq_error_iff]
    simp [checkedPasses, Settings.block, hword]
  · exact fun e => Settings.validate_eq_error_iff

theorem settings_read_as_written_two :
    Schema.settings.parse "\x7b \"accumulate_block\": 32 \x7d" = .ok { accumulateBlock := 32 } ∧
    Schema.settings.parse "\x7b\"threads\":null,\n \"dimensions\":4\x7d" =
      .error (.invalid (.invalidDimension 4)) := by
  obtain ⟨hread, _, hrefuse, _⟩ := settings_read_as_written
  constructor
  · refine hread { accumulateBlock := 32 } [.accumulateBlock] (by decide) _ ?_
    exact .token [] rfl _ (.token [' '] rfl _ (.token [] rfl _
      (.token [' '] rfl _ (.token [' '] rfl _ (.done [] rfl)))))
  · refine hrefuse .standard [.threads, .dimension] (by decide) (by decide) 4 (by decide)
      (by decide) _ ?_
    exact .token [] rfl _ (.token [] rfl _ (.token [] rfl _ (.token [] rfl _ (.token [] rfl _
      (.token ['\n', ' '] rfl _ (.token [] rfl _ (.token [] rfl _ (.token [] rfl _
        (.done [] rfl)))))))))

end Document

end KineticGrid
