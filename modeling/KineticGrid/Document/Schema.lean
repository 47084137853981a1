import KineticGrid.Document.Reader
import KineticGrid.Domain.Settings
import KineticGrid.Ghost.Exchange
/-!
# Documents of the library's types

Which tokens a value is written as, and how they are read back. Records are written as objects with
all their fields in order. Settings are the only record of which fields may be left out.
-/

namespace KineticGrid.Document

open Reader

variable {α : Type}

/-- How values of a type are read and written. -/
structure Schema (α : Type) where
  read : Reader α
  write : α → List Token

namespace Schema

def parse (schema : Schema α) (text : String) : Except Refusal α := schema.read.run text

def print (schema : Schema α) (a : α) : String := render (schema.write a)

end Schema

def writeNat (n : Nat) : List Token := [.number (Nat.toDigits 10 n)]

def writeName (name : String) : Token := .string name.toList

def separated : List (List Token) → List Token
  | [] => []
  | [item] => item
  | item :: rest => item ++ .comma :: separated rest

def writeObject (entries : List (String × List Token)) : List Token :=
  .openBrace ::
    separated (entries.map fun (name, value) => writeName name :: .colon :: value) ++ [.closeBrace]

def writeTriple (v : Vec3 UInt32) : List Token :=
  .openBracket :: separated (v.toList.map fun n => writeNat n.toNat) ++ [.closeBracket]

def complete : Option α → Reader α
  | some a => return a
  | none => fail

def names (entries : List (String × α)) (name : α → String) : Schema α where
  read := oneOf entries
  write a := [writeName (name a)]

namespace Schema

def pass : Schema Pass :=
  names
    [("Accumulate", .accumulate), ("Finalize", .finalize), ("Stage", .stage),
      ("Reduce", .reduce), ("Pack", .pack), ("Unpack", .unpack)]
    fun
      | .accumulate => "Accumulate"
      | .finalize => "Finalize"
      | .stage => "Stage"
      | .reduce => "Reduce"
      | .pack => "Pack"
      | .unpack => "Unpack"

def axis : Schema Axis :=
  names [("X", .x), ("Y", .y), ("Z", .z)]
    fun
      | .x => "X"
      | .y => "Y"
      | .z => "Z"

def dimension : Schema Dimension where
  read := do
    match Dimension.ofNumber (← word32) with
    | .ok d => return d
    | .error (.error e) => fun _ => .error (.invalid e)
    | .error (.fault _) => fail
  write d := writeNat d.number.toNat

abbrev Pair (α β : Type) := Option α × Option β

def pairFields {β : Type} (first second : String) (readFirst : Reader α) (readSecond : Reader β) :
    List (RecordField (Pair α β)) :=
  [⟨first, fun s => s.1.isSome, fun s => do return (some (← readFirst), s.2)⟩,
    ⟨second, fun s => s.2.isSome, fun s => do return (s.1, some (← readSecond))⟩]

def pair {β γ : Type} (first second : String) (readFirst : Reader α) (readSecond : Reader β)
    (make : α → β → γ) : Reader γ := do
  let (a, b) ← fields (pairFields first second readFirst readSecond) (none, none)
  complete (do return make (← a) (← b))

def neighbours : Schema Neighbours where
  read := pair "left" "right" word64 word64 fun l r => ⟨l.toNat, r.toNat⟩
  write n := writeObject [("left", writeNat n.left), ("right", writeNat n.right)]

def gridFields : List (RecordField (Option (Vec3 UInt32))) :=
  [⟨"dims", Option.isSome, fun _ => do return some (← triple word32)⟩]

def grid : Schema Grid where
  read := do
    complete ((← fields gridFields none).map Grid.mk)
  write g := writeObject [("dims", writeTriple g.dims)]

def box : Schema Box where
  read := pair "origin" "extent" (triple word32) (triple word32) Box.mk
  write r := writeObject [("origin", writeTriple r.origin), ("extent", writeTriple r.extent)]

/-- A topology is read as it stands, with or without room for its slabs. -/
def topology : Schema Topology where
  read := pair "dims" "ghost" (triple word32) (triple word32) Topology.mk
  write t := writeObject [("dims", writeTriple t.dims), ("ghost", writeTriple t.ghost)]

end Schema

/-! ## Settings -/

/-- Settings as they are read: each field with its value, if it was set. -/
structure SettingsDraft where
  dimension : Option Dimension := none
  accumulateBlock : Option UInt64 := none
  finalizeBlock : Option UInt64 := none
  stageBlock : Option UInt64 := none
  reduceBlock : Option UInt64 := none
  packBlock : Option UInt64 := none
  threads : Option (Option UInt64) := none

namespace SettingsDraft

def settings (s : SettingsDraft) : Settings where
  dimension := s.dimension.getD Settings.standard.dimension
  accumulateBlock := s.accumulateBlock.getD Settings.standard.accumulateBlock
  finalizeBlock := s.finalizeBlock.getD Settings.standard.finalizeBlock
  stageBlock := s.stageBlock.getD Settings.standard.stageBlock
  reduceBlock := s.reduceBlock.getD Settings.standard.reduceBlock
  packBlock := s.packBlock.getD Settings.standard.packBlock
  threads := s.threads.getD Settings.standard.threads

def fields : List (RecordField SettingsDraft) :=
  [⟨"dimensions", fun s => s.dimension.isSome,
      fun s => do return { s with dimension := some (← Schema.dimension.read) }⟩,
    ⟨"accumulate_block", fun s => s.accumulateBlock.isSome,
      fun s => do return { s with accumulateBlock := some (← word64) }⟩,
    ⟨"finalize_block", fun s => s.finalizeBlock.isSome,
      fun s => do return { s with finalizeBlock := some (← word64) }⟩,
    ⟨"stage_block", fun s => s.stageBlock.isSome,
      fun s => do return { s with stageBlock := some (← word64) }⟩,
    ⟨"reduce_block", fun s => s.reduceBlock.isSome,
      fun s => do return { s with reduceBlock := some (← word64) }⟩,
    ⟨"pack_block", fun s => s.packBlock.isSome,
      fun s => do return { s with packBlock := some (← word64) }⟩,
    ⟨"threads", fun s => s.threads.isSome,
      fun s => do return { s with threads := some (← optional word64) }⟩]

end SettingsDraft

def settingsEntries (s : Settings) : List (String × List Token) :=
  [("dimensions", Schema.dimension.write s.dimension),
    ("accumulate_block", writeNat s.accumulateBlock.toNat),
    ("finalize_block", writeNat s.finalizeBlock.toNat),
    ("stage_block", writeNat s.stageBlock.toNat),
    ("reduce_block", writeNat s.reduceBlock.toNat),
    ("pack_block", writeNat s.packBlock.toNat),
    ("threads", (s.threads.map fun n => writeNat n.toNat).getD [.null])]

/-- Settings may leave out fields, which then have their standard values. -/
def Schema.settings : Schema Settings where
  read := do
    return (← Reader.fields SettingsDraft.fields {}).settings
  write s := writeObject (settingsEntries s)

end KineticGrid.Document
