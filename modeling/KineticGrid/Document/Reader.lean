import KineticGrid.Document.Token
import KineticGrid.Report.Fault
/-!
# Reading documents

Readers take tokens from the front of a document. The first defect that a reader meets is the one
that is reported, whatever comes after it.
-/

namespace KineticGrid.Document

inductive Refusal where
  /-- It is not well formed, or has another shape. -/
  | malformed
  /-- One of its values is refused. -/
  | invalid (e : Error)
deriving DecidableEq, Repr

abbrev Reader := StateT (List Token) (Except Refusal)

namespace Reader

variable {α : Type}

def fail : Reader α := fun _ => .error .malformed

def next : Reader Token
  | [] => .error .malformed
  | t :: rest => .ok (t, rest)

def expect (t : Token) : Reader Unit := do
  if (← next) = t then return () else fail

/-- Takes a given token if it is the next one, and says whether it was. -/
def accept (t : Token) : Reader Bool
  | [] => .ok (false, [])
  | u :: rest => .ok (if u = t then (true, rest) else (false, u :: rest))

def string : Reader (List Char) := do
  match ← next with
  | .string raw =>
    match unescape raw with
    | some s => return s
    | none => fail
  | _ => fail

def ofDigits (digits : List Char) : Nat :=
  digits.foldl (fun n d => 10 * n + (d.toNat - 48)) 0

/-- A number below a bound, written without sign, fraction and exponent. -/
def below (bound : Nat) : Reader Nat := do
  match ← next with
  | .number raw =>
    if raw.all Char.isDigit ∧ ofDigits raw < bound then return ofDigits raw else fail
  | _ => fail

def word32 : Reader UInt32 := do
  return .ofNat (← below 4294967296)

def word64 : Reader UInt64 := do
  return .ofNat (← below 18446744073709551616)

def optional (read : Reader α) : Reader (Option α) := do
  if ← accept .null then return none else return some (← read)

/-- One of some names. It may also be written as the only key of an object, with `null`. -/
def oneOf (names : List (String × α)) : Reader α := do
  let wrapped ← accept .openBrace
  let name ← string
  if wrapped then
    expect .colon
    expect .null
    expect .closeBrace
  match names.find? fun entry => entry.1.toList = name with
  | some (_, a) => return a
  | none => fail

/-! ## Skipping values -/

inductive Enclosing where
  | array
  | object
deriving DecidableEq, Repr

inductive Expecting where
  | value
  | itemOrEnd
  | keyOrEnd
  | key
  | colon
  | commaOrEnd
deriving DecidableEq, Repr

/-- What may come after the first token of a value. -/
def startValue (enclosing : List Enclosing) : Token → Option (Expecting × List Enclosing)
  | .openBracket => some (.itemOrEnd, .array :: enclosing)
  | .openBrace => some (.keyOrEnd, .object :: enclosing)
  | .string _ | .number _ | .yes | .no | .null => some (.commaOrEnd, enclosing)
  | _ => none

def proceed (expecting : Expecting) (enclosing : List Enclosing) (t : Token) :
    Option (Expecting × List Enclosing) :=
  match expecting, enclosing, t with
  | .value, _, t => startValue enclosing t
  | .itemOrEnd, .array :: outer, .closeBracket => some (.commaOrEnd, outer)
  | .itemOrEnd, _, t => startValue enclosing t
  | .keyOrEnd, .object :: outer, .closeBrace => some (.commaOrEnd, outer)
  | .keyOrEnd, _, .string _ => some (.colon, enclosing)
  | .key, _, .string _ => some (.colon, enclosing)
  | .colon, _, .colon => some (.value, enclosing)
  | .commaOrEnd, .array :: _, .comma => some (.value, enclosing)
  | .commaOrEnd, .object :: _, .comma => some (.key, enclosing)
  | .commaOrEnd, .array :: outer, .closeBracket => some (.commaOrEnd, outer)
  | .commaOrEnd, .object :: outer, .closeBrace => some (.commaOrEnd, outer)
  | _, _, _ => none

def afterValue? (expecting : Expecting) (enclosing : List Enclosing) :
    List Token → Option (List Token)
  | [] => none
  | t :: rest =>
    match proceed expecting enclosing t with
    | none => none
    | some (_, []) => some rest
    | some (expecting, enclosing) => afterValue? expecting enclosing rest

def skip : Reader Unit := fun tokens =>
  match afterValue? .value [] tokens with
  | some rest => .ok ((), rest)
  | none => .error .malformed

/-! ## Records -/

structure RecordField (σ : Type) where
  name : String
  isSet : σ → Bool
  /-- Reads the value and sets the field. -/
  read : σ → Reader σ

variable {σ : Type}

/-- Reads the value after a key. A key that names no field is skipped with its value. -/
def entry (fields : List (RecordField σ)) (s : σ) : Reader σ := do
  let key ← string
  match fields.find? fun field => field.name.toList = key with
  | none => do
    expect .colon
    skip
    return s
  | some field =>
    if field.isSet s then fail
    else do
      expect .colon
      field.read s

/-- Reads entries up to the end of an object with at most `n` entries left. -/
def entries (fields : List (RecordField σ)) : Nat → σ → Reader σ
  | 0, _ => fail
  | n + 1, s => do
    let s ← entry fields s
    match ← next with
    | .closeBrace => return s
    | .comma => entries fields n s
    | _ => fail

/-- Reads the values of all fields in order up to the end of an array, which may end early. -/
def items (first : Bool) : List (RecordField σ) → σ → Reader σ
  | [], s => do
    expect .closeBracket
    return s
  | field :: rest, s => do
    if ← accept .closeBracket then
      return s
    unless first do
      expect .comma
    items false rest (← field.read s)

/-- Reads the fields of a record: an object with the fields in any order, or an array of their
values. -/
def fields (fields : List (RecordField σ)) (s : σ) : Reader σ := do
  match ← next with
  | .openBrace =>
    if ← accept .closeBrace then return s
    entries fields (← get).length s
  | .openBracket => items true fields s
  | _ => fail

def triple (read : Reader α) : Reader (Vec3 α) := do
  expect .openBracket
  let x ← read
  expect .comma
  let y ← read
  expect .comma
  let z ← read
  expect .closeBracket
  return ⟨x, y, z⟩

def run (read : Reader α) (text : String) : Except Refusal α :=
  match read (scan text.toList) with
  | .ok (a, []) => .ok a
  | .ok (_, _ :: _) => .error .malformed
  | .error refusal => .error refusal

end Reader

end KineticGrid.Document
