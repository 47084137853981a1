/-!
# Tokens of a document

A JSON text as a list of tokens. A text that is no longer well formed ends in the token `bad`, so
that a reader meets the defect only when it gets there.
-/

namespace KineticGrid.Document

/-- The smallest parts of a document. Strings and numbers keep their spelling. -/
inductive Token where
  | openBrace
  | closeBrace
  | openBracket
  | closeBracket
  | comma
  | colon
  | yes
  | no
  | null
  /-- What stands between the quotes of a string. -/
  | string (raw : List Char)
  | number (raw : List Char)
  /-- From here on the text has no tokens. -/
  | bad
deriving DecidableEq, Repr

namespace Token

def text : Token → List Char
  | .openBrace => ['{']
  | .closeBrace => ['}']
  | .openBracket => ['[']
  | .closeBracket => [']']
  | .comma => [',']
  | .colon => [':']
  | .yes => ['t', 'r', 'u', 'e']
  | .no => ['f', 'a', 'l', 's', 'e']
  | .null => ['n', 'u', 'l', 'l']
  | .string raw => '"' :: raw ++ ['"']
  | .number raw => raw
  | .bad => []

end Token

def render (tokens : List Token) : String := String.ofList (tokens.flatMap Token.text)

def isBlank (c : Char) : Bool := c = ' ' || c = '\n' || c = '\t' || c = '\r'

def hexDigit? (c : Char) : Option Nat :=
  if '0' ≤ c ∧ c ≤ '9' then some (c.toNat - 48)
  else if 'a' ≤ c ∧ c ≤ 'f' then some (c.toNat - 87)
  else if 'A' ≤ c ∧ c ≤ 'F' then some (c.toNat - 55)
  else none

def hexUnit? (a b c d : Char) : Option Nat := do
  return ((← hexDigit? a) * 16 + (← hexDigit? b)) * 256 + (← hexDigit? c) * 16 + (← hexDigit? d)

/-- The character that a letter after a backslash stands for. -/
def escape? : Char → Option Char
  | '"' => some '"'
  | '\\' => some '\\'
  | '/' => some '/'
  | 'b' => some '\x08'
  | 'f' => some '\x0c'
  | 'n' => some '\n'
  | 'r' => some '\r'
  | 't' => some '\t'
  | _ => none

def splitString : List Char → Option (List Char × List Char)
  | [] => none
  | '"' :: rest => some ([], rest)
  | '\\' :: 'u' :: a :: b :: c :: d :: rest => do
    let _ ← hexUnit? a b c d
    let (raw, rest) ← splitString rest
    return ('\\' :: 'u' :: a :: b :: c :: d :: raw, rest)
  | '\\' :: c :: rest => do
    let _ ← escape? c
    let (raw, rest) ← splitString rest
    return ('\\' :: c :: raw, rest)
  | c :: rest =>
    if c = '\\' ∨ c.toNat < 0x20 then none
    else (splitString rest).map fun (raw, rest) => (c :: raw, rest)

/-- The character of two halves of a surrogate pair. -/
def joinSurrogates? (high low : Nat) : Option Char :=
  if 0xd800 ≤ high ∧ high < 0xdc00 ∧ 0xdc00 ≤ low ∧ low < 0xe000 then
    some (.ofNat (0x10000 + (high - 0xd800) * 0x400 + (low - 0xdc00)))
  else
    none

/-- The characters that the inside of a string stands for. Half a surrogate pair stands for none. -/
def unescape : List Char → Option (List Char)
  | [] => some []
  | '\\' :: 'u' :: a :: b :: c :: d :: rest => do
    let unit ← hexUnit? a b c d
    if unit < 0xd800 ∨ 0xe000 ≤ unit then
      return .ofNat unit :: (← unescape rest)
    else
      match rest with
      | '\\' :: 'u' :: e :: f :: g :: h :: rest =>
        let char ← joinSurrogates? unit (← hexUnit? e f g h)
        return char :: (← unescape rest)
      | _ => none
  | '\\' :: c :: rest => do
    return (← escape? c) :: (← unescape rest)
  | c :: rest => do
    return c :: (← unescape rest)

def splitDigits (s : List Char) : Option (List Char × List Char) :=
  let digits := s.takeWhile Char.isDigit
  if digits = [] then none else some (digits, s.dropWhile Char.isDigit)

def splitFraction : List Char → Option (List Char × List Char)
  | '.' :: rest => (splitDigits rest).map fun (digits, rest) => ('.' :: digits, rest)
  | s => some ([], s)

def splitExponent : List Char → Option (List Char × List Char)
  | c :: rest =>
    if c = 'e' ∨ c = 'E' then
      match rest with
      | [] => none
      | sign :: after =>
        if sign = '+' ∨ sign = '-' then
          (splitDigits after).map fun (digits, rest) => (c :: sign :: digits, rest)
        else
          (splitDigits rest).map fun (digits, rest) => (c :: digits, rest)
    else
      some ([], c :: rest)
  | [] => some ([], [])

/-- The digits of the whole part of a number; only zero itself starts with a zero. -/
def splitWhole (s : List Char) : Option (List Char × List Char) := do
  let (digits, rest) ← splitDigits s
  if digits.head? = some '0' ∧ digits ≠ ['0'] then none else return (digits, rest)

def splitNumber (s : List Char) : Option (List Char × List Char) := do
  let (whole, s) ← splitWhole s
  let (fraction, s) ← splitFraction s
  let (exponent, s) ← splitExponent s
  return (whole ++ fraction ++ exponent, s)

/-- The token that starts with a given character, and the text after it. -/
def Token.next (c : Char) (rest : List Char) : Option (Token × List Char) :=
  match c with
  | '{' => some (.openBrace, rest)
  | '}' => some (.closeBrace, rest)
  | '[' => some (.openBracket, rest)
  | ']' => some (.closeBracket, rest)
  | ',' => some (.comma, rest)
  | ':' => some (.colon, rest)
  | '"' => (splitString rest).map fun (raw, rest) => (.string raw, rest)
  | 't' =>
    match rest with
    | 'r' :: 'u' :: 'e' :: rest => some (.yes, rest)
    | _ => none
  | 'f' =>
    match rest with
    | 'a' :: 'l' :: 's' :: 'e' :: rest => some (.no, rest)
    | _ => none
  | 'n' =>
    match rest with
    | 'u' :: 'l' :: 'l' :: rest => some (.null, rest)
    | _ => none
  | '-' => (splitNumber rest).map fun (raw, rest) => (.number ('-' :: raw), rest)
  | _ => (splitNumber (c :: rest)).map fun (raw, rest) => (.number raw, rest)

def scanFirst : Nat → List Char → List Token
  | 0, _ => []
  | n + 1, s =>
    match s.dropWhile isBlank with
    | [] => []
    | c :: rest =>
      match Token.next c rest with
      | some (t, rest) => t :: scanFirst n rest
      | none => [.bad]

/-- The tokens of a text. No token is empty, so there are no more of them than characters. -/
def scan (s : List Char) : List Token := scanFirst s.length s

end KineticGrid.Document
