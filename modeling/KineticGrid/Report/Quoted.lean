import KineticGrid.Report.Printable
/-!
# Quoted text

A string between double quotes. The quote, the backslash and the common control characters have
short escapes; every other character that is not plain is written by its code point.
-/

namespace KineticGrid

def quotedChar (c : Char) : String :=
  match c with
  | '\x00' => "\\0"
  | '\t' => "\\t"
  | '\n' => "\\n"
  | '\r' => "\\r"
  | '"' => "\\\""
  | '\\' => "\\\\"
  | _ =>
    if isPlain c then c.toString
    else "\\u\x7b" ++ String.ofList (Nat.toDigits 16 c.toNat) ++ "\x7d"

def quoted (s : String) : String :=
  "\"" ++ String.join (s.toList.map quotedChar) ++ "\""

end KineticGrid
