import Sift.Text.CharClass

/-!
# Quoted text

Two ways to write a text between double quotes. `quoteJson` follows the JSON grammar and escapes
nothing that the grammar does not require. `quoteInspected` shows every character that has no glyph
of its own by its number.
-/

namespace Sift

def hexDigits (n : Nat) : List Char := Nat.toDigits 16 n

/-- A character as it stands inside a JSON string. -/
def escapeJson (c : Char) : List Char :=
  match c with
  | '"' => ['\\', '"']
  | '\\' => ['\\', '\\']
  | '\x08' => ['\\', 'b']
  | '\x0c' => ['\\', 'f']
  | '\n' => ['\\', 'n']
  | '\r' => ['\\', 'r']
  | '\t' => ['\\', 't']
  | c =>
    if c.toNat < 0x20 then
      let digits := hexDigits c.toNat
      ['\\', 'u'] ++ List.replicate (4 - digits.length) '0' ++ digits
    else [c]

def quoteJson (s : String) : String :=
  String.ofList ('"' :: s.toList.flatMap escapeJson ++ ['"'])

/-- A character as it stands inside an inspected string. -/
def escapeInspected (c : Char) : List Char :=
  match c with
  | '"' => ['\\', '"']
  | '\\' => ['\\', '\\']
  | '\n' => ['\\', 'n']
  | '\r' => ['\\', 'r']
  | '\t' => ['\\', 't']
  | '\x00' => ['\\', '0']
  | c => if isUnprintable c then ['\\', 'u', '\x7b'] ++ hexDigits c.toNat ++ ['\x7d'] else [c]

/-- A text with every character visible. -/
def quoteInspected (s : String) : String :=
  String.ofList ('"' :: s.toList.flatMap escapeInspected ++ ['"'])

end Sift
