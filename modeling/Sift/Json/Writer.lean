import Sift.Json.Basic
import Sift.Number.Layout
import Sift.Text.Quoted

/-!
# The text of JSON documents

A document is written either without any white space or with one entry a line, each level two spaces
further in.
-/

namespace Sift

/-- Floats are written in full from `0.00001` up to sixteen places before the point, always with a
point, and otherwise with an exponent that has a sign. -/
def FloatLayout.json : FloatLayout where
  positional leading := -5 ≤ leading && leading < 16
  keepPoint := true
  keepPlus := true
  ties := .even

namespace Json

mutual
/-- The text without white space. -/
def compact : Json → String
  | null => "null"
  | boolean true => "true"
  | boolean false => "false"
  | integer n _ => toString n
  | float x _ => FloatLayout.json.text x
  | string s => quoteJson s
  | array items => "[" ++ ",".intercalate (compactAll items) ++ "]"
  | object entries => "\x7b" ++ ",".intercalate (compactEntries entries) ++ "\x7d"

def compactAll : List Json → List String
  | [] => []
  | j :: rest => compact j :: compactAll rest

def compactEntries : List (String × Json) → List String
  | [] => []
  | (k, j) :: rest => (quoteJson k ++ ":" ++ compact j) :: compactEntries rest
end

/-- A bracketed list with each part on a line of its own, or the brackets alone. -/
def block (opening closing : String) (level : Nat) (parts : List String) : String :=
  let line (n : Nat) : String := "\n" ++ String.ofList (List.replicate (2 * n) ' ')
  if parts.isEmpty then opening ++ closing
  else opening ++ ",".intercalate (parts.map (line (level + 1) ++ ·)) ++ line level ++ closing

mutual
/-- The text with one entry a line, for a place at the given level. -/
def pretty (level : Nat) : Json → String
  | array items => block "[" "]" level (prettyAll (level + 1) items)
  | object entries => block "\x7b" "\x7d" level (prettyEntries (level + 1) entries)
  | j => compact j

def prettyAll (level : Nat) : List Json → List String
  | [] => []
  | j :: rest => pretty level j :: prettyAll level rest

def prettyEntries (level : Nat) : List (String × Json) → List String
  | [] => []
  | (k, j) :: rest => (quoteJson k ++ ": " ++ pretty level j) :: prettyEntries level rest
end

end Json

end Sift
