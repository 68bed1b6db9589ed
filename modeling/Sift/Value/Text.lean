import Sift.Json.Writer

/-!
# The text of values

`Value.asString` is the text that concatenation uses: texts as they are, numbers in full, containers
as JSON. `Value.inspect` names the kind of every part, so that no two values look alike.
-/

namespace Sift

/-- Floats in running text have all their places written out, whole ones without a point. -/
def FloatLayout.plain : FloatLayout where
  positional _ := true
  keepPoint := false
  keepPlus := false
  ties := .up

/-- Inspected floats always have a point or an exponent, which is used below `0.0001` and from
sixteen places before the point on. -/
def FloatLayout.inspected : FloatLayout where
  positional leading := -4 ≤ leading && leading < 16
  keepPoint := true
  keepPlus := false
  ties := .up

namespace Value

def jsonText (v : Value) : String := (Json.ofValue v).compact

def asString : Value → String
  | null => "null"
  | boolean true => "true"
  | boolean false => "false"
  | integer n => toString n.toInt
  | float x => FloatLayout.plain.text x
  | string s => s
  | v => v.jsonText

mutual
/-- The value with the kinds of its parts. -/
def inspect : Value → String
  | null => "Null"
  | boolean b => "Boolean(" ++ (if b then "true" else "false") ++ ")"
  | integer n => "Integer(" ++ toString n.toInt ++ ")"
  | float x => "Float(" ++ FloatLayout.inspected.text x ++ ")"
  | string s => "String(" ++ quoteInspected s ++ ")"
  | array items => "Array([" ++ ", ".intercalate (inspectAll items) ++ "])"
  | object entries => "Object(\x7b" ++ ", ".intercalate (inspectEntries entries) ++ "\x7d)"

def inspectAll : List Value → List String
  | [] => []
  | v :: rest => inspect v :: inspectAll rest

def inspectEntries : List (String × Value) → List String
  | [] => []
  | (k, v) :: rest => (quoteInspected k ++ ": " ++ inspect v) :: inspectEntries rest
end

end Value

end Sift
