import Sift.Expr.Basic
import Sift.Value.Text

/-!
# Expressions as values

An expression can be looked at as a value: an array of the name of its kind and its parts. Floats in
it are written as objects with their text under the key `$f`, so that they stay apart from integers.
-/

namespace Sift

mutual
/-- The value with every float spelled out. -/
def Value.outline : Value → Value
  | .float x => .object [("$f", .string (FloatLayout.plain.text x))]
  | .array items => .array (outlineAll items)
  | .object entries => .object (outlineEntries entries)
  | v => v

def Value.outlineAll : List Value → List Value
  | [] => []
  | v :: rest => v.outline :: outlineAll rest

def Value.outlineEntries : List (String × Value) → List (String × Value)
  | [] => []
  | (k, v) :: rest => (k, v.outline) :: outlineEntries rest
end

namespace Expr

/-- The name of a kind of expression with its parts. -/
private def node (kind : String) (parts : List Value) : Value := .array (.string kind :: parts)

mutual
/-- The expression as a value. -/
def outline : Expr → Value
  | literal value => node "lit" [value.outline]
  | identifier name => node "id" [.string name]
  | relative name => node "rel" [.string name]
  | member owner property marked =>
    node "member" [owner.outline, .string property, .boolean marked]
  | filter subject predicate marked =>
    node "filter" [subject.outline, predicate.outline, .boolean marked]
  | array items => node "array" [.array (outlineAll items)]
  | object entries => node "object" [.array (outlineEntries entries)]
  | unary symbol operand => node "unary" [.string symbol, operand.outline]
  | binary symbol left right => node "binary" [.string symbol, left.outline, right.outline]
  | conditional test consequent alternate =>
    node "cond" [test.outline, consequent.outline, alternate.outline]
  | fallback test alternate => node "cond" [test.outline, .null, alternate.outline]
  | call name arguments => node "call" [.string name, .array (outlineAll arguments)]
  | transform name subject arguments =>
    node "transform" [.string name, subject.outline, .array (outlineAll arguments)]

def outlineAll : List Expr → List Value
  | [] => []
  | e :: rest => e.outline :: outlineAll rest

def outlineEntries : List (String × Expr) → List Value
  | [] => []
  | (k, e) :: rest => .array [.string k, e.outline] :: outlineEntries rest
end

end Expr

end Sift
