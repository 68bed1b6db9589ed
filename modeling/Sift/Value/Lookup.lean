import Sift.Value.Text

/-!
# Look-ups in values

Properties are read by name and elements by key. What is not there reads as null.
-/

namespace Sift.Value

/-- The value under a key of an object, or null. -/
def entry (entries : List (String × Value)) (name : String) : Value :=
  (Entries.get? entries name).getD null

/-- The property of a value. Arrays are read through their first element. -/
def property (name : String) : Value → Value
  | object entries => entry entries name
  | array (first :: _) => first.property name
  | _ => null

/-- The element at a position, counted from the end if it is negative. -/
def element (items : List Value) (position : Int) : Value :=
  if 0 ≤ position then items.getD position.toNat null
  else
    let back := position.natAbs
    if items.length < back then null else items.getD (items.length - back) null

/-- The element of an array or object under a key. Arrays take whole numbers, objects take the text
of any key but null and containers. -/
def index (v key : Value) : Value :=
  match v, key with
  | array items, key =>
    match key.asInteger? with
    | some n => element items n.toInt
    | none => null
  | object entries, string _ | object entries, integer _ | object entries, float _
  | object entries, boolean _ => entry entries key.asString
  | _, _ => null

end Sift.Value
