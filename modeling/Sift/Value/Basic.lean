import Sift.Dict
import Sift.Number.Binary64

/-!
# Values

The data that expressions read and produce. Integers and floats are kept apart, so that arithmetic
stays integral as long as its results are whole. There is no value for what is missing: a look-up
that finds nothing gives `null`.

The entries of an object stand in ascending order of their keys (`Value.Canonical`). All that builds
objects goes through `Value.ofEntries`, which brings them into this order.
-/

namespace Sift

/-- A value of the language. -/
inductive Value where
  | null
  | boolean (b : Bool)
  | integer (n : Int64)
  | float (x : Binary64)
  | string (s : String)
  | array (items : List Value)
  | object (entries : List (String × Value))

namespace Value

instance : Inhabited Value := ⟨null⟩

/-- The object of the given entries, the last one of a key counting. -/
def ofEntries (es : Entries Value) : Value := object (Entries.ofList es)

def typeName : Value → String
  | null => "null"
  | boolean _ => "boolean"
  | integer _ => "integer"
  | float _ => "float"
  | string _ => "string"
  | array _ => "array"
  | object _ => "object"

/-- Whether a value counts as true. Null, false, the zeros, NaN and the empty text do not; every
array and every object does. -/
def isTruthy : Value → Bool
  | null => false
  | boolean b => b
  | integer n => n != 0
  | float x => x.isTruthy
  | string s => s != ""
  | array _ | object _ => true

def asFloat? : Value → Option Binary64
  | integer n => some (.ofInt n.toInt)
  | float x => some x
  | _ => none

/-- The number as an integer. Floats count if they are whole; those beyond the range of integers
give the nearest one. -/
def asInteger? : Value → Option Int64
  | integer n => some n
  | float x => if x.isWhole then some x.toInteger else none
  | _ => none

/-- The elements of a collection. A value that is no array is a collection of itself, and null is an
empty one. -/
def elements : Value → List Value
  | array items => items
  | null => []
  | v => [v]

/-! ### Canonical objects -/

mutual
/-- Objects with ascending keys, at every depth. -/
def Canonical : Value → Prop
  | array items => CanonicalAll items
  | object entries => Entries.Sorted entries ∧ CanonicalEntries entries
  | _ => True

def CanonicalAll : List Value → Prop
  | [] => True
  | v :: rest => v.Canonical ∧ CanonicalAll rest

def CanonicalEntries : List (String × Value) → Prop
  | [] => True
  | (_, v) :: rest => v.Canonical ∧ CanonicalEntries rest
end

end Value

end Sift
