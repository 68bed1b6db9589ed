import Sift.Value.Basic

/-!
# JSON documents

JSON has one kind of number. A document keeps a number as an integer if it is written as one and
fits 64 bits with or without a sign, and as a finite float otherwise.
-/

namespace Sift

/-- Integers that 64 bits hold, with or without a sign. -/
def JsonInteger (n : Int) : Prop := Int64.minValue.toInt ≤ n ∧ n < UInt64.size

instance (n : Int) : Decidable (JsonInteger n) := inferInstanceAs (Decidable (_ ∧ _))

/-- A JSON document. -/
inductive Json where
  | null
  | boolean (b : Bool)
  | integer (n : Int) (range : JsonInteger n)
  | float (x : Binary64) (finite : x.isFinite)
  | string (s : String)
  | array (items : List Json)
  | object (entries : List (String × Json))

namespace Json

instance : Inhabited Json := ⟨null⟩

theorem jsonInteger_toInt (n : Int64) : JsonInteger n.toInt := by
  have range := inRange_iff.1 (inRange_toInt n)
  exact ⟨range.1, Int.lt_of_le_of_lt range.2 (by decide)⟩

def ofInteger (n : Int64) : Json := integer n.toInt (jsonInteger_toInt n)

/-- A float, or null where JSON has no number for it. -/
def ofFloat (x : Binary64) : Json := if h : x.isFinite then float x h else null

/-- The object of the given entries, the last one of a key counting. -/
def ofEntries (es : Entries Json) : Json := object (Entries.ofList es)

mutual
/-- A value as a document. -/
def ofValue : Value → Json
  | .null => null
  | .boolean b => boolean b
  | .integer n => ofInteger n
  | .float x => ofFloat x
  | .string s => string s
  | .array items => array (ofValues items)
  | .object entries => object (ofValueEntries entries)

def ofValues : List Value → List Json
  | [] => []
  | v :: rest => ofValue v :: ofValues rest

def ofValueEntries : List (String × Value) → List (String × Json)
  | [] => []
  | (k, v) :: rest => (k, ofValue v) :: ofValueEntries rest
end

mutual
/-- A document as a value. Integers beyond 63 bits become floats. -/
def toValue : Json → Value
  | null => .null
  | boolean b => .boolean b
  | integer n _ => match integer? n with
    | some a => .integer a
    | none => .float (.ofInt n)
  | float x _ => .float x
  | string s => .string s
  | array items => .array (toValues items)
  | object entries => .object (toValueEntries entries)

def toValues : List Json → List Value
  | [] => []
  | j :: rest => toValue j :: toValues rest

def toValueEntries : List (String × Json) → List (String × Value)
  | [] => []
  | (k, j) :: rest => (k, toValue j) :: toValueEntries rest
end

end Json

end Sift
