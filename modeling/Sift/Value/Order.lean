import Sift.Value.Basic

/-!
# Comparison of values

Numbers are compared by their exact values, whether they are integers or floats. Two objects have
their keys in the same order, so that they are compared entry by entry.
-/

namespace Sift

namespace Value

/-- The exact order of two numbers. There is none if a side is no number or is NaN. -/
def compare? : Value → Value → Option Ordering
  | integer a, integer b => some (compare a b)
  | float x, float y => x.compare? y
  | integer a, float y => Binary64.compareInteger? a y
  | float x, integer b => (Binary64.compareInteger? b x).map Ordering.swap
  | _, _ => none

mutual
/-- Equality that does not tell integers from floats. -/
def looseEq : Value → Value → Bool
  | null, null => true
  | boolean a, boolean b => a == b
  | integer a, integer b => a == b
  | integer a, float y => Binary64.compareInteger? a y == some .eq
  | float x, integer b => Binary64.compareInteger? b x == some .eq
  | float x, float y => x.equal y
  | string a, string b => a == b
  | array xs, array ys => looseEqAll xs ys
  | object es, object fs => looseEqEntries es fs
  | _, _ => false

def looseEqAll : List Value → List Value → Bool
  | [], [] => true
  | x :: xs, y :: ys => x.looseEq y && looseEqAll xs ys
  | _, _ => false

/-- Equality of the entries of objects: the same keys, with equal values. -/
def looseEqEntries : List (String × Value) → List (String × Value) → Bool
  | [], [] => true
  | (k, x) :: es, (l, y) :: fs => k == l && x.looseEq y && looseEqEntries es fs
  | _, _ => false
end

mutual
/-- Equality that tells integers from floats. NaN equals nothing, and the zeros are equal. -/
def strictEq : Value → Value → Bool
  | null, null => true
  | boolean a, boolean b => a == b
  | integer a, integer b => a == b
  | float x, float y => x.equal y
  | string a, string b => a == b
  | array xs, array ys => strictEqAll xs ys
  | object es, object fs => strictEqEntries es fs
  | _, _ => false

def strictEqAll : List Value → List Value → Bool
  | [], [] => true
  | x :: xs, y :: ys => x.strictEq y && strictEqAll xs ys
  | _, _ => false

def strictEqEntries : List (String × Value) → List (String × Value) → Bool
  | [], [] => true
  | (k, x) :: es, (l, y) :: fs => k == l && x.strictEq y && strictEqEntries es fs
  | _, _ => false
end

end Value

end Sift
