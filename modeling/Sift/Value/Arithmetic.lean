import Sift.Evaluation.Outcome
import Sift.Number.Decimals
import Sift.Value.Order

/-!
# Arithmetic of values

Integers are computed exactly and become floats where the result is no integer in range. An integer
and a float meet as decimals, so that the float counts as the decimal it stands for; two floats, and
what decimals cannot hold, are computed in floating point.
-/

namespace Sift

/-- A decimal as a value, whole ones as integers. -/
def Decimals.toValue? (D : Decimals) (d : D.Number) : Option Value :=
  match if D.isWhole d then D.toInteger? d else none with
  | some n => some (.integer n)
  | none => (D.toBinary? d).map .float

/-- An operation on numbers, for each way in which two of them meet. -/
structure Arithmetic (D : Decimals) where
  /-- What the operation does, in words. -/
  verb : String
  integers : Int64 → Int64 → Option Int64
  decimals : D.Number → D.Number → Option D.Number
  floats : Binary64 → Binary64 → Binary64

namespace Arithmetic

variable {D : Decimals} (a : Arithmetic D)

/-- An integer and a float meet. -/
def mixed (m n : Option D.Number) (x y : Binary64) : Value :=
  match (do D.toValue? (← a.decimals (← m) (← n))) with
  | some v => v
  | none => .float (a.floats x y)

/-- The operation on two values. -/
def apply : Value → Value → Outcome
  | .integer m, .integer n =>
    match a.integers m n with
    | some k => .ok (.integer k)
    | none => .ok (.float (a.floats (.ofInt m.toInt) (.ofInt n.toInt)))
  | .float x, .float y => .ok (.float (a.floats x y))
  | .integer n, .float y =>
    .ok (a.mixed (D.ofInteger? n) (D.ofBinary? y) (.ofInt n.toInt) y)
  | .float x, .integer n =>
    .ok (a.mixed (D.ofBinary? x) (D.ofInteger? n) x (.ofInt n.toInt))
  | v, w => .error (.typeError ("Cannot " ++ a.verb ++ " " ++ v.typeName ++ " and " ++ w.typeName))

end Arithmetic

/-! ### The operations -/

/-- The power of integers, for exponents of 32 bits. Beyond `2 ^ 63` only the powers of numbers up
to one stay in range. -/
def power? (m n : Int64) : Option Int64 :=
  let exponent := n.toInt.toNat
  if n.toInt < 0 ∨ UInt32.size ≤ exponent then none
  else if 64 ≤ exponent then
    if m = 0 then some 0
    else if m = 1 then some 1
    else if m = -1 then some (if exponent % 2 = 0 then 1 else -1)
    else none
  else integer? (Int.pow m.toInt exponent)

namespace Arithmetic

variable (D : Decimals)

def addition : Arithmetic D where
  verb := "add"
  integers m n := integer? (m.toInt + n.toInt)
  decimals := D.add
  floats := Binary64.add

def subtraction : Arithmetic D where
  verb := "subtract"
  integers m n := integer? (m.toInt - n.toInt)
  decimals := D.sub
  floats := Binary64.sub

def multiplication : Arithmetic D where
  verb := "multiply"
  integers m n := integer? (m.toInt * n.toInt)
  decimals := D.mul
  floats := Binary64.mul

def division : Arithmetic D where
  verb := "divide"
  integers := exactQuotient?
  decimals := D.div
  floats := Binary64.div

def floorDivision : Arithmetic D where
  verb := "divide"
  integers := floorQuotient?
  decimals a b := (D.div a b).bind D.floor
  floats x y := (x.div y).floor

def remainder : Arithmetic D where
  verb := "take the remainder of"
  integers := remainder?
  decimals := D.rem
  floats := Binary64.rem

def power : Arithmetic D where
  verb := "raise"
  integers := power?
  decimals _ _ := none
  floats := Binary64.pow

end Arithmetic

namespace Value

/-- The sum of numbers, or the concatenation of texts where one of the values is a text. -/
def add (D : Decimals) (v w : Value) : Outcome :=
  match v, w with
  | string s, w => .ok (.string (s ++ w.asString))
  | v, string t => .ok (.string (v.asString ++ t))
  | v, w => (Arithmetic.addition D).apply v w

/-- Whether the value is a number equal to zero. -/
def isZero (v : Value) : Bool := v.asFloat?.any Binary64.isZero

/-- An operation that needs a divisor. A zero divisor is an error, whatever the dividend. -/
def divideBy {D : Decimals} (a : Arithmetic D) (v w : Value) : Outcome :=
  if w.isZero then .error .divisionByZero else a.apply v w

/-- A float below `2 ^ 63` in magnitude as an integer. -/
def wholeFloat : Value → Value
  | float (.finite negative units h) =>
    if units < twoTo 63 * unitsPerOne then integer (Binary64.finite negative units h).toInteger
    else float (.finite negative units h)
  | v => v

/-- The quotient rounded toward minus infinity, an integer where it is in range. -/
def floorDivide (D : Decimals) (v w : Value) : Outcome :=
  (divideBy (.floorDivision D) v w).map wholeFloat

def negate : Value → Outcome
  | integer n =>
    match integer? (-n.toInt) with
    | some m => .ok (integer m)
    | none => .ok (float (Binary64.ofInt n.toInt).neg)
  | float x => .ok (float x.neg)
  | v => .error (.typeError ("Cannot negate " ++ v.typeName))

/-- The order of two numbers or two texts put to a test. NaN passes no test. -/
def compareBy (symbol : String) (test : Ordering → Bool) (v w : Value) : Outcome :=
  let holds (order : Option Ordering) : Outcome := .ok (boolean (order.any test))
  match v, w with
  | string s, string t => holds (some (compare s t))
  | integer _, integer _ | integer _, float _ | float _, integer _ | float _, float _ =>
    holds (v.compare? w)
  | _, _ =>
    .error (.typeError ("Cannot compare " ++ v.typeName ++ " " ++ symbol ++ " " ++ w.typeName
      ++ " (comparison requires two numbers or two strings)"))

def occursIn (part : List Char) : List Char → Bool
  | [] => part.isEmpty
  | c :: rest => part.isPrefixOf (c :: rest) || occursIn part rest

/-- Whether an array has an element equal to a value, or a text contains its text. -/
def contains (collection v : Value) : Bool :=
  match collection with
  | array items => items.any fun item => item.looseEq v
  | string s => occursIn v.asString.toList s.toList
  | _ => false

end Value

end Sift
