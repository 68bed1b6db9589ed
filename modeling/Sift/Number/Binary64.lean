import Sift.Number.Integer
import Sift.Number.Rounding

/-!
# Binary floating-point numbers of 64 bits

Every finite binary64 number is a whole multiple of the least positive one, `2 ^ -1074`. A number is
kept as its sign and that multiple, so that comparison, remainder and rounding to whole numbers are
operations on natural numbers, and the other operations compute an exact rational and round it once.
-/

namespace Sift

/-- The number of least positive numbers in one. -/
def unitsPerOne : Nat := twoTo 1074

/-- The least multiple that is too large to be finite, `2 ^ 1024` in value. -/
def unitsLimit : Nat := twoTo 2098

/-- Multiples of the least positive number that are binary64 numbers. -/
def Representable (units : Nat) : Prop := units < unitsLimit ∧ Significant units

instance (units : Nat) : Decidable (Representable units) := inferInstanceAs (Decidable (_ ∧ _))

/-- The numbers of the binary64 format, with a single NaN. -/
inductive Binary64 where
  | nan
  | infinite (negative : Bool)
  | finite (negative : Bool) (units : Nat) (representable : Representable units)
deriving DecidableEq

namespace Binary64

instance : Inhabited Binary64 := ⟨nan⟩

theorem unitsLimit_pos : 0 < unitsLimit := twoTo_pos 2098

theorem representable_zero : Representable 0 := ⟨unitsLimit_pos, Nat.dvd_zero _⟩

def zero (negative : Bool) : Binary64 := finite negative 0 representable_zero

/-- The number nearest to a quotient of units, an overflow being infinite. -/
def ofRatio (negative : Bool) (num den : Nat) : Binary64 :=
  let units := roundBinary num den
  if h : units < unitsLimit then finite negative units ⟨h, roundBinary_significant num den⟩
  else infinite negative

/-- The number nearest to a whole number of units. -/
def ofUnits (negative : Bool) (units : Nat) : Binary64 := ofRatio negative units 1

/-- The number nearest to a whole number. -/
def ofInt (n : Int) : Binary64 := ofUnits (n < 0) (n.natAbs * unitsPerOne)

/-- The number nearest to `digits * 10 ^ exponent`. Beyond the exponents that matter the result is
infinite or zero at once, as every number of that size is. -/
def ofDecimal (negative : Bool) (digits : Nat) (exponent : Int) : Binary64 :=
  if digits = 0 then zero negative
  else if 400 < exponent then infinite negative
  else if exponent + digits.log2 < -1100 then zero negative
  else if 0 ≤ exponent then ofUnits negative (digits * tenTo exponent.toNat * unitsPerOne)
  else ofRatio negative (digits * unitsPerOne) (tenTo (-exponent).toNat)

/-- A number of units that needs no rounding is kept. -/
@[simp] theorem ofUnits_representable {units : Nat} (negative : Bool) (h : Representable units) :
    ofUnits negative units = finite negative units h := by
  simp [ofUnits, ofRatio, roundBinary_one h.2, h.1]

/-! ### Signs and classes -/

/-- The sign, which zeros have as well. -/
def isNegative : Binary64 → Bool
  | nan => false
  | infinite negative => negative
  | finite negative _ _ => negative

def isFinite : Binary64 → Bool
  | finite _ _ _ => true
  | _ => false

/-- One of the two zeros. -/
def isZero : Binary64 → Bool
  | finite _ units _ => units == 0
  | _ => false

/-- Neither a zero nor NaN. -/
def isTruthy : Binary64 → Bool
  | nan => false
  | infinite _ => true
  | finite _ units _ => units != 0

/-- A finite number without a fraction. -/
def isWhole : Binary64 → Bool
  | finite _ units _ => units % unitsPerOne == 0
  | _ => false

def neg : Binary64 → Binary64
  | nan => nan
  | infinite negative => infinite !negative
  | finite negative units h => finite (!negative) units h

/-- A magnitude with its sign. -/
def signed (negative : Bool) (units : Nat) : Int := if negative then -units else units

/-! ### Order -/

/-- The order of the numbers, in which the zeros are equal and NaN has no place. -/
def compare? : Binary64 → Binary64 → Option Ordering
  | nan, _ | _, nan => none
  | infinite a, infinite b => some (compare b a)
  | infinite a, finite _ _ _ => some (if a then .lt else .gt)
  | finite _ _ _, infinite b => some (if b then .gt else .lt)
  | finite a m _, finite b n _ => some (compare (signed a m) (signed b n))

def equal (a b : Binary64) : Bool := a.compare? b == some .eq

/-! ### Whole parts -/

def trunc : Binary64 → Binary64
  | finite negative units _ => ofUnits negative (units / unitsPerOne * unitsPerOne)
  | x => x

def floor : Binary64 → Binary64
  | finite false units _ => ofUnits false (units / unitsPerOne * unitsPerOne)
  | finite true units _ => ofUnits true ((units + (unitsPerOne - 1)) / unitsPerOne * unitsPerOne)
  | x => x

/-- The machine integer nearest to the whole part, zero for NaN. -/
def toInteger : Binary64 → Int64
  | nan => 0
  | infinite negative => if negative then Int64.minValue else Int64.maxValue
  | finite negative units _ => clampInteger (signed negative (units / unitsPerOne))

/-! ### Arithmetic -/

/-- The sum, rounded. Opposite numbers sum to the positive zero. -/
def add : Binary64 → Binary64 → Binary64
  | nan, _ | _, nan => nan
  | infinite a, infinite b => if a = b then infinite a else nan
  | infinite a, finite _ _ _ => infinite a
  | finite _ _ _, infinite b => infinite b
  | finite a m _, finite b n _ =>
    let sum := signed a m + signed b n
    if sum = 0 then zero (a && b) else ofUnits (sum < 0) sum.natAbs

def sub (x y : Binary64) : Binary64 := x.add y.neg

def mul : Binary64 → Binary64 → Binary64
  | nan, _ | _, nan => nan
  | infinite a, infinite b => infinite (a ^^ b)
  | infinite a, finite b n _ | finite b n _, infinite a => if n = 0 then nan else infinite (a ^^ b)
  | finite a m _, finite b n _ => ofRatio (a ^^ b) (m * n) unitsPerOne

def div : Binary64 → Binary64 → Binary64
  | nan, _ | _, nan => nan
  | infinite _, infinite _ => nan
  | infinite a, finite b _ _ => infinite (a ^^ b)
  | finite a _ _, infinite b => zero (a ^^ b)
  | finite a m _, finite b n _ =>
    if n = 0 then if m = 0 then nan else infinite (a ^^ b)
    else ofRatio (a ^^ b) (m * unitsPerOne) n

/-- The remainder of the division toward zero, which is exact and has the sign of the dividend. -/
def rem : Binary64 → Binary64 → Binary64
  | nan, _ | _, nan => nan
  | infinite _, _ => nan
  | finite a m h, infinite _ => finite a m h
  | finite a m _, finite _ n _ => if n = 0 then nan else ofUnits a (m % n)

/-! ### Integers and numbers -/

/-- The bound of machine integers, `2 ^ 63` in value, with a sign. -/
def integerBound (negative : Bool) : Binary64 := ofUnits negative (twoTo 63 * unitsPerOne)

/-- The order of a machine integer and a number. It is the one of the integer and the whole part, if
the whole part is in range, or where these are equal, the one of zero and the fraction. -/
def compareInteger? (n : Int64) : Binary64 → Option Ordering
  | nan => none
  | x =>
    let whole := x.trunc
    if (whole.compare? (integerBound false)).any Ordering.isGE then some .lt
    else if (whole.compare? (integerBound true)).any Ordering.isLT then some .gt
    else match compare n whole.toInteger with
      | .eq => (zero false).compare? (x.sub whole)
      | unequal => some unequal

/-! ### Words -/

def toBits (x : Binary64) : UInt64 :=
  let magnitude := match x with
    | nan => 0x7FF8000000000000
    | infinite _ => 0x7FF0000000000000
    | finite _ units _ =>
      let k := excessDigits units
      -- a number of 53 digits loses the first one to the exponent field, which counts from one
      units / twoTo k + k * twoTo 52
  UInt64.ofNat (if x.isNegative then magnitude + twoTo 63 else magnitude)

def ofBits (bits : UInt64) : Binary64 :=
  let negative := bits.toNat / twoTo 63 == 1
  let exponent := bits.toNat / twoTo 52 % twoTo 11
  let fraction := bits.toNat % twoTo 52
  if exponent = 2047 then if fraction = 0 then infinite negative else nan
  else if exponent = 0 then ofUnits negative fraction
  else ofUnits negative ((twoTo 52 + fraction) * twoTo (exponent - 1))

/-- The power, as the platform computes it. -/
def pow (x y : Binary64) : Binary64 :=
  ofBits (Float.pow (Float.ofBits x.toBits) (Float.ofBits y.toBits)).toBits

end Binary64

end Sift
