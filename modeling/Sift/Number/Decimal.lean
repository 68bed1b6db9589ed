import Sift.Number.Decimals

/-!
# Decimal fractions of 96 bits

A decimal is a sign, a coefficient below `2 ^ 96` and a scale of at most 28 places. Integers and
floats meet in this format, so that `0.1` counts as one tenth. A result that the format cannot hold
is `none`.
-/

namespace Sift

/-- The least coefficient that is too large. -/
def coefficientLimit : Nat := twoTo 96

/-- The largest number of places after the point. -/
def maxScale : Nat := 28

/-- The number `coefficient / 10 ^ scale`, with a sign that zero has as well. -/
structure Decimal where
  negative : Bool
  coefficient : Nat
  scale : Nat
  coefficient_lt : coefficient < coefficientLimit
  scale_le : scale ≤ maxScale
deriving DecidableEq

namespace Decimal

/-- A decimal of these parts, if they are within the bounds of the format. -/
def ofParts? (negative : Bool) (coefficient scale : Nat) : Option Decimal :=
  if h : coefficient < coefficientLimit ∧ scale ≤ maxScale then
    some ⟨negative, coefficient, scale, h.1, h.2⟩
  else none

/-- The positive zero without places. -/
def zero : Decimal := ⟨false, 0, 0, twoTo_pos 96, Nat.zero_le _⟩

def isZero (d : Decimal) : Bool := d.coefficient == 0

def neg (d : Decimal) : Decimal := { d with negative := !d.negative }

def ofInteger (n : Int64) : Decimal :=
  ⟨n < 0, n.toInt.natAbs, 0, by
    have range := inRange_iff.1 (inRange_toInt n)
    have limit : coefficientLimit = 79228162514264337593543950336 := rfl
    omega, Nat.zero_le _⟩

/-! ### From binary fractions

A float is a product of a power of two and its significand. The powers of two become powers of ten,
one at a time, at the cost of factors of five; then digits beyond the precision of a float are
dropped. -/

/-- A coefficient with the power of ten that it counts. -/
structure Scaled where
  coefficient : Nat
  exponent : Int

/-- Halve `halvings` times: a factor of ten leaves where the coefficient is even, one of five enters
where it is odd. -/
def Scaled.halve : Nat → Scaled → Scaled
  | 0, x => x
  | n + 1, ⟨m, e⟩ =>
    if m % 2 = 0 then Scaled.halve n ⟨m / 2, e + 1⟩
    else if m * 5 < coefficientLimit then Scaled.halve n ⟨m * 5, e⟩
    else Scaled.halve n ⟨m / 2, e + 1⟩

/-- Double `doublings` times: by two while there is room, else by ten over five. -/
def Scaled.double : Nat → Scaled → Option Scaled
  | 0, x => some x
  | n + 1, ⟨m, e⟩ =>
    if m < coefficientLimit / 2 then Scaled.double n ⟨m * 2, e - 1⟩
    else if (n + 1 : Int) < 2 * e then none
    else Scaled.double n ⟨m / 5, e⟩

/-- Bring a positive exponent down to zero. -/
def Scaled.expand : Nat → Nat → Option Nat
  | 0, m => some m
  | n + 1, m => if m * 10 < coefficientLimit then Scaled.expand n (m * 10) else none

/-- Drop digits, each rounded half up. A coefficient of one digit vanishes. -/
def Scaled.shorten : Nat → Nat → Nat
  | 0, m => m
  | n + 1, m =>
    if m / 10 = 0 then 0
    else Scaled.shorten n (if 5 ≤ m % 10 then m / 10 + 1 else m / 10)

/-- Drop the digits that a float of 52 binary digits does not decide, each rounded half up. -/
def Scaled.trim : Nat → Nat → Nat × Nat
  | 0, m => (m, 0)
  | s + 1, m =>
    if twoTo 52 ≤ m then Scaled.trim s (if 5 ≤ m % 10 then m / 10 + 1 else m / 10) else (m, s + 1)

/-- Drop zeros at the end of the places. -/
def Scaled.stripZeros : Nat → Nat → Nat × Nat
  | 0, m => (m, 0)
  | s + 1, m => if m % 10 = 0 then Scaled.stripZeros s (m / 10) else (m, s + 1)

/-- The digits and the exponent of a whole number of units. -/
def Scaled.ofUnits (units : Nat) : Option Scaled :=
  let k := excessDigits units
  let start : Scaled := ⟨units / twoTo k, (k : Int) - 1074⟩
  if k ≤ 1074 then some (start.halve (1074 - k)) else start.double (k - 1074)

/-- Coefficient and scale within the places of the format and the precision of a float. -/
def Scaled.parts (x : Scaled) : Option (Nat × Nat) :=
  match x.exponent with
  | .ofNat e => (Scaled.expand e x.coefficient).map (·, 0)
  | .negSucc n =>
    let m := Scaled.shorten (n + 1 - maxScale) x.coefficient
    let s := if m = 0 then 0 else min (n + 1) maxScale
    let (m, s) := Scaled.trim s m
    some (Scaled.stripZeros s m)

/-- The decimal that stands for a finite float, where the format has room for it. -/
def ofBinary? : Binary64 → Option Decimal
  | .nan | .infinite _ => none
  | .finite negative units _ =>
    if units = 0 then some { zero with negative }
    else do
      let (m, s) ← (← Scaled.ofUnits units).parts
      ofParts? negative m s

/-! ### Exact results brought into the format -/

/-- Places to drop so that coefficient and scale are within bounds. -/
def placesToDrop (coefficient scale : Nat) : Nat :=
  let least := scale - maxScale
  ((List.range (decimalLength coefficient + 1)).map (least + ·)).find? (fits ·) |>.getD least
where
  fits (places : Nat) : Bool := roundHalfEven coefficient (tenTo places) < coefficientLimit

/-- The decimal nearest to `coefficient / 10 ^ scale`, by dropping as few places as possible and
rounding once, a half to the even coefficient. -/
def fit (negative : Bool) (coefficient scale : Nat) : Option Decimal :=
  let places := placesToDrop coefficient scale
  if places ≤ scale then
    ofParts? negative (roundHalfEven coefficient (tenTo places)) (scale - places)
  else none

/-! ### Arithmetic -/

def numeratorAt (d : Decimal) (scale : Nat) : Int :=
  let n : Int := (d.coefficient * tenTo (scale - d.scale) : Nat)
  if d.negative then -n else n

/-- The sum. A zero leaves the other side as it is. -/
def add (a b : Decimal) : Option Decimal :=
  if a.isZero then some b
  else if b.isZero then some a
  else
    let scale := max a.scale b.scale
    let sum := a.numeratorAt scale + b.numeratorAt scale
    fit (sum < 0) sum.natAbs scale

def sub (a b : Decimal) : Option Decimal :=
  if a.isZero then some (if b.isZero then b else b.neg)
  else a.add b.neg

def mul (a b : Decimal) : Option Decimal :=
  if a.isZero || b.isZero then some zero
  else fit (a.negative ^^ b.negative) (a.coefficient * b.coefficient) (a.scale + b.scale)

/-! ### Division -/

/-- How many places, up to nine, a quotient of the given scale can gain. -/
def room (quotient : Nat) (scale : Int) : Nat :=
  ((List.range 10).reverse.find? fun (p : Nat) =>
    scale + p ≤ maxScale && quotient * tenTo p < coefficientLimit).getD 0

/-- A quotient in the making: its digits so far, the remainder, and whether any remainder was left
before the last step. -/
structure Quotient where
  digits : Nat
  remainder : Nat
  scale : Int
  inexact : Bool

namespace Quotient

def gained (x : Quotient) : Nat :=
  if x.remainder = 0 then min 9 (-x.scale).toNat else room x.digits x.scale

/-- The quotient with the places that a round gains. -/
def advanced (divisor : Nat) (x : Quotient) : Quotient :=
  let rest := x.remainder * tenTo x.gained
  { digits := x.digits * tenTo x.gained + rest / divisor
    remainder := rest % divisor
    scale := x.scale + x.gained
    inexact := x.inexact || x.remainder != 0 }

/-- The quotient rounded by its remainder. -/
def rounded (divisor : Nat) (x : Quotient) : Quotient :=
  let up := divisor < 2 * x.remainder ∨ (2 * x.remainder = divisor ∧ x.digits % 2 = 1)
  { x with
    digits := if up then x.digits + 1 else x.digits
    inexact := x.inexact || x.remainder != 0 }

/-- Drop the last digit of a quotient that has grown beyond the format, if it has places. -/
def carry (x : Quotient) : Option Quotient :=
  if x.digits < coefficientLimit then some x
  else if x.scale ≤ 0 then none
  else some { x with digits := roundHalfEven x.digits 10, scale := x.scale - 1 }

/-- Gain places until the division comes out even or the format has no room. Every round gains at
least one place, so a bound on the rounds follows from the bounds on the scale. -/
def refine (divisor : Nat) : Nat → Quotient → Option Quotient
  | 0, x => some x
  | rounds + 1, x =>
    if x.remainder = 0 ∧ 0 ≤ x.scale then some x
    else if x.gained = 0 then if x.scale < 0 then none else (x.rounded divisor).carry
    else if coefficientLimit ≤ x.digits * tenTo x.gained then none
    else
      let next := x.advanced divisor
      if coefficientLimit ≤ next.digits then next.carry else next.refine divisor rounds

end Quotient

/-- Drop `places` zeros if the coefficient ends in that many; `test` is a necessary condition that
is looked at first. -/
def dropZeros (places test : Nat) (x : Nat × Nat) : Nat × Nat :=
  if x.1 % test = 0 ∧ places ≤ x.2 ∧ x.1 % tenTo places = 0 then (x.1 / tenTo places, x.2 - places)
  else x

def dropEights (x : Nat × Nat) : Nat × Nat :=
  -- a scale of at most 28 places has room for three rounds
  dropZeros 8 (twoTo 32) (dropZeros 8 (twoTo 32) (dropZeros 8 (twoTo 32) x))

/-- Drop the zeros at the end of the places. -/
def dropAllZeros (x : Nat × Nat) : Nat × Nat :=
  dropZeros 1 2 (dropZeros 2 4 (dropZeros 4 16 (dropEights x)))

def Quotient.start (a b : Decimal) : Quotient where
  digits := a.coefficient / b.coefficient
  remainder := a.coefficient % b.coefficient
  scale := (a.scale : Int) - b.scale
  inexact := false

/-- Coefficient and scale, without zeros at the end if there were remainders on the way. -/
def Quotient.parts (x : Quotient) : Nat × Nat :=
  if x.inexact then dropAllZeros (x.digits, x.scale.toNat) else (x.digits, x.scale.toNat)

/-- The quotient, to as many places as the format has room for. -/
def div (a b : Decimal) : Option Decimal :=
  if b.isZero then none
  else if a.isZero then some zero
  else do
    let x ← (Quotient.start a b).refine b.coefficient (2 * maxScale + 1)
    ofParts? (a.negative ^^ b.negative) x.parts.1 x.parts.2

/-- The remainder of the division toward zero, with the sign of the dividend. -/
def rem (a b : Decimal) : Option Decimal :=
  if b.isZero then none
  else
    let scale := max a.scale b.scale
    let r := a.coefficient * tenTo (scale - a.scale) % (b.coefficient * tenTo (scale - b.scale))
    if r = 0 then some zero else ofParts? a.negative r scale

def floor (d : Decimal) : Option Decimal :=
  let one := tenTo d.scale
  let whole := d.coefficient / one
  ofParts? d.negative (if d.negative ∧ d.coefficient % one ≠ 0 then whole + 1 else whole) 0

/-! ### Back to machine numbers -/

def isWhole (d : Decimal) : Bool := d.coefficient % tenTo d.scale == 0

/-- The whole part as a machine integer. -/
def toInteger? (d : Decimal) : Option Int64 :=
  integer? (Binary64.signed d.negative (d.coefficient / tenTo d.scale))

/-- A power of ten by repeated squaring, each product rounded. -/
def roundedPower (n : Nat) : Binary64 :=
  go n (.ofInt 1) (.ofInt 10)
where
  go (n : Nat) (result square : Binary64) : Binary64 :=
    if n = 0 then result
    else go (n / 2) (if n % 2 = 1 then result.mul square else result) (square.mul square)
  termination_by n

def roundAway : Binary64 → Binary64
  | .finite negative units _ =>
    .ofUnits negative ((2 * units + unitsPerOne) / (2 * unitsPerOne) * unitsPerOne)
  | x => x

/-- A float near the decimal: whole part and fraction are converted apart, and their sum is rounded
to as many places as the decimal has. -/
def toBinary (d : Decimal) : Binary64 :=
  let one := tenTo d.scale
  let magnitude :=
    if d.scale = 0 then Binary64.ofInt d.coefficient
    else
      let whole := Binary64.ofInt (d.coefficient / one : Nat)
      let fraction := (Binary64.ofInt (d.coefficient % one : Nat)).div (.ofInt (one : Nat))
      if fraction.isZero then whole
      else
        let power := roundedPower d.scale
        (roundAway ((whole.add fraction).mul power)).div power
  if d.negative then magnitude.neg else magnitude

end Decimal

/-- The decimals of 96 bits. -/
def Decimals.standard : Decimals where
  Number := Decimal
  ofInteger? n := some (.ofInteger n)
  ofBinary? := Decimal.ofBinary?
  add := Decimal.add
  sub := Decimal.sub
  mul := Decimal.mul
  div := Decimal.div
  rem := Decimal.rem
  floor := Decimal.floor
  isWhole := Decimal.isWhole
  toInteger? := Decimal.toInteger?
  toBinary? d := some d.toBinary

end Sift
