import Sift.Evaluation.Evaluator
import Sift.Grammar.Standard
import Sift.Proofs.Number.Bounds
import Sift.Proofs.Number.Division

/-!
# Integer operators

The standard operators keep integers integral. A sum, difference, product or quotient, a quotient
rounded toward minus infinity and an opposite number is the integer that it is exactly, or a float
if there is no such integer in range (`Value.integers_integral`). Remainders and powers are integers
as well, with two exceptions that are floats although an integer would be in range: the remainder
of the least integer by `-1`, and the powers of `0`, `1` and `-1` with exponents beyond 32 bits
(`Value.integers_rem_pow`).
-/

namespace Sift

/-- The outcome is the exact result if that is a machine integer, and a float otherwise. -/
def Outcome.Integral (exact : ℚ) (outcome : Outcome) : Prop :=
  (∃ n : Int64, (n.toInt : ℚ) = exact ∧ outcome = .ok (.integer n)) ∨
    (¬ ∃ n : Int64, (n.toInt : ℚ) = exact) ∧ ∃ x, outcome = .ok (.float x)

variable {m n : Int64} {exact : ℚ}

/-- Integers come out where the exact result is one, and floats elsewhere. -/
lemma Outcome.Integral.of_option {outcome : Outcome} {o : Option Int64}
    (right : ∀ k, o = some k ↔ (k.toInt : ℚ) = exact)
    (integer : ∀ k, o = some k → outcome = .ok (.integer k))
    (float : o = none → ∃ x, outcome = .ok (.float x)) : outcome.Integral exact := by
  cases o with
  | some k => exact .inl ⟨k, (right k).1 rfl, integer k rfl⟩
  | none =>
    refine .inr ⟨?_, float rfl⟩
    rintro ⟨k, same⟩
    cases (right k).2 same

/-! ### Two integers -/

namespace Arithmetic

variable {D : Decimals} {a : Arithmetic D}

lemma apply_of_some {k : Int64} (h : a.integers m n = some k) :
    a.apply (.integer m) (.integer n) = .ok (.integer k) := by
  simp only [apply, h]

lemma apply_of_none (h : a.integers m n = none) : a.apply (.integer m) (.integer n)
    = .ok (.float (a.floats (.ofInt m.toInt) (.ofInt n.toInt))) := by
  simp only [apply, h]

/-- An operation is integral if it finds the exact result where that is a machine integer. -/
lemma integral_apply (h : ∀ k, a.integers m n = some k ↔ (k.toInt : ℚ) = exact) :
    (a.apply (.integer m) (.integer n)).Integral exact :=
  .of_option h (fun _ => apply_of_some) fun missing => ⟨_, apply_of_none missing⟩

lemma integer?_eq_some_iff_cast {z : Int} {k : Int64} :
    integer? z = some k ↔ (k.toInt : ℚ) = z := by
  rw [integer?_eq_some_iff, Int.cast_inj]

/-- An operation on integers is integral if it is exact in range. -/
lemma integral_apply_of_eq {z : Int} (h : a.integers m n = integer? z) :
    (a.apply (.integer m) (.integer n)).Integral z :=
  integral_apply fun k => by rw [h, integer?_eq_some_iff_cast]

end Arithmetic

namespace Value

/-! ### The standard operators -/

/-- What a binary operator of the standard grammar over some decimals makes of two values. -/
def operateWith (D : Decimals) (symbol : String) (v w : Value) : Outcome :=
  ((Expr.binary symbol (.literal v) (.literal w)).evaluate (.standardWith D) .null).now.2

def operate (symbol : String) (v w : Value) : Outcome := operateWith .standard symbol v w

def operateUnary (symbol : String) (v : Value) : Outcome :=
  ((Expr.unary symbol (.literal v)).evaluate .standard .null).now.2

section

variable {D : Decimals} {symbol : String} {precedence : Int32} {f : Value → Value → Outcome}

lemma operateWith_of_immediate
    (h : (Grammar.standardWith D).binary.get? symbol = some (.immediate precedence f))
    (v w : Value) : operateWith D symbol v w = f v w := by
  rw [operateWith, Expr.evaluate, Expr.eval, h]
  rfl

lemma operate_of_immediate
    (h : Grammar.standard.binary.get? symbol = some (.immediate precedence f)) (v w : Value) :
    operate symbol v w = f v w := operateWith_of_immediate h v w

end

variable (v w : Value)

@[simp] lemma operate_add : operate "+" v w = add .standard v w := operate_of_immediate rfl v w

@[simp] lemma operate_sub : operate "-" v w = (Arithmetic.subtraction .standard).apply v w :=
  operate_of_immediate rfl v w

@[simp] lemma operate_mul : operate "*" v w = (Arithmetic.multiplication .standard).apply v w :=
  operate_of_immediate rfl v w

@[simp] lemma operate_div : operate "/" v w = divideBy (.division .standard) v w :=
  operate_of_immediate rfl v w

@[simp] lemma operate_floorDiv : operate "//" v w = floorDivide .standard v w :=
  operate_of_immediate rfl v w

@[simp] lemma operate_rem : operate "%" v w = divideBy (.remainder .standard) v w :=
  operate_of_immediate rfl v w

@[simp] lemma operate_pow : operate "^" v w = (Arithmetic.power .standard).apply v w :=
  operate_of_immediate rfl v w

@[simp] lemma operateUnary_neg : operateUnary "-" v = v.negate := rfl

/-! ### Exact integers -/

lemma isZero_integer : (integer n).isZero = true ↔ n = 0 := by
  obtain ⟨units, representable, same, size⟩ := Binary64.ofInt_toInt_eq_finite n
  have pos := unitsPerOne_pos
  rw [isZero, asFloat?, same, Option.any_some, Binary64.isZero, beq_iff_eq, ← toInt_eq_zero_iff]
  split_ifs at size <;> omega

lemma divideBy_zero {D : Decimals} (a : Arithmetic D) :
    divideBy a v (integer 0) = .error .divisionByZero :=
  if_pos (isZero_integer.2 rfl)

lemma divideBy_of_ne_zero {D : Decimals} (a : Arithmetic D) (nonzero : n ≠ 0) :
    divideBy a v (integer n) = a.apply v (integer n) :=
  if_neg (isZero_integer.not.2 nonzero)

/-- Quotients are integers if they come out even. -/
lemma integral_div (nonzero : n ≠ 0) :
    (operate "/" (integer m) (integer n)).Integral (m.toInt / n.toInt) := by
  have divisor : (n.toInt : ℚ) ≠ 0 := Int.cast_ne_zero.2 (toInt_eq_zero_iff.not.2 nonzero)
  rw [operate_div, divideBy_of_ne_zero _ _ nonzero]
  refine Arithmetic.integral_apply fun k => ?_
  rw [eq_div_iff divisor, ← Int.cast_mul, Int.cast_inj]
  exact exactQuotient?_eq_some_iff nonzero

lemma not_hasQuotient_iff (nonzero : n ≠ 0) :
    ¬ HasQuotient m n ↔ m = Int64.minValue ∧ n = -1 := by
  simp [HasQuotient, nonzero]

/-- The one quotient that is out of range is a float. -/
lemma floorDivide_minValue : floorDivide .standard (integer Int64.minValue) (integer (-1))
    = .ok (float (Binary64.integerBound false)) := by
  have quotient : (Arithmetic.floorDivision .standard).floats (.ofInt Int64.minValue.toInt)
      (.ofInt (-1 : Int64).toInt) = Binary64.integerBound false := by decide +kernel
  rw [floorDivide, divideBy_of_ne_zero _ _ (by decide), Arithmetic.apply_of_none rfl]
  change Except.ok (wholeFloat (float _)) = _
  rw [quotient, Binary64.integerBound,
    Binary64.ofUnits_representable false representable_integerBound, wholeFloat,
    if_neg (Nat.lt_irrefl _)]

/-- Quotients rounded toward minus infinity are integers, but for one. -/
lemma integral_floorDiv (nonzero : n ≠ 0) :
    (operate "//" (integer m) (integer n)).Integral ⌊(m.toInt / n.toInt : ℚ)⌋ := by
  rw [operate_floorDiv, floor_div_eq_fdiv]
  by_cases h : HasQuotient m n
  · obtain ⟨k, found⟩ : ∃ k, floorQuotient? m n = some k := by
      rw [floorQuotient?_eq nonzero, integer?, if_pos h.inRange_fdiv]
      exact ⟨_, rfl⟩
    have same : k.toInt = m.toInt.fdiv n.toInt := by
      rwa [floorQuotient?_eq nonzero, integer?_eq_some_iff] at found
    refine .inl ⟨k, by rw [same], ?_⟩
    rw [floorDivide, divideBy_of_ne_zero _ _ nonzero, Arithmetic.apply_of_some found]
    rfl
  · obtain ⟨rfl, rfl⟩ := (not_hasQuotient_iff nonzero).1 h
    refine .inr ⟨?_, _, floorDivide_minValue⟩
    rintro ⟨k, same⟩
    have high := k.toInt_lt
    have : k.toInt = 9223372036854775808 := Int.cast_inj.1 same
    omega

/-- The opposite is an integer, but for the least one. -/
lemma integral_neg (m : Int64) : (operateUnary "-" (integer m)).Integral (-m.toInt) := by
  refine .of_option (o := integer? (-m.toInt)) (fun k => ?_) (fun k found => ?_) fun missing => ?_
  · rw [Arithmetic.integer?_eq_some_iff_cast, Int.cast_neg]
  · rw [operateUnary_neg, negate, found]
  · rw [operateUnary_neg, negate, missing]
    exact ⟨_, rfl⟩

/-- Sums, differences, products, opposite numbers, quotients and quotients rounded toward minus
infinity are integers wherever an integer is right, and only a zero divisor is an error. The least
integer divided by `-1`, either way, and its opposite are the float `2 ^ 63`. -/
theorem integers_integral (m n : Int64) :
    (operate "+" (integer m) (integer n)).Integral (m.toInt + n.toInt) ∧
    (operate "-" (integer m) (integer n)).Integral (m.toInt - n.toInt) ∧
    (operate "*" (integer m) (integer n)).Integral (m.toInt * n.toInt) ∧
    (operateUnary "-" (integer m)).Integral (-m.toInt) ∧
    (if n = 0 then
      operate "/" (integer m) (integer n) = .error .divisionByZero ∧
      operate "//" (integer m) (integer n) = .error .divisionByZero
    else
      (operate "/" (integer m) (integer n)).Integral (m.toInt / n.toInt) ∧
      (operate "//" (integer m) (integer n)).Integral ⌊(m.toInt / n.toInt : ℚ)⌋) ∧
    operate "/" (integer Int64.minValue) (integer (-1)) = .ok (float (.integerBound false)) ∧
    operate "//" (integer Int64.minValue) (integer (-1)) = .ok (float (.integerBound false)) ∧
    operateUnary "-" (integer Int64.minValue) = .ok (float (.integerBound false)) := by
  refine ⟨?_, ?_, ?_, integral_neg m, ?_, ?_, ?_, ?_⟩
  · rw [operate_add, ← Int.cast_add]
    exact Arithmetic.integral_apply_of_eq rfl
  · rw [operate_sub, ← Int.cast_sub]
    exact Arithmetic.integral_apply_of_eq rfl
  · rw [operate_mul, ← Int.cast_mul]
    exact Arithmetic.integral_apply_of_eq rfl
  · split
    · rename_i zero
      rw [zero, operate_div, operate_floorDiv, floorDivide, divideBy_zero, divideBy_zero]
      exact ⟨rfl, rfl⟩
    · rename_i nonzero
      exact ⟨integral_div nonzero, integral_floorDiv nonzero⟩
  · have quotient : (Arithmetic.division .standard).floats (.ofInt Int64.minValue.toInt)
        (.ofInt (-1 : Int64).toInt) = Binary64.integerBound false := by decide +kernel
    rw [operate_div, divideBy_of_ne_zero _ _ (by decide), Arithmetic.apply_of_none rfl, quotient]
  · rw [operate_floorDiv, floorDivide_minValue]
  · have opposite : (Binary64.ofInt Int64.minValue.toInt).neg = Binary64.integerBound false := by
      decide +kernel
    rw [operateUnary_neg, ← opposite]
    rfl

/-! ### Remainders and powers -/

/-- The remainder is an integer where the quotient is in range. -/
lemma rem_of_hasQuotient (h : HasQuotient m n) : ∃ r : Int64,
    operate "%" (integer m) (integer n) = .ok (integer r) ∧ r.toInt = m.toInt.tmod n.toInt := by
  have found : remainder? m n = some (remainder m n h) := by rw [remainder?, dif_pos h]
  refine ⟨remainder m n h, ?_, h.toInt_remainder⟩
  rw [operate_rem, divideBy_of_ne_zero _ _ h.1, Arithmetic.apply_of_some found]

/-- The remainder of the one quotient out of range is a float. -/
lemma rem_minValue : operate "%" (integer Int64.minValue) (integer (-1))
    = .ok (float (Binary64.zero true)) := by
  have rest : (Arithmetic.remainder .standard).floats (.ofInt Int64.minValue.toInt)
      (.ofInt (-1 : Int64).toInt) = Binary64.zero true := by decide +kernel
  rw [operate_rem, divideBy_of_ne_zero _ _ (by decide), Arithmetic.apply_of_none rfl, rest]

/-- Powers from the 64th on are in range only for the bases that have no more than one digit. -/
lemma toInt_pow_of_le {e : Nat} (large : 64 ≤ e) (zero : m ≠ 0) (one : m ≠ 1)
    (opposite : m ≠ -1) : ¬ InRange (m.toInt ^ e) := by
  have base : 2 ≤ m.toInt.natAbs := by
    have zero : m.toInt ≠ 0 := fun h => zero (Int64.toInt_inj.1 h)
    have one : m.toInt ≠ 1 := fun h => one (Int64.toInt_inj.1 h)
    have opposite : m.toInt ≠ -1 := fun h => opposite (Int64.toInt_inj.1 h)
    omega
  have size : 2 ^ 64 ≤ (m.toInt ^ e).natAbs := by
    rw [Int.natAbs_pow]
    calc 2 ^ 64 ≤ m.toInt.natAbs ^ 64 := Nat.pow_le_pow_left base 64
      _ ≤ m.toInt.natAbs ^ e := Nat.pow_le_pow_right (by omega) large
  rw [inRange_iff]
  omega

/-- A power with an exponent of 32 bits is there if it is in range. -/
lemma power?_eq (nonneg : 0 ≤ n.toInt) (short : n.toInt < UInt32.size) :
    power? m n = integer? (m.toInt ^ n.toInt.toNat) := by
  rw [power?, if_neg (by omega)]
  generalize n.toInt.toNat = e
  split
  · rename_i large
    split_ifs with zero one opposite even
    · rw [zero, show (0 : Int64).toInt = 0 from rfl, zero_pow (by omega)]
      rfl
    · rw [one, show (1 : Int64).toInt = 1 from rfl, one_pow]
      rfl
    · rw [opposite, show (-1 : Int64).toInt = -1 from rfl, (Nat.even_iff.2 even).neg_one_pow]
      rfl
    · rw [opposite, show (-1 : Int64).toInt = -1 from rfl,
        (Nat.odd_iff.2 (Nat.mod_two_ne_zero.1 even)).neg_one_pow]
      rfl
    · exact (integer?_eq_none_iff.2 (toInt_pow_of_le large zero one opposite)).symm
  · rfl

lemma power?_of_le (long : UInt32.size ≤ n.toInt) : power? m n = none := by
  rw [power?, if_pos (.inr (by omega))]

/-- The remainder is the one of the division toward zero, with one exception, and a power that is in
range is an integer as long as its exponent has no more than 32 bits. -/
theorem integers_rem_pow (m n : Int64) :
    (n ≠ 0 →
      if m = Int64.minValue ∧ n = -1 then
        operate "%" (integer m) (integer n) = .ok (float (.zero true))
      else ∃ r, operate "%" (integer m) (integer n) = .ok (integer r) ∧
        r.toInt.natAbs < n.toInt.natAbs ∧ (r = 0 ∨ r.toInt.sign = m.toInt.sign) ∧
        n.toInt ∣ m.toInt - r.toInt) ∧
    (0 ≤ n.toInt → ∀ k : Int64, k.toInt = m.toInt ^ n.toInt.toNat →
      if n.toInt < UInt32.size then operate "^" (integer m) (integer n) = .ok (integer k)
      else ∃ x, operate "^" (integer m) (integer n) = .ok (float x)) := by
  refine ⟨fun nonzero => ?_, fun nonneg k exact => ?_⟩
  · split
    · rename_i least
      rw [least.1, least.2, rem_minValue]
    · rename_i other
      obtain ⟨r, found, same⟩ := rem_of_hasQuotient ⟨nonzero, other⟩
      have divisor : n.toInt ≠ 0 := toInt_eq_zero_iff.not.2 nonzero
      refine ⟨r, found, ?_, ?_, ?_⟩
      · rw [same, Int.natAbs_tmod]
        exact Nat.mod_lt _ (Int.natAbs_pos.2 divisor)
      · rw [← toInt_eq_zero_iff, same]
        exact sign_tmod _ _
      · rw [same]
        exact Int.dvd_self_sub_tmod
  · split
    · rename_i short
      rw [operate_pow, Arithmetic.apply_of_some]
      exact (power?_eq nonneg short).trans (integer?_eq_some_iff.2 exact)
    · rename_i long
      rw [operate_pow, Arithmetic.apply_of_none (power?_of_le (Int.not_lt.1 long))]
      exact ⟨_, rfl⟩

/-- Seven below zero leaves the remainder minus one and has the square 49. -/
theorem integers_rem_pow_seven :
    (∃ r : Int64, operate "%" (integer (-7)) (integer 2) = .ok (integer r) ∧
      r.toInt.natAbs < 2 ∧ (r = 0 ∨ r.toInt.sign = -1) ∧ 2 ∣ -7 - r.toInt) ∧
    operate "^" (integer (-7)) (integer 2) = .ok (integer 49) :=
  ⟨(integers_rem_pow (-7) 2).1 (by decide),
    (integers_rem_pow (-7) 2).2 (by decide) 49 (by decide)⟩

/-- The two exceptions are there, although the results that they miss are `0` and `1`. -/
theorem not_integers_rem_pow :
    (¬ ∀ m n : Int64, n ≠ 0 → ∃ r, operate "%" (integer m) (integer n) = .ok (integer r)) ∧
    (¬ ∀ m n k : Int64, 0 ≤ n.toInt → k.toInt = m.toInt ^ n.toInt.toNat →
      operate "^" (integer m) (integer n) = .ok (integer k)) := by
  constructor
  · intro law
    obtain ⟨r, found⟩ := law Int64.minValue (-1) (by decide)
    rw [rem_minValue] at found
    cases found
  · intro law
    have missing : power? 1 4294967296 = none := power?_of_le (by decide)
    have found := law 1 4294967296 1 (by decide) (one_pow _).symm
    rw [operate_pow, Arithmetic.apply_of_none missing] at found
    cases found

end Value

end Sift
