import Sift.Proofs.Number.Conversion
import Sift.Proofs.Value.Operators

/-!
# Integers multiplied and divided by floats

An integer and a float that are not zero are multiplied and divided as decimals, if the float stands
for a decimal and the result is one, and else in floating point. Both ways give the sign that the
two signs give, and a decimal that is not zero becomes a value that is not zero. But decimals have
only 28 places. A float may stand for zero although it is not zero, and a quotient may be rounded to
zero, and then the result is the integer zero although a float could hold the number.
`Value.mixedLaws` says that this is all that gets lost, and where it does, for all decimals that
follow their laws.
-/

namespace Sift

/-! ### Signs -/

namespace Binary64

/-- The sign of a number, which zeros have as well. -/
def sign? : Binary64 → Option Bool
  | nan => none
  | x => some x.isNegative

variable {negative : Bool} {x : Binary64}

@[simp] lemma sign?_finite {units : Nat} (representable : Representable units) :
    (finite negative units representable).sign? = some negative := rfl

@[simp] lemma sign?_infinite : (infinite negative).sign? = some negative := rfl

@[simp] lemma sign?_ofRatio (num den : Nat) : (ofRatio negative num den).sign? = some negative := by
  rcases ofRatio_cases negative num den with ⟨units, representable, same⟩ | same <;> rw [same]
  · exact sign?_finite representable
  · exact sign?_infinite

lemma hasSign_toRat (finite : x.isFinite = true) (nonzero : x.isZero = false) :
    HasSign x.isNegative x.toRat := by
  obtain ⟨negative, units, representable, rfl⟩ := exists_eq_finite finite
  have pos : 0 < units := Nat.pos_of_ne_zero (bne_iff_ne.1 (congrArg not nonzero))
  rw [HasSign, toRat, isNegative, withSign_withSign]
  exact div_pos (Nat.cast_pos.2 pos) unitsPerOne_cast_pos

/-- A float has the sign of its number, and is not zero if that is not. -/
lemma sign_of_hasSign (finite : x.isFinite = true) (h : HasSign negative x.toRat) :
    x.sign? = some negative ∧ x.isZero = false := by
  have nonzero : x.isZero = false := by
    refine Bool.eq_false_iff.2 fun zero => h.ne_zero ?_
    obtain ⟨negative, units, representable, rfl⟩ := exists_eq_finite finite
    rw [toRat, beq_iff_eq.1 zero, Nat.cast_zero, zero_div, withSign_zero]
  refine ⟨?_, nonzero⟩
  rw [h.unique (hasSign_toRat finite nonzero)]
  obtain ⟨negative, units, representable, rfl⟩ := exists_eq_finite finite
  rfl

end Binary64

lemma hasSign_toInt {n : Int64} (nonzero : n ≠ 0) : HasSign (decide (n < 0)) n.toInt := by
  have digits : (n.toInt : ℚ) = withSign (decide (n < 0)) n.toInt.natAbs := by
    rw [withSign_natCast, decide_lt_zero, Binary64.signed_natAbs]
  rw [HasSign, digits, withSign_withSign, Nat.cast_pos, Int.natAbs_pos]
  exact toInt_eq_zero_iff.not.2 nonzero

lemma sign_of_hasSign_toInt {n : Int64} {negative : Bool} (h : HasSign negative n.toInt) :
    n ≠ 0 ∧ decide (n < 0) = negative := by
  have nonzero : n ≠ 0 := toInt_eq_zero_iff.not.1 (Int.cast_ne_zero.1 h.ne_zero)
  exact ⟨nonzero, (hasSign_toInt nonzero).unique h⟩

namespace Value

def sign? : Value → Option Bool
  | integer n => if n = 0 then none else some (n < 0)
  | float x => x.sign?
  | _ => none

end Value

/-- The outcome is a number with the given sign that is not zero unless the float is. -/
def Outcome.Keeps (negative : Bool) (plain : Binary64) (outcome : Outcome) : Prop :=
  ∃ v, outcome = .ok v ∧ v.sign? = some negative ∧ (v.isZero = true → plain.isZero = true)

/-- The outcome is the integer zero where the number is lost, and else keeps it. -/
def Outcome.KeepsUnless (lost : Prop) (negative : Bool) (plain : Binary64) (outcome : Outcome) :
    Prop :=
  (lost → outcome = .ok (.integer 0)) ∧ (¬ lost → outcome.Keeps negative plain)

/-! ### Decimals as values -/

namespace Decimals

variable {D : Decimals} {value : D.Number → ℚ}

/-- The float stands for zero. -/
def Loses (D : Decimals) (value : D.Number → ℚ) (x : Binary64) : Prop :=
  ∃ d, D.ofBinary? x = some d ∧ value d = 0

/-- There is a quotient, and it is zero. -/
def LosesQuotient (D : Decimals) (value : D.Number → ℚ) (a b : Option D.Number) : Prop :=
  ∃ c, (do D.div (← a) (← b)) = some c ∧ value c = 0

namespace Lawful

variable (lawful : D.Lawful value) {d : D.Number}
include lawful

/-- Integers become decimals without a change. -/
lemma value_integer {n : Int64} (h : D.ofInteger? n = some d) : value d = n.toInt := by
  obtain ⟨a, found, size⟩ := lawful.ofInteger n
  cases found.symm.trans h
  exact size

/-- A decimal that is zero becomes the integer zero. -/
lemma toValue_of_zero (zero : value d = 0) : D.toValue? d = some (.integer 0) := by
  have whole : D.isWhole d = true := (lawful.isWhole_iff d).2 ⟨0, zero.trans Int.cast_zero.symm⟩
  have found : D.toInteger? d = some 0 :=
    (lawful.toInteger whole 0).2 (zero.trans Int.cast_zero.symm)
  rw [toValue?, if_pos whole, found]

/-- A decimal other than zero becomes a value other than zero, with its sign. -/
lemma sign_toValue {negative : Bool} {v : Value} (h : HasSign negative (value d))
    (found : D.toValue? d = some v) : v.sign? = some negative ∧ v.isZero = false := by
  rw [toValue?] at found
  split at found
  · rename_i n whole
    cases found
    split_ifs at whole with exact
    rw [(lawful.toInteger exact n).1 whole] at h
    obtain ⟨nonzero, sign⟩ := sign_of_hasSign_toInt h
    exact ⟨(if_neg nonzero).trans (congrArg _ sign),
      Bool.eq_false_iff.2 (Value.isZero_integer.not.2 nonzero)⟩
  · obtain ⟨x, becomes, rfl⟩ := Option.map_eq_some_iff.1 found
    obtain ⟨finite, near⟩ := lawful.toBinary h.ne_zero becomes
    exact Binary64.sign_of_hasSign finite (h.of_near (.inl near))

end Lawful

end Decimals

/-! ### The floating-point results -/

namespace Binary64

/-- A quotient that is not below one is not rounded to zero. -/
lemma isZero_ofRatio (negative : Bool) {num den : Nat} (pos : 0 < den) (h : den ≤ num) :
    (ofRatio negative num den).isZero = false := by
  by_cases limit : roundBinary num den < unitsLimit
  · have least : 1 ≤ roundBinary num den :=
      le_roundBinary (significant_twoTo 0) pos (by rwa [Nat.one_mul])
    rw [ofRatio_of_lt negative limit]
    exact beq_false_of_ne (Nat.ne_of_gt least)
  · rw [ofRatio_of_le negative limit]
    rfl

section

variable {n : Int64} {x : Binary64} (hn : n ≠ 0) (finite : x.isFinite = true)
  (nonzero : x.isZero = false)
include hn finite nonzero

/-- The plain product with an integer keeps the sign, and is not zero. -/
lemma ofInt_mul : ((ofInt n.toInt).mul x).sign? = some (decide (n < 0) ^^ x.isNegative) ∧
    ((ofInt n.toInt).mul x).isZero = false := by
  obtain ⟨m, hm, same, size⟩ := ofInt_toInt_eq_finite n
  rw [if_neg (toInt_eq_zero_iff.not.2 hn)] at size
  obtain ⟨negative, units, representable, rfl⟩ := exists_eq_finite finite
  have pos : units ≠ 0 := bne_iff_ne.1 (congrArg not nonzero)
  rw [same, mul_finite_finite, sign?_ofRatio, decide_lt_zero]
  refine ⟨rfl, isZero_ofRatio _ unitsPerOne_pos ?_⟩
  exact Nat.le_trans size (Nat.le_mul_of_pos_right _ (Nat.pos_of_ne_zero pos))

/-- The plain quotient of an integer keeps the sign, and is not zero. -/
lemma ofInt_div : ((ofInt n.toInt).div x).sign? = some (decide (n < 0) ^^ x.isNegative) ∧
    ((ofInt n.toInt).div x).isZero = false := by
  obtain ⟨m, hm, same, size⟩ := ofInt_toInt_eq_finite n
  rw [if_neg (toInt_eq_zero_iff.not.2 hn)] at size
  obtain ⟨negative, units, representable, rfl⟩ := exists_eq_finite finite
  have pos : units ≠ 0 := bne_iff_ne.1 (congrArg not nonzero)
  rw [same, div_finite_finite _ _ _ _ pos, sign?_ofRatio, decide_lt_zero]
  refine ⟨rfl, isZero_ofRatio _ (Nat.pos_of_ne_zero pos) ?_⟩
  calc units ≤ twoTo 2098 := representable.1.le
    _ ≤ unitsPerOne * unitsPerOne := by
      rw [unitsPerOne, ← twoTo_add]
      exact twoTo_le_twoTo (by decide)
    _ ≤ m * unitsPerOne := Nat.mul_le_mul_right _ size

omit nonzero in
lemma div_ofInt : (x.div (ofInt n.toInt)).sign? = some (decide (n < 0) ^^ x.isNegative) := by
  obtain ⟨m, hm, same, size⟩ := ofInt_toInt_eq_finite n
  rw [if_neg (toInt_eq_zero_iff.not.2 hn)] at size
  obtain ⟨negative, units, representable, rfl⟩ := exists_eq_finite finite
  have pos : m ≠ 0 := (Nat.lt_of_lt_of_le unitsPerOne_pos size).ne'
  rw [same, div_finite_finite _ _ _ _ pos, sign?_ofRatio, decide_lt_zero, Bool.xor_comm]
  rfl

end

lemma mul_comm (x y : Binary64) : x.mul y = y.mul x := by
  cases x <;> cases y <;> simp only [mul, Bool.xor_comm, Nat.mul_comm]

end Binary64

/-! ### Mixed operations -/

section

variable {D : Decimals} {value : D.Number → ℚ} (lawful : D.Lawful value)
include lawful

/-- A mixed operation loses no more than its operation on decimals does. -/
lemma Arithmetic.mixed_keepsUnless {a : Arithmetic D} {l r : Option D.Number} {x y : Binary64}
    {negative : Bool} {lost : Prop} {floats : Binary64 → Binary64 → Binary64}
    (same : a.floats = floats) (plain : (floats x y).sign? = some negative)
    (zero : lost ↔ ∃ c, (do a.decimals (← l) (← r)) = some c ∧ value c = 0)
    (sign : ∀ c, (do a.decimals (← l) (← r)) = some c → value c ≠ 0 → HasSign negative (value c)) :
    Outcome.KeepsUnless lost negative (floats x y) (.ok (a.mixed l r x y)) := by
  have split : (do D.toValue? (← a.decimals (← l) (← r)))
      = (do a.decimals (← l) (← r)).bind D.toValue? := by
    cases l <;> cases r <;> rfl
  rw [mixed, split, same]
  constructor
  · intro gone
    obtain ⟨c, found, none⟩ := zero.1 gone
    rw [found, Option.bind_some, lawful.toValue_of_zero none]
  · intro there
    cases found : (do a.decimals (← l) (← r)).bind D.toValue? with
    | none => exact ⟨_, rfl, plain, id⟩
    | some v =>
      obtain ⟨c, found, becomes⟩ := Option.bind_eq_some_iff.1 found
      have nonzero : value c ≠ 0 := fun none => there (zero.2 ⟨c, found, none⟩)
      obtain ⟨signed, some⟩ := lawful.sign_toValue (sign c found nonzero) becomes
      exact ⟨v, rfl, signed, fun none => absurd none (Bool.eq_false_iff.1 some)⟩

variable {n : Int64} {x : Binary64} (hn : n ≠ 0) (finite : x.isFinite = true)
  (nonzero : x.isZero = false)
include hn finite nonzero

/-- A product is lost if the float stands for zero. -/
lemma Arithmetic.product_keepsUnless {a : Arithmetic D} {l r : Option D.Number} {y z : Binary64}
    {op : D.Number → Option D.Number} {floats : Binary64 → Binary64 → Binary64}
    (float : a.floats = floats)
    (plain : (floats y z).sign? = some (decide (n < 0) ^^ x.isNegative))
    (same : (do a.decimals (← l) (← r)) = (D.ofBinary? x).bind op)
    (rounds : ∀ d c, op d = some c → Rounds (n.toInt * value d) (value c))
    (large : ∀ d, op d = none → 1 ≤ |n.toInt * value d|) :
    Outcome.KeepsUnless (D.Loses value x) (decide (n < 0) ^^ x.isNegative) (floats y z)
      (.ok (a.mixed l r y z)) := by
  have half : (0 : ℚ) < lastPlace / 2 := half_pos lastPlace_pos
  have zero {d c : D.Number} (h : op d = some c) (none : value d = 0) : value c = 0 := by
    refine lawful.eq_zero_of_rounds (rounds d c h) ?_
    rwa [none, mul_zero, abs_zero]
  refine Arithmetic.mixed_keepsUnless lawful float plain ⟨?_, ?_⟩ fun c h some => ?_
  · rintro ⟨d, stands, none⟩
    cases found : op d with
    | none =>
      have := large d found
      rw [none, mul_zero, abs_zero] at this
      norm_num at this
    | some c => exact ⟨c, by rw [same, stands, Option.bind_some, found], zero found none⟩
  · rintro ⟨c, h, none⟩
    rw [same] at h
    obtain ⟨d, stands, h⟩ := Option.bind_eq_some_iff.1 h
    refine ⟨d, stands, ?_⟩
    by_contra some
    refine (rounds d c h).ne_zero ?_ none
    have least : (1 : ℚ) ≤ |(n.toInt : ℚ)| := by
      exact_mod_cast Int.one_le_abs (toInt_eq_zero_iff.not.2 hn)
    rw [abs_mul]
    calc lastPlace / 2 < lastPlace := half_lt_self lastPlace_pos
      _ ≤ |value d| := lawful.lastPlace_le some
      _ ≤ |(n.toInt : ℚ)| * |value d| := le_mul_of_one_le_left (abs_nonneg _) least
  · rw [same] at h
    obtain ⟨d, stands, h⟩ := Option.bind_eq_some_iff.1 h
    have sign := lawful.hasSign_of_ofBinary finite stands (Binary64.hasSign_toRat finite nonzero)
      fun none => some (zero h none)
    exact lawful.hasSign_of_rounds (rounds d c h) ((hasSign_toInt hn).mul sign) some

end

/-! ### The laws -/

namespace Arithmetic

variable {D : Decimals} (a : Arithmetic D)

/-- What an operation does where an integer and a float meet. -/
lemma apply_integer_float (n : Int64) (y : Binary64) : a.apply (.integer n) (.float y)
    = .ok (a.mixed (D.ofInteger? n) (D.ofBinary? y) (.ofInt n.toInt) y) := by
  rw [apply]

lemma apply_float_integer (x : Binary64) (n : Int64) : a.apply (.float x) (.integer n)
    = .ok (a.mixed (D.ofBinary? x) (D.ofInteger? n) x (.ofInt n.toInt)) := by
  rw [apply]

end Arithmetic

namespace Value

lemma operateWith_mul (D : Decimals) (v w : Value) :
    operateWith D "*" v w = (Arithmetic.multiplication D).apply v w := by
  have found : (Grammar.standardWith D).binary.get? "*"
      = some (.immediate 40 (Arithmetic.multiplication D).apply) := by
    simp [Grammar.standardWith, Grammar.standardEdits, Grammar.editAll, Grammar.editAllWith,
      Grammar.binary_editWith]
  exact operateWith_of_immediate found v w

lemma operateWith_div (D : Decimals) (v w : Value) :
    operateWith D "/" v w = divideBy (.division D) v w := by
  have found : (Grammar.standardWith D).binary.get? "/"
      = some (.immediate 40 (divideBy (.division D))) := by
    simp [Grammar.standardWith, Grammar.standardEdits, Grammar.editAll, Grammar.editAllWith,
      Grammar.binary_editWith]
  exact operateWith_of_immediate found v w

/-- A number that is rounded to 28 places gets lost below half of the last one, and not beyond. -/
def Vanishes (exact : ℚ) (lost : Prop) : Prop :=
  (|exact| < lastPlace / 2 → lost) ∧ (lastPlace / 2 < |exact| → ¬ lost)

/-- What becomes of the products and quotients of an integer and a float that are not zero. They are
numbers with the sign that the two signs give, and zero only if the floating-point result is,
except for those that decimals of 28 places cannot tell from zero. -/
structure MixedLaws (D : Decimals) (value : D.Number → ℚ) (n : Int64) (x : Binary64) : Prop where
  /-- A product is lost if the float stands for zero. -/
  integer_mul : (operateWith D "*" (integer n) (float x)).KeepsUnless (D.Loses value x)
    (decide (n < 0) ^^ x.isNegative) ((Binary64.ofInt n.toInt).mul x)
  mul_integer : (operateWith D "*" (float x) (integer n)).KeepsUnless (D.Loses value x)
    (decide (n < 0) ^^ x.isNegative) (x.mul (Binary64.ofInt n.toInt))
  /-- A quotient is lost if the quotient of the decimals is zero. -/
  integer_div : (operateWith D "/" (integer n) (float x)).KeepsUnless
    (D.LosesQuotient value (D.ofInteger? n) (D.ofBinary? x))
    (decide (n < 0) ^^ x.isNegative) ((Binary64.ofInt n.toInt).div x)
  div_integer : (operateWith D "/" (float x) (integer n)).KeepsUnless
    (D.LosesQuotient value (D.ofBinary? x) (D.ofInteger? n))
    (decide (n < 0) ^^ x.isNegative) (x.div (Binary64.ofInt n.toInt))
  /-- Floats below half of the last place stand for zero, and from the last place on they do not. -/
  stands : (|x.toRat| < lastPlace / 2 → D.Loses value x) ∧
    (lastPlace ≤ |x.toRat| → ¬ D.Loses value x)
  /-- There is no quotient by a float that stands for zero. -/
  quotient : ∀ d, D.ofBinary? x = some d →
    (value d = 0 → ¬ D.LosesQuotient value (D.ofInteger? n) (some d)) ∧
    (value d ≠ 0 → Vanishes (n.toInt / value d) (D.LosesQuotient value (D.ofInteger? n) (some d))) ∧
    Vanishes (value d / n.toInt) (D.LosesQuotient value (some d) (D.ofInteger? n))
  /-- What a product or the quotient by a float loses is not zero in floating point. -/
  plain : ((Binary64.ofInt n.toInt).mul x).isZero = false ∧
    (x.mul (Binary64.ofInt n.toInt)).isZero = false ∧
    ((Binary64.ofInt n.toInt).div x).isZero = false

section

variable {D : Decimals} {value : D.Number → ℚ} (lawful : D.Lawful value)
include lawful

/-- Quotients get lost below half of the last place, as they are rounded. -/
lemma vanishes_quotient {a b : D.Number} (nonzero : value b ≠ 0) :
    Vanishes (value a / value b) (D.LosesQuotient value (some a) (some b)) := by
  constructor
  · intro small
    cases found : D.div a b with
    | none =>
      have := lawful.div_none nonzero found
      have : lastPlace / 2 < 1 := by norm_num [lastPlace]
      linarith
    | some c => exact ⟨c, found, lawful.eq_zero_of_rounds (lawful.div nonzero found) small⟩
  · rintro large ⟨c, found, none⟩
    exact (lawful.div nonzero found).ne_zero large none

variable {n : Int64} {x : Binary64} (hn : n ≠ 0) (finite : x.isFinite = true)
  (nonzero : x.isZero = false)
include hn finite nonzero

/-- The first product: the integer is on the left. -/
lemma integer_mul_float : (operateWith D "*" (integer n) (float x)).KeepsUnless (D.Loses value x)
    (decide (n < 0) ^^ x.isNegative) ((Binary64.ofInt n.toInt).mul x) := by
  have plain := (Binary64.ofInt_mul hn finite nonzero).1
  obtain ⟨a, found, size⟩ := lawful.ofInteger n
  rw [operateWith_mul, Arithmetic.apply_integer_float, found]
  have same : (do (Arithmetic.multiplication D).decimals (← some a) (← D.ofBinary? x))
      = (D.ofBinary? x).bind fun d => D.mul a d := rfl
  refine Arithmetic.product_keepsUnless (a := .multiplication D) lawful hn finite nonzero
    rfl plain same (fun d c h => ?_) fun d h => ?_
  · exact size ▸ lawful.mul h
  · exact size ▸ lawful.mul_none h

lemma float_mul_integer : (operateWith D "*" (float x) (integer n)).KeepsUnless (D.Loses value x)
    (decide (n < 0) ^^ x.isNegative) (x.mul (Binary64.ofInt n.toInt)) := by
  have plain := (Binary64.ofInt_mul hn finite nonzero).1
  rw [Binary64.mul_comm] at plain
  obtain ⟨a, found, size⟩ := lawful.ofInteger n
  rw [operateWith_mul, Arithmetic.apply_float_integer, found]
  have same : (do (Arithmetic.multiplication D).decimals (← D.ofBinary? x) (← some a))
      = (D.ofBinary? x).bind fun d => D.mul d a := by
    cases D.ofBinary? x <;> rfl
  refine Arithmetic.product_keepsUnless (a := .multiplication D) lawful hn finite nonzero
    rfl plain same (fun d c h => ?_) fun d h => ?_
  · rw [mul_comm]
    exact size ▸ lawful.mul h
  · rw [mul_comm]
    exact size ▸ lawful.mul_none h

/-- The first quotient: the integer is divided. -/
lemma integer_div_float : (operateWith D "/" (integer n) (float x)).KeepsUnless
    (D.LosesQuotient value (D.ofInteger? n) (D.ofBinary? x))
    (decide (n < 0) ^^ x.isNegative) ((Binary64.ofInt n.toInt).div x) := by
  have divisor : ¬ (float x).isZero = true := Bool.eq_false_iff.1 nonzero
  rw [operateWith_div, divideBy, if_neg divisor, Arithmetic.apply_integer_float]
  refine Arithmetic.mixed_keepsUnless (a := .division D) lawful rfl
    (Binary64.ofInt_div hn finite nonzero).1 Iff.rfl fun c h some => ?_
  obtain ⟨a, integer, h⟩ := Option.bind_eq_some_iff.1 h
  obtain ⟨d, stands, h⟩ := Option.bind_eq_some_iff.1 h
  have divisor : value d ≠ 0 := by
    intro none
    cases (lawful.div_zero none).symm.trans h
  have rounds := lawful.div divisor h
  rw [lawful.value_integer integer] at rounds
  have sign := lawful.hasSign_of_ofBinary finite stands (Binary64.hasSign_toRat finite nonzero)
    divisor
  exact lawful.hasSign_of_rounds rounds ((hasSign_toInt hn).div sign) some

/-- The second quotient: the integer is the divisor. -/
lemma float_div_integer : (operateWith D "/" (float x) (integer n)).KeepsUnless
    (D.LosesQuotient value (D.ofBinary? x) (D.ofInteger? n))
    (decide (n < 0) ^^ x.isNegative) (x.div (Binary64.ofInt n.toInt)) := by
  rw [operateWith_div, divideBy_of_ne_zero _ _ hn, Arithmetic.apply_float_integer]
  refine Arithmetic.mixed_keepsUnless (a := .division D) lawful rfl
    (Binary64.div_ofInt hn finite) Iff.rfl fun c h some => ?_
  obtain ⟨d, stands, h⟩ := Option.bind_eq_some_iff.1 h
  obtain ⟨a, integer, h⟩ := Option.bind_eq_some_iff.1 h
  have size := lawful.value_integer integer
  have divisor : value a ≠ 0 := size ▸ (hasSign_toInt hn).ne_zero
  have rounds := lawful.div divisor h
  rw [size] at rounds
  have dividend : value d ≠ 0 := by
    intro none
    rw [none, zero_div] at rounds
    exact some (lawful.eq_zero_of_rounds rounds (abs_zero.trans_lt (half_pos lastPlace_pos)))
  have sign := lawful.hasSign_of_ofBinary finite stands (Binary64.hasSign_toRat finite nonzero)
    dividend
  rw [Bool.xor_comm]
  exact lawful.hasSign_of_rounds rounds (sign.div (hasSign_toInt hn)) some

/-- Mixed products and quotients follow their laws. -/
theorem mixedLaws : MixedLaws D value n x where
  integer_mul := integer_mul_float lawful hn finite nonzero
  mul_integer := float_mul_integer lawful hn finite nonzero
  integer_div := integer_div_float lawful hn finite nonzero
  div_integer := float_div_integer lawful hn finite nonzero
  stands := ⟨lawful.ofBinary_small finite, fun large ⟨_, stands, zero⟩ =>
    absurd (lawful.lt_of_ofBinary_zero finite stands zero) (not_lt.2 large)⟩
  quotient d _ := by
    obtain ⟨a, found, size⟩ := lawful.ofInteger n
    rw [found, ← size]
    refine ⟨?_, vanishes_quotient lawful, vanishes_quotient lawful ?_⟩
    · rintro none ⟨c, h, -⟩
      cases (lawful.div_zero none).symm.trans h
    · exact size ▸ (hasSign_toInt hn).ne_zero
  plain :=
    have product := (Binary64.ofInt_mul hn finite nonzero).2
    ⟨product, (congrArg _ (Binary64.mul_comm _ _)).trans product,
      (Binary64.ofInt_div hn finite nonzero).2⟩

end

/-- Ten times 1.1 keeps its sign and is not zero. -/
theorem mixedLaws_ten : (operate "*" (integer 10) (float (.ofDecimal false 11 (-1)))).Keeps false
    ((Binary64.ofInt 10).mul (.ofDecimal false 11 (-1))) := by
  have laws : MixedLaws .standard Decimal.value 10 (.ofDecimal false 11 (-1)) :=
    mixedLaws Decimals.lawful_standard (by decide) (by decide +kernel) (by decide +kernel)
  have sign : (decide ((10 : Int64) < 0) ^^ (Binary64.ofDecimal false 11 (-1)).isNegative)
      = false := by decide +kernel
  have ten : (10 : Int64).toInt = 10 := rfl
  have product := laws.integer_mul
  rw [sign, ten] at product
  rw [operate]
  refine product.2 ?_
  rintro ⟨d, stands, zero⟩
  have exact : Decimal.ofBinary? (.ofDecimal false 11 (-1)) = Decimal.ofParts? false 11 1 := by
    decide +kernel
  rw [Decimals.standard_ofBinary?, exact] at stands
  have digits := (Decimal.ofParts?_eq_some_iff.1 stands).2.1
  cases digits.symm.trans (Decimal.value_eq_zero_iff.1 zero)

/-- Zero keeps no number. -/
lemma not_keeps_of_zero {outcome : Outcome} {negative : Bool} {plain : Binary64}
    (h : outcome = .ok (integer 0)) : ¬ outcome.Keeps negative plain := by
  rintro ⟨v, same, sign, -⟩
  rw [h] at same
  cases same
  cases sign

/-- A float up to some unit fraction. -/
lemma abs_toRat_le {x : Binary64} {k : Nat} (pos : 0 < k)
    (h : x.between 0 (unitsPerOne / k) = true) : |x.toRat| ≤ 1 / k := by
  obtain ⟨units, representable, rfl, -, le⟩ := Binary64.exists_of_between h
  have unit := Binary64.unitsPerOne_cast_pos
  have le : units * k ≤ unitsPerOne := (Nat.le_div_iff_mul_le pos).1 le
  rw [Binary64.abs_toRat_finite, div_le_div_iff₀ unit (Nat.cast_pos.2 pos), one_mul]
  exact_mod_cast le

/-- With all decimals that follow the laws, those of 96 bits among them, `5 * 1e-30` and
`1e-20 / 10000000000` are lost. -/
theorem not_mixed_keeps : Decimals.standard.Lawful Decimal.value ∧
    ¬ ∃ (D : Decimals) (value : D.Number → ℚ), D.Lawful value ∧
      ((operateWith D "*" (integer 5) (float (.ofDecimal false 1 (-30)))).Keeps false
        ((Binary64.ofInt 5).mul (.ofDecimal false 1 (-30))) ∨
      (operateWith D "/" (float (.ofDecimal false 1 (-20))) (integer 10000000000)).Keeps false
        ((Binary64.ofDecimal false 1 (-20)).div (.ofInt 10000000000))) := by
  refine ⟨Decimals.lawful_standard, ?_⟩
  rintro ⟨D, value, lawful, keeps | keeps⟩
  · have finite : (Binary64.ofDecimal false 1 (-30)).isFinite = true := by decide +kernel
    have small : |(Binary64.ofDecimal false 1 (-30)).toRat| ≤ 1 / (10 ^ 29 : Nat) :=
      abs_toRat_le (by decide) (by decide +kernel)
    refine not_keeps_of_zero ?_ keeps
    refine (integer_mul_float lawful (by decide) finite (by decide +kernel)).1
      (lawful.ofBinary_small finite (small.trans_lt ?_))
    norm_num [lastPlace]
  · have finite : (Binary64.ofDecimal false 1 (-20)).isFinite = true := by decide +kernel
    have small : |(Binary64.ofDecimal false 1 (-20)).toRat| ≤ 1 / (10 ^ 19 : Nat) :=
      abs_toRat_le (by decide) (by decide +kernel)
    obtain ⟨d, stands, size⟩ := lawful.exists_ofBinary finite (small.trans_lt (by norm_num))
    obtain ⟨a, integer, divisor⟩ := lawful.ofInteger 10000000000
    have ten : ((10000000000 : Int64).toInt : ℚ) = 10000000000 := rfl
    refine not_keeps_of_zero ?_ keeps
    refine (float_div_integer lawful (by decide) finite (by decide +kernel)).1 ?_
    rw [stands, integer]
    refine (vanishes_quotient lawful ?_).1 ?_
    · rw [divisor, ten]
      norm_num
    · rw [divisor, ten, abs_div, div_lt_iff₀ (by norm_num)]
      refine size.trans_lt ?_
      norm_num [lastPlace] at small ⊢
      linarith

end Value

end Sift
