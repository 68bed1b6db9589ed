import Mathlib.Algebra.Order.Field.Basic
import Mathlib.Algebra.Order.Field.Rat
import Mathlib.Tactic.Lemma
import Mathlib.Tactic.Linarith
import Mathlib.Tactic.NormNum
import Mathlib.Tactic.Ring
import Sift.Number.Decimals

/-!
# Decimals of 28 places

What is relied on where integers and floats meet as decimals (`Decimals.Lawful`): a decimal has at
most 28 places, conversions and operations are off by less than these leave room for, and they are
out of range only from one on. A float need not stand for the decimal that is nearest to it, as it
is to stand for one with few digits.

A number that is off by less than itself, or by less than what it becomes, stays on its side of
zero. So all that can happen to a sign is that it gets lost in a zero.
-/

namespace Sift

/-! ### Signs of rational numbers -/

def withSign (negative : Bool) (q : ℚ) : ℚ := if negative then -q else q

section

variable (a b : Bool) (p q : ℚ)

@[simp] lemma withSign_zero : withSign a 0 = 0 := by cases a <;> simp [withSign]

@[simp] lemma abs_withSign : |withSign a q| = |q| := by cases a <;> simp [withSign]

@[simp] lemma withSign_withSign : withSign a (withSign a q) = q := by cases a <;> simp [withSign]

lemma withSign_sub : withSign a p - withSign a q = withSign a (p - q) := by
  cases a
  · rfl
  · simp only [withSign, if_true]
    ring

lemma withSign_mul : withSign a p * withSign b q = withSign (a ^^ b) (p * q) := by
  cases a <;> cases b <;> simp [withSign]

lemma withSign_div : withSign a p / withSign b q = withSign (a ^^ b) (p / q) := by
  cases a <;> cases b <;> simp [withSign, neg_div, div_neg]

lemma withSign_mul_right : withSign a (p * q) = withSign a p * q := by
  cases a <;> simp [withSign]

lemma withSign_natCast (n : Nat) : withSign a n = (Binary64.signed a n : ℤ) := by
  cases a <;> simp [withSign, Binary64.signed]

end

/-- The number has the sign, and is not zero. -/
def HasSign (negative : Bool) (q : ℚ) : Prop := 0 < withSign negative q

namespace HasSign

variable {a b : Bool} {p q : ℚ}

/-- A number with a sign is not zero. -/
lemma ne_zero (h : HasSign a q) : q ≠ 0 := by
  rintro rfl
  rw [HasSign, withSign_zero] at h
  exact lt_irrefl 0 h

/-- A number has one sign. -/
lemma unique (h : HasSign a q) (h' : HasSign b q) : a = b := by
  rw [HasSign, withSign] at h h'
  cases a <;> cases b <;> simp only [if_true, Bool.false_eq_true, if_false] at * <;> linarith

/-- The sign of a product is that of the factors. -/
lemma mul (hp : HasSign a p) (hq : HasSign b q) : HasSign (a ^^ b) (p * q) := by
  rw [HasSign, ← withSign_mul]
  exact mul_pos hp hq

/-- The sign of a quotient is that of its sides. -/
lemma div (hp : HasSign a p) (hq : HasSign b q) : HasSign (a ^^ b) (p / q) := by
  rw [HasSign, ← withSign_div]
  exact div_pos hp hq

/-- A number that is off by less than itself, or by less than what it becomes, keeps its sign. -/
lemma of_near (h : HasSign a p) (near : |q - p| < |p| ∨ |q - p| < |q|) : HasSign a q := by
  have same : |q - p| = |withSign a q - withSign a p| := by rw [withSign_sub, abs_withSign]
  rw [same, ← abs_withSign a p, ← abs_withSign a q] at near
  rw [HasSign] at h ⊢
  by_contra other
  have far : |withSign a q - withSign a p| = |withSign a q| + |withSign a p| := by
    rw [abs_of_nonpos (by linarith), abs_of_nonpos (by linarith), abs_of_pos h]
    ring
  have := abs_nonneg (withSign a q)
  have := abs_pos.2 h.ne'
  rcases near with near | near <;> linarith

end HasSign

def Binary64.toRat : Binary64 → ℚ
  | finite negative units _ => withSign negative (units / unitsPerOne)
  | _ => 0

lemma Binary64.abs_toRat_finite {negative : Bool} {units : Nat}
    (representable : Representable units) :
    |(finite negative units representable).toRat| = units / unitsPerOne := by
  rw [toRat, abs_withSign, abs_of_nonneg (div_nonneg (Nat.cast_nonneg _) (Nat.cast_nonneg _))]

/-! ### The laws -/

def lastPlace : ℚ := 1 / 10 ^ 28

lemma lastPlace_pos : 0 < lastPlace := by norm_num [lastPlace]

/-- A result of an operation is off by at most half of the last place, or by less than itself if it
is so large that there are fewer places. -/
def Rounds (exact result : ℚ) : Prop :=
  |result - exact| ≤ lastPlace / 2 ∨ |result - exact| < |exact|

/-- An exact result is rounded. -/
lemma Rounds.refl (exact : ℚ) : Rounds exact exact := by
  refine .inl ?_
  rw [sub_self, abs_zero]
  exact div_nonneg lastPlace_pos.le two_pos.le

lemma Rounds.withSign {exact result : ℚ} (h : Rounds exact result) (negative : Bool) :
    Rounds (withSign negative exact) (withSign negative result) := by
  rwa [Rounds, withSign_sub, abs_withSign, abs_withSign]

/-- A result far beyond one comes from a number that is at least one. -/
lemma Rounds.one_le {exact result : ℚ} (h : Rounds exact result) (large : 7 ≤ result) :
    1 ≤ |exact| := by
  have sum := abs_add_le (result - exact) exact
  rw [sub_add_cancel, abs_of_pos (by linarith)] at sum
  have small : lastPlace ≤ 1 := by norm_num [lastPlace]
  rcases h with h | h <;> linarith

/-- A result beyond half of the last place is not zero. -/
lemma Rounds.ne_zero {exact result : ℚ} (h : Rounds exact result)
    (large : lastPlace / 2 < |exact|) : result ≠ 0 := by
  rintro rfl
  rw [Rounds, zero_sub, abs_neg] at h
  rcases h with h | h <;> linarith

namespace Decimals

/-- Decimals that stand for rational numbers of at most 28 places. -/
structure Lawful (D : Decimals) (value : D.Number → ℚ) : Prop where
  places (d : D.Number) : ∃ k : ℤ, value d = k * lastPlace
  ofInteger (n : Int64) : ∃ d, D.ofInteger? n = some d ∧ value d = n.toInt
  /-- A float is off by less than the last place, or by less than itself. -/
  ofBinary {x : Binary64} {d : D.Number} (finite : x.isFinite = true)
    (h : D.ofBinary? x = some d) :
    |value d - x.toRat| < lastPlace ∨ |value d - x.toRat| < |x.toRat|
  /-- What is below half of the last place is zero. -/
  ofBinary_small {x : Binary64} (finite : x.isFinite = true) (h : |x.toRat| < lastPlace / 2) :
    ∃ d, D.ofBinary? x = some d ∧ value d = 0
  ofBinary_none {x : Binary64} (finite : x.isFinite = true) (h : D.ofBinary? x = none) :
    1 ≤ |x.toRat|
  mul {a b c : D.Number} (h : D.mul a b = some c) : Rounds (value a * value b) (value c)
  mul_none {a b : D.Number} (h : D.mul a b = none) : 1 ≤ |value a * value b|
  div {a b c : D.Number} (nonzero : value b ≠ 0) (h : D.div a b = some c) :
    Rounds (value a / value b) (value c)
  div_none {a b : D.Number} (nonzero : value b ≠ 0) (h : D.div a b = none) :
    1 ≤ |value a / value b|
  div_zero {a b : D.Number} (zero : value b = 0) : D.div a b = none
  isWhole_iff (d : D.Number) : D.isWhole d = true ↔ ∃ k : ℤ, value d = k
  toInteger {d : D.Number} (whole : D.isWhole d = true) (n : Int64) :
    D.toInteger? d = some n ↔ value d = n.toInt
  /-- A decimal other than zero is off by less than itself. -/
  toBinary {d : D.Number} {x : Binary64} (nonzero : value d ≠ 0) (h : D.toBinary? d = some x) :
    x.isFinite = true ∧ |x.toRat - value d| < |value d|

namespace Lawful

variable {D : Decimals} {value : D.Number → ℚ} (lawful : D.Lawful value) {a b c d : D.Number}
include lawful

/-- Decimals that are not zero are not smaller than the last place. -/
lemma lastPlace_le (nonzero : value d ≠ 0) : lastPlace ≤ |value d| := by
  obtain ⟨k, same⟩ := lawful.places d
  have digit : k ≠ 0 := by
    rintro rfl
    rw [same, Int.cast_zero, zero_mul] at nonzero
    exact nonzero rfl
  have least : (1 : ℚ) ≤ |(k : ℚ)| := by exact_mod_cast Int.one_le_abs digit
  rw [same, abs_mul, abs_of_pos lastPlace_pos]
  exact le_mul_of_one_le_left lastPlace_pos.le least

lemma eq_zero_of_lt (h : |value d| < lastPlace) : value d = 0 := by
  by_contra nonzero
  exact absurd (lawful.lastPlace_le nonzero) (not_le.2 h)

/-- A result below half of the last place is zero. -/
lemma eq_zero_of_rounds {exact : ℚ} (h : Rounds exact (value c)) (small : |exact| < lastPlace / 2) :
    value c = 0 := by
  refine lawful.eq_zero_of_lt ?_
  have sum := abs_add_le (value c - exact) exact
  rw [sub_add_cancel] at sum
  rcases h with h | h <;> linarith

/-- A result that is not lost has the sign of the exact one. -/
lemma hasSign_of_rounds {exact : ℚ} {negative : Bool} (h : Rounds exact (value c))
    (sign : HasSign negative exact) (nonzero : value c ≠ 0) : HasSign negative (value c) := by
  refine sign.of_near (h.symm.imp_right fun h => lt_of_le_of_lt h ?_)
  have := lawful.lastPlace_le nonzero
  have := lastPlace_pos
  linarith

/-- A float that is not lost keeps its sign. -/
lemma hasSign_of_ofBinary {x : Binary64} {negative : Bool} (finite : x.isFinite = true)
    (h : D.ofBinary? x = some d) (sign : HasSign negative x.toRat) (nonzero : value d ≠ 0) :
    HasSign negative (value d) :=
  sign.of_near ((lawful.ofBinary finite h).symm.imp_right fun h =>
    lt_of_lt_of_le h (lawful.lastPlace_le nonzero))

/-- A float below one stands for a decimal that is hardly more than twice as large. -/
lemma exists_ofBinary {x : Binary64} (finite : x.isFinite = true) (small : |x.toRat| < 1) :
    ∃ d, D.ofBinary? x = some d ∧ |value d| ≤ 2 * |x.toRat| + lastPlace := by
  cases found : D.ofBinary? x with
  | none => exact absurd (lawful.ofBinary_none finite found) (not_le.2 small)
  | some d =>
    refine ⟨d, rfl, ?_⟩
    have sum := abs_add_le (value d - x.toRat) x.toRat
    rw [sub_add_cancel] at sum
    have := abs_nonneg x.toRat
    have := lastPlace_pos
    rcases lawful.ofBinary finite found with near | near <;> linarith

/-- A float that stands for zero is below the last place. -/
lemma lt_of_ofBinary_zero {x : Binary64} (finite : x.isFinite = true) (h : D.ofBinary? x = some d)
    (zero : value d = 0) : |x.toRat| < lastPlace := by
  have near := lawful.ofBinary finite h
  rw [zero, zero_sub, abs_neg] at near
  exact near.resolve_right (lt_irrefl _)

end Lawful

end Decimals

end Sift
