import Mathlib.Algebra.Order.Field.Rat
import Mathlib.Data.Rat.Cast.Order
import Mathlib.Order.WithBotTop
import Mathlib.Tactic.Lemma
import Mathlib.Tactic.Push
import Sift.Number.Binary64

/-!
# Exact values of floats

A finite float denotes a rational number, and the infinities stand at both ends of the rationals.
The order of floats is the order of what they denote. So is the order of a machine integer and a
float, although it is found by way of the whole part and the fraction: both of them are floats, so
that neither cutting the fraction off nor subtracting the whole part rounds anything.
-/

namespace Sift

/-! ### Parts of numbers with few digits -/

lemma log2_mono {m n : Nat} (h : m ≤ n) : m.log2 ≤ n.log2 := by
  by_cases hm : m = 0
  · rw [hm, Nat.log2_zero]
    exact Nat.zero_le _
  · have power : 2 ^ m.log2 ≤ m := (Nat.le_log2 hm).1 (Nat.le_refl _)
    exact (Nat.le_log2 (by omega)).2 (Nat.le_trans power h)

lemma twoTo_lt_twoTo {j k : Nat} (h : j < k) : twoTo j < twoTo k :=
  Nat.pow_lt_pow_right (by decide) h

lemma twoTo_le_twoTo {j k : Nat} (h : j ≤ k) : twoTo j ≤ twoTo k :=
  Nat.pow_le_pow_right (by decide) h

/-- A smaller number needs no more digits, if it ends in as many zeros. -/
lemma Representable.of_dvd {m n : Nat} (h : Representable n) (le : m ≤ n)
    (dvd : twoTo (excessDigits n) ∣ m) : Representable m := by
  have fewer : excessDigits m ≤ excessDigits n := Nat.sub_le_sub_right (log2_mono le) 52
  exact ⟨Nat.lt_of_le_of_lt le h.1, Nat.dvd_trans (twoTo_dvd_twoTo fewer) dvd⟩

lemma twoTo_dvd_whole {j k n : Nat} (h : twoTo k ∣ n) : twoTo k ∣ n / twoTo j * twoTo j := by
  rcases Nat.le_total k j with few | many
  · exact Nat.dvd_trans (twoTo_dvd_twoTo few) (Nat.dvd_mul_left _ _)
  · rwa [Nat.div_mul_cancel (Nat.dvd_trans (twoTo_dvd_twoTo many) h)]

/-- The whole part of a float is a float. -/
lemma Representable.whole {n : Nat} (h : Representable n) :
    Representable (n / unitsPerOne * unitsPerOne) :=
  h.of_dvd (Nat.div_mul_le_self _ _) (twoTo_dvd_whole h.2)

/-- The fraction of a float is a float. -/
lemma Representable.fraction {n : Nat} (h : Representable n) : Representable (n % unitsPerOne) := by
  refine h.of_dvd (Nat.mod_le _ _) ?_
  have split : n % unitsPerOne = n - n / unitsPerOne * unitsPerOne := by
    have := Nat.div_add_mod' n unitsPerOne
    omega
  rw [split]
  exact Nat.dvd_sub h.2 (twoTo_dvd_whole h.2)

lemma representable_integerBound : Representable (twoTo 63 * unitsPerOne) := by
  have digits := significant_mul_twoTo (m := 1) (twoTo_pos 53) (63 + 1074)
  rw [Nat.one_mul] at digits
  rw [unitsPerOne, ← twoTo_add]
  exact ⟨twoTo_lt_twoTo (by decide), digits⟩

lemma unitsPerOne_pos : 0 < unitsPerOne := twoTo_pos 1074

/-! ### Machine integers and their multiples -/

lemma compare_eq_compare_toInt (m n : Int64) : compare m n = compare m.toInt n.toInt := by
  change compareOfLessAndEq m n = compareOfLessAndEq m.toInt n.toInt
  simp only [compareOfLessAndEq, Int64.lt_iff_toInt_lt, Int64.toInt_inj]

/-- Integers in range are not moved. -/
lemma toInt_clampInteger {n : Int} (h : InRange n) : (clampInteger n).toInt = n := by
  rw [clampInteger, if_neg (Int.not_lt.2 h.1), if_neg (Int.not_lt.2 h.2)]
  obtain ⟨low, high⟩ := inRange_iff.1 h
  exact Int64.toInt_ofInt_of_le low (by omega)

/-- Less than a unit decides only between equal multiples of it. -/
lemma compare_mul_add {m n r : Int} {unit : Nat} (small : r.natAbs < unit) :
    compare (m * unit) (n * unit + r) = (compare m n).then (compare 0 r) := by
  have step {k l : Int} (h : k < l) : k * unit + unit ≤ l * unit := by
    rw [← add_one_mul]
    exact Int.mul_le_mul_of_nonneg_right h (Int.natCast_nonneg unit)
  rcases lt_trichotomy m n with less | rfl | greater
  · have := step less
    rw [compare_lt_iff_lt.2 less, compare_lt_iff_lt.2 (by omega)]
    rfl
  · have := cmp_add_left (m * unit : Int) 0 r
    rw [Int.add_zero] at this
    rw [compare_eq_iff_eq.2 rfl, ← cmp_eq_compare, this, cmp_eq_compare]
    rfl
  · have := step greater
    rw [compare_gt_iff_gt.2 greater, compare_gt_iff_gt.2 (by omega)]
    rfl

namespace Binary64

@[simp] lemma signed_false (units : Nat) : signed false units = units := rfl

@[simp] lemma signed_true (units : Nat) : signed true units = -units := rfl

@[simp] lemma natAbs_signed (negative : Bool) (units : Nat) :
    (signed negative units).natAbs = units := by
  cases negative
  · exact Int.natAbs_natCast units
  · exact (Int.natAbs_neg _).trans (Int.natAbs_natCast units)

@[simp] lemma signed_not (negative : Bool) (units : Nat) :
    signed (!negative) units = -signed negative units := by
  cases negative
  · rfl
  · exact (Int.neg_neg _).symm

lemma signed_add (negative : Bool) (m n : Nat) :
    signed negative (m + n) = signed negative m + signed negative n := by
  cases negative
  · exact Int.natCast_add m n
  · simp only [signed_true]
    omega

lemma signed_mul (negative : Bool) (m n : Nat) :
    signed negative (m * n) = signed negative m * n := by
  cases negative
  · exact Int.natCast_mul m n
  · rw [signed_true, signed_true, Int.natCast_mul, Int.neg_mul]

lemma signed_natAbs (n : Int) : signed (decide (n < 0)) n.natAbs = n := by
  by_cases h : n < 0
  · simp only [h, decide_true, signed_true]
    omega
  · simp only [h, decide_false, signed_false]
    omega

/-! ### The order of floats -/

def inUnits (n : Int) : ℚ := n / unitsPerOne

/-- What a float denotes: a rational number, or the least or greatest of all. NaN denotes nothing.
-/
def denoted? : Binary64 → Option (WithBot (WithTop ℚ))
  | nan => none
  | infinite negative => some (if negative then ⊥ else ⊤)
  | finite negative units _ => some (inUnits (signed negative units))

lemma unitsPerOne_cast_pos : (0 : ℚ) < unitsPerOne := Nat.cast_pos.2 unitsPerOne_pos

lemma inUnits_lt_inUnits {m n : Int} (h : m < n) :
    (inUnits m : WithBot (WithTop ℚ)) < inUnits n := by
  have h : (m : ℚ) < n := Int.cast_lt.2 h
  exact WithBot.coe_lt_coe.2 (WithTop.coe_lt_coe.2 (div_lt_div_of_pos_right h unitsPerOne_cast_pos))

lemma inUnits_mul (n : Int) : inUnits (n * unitsPerOne) = n := by
  rw [inUnits, Int.cast_mul, Int.cast_natCast, mul_div_assoc, div_self unitsPerOne_cast_pos.ne',
    mul_one]

/-- Numbers are ordered as their units are. -/
lemma compare_inUnits (m n : Int) :
    compare (inUnits m : WithBot (WithTop ℚ)) (inUnits n) = compare m n := by
  rw [← cmp_eq_compare, ← cmp_eq_compare]
  exact StrictMono.cmp_map_eq (f := fun n : Int => (inUnits n : WithBot (WithTop ℚ)))
    (fun _ _ => inUnits_lt_inUnits) m n

lemma bot_lt_inUnits (n : Int) : (⊥ : WithBot (WithTop ℚ)) < inUnits n := WithBot.bot_lt_coe _

lemma inUnits_lt_top (n : Int) : (inUnits n : WithBot (WithTop ℚ)) < ⊤ :=
  WithBot.coe_lt_coe.2 (WithTop.coe_lt_top _)

/-- The order of two floats is the one of what they denote. -/
lemma compare?_eq (x y : Binary64) : x.compare? y = Option.map₂ compare x.denoted? y.denoted? := by
  refine Eq.symm ?_
  match x, y with
  | nan, _ => rfl
  | infinite _, nan | finite _ _ _, nan => rfl
  | infinite true, infinite true | infinite false, infinite false =>
    exact congrArg some (compare_eq_iff_eq.2 rfl)
  | infinite true, infinite false => exact congrArg some (compare_lt_iff_lt.2 bot_lt_top)
  | infinite false, infinite true => exact congrArg some (compare_gt_iff_gt.2 bot_lt_top)
  | infinite true, finite _ _ _ => exact congrArg some (compare_lt_iff_lt.2 (bot_lt_inUnits _))
  | infinite false, finite _ _ _ => exact congrArg some (compare_gt_iff_gt.2 (inUnits_lt_top _))
  | finite _ _ _, infinite true => exact congrArg some (compare_gt_iff_gt.2 (bot_lt_inUnits _))
  | finite _ _ _, infinite false => exact congrArg some (compare_lt_iff_lt.2 (inUnits_lt_top _))
  | finite _ _ _, finite _ _ _ => exact congrArg some (compare_inUnits _ _)

/-! ### Whole parts and fractions -/

/-- Sums of floats that are floats are not rounded. -/
lemma add_eq_finite {a b : Bool} {m n : Nat} (hm : Representable m) (hn : Representable n)
    (h : Representable (signed a m + signed b n).natAbs) :
    ∃ c k hk, (finite a m hm).add (finite b n hn) = finite c k hk ∧
      signed c k = signed a m + signed b n := by
  rw [add]
  split
  · rename_i none
    refine ⟨a && b, 0, representable_zero, rfl, ?_⟩
    rw [none]
    cases a && b <;> rfl
  · refine ⟨_, _, h, ofUnits_representable _ h, signed_natAbs _⟩

lemma integerBound_eq (negative : Bool) : integerBound negative
    = finite negative (twoTo 63 * unitsPerOne) representable_integerBound :=
  ofUnits_representable negative representable_integerBound

lemma denoted?_integerBound (negative : Bool) : (integerBound negative).denoted?
    = some ((signed negative (twoTo 63) : ℚ) : WithBot (WithTop ℚ)) := by
  rw [integerBound_eq, denoted?, signed_mul, inUnits_mul]

section

variable (negative : Bool) {units : Nat} (h : Representable units)

/-- Cutting the fraction off rounds nothing. -/
lemma trunc_finite : (finite negative units h).trunc
    = finite negative (units / unitsPerOne * unitsPerOne) h.whole :=
  ofUnits_representable negative h.whole

/-- A finite float is the sum of its whole part and its fraction. -/
lemma signed_split (units : Nat) : signed negative units
    = signed negative (units / unitsPerOne) * unitsPerOne
      + signed negative (units % unitsPerOne) := by
  rw [← signed_mul, ← signed_add, Nat.div_add_mod']

/-- The machine integer of a float is the nearest one to its whole part. -/
lemma trunc_toInteger : (finite negative units h).trunc.toInteger
    = clampInteger (signed negative (units / unitsPerOne)) := by
  rw [trunc_finite, toInteger, Nat.mul_div_cancel _ unitsPerOne_pos]

lemma trunc_compare?_integerBound (negative' : Bool) :
    (finite negative units h).trunc.compare? (integerBound negative')
      = some (compare (signed negative (units / unitsPerOne)) (signed negative' (twoTo 63))) := by
  rw [trunc_finite, integerBound_eq, compare?, signed_mul, signed_mul, ← cmp_eq_compare,
    ← cmp_eq_compare, cmp_mul_pos_right (Int.natCast_pos.2 unitsPerOne_pos)]

/-- Taking the whole part away rounds nothing. -/
lemma zero_compare?_sub_trunc :
    (zero false).compare? ((finite negative units h).sub (finite negative units h).trunc)
      = some (compare 0 (signed negative (units % unitsPerOne))) := by
  have fraction : signed negative units + signed (!negative) (units / unitsPerOne * unitsPerOne)
      = signed negative (units % unitsPerOne) := by
    rw [signed_not, signed_split negative units, signed_mul, add_neg_cancel_comm]
  have representable : Representable (signed negative units
      + signed (!negative) (units / unitsPerOne * unitsPerOne)).natAbs := by
    rw [fraction, natAbs_signed]
    exact h.fraction
  obtain ⟨c, k, hk, sum, value⟩ := add_eq_finite h h.whole representable
  rw [trunc_finite, sub, neg, sum, zero, compare?, value, fraction]
  rfl

end

/-! ### The order of integers and floats -/

/-- The order of an integer and a finite float, in units. -/
lemma compareInteger?_finite (n : Int64) (negative : Bool) {units : Nat}
    (h : Representable units) : compareInteger? n (finite negative units h)
      = some (compare (n.toInt * unitsPerOne) (signed negative units)) := by
  have small : (signed negative (units % unitsPerOne)).natAbs < unitsPerOne := by
    rw [natAbs_signed]
    exact Nat.mod_lt _ unitsPerOne_pos
  have bound : signed true (twoTo 63) = Int64.minValue.toInt := rfl
  have bound' : signed false (twoTo 63) = Int64.maxValue.toInt + 1 := rfl
  rw [signed_split negative units, compare_mul_add small]
  simp only [compareInteger?, trunc_compare?_integerBound, zero_compare?_sub_trunc,
    trunc_toInteger, Option.any_some, Int.isGE_compare, Ordering.isLT_iff_eq_lt, compare_lt_iff_lt,
    bound, bound']
  generalize signed negative (units / unitsPerOne) = whole
  obtain ⟨low, high⟩ := inRange_toInt n
  split
  · rename_i above
    rw [compare_lt_iff_lt.2 (by omega : n.toInt < whole)]
    rfl
  · split
    · rename_i below
      rw [compare_gt_iff_gt.2 (by omega : whole < n.toInt)]
      rfl
    · rename_i notAbove notBelow
      rw [compare_eq_compare_toInt, toInt_clampInteger ⟨by omega, by omega⟩]
      cases compare n.toInt whole <;> rfl

lemma compareInteger?_infinite (n : Int64) (negative : Bool) :
    compareInteger? n (infinite negative) = some (if negative then .gt else .lt) := by
  simp only [compareInteger?, trunc, integerBound_eq, compare?]
  cases negative <;> rfl

/-- The order of an integer and a float is the one of the integer and what the float denotes. -/
lemma compareInteger?_eq (n : Int64) (x : Binary64) : compareInteger? n x
    = x.denoted?.map (compare ((n.toInt : ℚ) : WithBot (WithTop ℚ))) := by
  rw [← inUnits_mul]
  cases x with
  | nan => rfl
  | infinite negative =>
    rw [compareInteger?_infinite]
    cases negative with
    | true => exact congrArg some (compare_gt_iff_gt.2 (bot_lt_inUnits _)).symm
    | false => exact congrArg some (compare_lt_iff_lt.2 (inUnits_lt_top _)).symm
  | finite negative units h =>
    rw [compareInteger?_finite, ← compare_inUnits]
    rfl

end Binary64

end Sift
