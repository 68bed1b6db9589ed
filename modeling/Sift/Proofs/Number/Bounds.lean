import Mathlib.Tactic.Ring
import Sift.Proofs.Number.Exact

/-!
# Bounds of rounded results

Rounding does not pass a number that has at most 53 digits: what is not below such a number is not
rounded below it, and what is not above it is not rounded above it. So a number in range is not
rounded to an infinite one, nor a whole number other than zero to zero.
-/

namespace Sift

/-! ### Rounding between numbers with few digits -/

/-- Rounding does not pass a natural number from below. -/
lemma roundHalfEven_le_of_le {num den c : Nat} (h : num ≤ c * den) :
    roundHalfEven num den ≤ c := by
  rcases Nat.eq_zero_or_pos den with rfl | pos
  · obtain rfl : num = 0 := Nat.le_zero.1 h
    exact Nat.zero_le c
  · rcases Nat.lt_or_eq_of_le h with less | rfl
    · have below : num / den < c := Nat.div_lt_of_lt_mul (by rwa [Nat.mul_comm])
      exact Nat.le_trans (roundHalfEven_le num den) below
    · exact (roundHalfEven_mul_right pos).le

/-- Rounding does not pass a natural number from above. -/
lemma le_roundHalfEven_of_le {num den c : Nat} (pos : 0 < den) (h : c * den ≤ num) :
    c ≤ roundHalfEven num den :=
  Nat.le_trans ((Nat.le_div_iff_mul_le pos).2 h) (le_roundHalfEven num den)

lemma excessDigits_mono {m n : Nat} (h : m ≤ n) : excessDigits m ≤ excessDigits n :=
  Nat.sub_le_sub_right (log2_mono h) 52

lemma twoTo_le_of_excessDigits {n : Nat} (h : 0 < excessDigits n) :
    twoTo (52 + excessDigits n) ≤ n := by
  have digits : n.log2 = 52 + excessDigits n := by
    rw [excessDigits] at h ⊢
    omega
  have nonzero : n ≠ 0 := by
    rintro rfl
    exact Nat.lt_irrefl 0 h
  refine Nat.le_of_not_lt fun less => ?_
  have := (log2_lt_iff nonzero).2 less
  omega

section

variable {num den bound : Nat} (few : Significant bound)
include few

/-- Rounding does not pass a number of 53 binary digits from below. -/
lemma roundBinary_le (h : num ≤ bound * den) : roundBinary num den ≤ bound := by
  have quotient : num / den ≤ bound := Nat.div_le_of_le_mul (by rwa [Nat.mul_comm])
  obtain ⟨c, hc⟩ := Nat.dvd_trans (twoTo_dvd_twoTo (excessDigits_mono quotient)) few
  rw [roundBinary]
  generalize excessDigits (num / den) = k at hc
  subst hc
  rw [Nat.mul_comm (twoTo k) c]
  refine Nat.mul_le_mul_right _ (roundHalfEven_le_of_le (Nat.le_trans h (Nat.le_of_eq ?_)))
  ring

/-- Rounding does not pass a number of 53 binary digits from above. -/
lemma le_roundBinary (pos : 0 < den) (h : bound * den ≤ num) : bound ≤ roundBinary num den := by
  have quotient : bound ≤ num / den := (Nat.le_div_iff_mul_le pos).2 h
  have digits := excessDigits_mono quotient
  rw [roundBinary]
  generalize hk : excessDigits (num / den) = k at digits
  have unit : 0 < den * twoTo k := Nat.mul_pos pos (twoTo_pos k)
  rcases Nat.lt_or_eq_of_le digits with less | same
  · -- The quotient is beyond the bound by at least one binary digit.
    have long : twoTo (52 + k) ≤ num / den := by
      rw [← hk] at less ⊢
      exact twoTo_le_of_excessDigits (Nat.lt_of_le_of_lt (Nat.zero_le _) less)
    have short : bound ≤ twoTo (52 + k) := Nat.le_of_lt (Nat.lt_of_lt_of_le
      (lt_twoTo_excessDigits bound) (twoTo_le_twoTo (by omega)))
    refine Nat.le_trans short ?_
    rw [twoTo_add]
    refine Nat.mul_le_mul_right _ (le_roundHalfEven_of_le unit ?_)
    rw [Nat.mul_comm den, ← Nat.mul_assoc, ← twoTo_add]
    exact (Nat.le_div_iff_mul_le pos).1 long
  · obtain ⟨c, hc⟩ := few
    rw [same] at hc
    subst hc
    rw [Nat.mul_comm (twoTo k) c] at h ⊢
    refine Nat.mul_le_mul_right _ (le_roundHalfEven_of_le unit (Nat.le_trans (Nat.le_of_eq ?_) h))
    ring

end

/-- A power of two has one binary digit. -/
lemma significant_twoTo (k : Nat) : Significant (twoTo k) := by
  have digits := significant_mul_twoTo (m := 1) (twoTo_pos 53) k
  rwa [Nat.one_mul] at digits

namespace Binary64

/-! ### Rounded quotients -/

section

variable (negative : Bool) {num den : Nat}

lemma ofRatio_of_lt (h : roundBinary num den < unitsLimit) : ofRatio negative num den
    = finite negative (roundBinary num den) ⟨h, roundBinary_significant num den⟩ := by
  simp only [ofRatio, h, dite_true]

lemma ofRatio_of_le (h : ¬ roundBinary num den < unitsLimit) :
    ofRatio negative num den = infinite negative := by
  simp only [ofRatio, h, dite_false]

@[simp] lemma ofRatio_zero (den : Nat) : ofRatio negative 0 den = zero negative := by
  have none : roundBinary 0 den = 0 :=
    Nat.le_zero.1 (roundBinary_le (Nat.dvd_zero _) (Nat.zero_le _))
  rw [ofRatio_of_lt negative (by rw [none]; exact unitsLimit_pos)]
  simp only [none, zero]

/-- A rounded quotient has the sign that it is given. -/
lemma ofRatio_cases (num den : Nat) :
    (∃ units h, ofRatio negative num den = finite negative units h)
    ∨ ofRatio negative num den = infinite negative := by
  by_cases h : roundBinary num den < unitsLimit
  · exact .inl ⟨_, _, ofRatio_of_lt negative h⟩
  · exact .inr (ofRatio_of_le negative h)

/-- A number below `2 ^ 1024` is not rounded to an infinite one. -/
lemma ofRatio_eq_finite {k : Nat} (limit : k < 2098) (h : num ≤ twoTo k * den) :
    ∃ representable,
      ofRatio negative num den = finite negative (roundBinary num den) representable :=
  have le := roundBinary_le (significant_twoTo k) h
  ⟨_, ofRatio_of_lt negative (Nat.lt_of_le_of_lt le (twoTo_lt_twoTo limit))⟩

end

/-! ### Products and quotients -/

section

variable (a b : Bool) {m n : Nat} (hm : Representable m) (hn : Representable n)

lemma mul_finite_finite :
    (finite a m hm).mul (finite b n hn) = ofRatio (a ^^ b) (m * n) unitsPerOne := by
  rw [mul]

lemma div_finite_finite (nonzero : n ≠ 0) :
    (finite a m hm).div (finite b n hn) = ofRatio (a ^^ b) (m * unitsPerOne) n := by
  rw [div, if_neg nonzero]

end

/-! ### Whole numbers -/

@[simp] lemma ofInt_zero : ofInt 0 = zero false := by
  rw [ofInt, ofUnits, Int.natAbs_zero, Nat.zero_mul, ofRatio_zero]
  rfl

/-- A whole number in range is a float with its sign, near zero only if it is zero. -/
lemma ofInt_eq_finite {n : Int} {k : Nat} (limit : k < 1024) (h : n.natAbs ≤ twoTo k) :
    ∃ units representable, ofInt n = finite (n < 0) units representable ∧
      if n = 0 then units = 0 else unitsPerOne ≤ units := by
  have high : n.natAbs * unitsPerOne ≤ twoTo (k + 1074) * 1 := by
    rw [Nat.mul_one, twoTo_add]
    exact Nat.mul_le_mul_right _ h
  obtain ⟨representable, same⟩ := ofRatio_eq_finite (n < 0) (by omega) high
  refine ⟨_, representable, same, ?_⟩
  split
  · rename_i zero
    rw [zero]
    exact Nat.le_zero.1 (roundBinary_le (Nat.dvd_zero _) (by simp))
  · rename_i nonzero
    refine le_roundBinary (significant_twoTo 1074) Nat.one_pos ?_
    rw [Nat.mul_one]
    exact Nat.le_mul_of_pos_left _ (Int.natAbs_pos.2 nonzero)

lemma exists_eq_finite {x : Binary64} (h : x.isFinite = true) :
    ∃ negative units representable, x = finite negative units representable := by
  cases x with
  | nan => cases h
  | infinite => cases h
  | finite negative units representable => exact ⟨negative, units, representable, rfl⟩

/-- A machine integer as a float. -/
lemma ofInt_toInt_eq_finite (n : Int64) : ∃ units representable,
    ofInt n.toInt = finite (n.toInt < 0) units representable ∧
      if n.toInt = 0 then units = 0 else unitsPerOne ≤ units := by
  have range : n.toInt.natAbs ≤ twoTo 63 := by
    have low := n.le_toInt
    have high := n.toInt_lt
    have limit : twoTo 63 = 9223372036854775808 := rfl
    omega
  exact ofInt_eq_finite (by decide) range

end Binary64

end Sift
