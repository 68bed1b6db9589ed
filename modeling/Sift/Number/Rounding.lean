import Sift.Number.Powers

/-!
# Rounding to 53 binary digits

Non-negative rationals are rounded to the nearest natural number whose binary expansion has at most
53 digits before the trailing zeros; of two such numbers equally near, to the one whose last of the
53 digits is even. `roundBinary_significant` says that the result has this form.
-/

namespace Sift

/-- The quotient rounded to the nearest natural number, a half to the even one. -/
def roundHalfEven (num den : Nat) : Nat :=
  let q := num / den
  let r := num % den
  if den < 2 * r ∨ (2 * r = den ∧ q % 2 = 1) then q + 1 else q

/-- The number of binary digits of `n` beyond 53. -/
def excessDigits (n : Nat) : Nat := n.log2 - 52

/-- Numbers of at most 53 binary digits before the trailing zeros. -/
def Significant (n : Nat) : Prop := twoTo (excessDigits n) ∣ n

instance (n : Nat) : Decidable (Significant n) := inferInstanceAs (Decidable (_ ∣ _))

/-- The quotient rounded to 53 binary digits. -/
def roundBinary (num den : Nat) : Nat :=
  let k := excessDigits (num / den)
  roundHalfEven num (den * twoTo k) * twoTo k

theorem roundHalfEven_le (num den : Nat) : roundHalfEven num den ≤ num / den + 1 := by
  simp only [roundHalfEven]
  split <;> omega

theorem le_roundHalfEven (num den : Nat) : num / den ≤ roundHalfEven num den := by
  simp only [roundHalfEven]
  split <;> omega

@[simp] theorem roundHalfEven_one (n : Nat) : roundHalfEven n 1 = n := by
  simp [roundHalfEven, Nat.mod_one]

/-- A quotient that comes out even is not rounded. -/
theorem roundHalfEven_mul_right {n den : Nat} (h : 0 < den) : roundHalfEven (n * den) den = n := by
  simp [roundHalfEven, Nat.mul_div_cancel _ h]
  omega

/-- A number has 53 binary digits and those beyond them. -/
theorem lt_twoTo_excessDigits (n : Nat) : n < twoTo (53 + excessDigits n) := by
  by_cases hn : n = 0
  · subst hn
    exact twoTo_pos _
  · refine (log2_lt_iff hn).1 ?_
    unfold excessDigits
    omega

/-- Up to 53 digits followed by zeros. -/
theorem significant_mul_twoTo {m : Nat} (h : m ≤ twoTo 53) (k : Nat) :
    Significant (m * twoTo k) := by
  unfold Significant
  obtain h | rfl := Nat.lt_or_eq_of_le h
  · by_cases hm : m = 0
    · subst hm
      rw [Nat.zero_mul]
      exact Nat.dvd_zero _
    · have pos : m * twoTo k ≠ 0 := Nat.mul_ne_zero hm (Nat.ne_of_gt (twoTo_pos k))
      have : (m * twoTo k).log2 < 53 + k := by
        rw [log2_lt_iff pos, twoTo_add]
        exact Nat.mul_lt_mul_of_pos_right h (twoTo_pos k)
      refine Nat.dvd_trans (twoTo_dvd_twoTo ?_) (Nat.dvd_mul_left _ _)
      unfold excessDigits
      omega
  · rw [← twoTo_add]
    refine twoTo_dvd_twoTo ?_
    unfold excessDigits
    rw [log2_twoTo]
    omega

/-- Rounding leaves no digits beyond 53. -/
theorem roundBinary_significant (num den : Nat) : Significant (roundBinary num den) := by
  refine significant_mul_twoTo ?_ _
  refine Nat.le_trans (roundHalfEven_le _ _) ?_
  have := lt_twoTo_excessDigits (num / den)
  rw [twoTo_add] at this
  rw [← Nat.div_div_eq_div_mul]
  exact Nat.div_lt_of_lt_mul (by rw [Nat.mul_comm]; exact this)

/-- Numbers of this form stay as they are. -/
theorem roundBinary_one {n : Nat} (h : Significant n) : roundBinary n 1 = n := by
  obtain ⟨m, hm⟩ := h
  simp only [roundBinary, Nat.div_one, Nat.one_mul]
  generalize hk : excessDigits n = k at hm
  subst hm
  rw [Nat.mul_comm (twoTo k) m, roundHalfEven_mul_right (twoTo_pos k)]

end Sift
