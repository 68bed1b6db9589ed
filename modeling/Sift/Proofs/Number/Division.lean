import Mathlib.Data.Rat.Floor
import Mathlib.Tactic.Lemma
import Sift.Number.Integer

/-!
# Division of machine integers

The machine divides toward zero, and only where the quotient is in range. The exact quotient and the
one rounded toward minus infinity are found from that division and its remainder. Both are what they
are for mathematical integers, and they are missing only where these are out of range.
-/

namespace Sift

/-! ### Rounding toward minus infinity -/

/-- The quotient rounded toward minus infinity differs from the one rounded toward zero where the
division leaves a remainder and the signs are different. -/
lemma fdiv_eq_tdiv_sub {a b : Int} (nonzero : b ≠ 0) : a.fdiv b
    = if a.tmod b ≠ 0 ∧ decide (a < 0) ≠ decide (b < 0) then a.tdiv b - 1 else a.tdiv b := by
  rw [Int.fdiv_eq_tdiv]
  by_cases exact : b ∣ a
  · simp [exact, Int.tmod_eq_zero_of_dvd exact]
  · have rest : a.tmod b ≠ 0 := fun none => exact (Int.dvd_iff_tmod_eq_zero.2 none)
    simp only [exact, if_false, rest, ne_eq, not_false_eq_true, true_and, decide_eq_decide]
    rcases Int.lt_or_gt_of_ne nonzero with negative | positive
    · rw [Int.sign_eq_neg_one_of_neg negative]
      split_ifs <;> omega
    · rw [Int.sign_eq_one_of_pos positive]
      split_ifs <;> omega

/-- The quotient rounded toward minus infinity is the floor of the rational quotient. -/
lemma floor_div_eq_fdiv (a b : Int) : ⌊(a / b : ℚ)⌋ = a.fdiv b := by
  have positive (a : Int) (n : Nat) : ⌊(a / (n : Int) : ℚ)⌋ = a.fdiv n := by
    rw [Int.cast_natCast, Rat.floor_intCast_div_natCast,
      Int.fdiv_eq_ediv_of_nonneg a (Int.natCast_nonneg n)]
  obtain ⟨n, rfl | rfl⟩ := b.eq_nat_or_neg
  · exact positive a n
  · have := positive (-a) n
    rw [← Int.neg_fdiv_neg a, Int.neg_neg, ← this, Int.cast_neg, Int.cast_neg, neg_div, div_neg]

/-- The remainder of the division toward zero is zero or has the sign of the dividend. -/
lemma sign_tmod (a b : Int) : a.tmod b = 0 ∨ (a.tmod b).sign = a.sign := by
  refine or_iff_not_imp_left.2 fun rest => ?_
  rcases lt_or_ge a 0 with negative | nonneg
  · have := Int.tmod_nonneg (a := -a) b (by omega)
    rw [Int.neg_tmod] at this
    rw [Int.sign_eq_neg_one_of_neg negative, Int.sign_eq_neg_one_of_neg (by omega)]
  · have := Int.tmod_nonneg b nonneg
    have dividend : a ≠ 0 := fun zero => rest (by rw [zero, Int.zero_tmod])
    rw [Int.sign_eq_one_of_pos (by omega), Int.sign_eq_one_of_pos (by omega)]

variable {m n k : Int64}

lemma toInt_eq_zero_iff : n.toInt = 0 ↔ n = 0 := by
  rw [← Int64.toInt_inj]
  rfl

lemma decide_lt_zero (n : Int64) : decide (n < 0) = decide (n.toInt < 0) :=
  decide_eq_decide.2 Int64.lt_iff_toInt_lt

/-! ### The division of the machine -/

/-- A divisor beyond one makes the quotient at most half as large as the dividend. -/
lemma natAbs_tdiv_le (beyond : 2 ≤ n.toInt.natAbs) :
    (m.toInt.tdiv n.toInt).natAbs ≤ 4611686018427387904 := by
  have low := m.le_toInt
  have high := m.toInt_lt
  rw [Int.natAbs_tdiv]
  calc m.toInt.natAbs / n.toInt.natAbs
      ≤ m.toInt.natAbs / 2 := Nat.div_le_div_left beyond (by decide)
    _ ≤ 4611686018427387904 := by omega

/-- A quotient is out of range only where the least integer is divided by `-1`. -/
lemma hasQuotient_iff : HasQuotient m n ↔ n ≠ 0 ∧ InRange (m.toInt.tdiv n.toInt) := by
  refine and_congr_right fun nonzero => ?_
  rw [inRange_iff]
  constructor
  · intro h
    by_cases one : n.toInt.natAbs = 1
    · have low := m.le_toInt
      have high := m.toInt_lt
      rcases Int.natAbs_eq_iff.1 one with unit | unit
      · rw [unit, Nat.cast_one, Int.tdiv_one]
        omega
      · have least : m.toInt ≠ -9223372036854775808 := fun least =>
          h ⟨Int64.toInt_inj.1 least, Int64.toInt_inj.1 unit⟩
        rw [unit, Nat.cast_one, Int.tdiv_neg, Int.tdiv_one]
        omega
    · have beyond : 2 ≤ n.toInt.natAbs := by
        have := toInt_eq_zero_iff.not.2 nonzero
        omega
      have := natAbs_tdiv_le (m := m) beyond
      omega
  · rintro range ⟨rfl, rfl⟩
    have quotient : Int64.minValue.toInt.tdiv (-1 : Int64).toInt = 9223372036854775808 := rfl
    omega

/-- Rounding toward minus infinity does not leave the range either. -/
lemma HasQuotient.inRange_fdiv (h : HasQuotient m n) : InRange (m.toInt.fdiv n.toInt) := by
  obtain ⟨nonzero, range⟩ := hasQuotient_iff.1 h
  have divisor : n.toInt ≠ 0 := toInt_eq_zero_iff.not.2 nonzero
  rw [fdiv_eq_tdiv_sub divisor]
  split
  · rename_i rest
    have beyond : 2 ≤ n.toInt.natAbs := by
      have small := Int.natAbs_tmod m.toInt n.toInt
      by_contra one
      rw [show n.toInt.natAbs = 1 by omega, Nat.mod_one] at small
      exact rest.1 (Int.natAbs_eq_zero.1 small)
    have := natAbs_tdiv_le (m := m) beyond
    rw [inRange_iff]
    omega
  · exact range

namespace HasQuotient

variable (h : HasQuotient m n)
include h

lemma toInt_div : (m / n).toInt = m.toInt.tdiv n.toInt := by
  by_cases least : m = Int64.minValue
  · exact Int64.toInt_div_of_ne_right m n fun opposite => h.2 ⟨least, opposite⟩
  · exact Int64.toInt_div_of_ne_left m n least

lemma toInt_remainder : (remainder m n h).toInt = m.toInt.tmod n.toInt := Int64.toInt_mod m n

lemma remainder_eq_zero_iff : remainder m n h = 0 ↔ n.toInt ∣ m.toInt := by
  rw [← toInt_eq_zero_iff, h.toInt_remainder, Int.dvd_iff_tmod_eq_zero]

end HasQuotient

section

variable (nonzero : n ≠ 0)
include nonzero

/-- The quotient rounded toward zero is found where it is a machine integer. -/
lemma quotient?_eq : quotient? m n = integer? (m.toInt.tdiv n.toInt) := by
  by_cases h : HasQuotient m n
  · rw [quotient?, if_pos h, ← h.toInt_div, integer?_toInt]
  · rw [quotient?, if_neg h, eq_comm, integer?_eq_none_iff]
    exact fun range => h (hasQuotient_iff.2 ⟨nonzero, range⟩)

/-- The exact quotient is there if there is one in range. -/
lemma exactQuotient?_eq : exactQuotient? m n
    = if n.toInt ∣ m.toInt then integer? (m.toInt.tdiv n.toInt) else none := by
  rw [exactQuotient?, quotient?_eq nonzero]
  by_cases h : HasQuotient m n
  · rw [remainder?, dif_pos h, Option.bind_some]
    simp only [h.remainder_eq_zero_iff]
  · have out : integer? (m.toInt.tdiv n.toInt) = none :=
      integer?_eq_none_iff.2 fun range => h (hasQuotient_iff.2 ⟨nonzero, range⟩)
    rw [remainder?, dif_neg h, out, ite_self]
    rfl

/-- The exact quotient is the one whose product with the divisor is the dividend. -/
lemma exactQuotient?_eq_some_iff : exactQuotient? m n = some k ↔ k.toInt * n.toInt = m.toInt := by
  have divisor : n.toInt ≠ 0 := toInt_eq_zero_iff.not.2 nonzero
  rw [exactQuotient?_eq nonzero]
  by_cases dvd : n.toInt ∣ m.toInt
  · rw [if_pos dvd, integer?_eq_some_iff, eq_comm, Int.tdiv_eq_iff_eq_mul_left divisor dvd, eq_comm]
  · rw [if_neg dvd]
    refine ⟨nofun, fun multiple => ?_⟩
    exact absurd (Dvd.intro_left k.toInt multiple) dvd

/-- The quotient rounded toward minus infinity is there if it is in range. -/
lemma floorQuotient?_eq : floorQuotient? m n = integer? (m.toInt.fdiv n.toInt) := by
  have divisor : n.toInt ≠ 0 := toInt_eq_zero_iff.not.2 nonzero
  unfold floorQuotient?
  split
  · rename_i missing
    have least : m = Int64.minValue ∧ n = -1 := by
      by_contra other
      rw [quotient?, if_pos ⟨nonzero, other⟩] at missing
      cases missing
    obtain ⟨rfl, rfl⟩ := least
    rfl
  · rename_i q found
    obtain ⟨h, rfl⟩ := quotient?_eq_some_iff.1 found
    simp only [fdiv_eq_tdiv_sub divisor, ← h.toInt_remainder, ne_eq, toInt_eq_zero_iff,
      decide_lt_zero, ← h.toInt_div]
    split
    · rfl
    · exact (integer?_toInt _).symm

end

end Sift
