import Mathlib.Algebra.Order.Ring.Pow
import Mathlib.Tactic.Linarith
import Mathlib.Tactic.NormNum
import Mathlib.Tactic.Positivity
import Sift.Proofs.Number.Bounds
import Sift.Proofs.Number.Lawful

/-!
# Chains of roundings

A number is rounded to a whole one by at most a half, and to 53 binary digits by at most a share of
`2 ^ -53`, as long as it is neither too small nor too large for them. The losses of a chain of
operations multiply, so what counts is how many roundings there were (`Near`).
-/

namespace Sift

/-! ### Single roundings -/

/-- A quotient is rounded by at most a half. -/
lemma roundHalfEven_near (num : Nat) {den : Nat} (pos : 0 < den) :
    |(roundHalfEven num den : ℚ) - num / den| ≤ 1 / 2 := by
  have unit : (0 : ℚ) < den := Nat.cast_pos.2 pos
  have bounds : 2 * (roundHalfEven num den * den) ≤ 2 * num + den ∧
      2 * num ≤ 2 * (roundHalfEven num den * den) + den := by
    have split : num / den * den + num % den = num := Nat.div_add_mod' num den
    have rest : num % den < den := Nat.mod_lt num pos
    simp only [roundHalfEven]
    split_ifs
    · rw [Nat.add_mul, Nat.one_mul]
      omega
    · omega
  have upper : (2 : ℚ) * (roundHalfEven num den * den) ≤ 2 * num + den := by exact_mod_cast bounds.1
  have lower : (2 : ℚ) * num ≤ 2 * (roundHalfEven num den * den) + den := by exact_mod_cast bounds.2
  rw [sub_div' unit.ne', abs_div, abs_of_pos unit, div_le_iff₀ unit, abs_le]
  constructor <;> linarith

/-- The share that is left of a number, at least, when it is rounded to 53 binary digits. -/
def kept : ℚ := 1 - 1 / 2 ^ 52

lemma kept_pos : 0 < kept := by norm_num [kept]

lemma kept_le_one : kept ≤ 1 := by norm_num [kept]

lemma kept_pow_nonneg (n : Nat) : 0 ≤ kept ^ n := pow_nonneg kept_pos.le n

lemma kept_pow_le_one (n : Nat) : kept ^ n ≤ 1 := pow_le_one₀ kept_pos.le kept_le_one

/-- More roundings leave less. -/
lemma kept_pow_le_kept_pow {m n : Nat} (h : m ≤ n) : kept ^ n ≤ kept ^ m :=
  pow_le_pow_of_le_one kept_pos.le kept_le_one h

/-- One number becomes the other by so many roundings, or the other way round. -/
def Near (n : Nat) (p q : ℚ) : Prop := p * kept ^ n ≤ q ∧ q * kept ^ n ≤ p

namespace Near

variable {m n : Nat} {p q r p' q' : ℚ}

lemma refl (p : ℚ) : Near 0 p p := by
  rw [Near, pow_zero, mul_one]
  exact ⟨le_refl p, le_refl p⟩

/-- Roundings add up. -/
lemma trans (h : Near m p q) (h' : Near n q r) : Near (m + n) p r := by
  constructor
  · rw [pow_add, ← mul_assoc]
    exact (mul_le_mul_of_nonneg_right h.1 (kept_pow_nonneg n)).trans h'.1
  · rw [pow_add, mul_comm (kept ^ m), ← mul_assoc]
    exact (mul_le_mul_of_nonneg_right h'.2 (kept_pow_nonneg m)).trans h.2

lemma nonneg (h : Near n p q) (hp : 0 ≤ p) : 0 ≤ q :=
  (mul_nonneg hp (kept_pow_nonneg n)).trans h.1

lemma pos (h : Near n p q) (hp : 0 < p) : 0 < q :=
  (mul_pos hp (pow_pos kept_pos n)).trans_le h.1

/-- What a few roundings do is within what more of them can do. -/
lemma mono (h : Near m p q) (hp : 0 ≤ p) (le : m ≤ n) : Near n p q :=
  ⟨(mul_le_mul_of_nonneg_left (kept_pow_le_kept_pow le) hp).trans h.1,
    (mul_le_mul_of_nonneg_left (kept_pow_le_kept_pow le) (h.nonneg hp)).trans h.2⟩

/-- A sum needs no more roundings than its parts. -/
lemma add (h : Near n p q) (h' : Near n p' q') : Near n (p + p') (q + q') := by
  rw [Near, add_mul, add_mul]
  exact ⟨add_le_add h.1 h'.1, add_le_add h.2 h'.2⟩

lemma mul_right (h : Near n p q) (hr : 0 ≤ r) : Near n (p * r) (q * r) := by
  rw [Near, mul_right_comm p, mul_right_comm q]
  exact ⟨mul_le_mul_of_nonneg_right h.1 hr, mul_le_mul_of_nonneg_right h.2 hr⟩

/-- A product has the roundings of both factors. -/
lemma mul (h : Near m p q) (h' : Near n p' q') (hq : 0 ≤ q) (hp' : 0 ≤ p') :
    Near (m + n) (p * p') (q * q') := by
  have right := h'.mul_right hq
  rw [mul_comm p', mul_comm q'] at right
  exact (h.mul_right hp').trans right

/-- The inverse has as many roundings. -/
lemma inv (h : Near n p q) (hp : 0 < p) : Near n p⁻¹ q⁻¹ := by
  have hq := h.pos hp
  constructor
  · rw [inv_mul_le_iff₀ hp, ← div_eq_mul_inv, le_div_iff₀ hq, mul_comm]
    exact h.2
  · rw [inv_mul_le_iff₀ hq, ← div_eq_mul_inv, le_div_iff₀ hp, mul_comm]
    exact h.1

lemma div (h : Near m p q) (h' : Near n p' q') (hq : 0 ≤ q) (hp' : 0 < p') :
    Near (m + n) (p / p') (q / q') := by
  rw [div_eq_mul_inv, div_eq_mul_inv]
  exact h.mul (h'.inv hp') hq (inv_nonneg.2 hp'.le)

end Near

/-! ### Rounded floats -/

/-- Neither too small nor too large for 53 binary digits, by far. -/
def Moderate (q : ℚ) : Prop := 1 / 10 ^ 60 ≤ q ∧ q ≤ 10 ^ 60

/-- A number that is not too far from a moderate one has 53 binary digits. -/
lemma Near.bounds {n : Nat} {p q : ℚ} (h : Near n p q) (few : n ≤ 100) (moderate : Moderate p) :
    1 / 10 ^ 61 ≤ q ∧ q ≤ 10 ^ 61 := by
  have share : 1 / 10 ≤ kept ^ n := by
    calc (1 : ℚ) / 10 ≤ kept ^ 100 := by norm_num [kept]
      _ ≤ kept ^ n := kept_pow_le_kept_pow few
  obtain ⟨low, high⟩ := moderate
  have hp : 0 ≤ p := le_trans (by positivity) low
  constructor
  · have := (mul_le_mul_of_nonneg_left share hp).trans h.1
    linarith
  · have := (mul_le_mul_of_nonneg_left share (h.nonneg hp)).trans h.2
    linarith

/-- Rounding to 53 binary digits is one rounding. -/
lemma roundBinary_near {num den : Nat} (pos : 0 < den) (many : twoTo 52 ≤ num / den) :
    Near 1 (num / den) (roundBinary num den) := by
  have long : twoTo (52 + excessDigits (num / den)) ≤ num / den := by
    rcases Nat.eq_zero_or_pos (excessDigits (num / den)) with none | some
    · rwa [none]
    · exact twoTo_le_of_excessDigits some
  rw [roundBinary]
  generalize excessDigits (num / den) = k at long
  have unit : (0 : ℚ) < twoTo k := Nat.cast_pos.2 (twoTo_pos k)
  have near := roundHalfEven_near num (Nat.mul_pos pos (twoTo_pos k))
  have size : (2 : ℚ) ^ 52 ≤ num / den / twoTo k := by
    rw [le_div_iff₀ unit, le_div_iff₀ (Nat.cast_pos.2 pos)]
    have := (Nat.le_div_iff_mul_le pos).1 long
    rw [twoTo_add] at this
    exact_mod_cast this
  rw [Nat.cast_mul, ← div_div] at near
  rw [Nat.cast_mul, Near, pow_one]
  have same : (num / den : ℚ) = num / den / twoTo k * twoTo k := (div_mul_cancel₀ _ unit.ne').symm
  generalize (num / den / twoTo k : ℚ) = quotient at *
  generalize (roundHalfEven num (den * twoTo k) : ℚ) = digits at *
  obtain ⟨low, high⟩ := abs_le.1 near
  rw [same, mul_right_comm, mul_right_comm digits]
  constructor
  · refine mul_le_mul_of_nonneg_right ?_ unit.le
    rw [kept]
    linarith
  · refine mul_le_mul_of_nonneg_right ?_ unit.le
    rw [kept]
    linarith

namespace Binary64

/-- A float between two numbers of units, without the negative sign. -/
def between (low high : Nat) : Binary64 → Bool
  | finite false units _ => low ≤ units && units ≤ high
  | _ => false

lemma exists_of_between {low high : Nat} {x : Binary64} (h : x.between low high = true) :
    ∃ units representable, x = finite false units representable ∧ low ≤ units ∧ units ≤ high := by
  cases x with
  | nan => cases h
  | infinite => cases h
  | finite negative units representable =>
    cases negative with
    | true => cases h
    | false =>
      rw [between, Bool.and_eq_true, decide_eq_true_eq, decide_eq_true_eq] at h
      exact ⟨units, representable, rfl, h⟩

/-- The float is positive or zero, and the number becomes it by so many roundings. -/
def Near (n : Nat) (q : ℚ) (x : Binary64) : Prop :=
  ∃ units representable, x = finite false units representable ∧
    Sift.Near n q (units / unitsPerOne)

/-- Making a float of a quotient is one more rounding. -/
lemma near_ofRatio {num den n : Nat} {q : ℚ} (pos : 0 < den)
    (near : Sift.Near n q (num / den / unitsPerOne)) (few : n ≤ 100) (moderate : Moderate q) :
    (ofRatio false num den).Near (n + 1) q := by
  obtain ⟨low, high⟩ := near.bounds few moderate
  have unit := unitsPerOne_cast_pos
  have positive : (0 : ℚ) < den := Nat.cast_pos.2 pos
  have many : twoTo 52 ≤ num / den := by
    have small : (twoTo 52 * 10 ^ 61 : ℚ) ≤ unitsPerOne := by
      exact_mod_cast (by decide +kernel : twoTo 52 * 10 ^ 61 ≤ unitsPerOne)
    rw [le_div_iff₀ unit] at low
    have : (twoTo 52 : ℚ) ≤ num / den := by linarith
    rw [le_div_iff₀ positive] at this
    exact (Nat.le_div_iff_mul_le pos).2 (by exact_mod_cast this)
  have limit : num ≤ twoTo 2000 * den := by
    have large : (10 ^ 61 * unitsPerOne : ℚ) ≤ twoTo 2000 := by
      exact_mod_cast (by decide +kernel : 10 ^ 61 * unitsPerOne ≤ twoTo 2000)
    rw [div_le_iff₀ unit] at high
    have := high.trans large
    rw [div_le_iff₀ positive] at this
    exact_mod_cast this
  obtain ⟨representable, same⟩ := ofRatio_eq_finite false (by decide) limit
  refine ⟨_, representable, same, near.trans ?_⟩
  rw [div_eq_mul_inv, div_eq_mul_inv _ (unitsPerOne : ℚ)]
  exact (roundBinary_near pos many).mul_right (inv_nonneg.2 unit.le)

variable {m n : Nat} {p q : ℚ} {x y : Binary64}

lemma Near.mono (h : x.Near m q) (hq : 0 ≤ q) (le : m ≤ n) : x.Near n q := by
  obtain ⟨units, representable, same, near⟩ := h
  exact ⟨units, representable, same, near.mono hq le⟩

lemma Near.isZero_eq_false (h : x.Near n q) (pos : 0 < q) : x.isZero = false := by
  obtain ⟨units, representable, rfl, near⟩ := h
  refine beq_false_of_ne fun none => ?_
  have := near.pos pos
  rw [none, Nat.cast_zero, zero_div] at this
  exact lt_irrefl 0 this

lemma near_zero : (zero false).Near n 0 := by
  refine ⟨0, representable_zero, rfl, ?_⟩
  rw [Nat.cast_zero, zero_div]
  exact (Sift.Near.refl 0).mono le_rfl (Nat.zero_le n)

/-- A whole number is rounded once. -/
lemma near_ofInt {n : Nat} (few : n ≤ 10 ^ 60) : (ofInt n).Near 1 n := by
  rcases Nat.eq_zero_or_pos n with rfl | pos
  · rw [Nat.cast_zero, Int.natCast_zero, ofInt_zero]
    exact near_zero
  · have positive : decide ((n : Int) < 0) = false := decide_eq_false (by omega)
    rw [ofInt, ofUnits, positive, Int.natAbs_natCast]
    refine near_ofRatio Nat.one_pos ?_ (by decide) ⟨?_, by exact_mod_cast few⟩
    · rw [Nat.cast_one, div_one, Nat.cast_mul, mul_div_cancel_right₀ _ unitsPerOne_cast_pos.ne']
      exact .refl _
    · have : (1 : ℚ) ≤ n := by exact_mod_cast pos
      exact le_trans (by norm_num) this

/-- A sum of floats is one more rounding. -/
lemma Near.add (hx : x.Near n p) (hy : y.Near n q) (few : n ≤ 100) (moderate : Moderate (p + q)) :
    (x.add y).Near (n + 1) (p + q) := by
  obtain ⟨k, hk, rfl, hp⟩ := hx
  obtain ⟨l, hl, rfl, hq⟩ := hy
  have near := hp.add hq
  have sum : (k / unitsPerOne + l / unitsPerOne : ℚ) = (k + l : Nat) / (1 : Nat) / unitsPerOne := by
    rw [Nat.cast_one, div_one, Nat.cast_add, add_div]
  rw [sum] at near
  have pos : 0 < p + q := lt_of_lt_of_le (by norm_num) moderate.1
  have nonzero : ¬ (k + l : Int) = 0 := by
    intro none
    have none : k + l = 0 := by exact_mod_cast none
    have := near.pos pos
    rw [none, Nat.cast_zero, zero_div, zero_div] at this
    exact lt_irrefl 0 this
  have positive : decide ((k + l : Int) < 0) = false := decide_eq_false (by omega)
  rw [Binary64.add, signed_false, signed_false, if_neg nonzero, positive]
  exact near_ofRatio Nat.one_pos near few moderate

/-- A product of floats is one more rounding. -/
lemma Near.mul (hx : x.Near m p) (hy : y.Near n q) (hp : 0 ≤ p) (hq : 0 ≤ q) (few : m + n ≤ 100)
    (moderate : Moderate (p * q)) : (x.mul y).Near (m + n + 1) (p * q) := by
  obtain ⟨k, hk, rfl, hx⟩ := hx
  obtain ⟨l, hl, rfl, hy⟩ := hy
  have near := hx.mul hy (hx.nonneg hp) hq
  have product : (k / unitsPerOne * (l / unitsPerOne) : ℚ)
      = (k * l : Nat) / unitsPerOne / unitsPerOne := by
    rw [Nat.cast_mul, div_mul_div_comm, div_div]
  rw [product] at near
  rw [mul_finite_finite]
  exact near_ofRatio unitsPerOne_pos near few moderate

/-- A quotient of floats is one more rounding. -/
lemma Near.div (hx : x.Near m p) (hy : y.Near n q) (hp : 0 ≤ p) (hq : 0 < q) (few : m + n ≤ 100)
    (moderate : Moderate (p / q)) : (x.div y).Near (m + n + 1) (p / q) := by
  have divisor := hy.isZero_eq_false hq
  obtain ⟨k, hk, rfl, hx⟩ := hx
  obtain ⟨l, hl, rfl, hy⟩ := hy
  have nonzero : l ≠ 0 := bne_iff_ne.1 (congrArg not divisor)
  have near := hx.div hy (hx.nonneg hp) hq
  have unit := unitsPerOne_cast_pos
  have quotient : (k / unitsPerOne / (l / unitsPerOne) : ℚ)
      = (k * unitsPerOne : Nat) / l / unitsPerOne := by
    rw [Nat.cast_mul, div_div_div_cancel_right₀ unit.ne', mul_div_right_comm,
      mul_div_cancel_right₀ _ unit.ne']
  rw [quotient] at near
  rw [div_finite_finite _ _ _ _ nonzero]
  exact near_ofRatio (Nat.pos_of_ne_zero nonzero) near few moderate

end Binary64

end Sift
