import Sift.Proofs.Number.Fractions

/-!
# Decimal fractions as floats

A decimal becomes a float by way of its whole part and its fraction, which are converted apart, and
their sum is rounded to the places of the decimal. That takes a number of roundings, among them one
to a whole number of places, and still the float is off by less than the decimal
(`Decimal.toBinary_near`).
-/

namespace Sift

namespace Decimal

open Binary64

variable {d : Decimal}

/-- A power of ten by repeated squaring is off by a share of at most `2 ^ -50`. -/
lemma between_roundedPower : ∀ s ≤ maxScale, (roundedPower s).between
    (tenTo s * (twoTo 50 - 1) * twoTo 1024) (tenTo s * (twoTo 50 + 1) * twoTo 1024) = true := by
  decide +kernel

/-- A small share of a number is made up of a few roundings. -/
lemma near_of_share {q x : ℚ} (nonneg : 0 ≤ q) (low : q * (1 - 1 / 2 ^ 50) ≤ x)
    (high : x ≤ q * (1 + 1 / 2 ^ 50)) : Near 8 q x := by
  constructor
  · have share : kept ^ 8 ≤ 1 - 1 / 2 ^ 50 := by norm_num [kept]
    exact (mul_le_mul_of_nonneg_left share nonneg).trans low
  · have share : (1 + 1 / 2 ^ 50) * kept ^ 8 ≤ 1 := by norm_num [kept]
    calc x * kept ^ 8
        ≤ q * (1 + 1 / 2 ^ 50) * kept ^ 8 :=
          mul_le_mul_of_nonneg_right high (kept_pow_nonneg 8)
      _ = q * ((1 + 1 / 2 ^ 50) * kept ^ 8) := mul_assoc _ _ _
      _ ≤ q := mul_le_of_le_one_right nonneg share

/-- The powers of ten that are needed have few roundings in them. -/
lemma roundedPower_near {s : Nat} (h : s ≤ maxScale) : (roundedPower s).Near 8 (tenTo s) := by
  obtain ⟨units, representable, same, low, high⟩ := exists_of_between (between_roundedPower s h)
  refine ⟨units, representable, same, ?_⟩
  have unit : unitsPerOne = twoTo 50 * twoTo 1024 := twoTo_add 50 1024
  have fifty : twoTo 50 = 1125899906842624 := rfl
  have pos : (0 : ℚ) < twoTo 1024 := Nat.cast_pos.2 (twoTo_pos 1024)
  rw [fifty] at low high
  rw [unit, fifty, Nat.cast_mul, ← div_div]
  clear unit
  generalize twoTo 1024 = rest at *
  have low : (tenTo s * 1125899906842623 * rest : ℚ) ≤ units := by exact_mod_cast low
  have high : (units : ℚ) ≤ tenTo s * 1125899906842625 * rest := by exact_mod_cast high
  refine near_of_share (tenTo_cast_pos s).le ?_ ?_
  · rw [le_div_iff₀ pos, Nat.cast_ofNat, le_div_iff₀ (by norm_num)]
    linarith
  · rw [div_le_iff₀ pos, Nat.cast_ofNat, div_le_iff₀ (by norm_num)]
    linarith

/-- Rounding to a whole number adds at most a half. -/
lemma exists_roundAway_near {n : Nat} {q : ℚ} {x : Binary64} (h : x.Near n q) (few : n ≤ 50)
    (least : 1 ≤ q) (most : q ≤ 10 ^ 29) :
    ∃ k : Nat, (roundAway x).Near 1 k ∧ 1 ≤ k ∧ (k : ℚ) * kept ^ n ≤ q + 1 / 2 := by
  obtain ⟨units, representable, rfl, low, high⟩ := h
  have unit := unitsPerOne_cast_pos
  have half : 1 / 2 ≤ kept ^ n := by
    calc (1 : ℚ) / 2 ≤ kept ^ 50 := by norm_num [kept]
      _ ≤ kept ^ n := kept_pow_le_kept_pow few
  have most_one := kept_pow_le_one n
  obtain ⟨k, same⟩ : ∃ k, (2 * units + unitsPerOne) / (2 * unitsPerOne) = k := ⟨_, rfl⟩
  have upper : (k : ℚ) ≤ units / unitsPerOne + 1 / 2 := by
    have := Nat.div_mul_le_self (2 * units + unitsPerOne) (2 * unitsPerOne)
    rw [same] at this
    have : (k * (2 * unitsPerOne) : ℚ) ≤ 2 * units + unitsPerOne := by exact_mod_cast this
    rw [← sub_le_iff_le_add, le_div_iff₀ unit]
    linarith
  have digit : 1 ≤ k := by
    rw [← same, Nat.one_le_div_iff (Nat.mul_pos two_pos unitsPerOne_pos)]
    have : (1 / 2 : ℚ) ≤ units / unitsPerOne :=
      le_trans (by linarith) ((mul_le_mul_of_nonneg_right least (by linarith)).trans low)
    rw [le_div_iff₀ unit] at this
    have : (unitsPerOne : ℚ) ≤ 2 * units := by linarith
    have : unitsPerOne ≤ 2 * units := by exact_mod_cast this
    omega
  have product : (k : ℚ) * kept ^ n ≤ q + 1 / 2 := by
    calc (k : ℚ) * kept ^ n
        ≤ (units / unitsPerOne + 1 / 2) * kept ^ n :=
          mul_le_mul_of_nonneg_right upper (by linarith)
      _ ≤ q + 1 / 2 := by linarith
  refine ⟨k, ?_, digit, product⟩
  rw [roundAway, same]
  refine near_ofInt (n := k) ?_
  have : (k : ℚ) ≤ 10 ^ 60 := by
    have := (mul_le_mul_of_nonneg_left half (Nat.cast_nonneg k)).trans product
    linarith
  exact_mod_cast this

lemma zero_div_of_near {n : Nat} {q : ℚ} {x : Binary64} (h : x.Near n q) (pos : 0 < q) :
    ((ofInt (0 : Nat)).div x).isZero = true := by
  have divisor := h.isZero_eq_false pos
  obtain ⟨units, representable, rfl, -⟩ := h
  have nonzero : units ≠ 0 := bne_iff_ne.1 (congrArg not divisor)
  rw [Int.natCast_zero, ofInt_zero, Binary64.zero, div_finite_finite _ _ _ _ nonzero, Nat.zero_mul,
    ofRatio_zero]
  rfl

/-- The float is positive and less than twice the number. -/
def Within (q : ℚ) (x : Binary64) : Prop :=
  ∃ units representable, x = finite false units representable ∧
    0 < (units / unitsPerOne : ℚ) ∧ (units / unitsPerOne : ℚ) < 2 * q

/-- A few roundings do not double a number. -/
lemma within_of_near {n : Nat} {p q : ℚ} {x : Binary64} (h : x.Near n p) (few : n ≤ 10)
    (pos : 0 < p) (le : p * kept ^ 13 ≤ 3 / 2 * q) : Within q x := by
  obtain ⟨units, representable, same, near⟩ := h
  refine ⟨units, representable, same, near.pos pos, ?_⟩
  have positive := near.pos pos
  generalize (units / unitsPerOne : ℚ) = v at *
  have losses : v * kept ^ 23 ≤ 3 / 2 * q := by
    calc v * kept ^ 23 = v * kept ^ 10 * kept ^ 13 := by rw [mul_assoc, ← pow_add]
      _ ≤ v * kept ^ n * kept ^ 13 := by
        have := kept_pow_le_kept_pow few
        have := kept_pos
        gcongr
      _ ≤ p * kept ^ 13 := mul_le_mul_of_nonneg_right near.2 (kept_pow_nonneg 13)
      _ ≤ 3 / 2 * q := le
  have share : 4 / 5 ≤ kept ^ 23 := by norm_num [kept]
  have := mul_le_mul_of_nonneg_left share positive.le
  linarith

lemma within_of_near_self {q : ℚ} {x : Binary64} (h : x.Near 1 q) (pos : 0 < q) : Within q x := by
  refine within_of_near h (by decide) pos ?_
  have := mul_le_of_le_one_right pos.le (kept_pow_le_one 13)
  linarith

/-- The quotients that occur are of moderate size. -/
lemma moderate_div {n s : Nat} (pos : 0 < n) (le : n ≤ tenTo 30) (scale : s ≤ maxScale) :
    Moderate (n / tenTo s) := by
  have one := tenTo_cast_pos s
  have first : (1 : ℚ) ≤ tenTo s := Nat.one_le_cast.2 (tenTo_pos s)
  have digit : (1 : ℚ) ≤ n := Nat.one_le_cast.2 pos
  constructor
  · rw [div_le_div_iff₀ (by norm_num) one, one_mul]
    have large : tenTo s ≤ 10 ^ 60 :=
      tenTo_le_tenTo (j := s) (k := 60) (Nat.le_trans scale (by decide))
    have large : (tenTo s : ℚ) ≤ 10 ^ 60 := by exact_mod_cast large
    exact large.trans (le_mul_of_one_le_left (by norm_num) digit)
  · rw [div_le_iff₀ one]
    have small : n ≤ 10 ^ 60 := Nat.le_trans le (tenTo_le_tenTo (k := 60) (by decide))
    have small : (n : ℚ) ≤ 10 ^ 60 := by exact_mod_cast small
    exact small.trans (le_mul_of_one_le_right (by norm_num) first)

/-- A number of places that is not zero, rounded to the places of its scale. -/
lemma within_of_rounded {x : Binary64} {n s : Nat} (h : x.Near 4 (n / tenTo s))
    (scale : s ≤ maxScale) (pos : 0 < n) (le : n ≤ tenTo 29) :
    Within (n / tenTo s) ((roundAway (x.mul (roundedPower s))).div (roundedPower s)) := by
  have power := roundedPower_near scale
  have one := tenTo_cast_pos s
  have least : (1 : ℚ) ≤ n := Nat.one_le_cast.2 pos
  have most : (n : ℚ) ≤ 10 ^ 29 := by
    rw [← tenTo_cast]
    exact Nat.cast_le.2 le
  have product : (x.mul (roundedPower s)).Near 13 n := by
    have moderate := moderate_div (s := 0) pos (Nat.le_trans le (by decide)) (by decide)
    rw [tenTo_zero, Nat.cast_one, div_one] at moderate
    have rounded := h.mul power (div_nonneg (Nat.cast_nonneg n) one.le) one.le (by decide)
    rw [div_mul_cancel₀ _ one.ne'] at rounded
    exact rounded moderate
  obtain ⟨k, near, digit, size⟩ := exists_roundAway_near product (by decide) least most
  have short : k ≤ tenTo 30 := by
    have half : 1 / 2 ≤ kept ^ 13 := by norm_num [kept]
    have := (mul_le_mul_of_nonneg_left half (Nat.cast_nonneg k)).trans size
    have : (k : ℚ) ≤ 2 * n + 1 := by linarith
    have : k ≤ 2 * n + 1 := by exact_mod_cast this
    have : 2 * tenTo 29 + 1 ≤ tenTo 30 := by decide
    omega
  refine within_of_near (near.div power (Nat.cast_nonneg k) one (by decide)
    (moderate_div digit short scale)) le_rfl (div_pos (Nat.cast_pos.2 digit) one) ?_
  rw [div_mul_eq_mul_div, ← mul_div_assoc]
  refine div_le_div_of_nonneg_right (size.trans ?_) one.le
  linarith

/-- A decimal other than zero becomes a float of the same sign. -/
lemma exists_toBinary (nonzero : d.coefficient ≠ 0) : ∃ x : Binary64, Within d.magnitude x ∧
    d.toBinary = if d.negative then x.neg else x := by
  refine ⟨_, ?_, rfl⟩
  have one := tenTo_cast_pos d.scale
  have pos := Nat.pos_of_ne_zero nonzero
  have digits : d.coefficient < tenTo 29 := Nat.lt_of_lt_of_le d.coefficient_lt (by decide)
  have short {n : Nat} (h : n ≤ tenTo 29) : (ofInt n).Near 1 n :=
    near_ofInt (Nat.le_trans h (tenTo_le_tenTo (j := 29) (k := 60) (by decide)))
  have positive : (0 : ℚ) < d.magnitude := div_pos (Nat.cast_pos.2 pos) one
  dsimp only
  by_cases scale : d.scale = 0
  · have size : d.magnitude = d.coefficient := by
      rw [magnitude, scale, tenTo_zero, Nat.cast_one, div_one]
    rw [if_pos scale]
    rw [size] at positive ⊢
    exact within_of_near_self (short digits.le) positive
  rw [if_neg scale]
  have divisor := short (tenTo_le_tenTo (Nat.le_trans d.scale_le (by decide : maxScale ≤ 29)))
  have whole := short (Nat.le_trans (Nat.div_le_self d.coefficient (tenTo d.scale)) digits.le)
  -- Without a fraction the whole part is all, and with one it does not matter whether it is zero.
  rcases Nat.eq_zero_or_pos (d.coefficient % tenTo d.scale) with exact | rest
  · have size : d.magnitude = (d.coefficient / tenTo d.scale : Nat) :=
      (Nat.cast_div (Nat.dvd_of_mod_eq_zero exact) one.ne').symm
    rw [exact, if_pos (zero_div_of_near divisor one), size]
    exact within_of_near_self whole (size ▸ positive)
  · have few : d.coefficient % tenTo d.scale ≤ tenTo 29 :=
      Nat.le_trans (Nat.mod_le _ _) digits.le
    have fraction := (short few).div divisor (Nat.cast_nonneg _) one (by decide)
      (moderate_div rest (Nat.le_trans few (by decide)) d.scale_le)
    have split : ((d.coefficient / tenTo d.scale : Nat) : ℚ)
        + (d.coefficient % tenTo d.scale : Nat) / tenTo d.scale = d.magnitude := by
      exact cast_div_add_cast_mod_div _ one.ne'
    have sum := (whole.mono (Nat.cast_nonneg _) (by decide)).add fraction (by decide) (by
      rw [split]
      exact moderate_div pos (Nat.le_trans digits.le (by decide)) d.scale_le)
    rw [split] at sum
    have there := fraction.isZero_eq_false (div_pos (Nat.cast_pos.2 rest) one)
    rw [if_neg (Bool.eq_false_iff.1 there)]
    exact within_of_rounded sum d.scale_le pos digits.le

/-- A decimal other than zero becomes a float that is off by less than itself. -/
lemma toBinary_near (nonzero : d.value ≠ 0) :
    d.toBinary.isFinite = true ∧ |d.toBinary.toRat - d.value| < |d.value| := by
  obtain ⟨x, ⟨units, representable, rfl, pos, less⟩, same⟩ :=
    exists_toBinary (value_eq_zero_iff.not.1 nonzero)
  have found : d.toBinary = finite d.negative units representable := by
    rw [same]
    cases d.negative <;> rfl
  rw [found]
  refine ⟨rfl, ?_⟩
  rw [toRat, value, withSign_sub, abs_withSign, abs_withSign, abs_of_nonneg d.magnitude_nonneg,
    abs_lt]
  constructor <;> linarith

end Decimal

end Sift
