import Sift.Proofs.Number.Floating
import Sift.Proofs.Number.Quotients

/-!
# Decimals that stand for floats

The binary digits of a float become decimal ones by halving, with factors of five in place of
places. That is exact until the format is full, and then an odd coefficient loses its last binary
digit (`Scaled.halve_step`). Of these digits only so many are kept as there are places and as a
float has, each rounded on its own. The decimal is so off by less than the last place, or by less
than the float (`Decimal.ofBinary?_near`), and from half of the last place down it is zero.

With this the decimals of 96 bits follow the laws (`Decimals.lawful_standard`).
-/

namespace Sift

namespace Decimal

namespace Scaled

/-- What digits and exponent stand for. -/
def value (x : Scaled) : ℚ := x.coefficient * 10 ^ x.exponent

variable {x : Scaled}

/-! ### Halving -/

lemma value_pos (pos : 0 < x.coefficient) : 0 < x.value :=
  mul_pos (Nat.cast_pos.2 pos) (zpow_pos (by norm_num) _)

lemma one_le_value (pos : 0 < x.coefficient) (whole : 0 ≤ x.exponent) : 1 ≤ x.value :=
  one_le_mul_of_one_le_of_one_le (Nat.one_le_cast.2 pos) (one_le_zpow₀ (by norm_num) whole)

/-- A power of ten may be moved into the coefficient. -/
lemma value_succ (m : Nat) (e : Int) : Scaled.value ⟨m, e + 1⟩ = m * 10 * 10 ^ e := by
  rw [value, zpow_add_one₀ (by norm_num)]
  ring

/-- One halving multiplies by five, with a loss of at most the last of many digits. -/
lemma halve_step (pos : 0 < x.coefficient) (n : Nat) : ∃ y : Scaled, x.halve (n + 1) = y.halve n ∧
    0 < y.coefficient ∧ y.value ≤ x.value * 5 ∧ x.value * (5 * (1 - 1 / 10 ^ 27)) ≤ y.value := by
  have bounds {y : Scaled} (exact : y.value = x.value * 5) :
      y.value ≤ x.value * 5 ∧ x.value * (5 * (1 - 1 / 10 ^ 27)) ≤ y.value := by
    have := value_pos pos
    constructor <;> linarith
  obtain ⟨m, e⟩ := x
  change 0 < m at pos
  by_cases even : m % 2 = 0
  · refine ⟨⟨m / 2, e + 1⟩, by rw [halve, if_pos even], by change 0 < m / 2; omega, bounds ?_⟩
    have half : (m : ℚ) = (m / 2 : Nat) * 2 := by
      exact_mod_cast (Nat.div_mul_cancel (Nat.dvd_of_mod_eq_zero even)).symm
    rw [value_succ, value, half]
    ring
  by_cases room : m * 5 < coefficientLimit
  · refine ⟨⟨m * 5, e⟩, by rw [halve, if_neg even, if_pos room], by change 0 < m * 5; omega,
      bounds ?_⟩
    rw [value, value, Nat.cast_mul, Nat.cast_ofNat]
    ring
  · -- Only here a digit is lost, the last of a coefficient that fills the format.
    have limit : coefficientLimit = 79228162514264337593543950336 := rfl
    refine ⟨⟨m / 2, e + 1⟩, by rw [halve, if_neg even, if_neg room], by change 0 < m / 2; omega, ?_⟩
    have half : (m : ℚ) = (m / 2 : Nat) * 2 + 1 := by
      have : m = m / 2 * 2 + 1 := by omega
      exact_mod_cast this
    have many : (10 : ℚ) ^ 27 ≤ m := by
      have : 10 ^ 27 ≤ m := by omega
      exact_mod_cast this
    have power : (0 : ℚ) < 10 ^ e := zpow_pos (by norm_num) e
    rw [value_succ, value]
    constructor
    · calc ((m / 2 : Nat) : ℚ) * 10 * 10 ^ e
          ≤ m * 5 * 10 ^ e := mul_le_mul_of_nonneg_right (by linarith) power.le
        _ = m * 10 ^ e * 5 := by ring
    · calc (m : ℚ) * 10 ^ e * (5 * (1 - 1 / 10 ^ 27))
          = (m * 5 - m * 5 / 10 ^ 27) * 10 ^ e := by ring
        _ ≤ ((m / 2 : Nat) : ℚ) * 10 * 10 ^ e := mul_le_mul_of_nonneg_right (by linarith) power.le

/-- Each halving adds its loss to those before. -/
lemma halve_spec (pos : 0 < x.coefficient) (n : Nat) : 0 < (x.halve n).coefficient ∧
    (x.halve n).value ≤ x.value * 5 ^ n ∧
    x.value * (5 * (1 - 1 / 10 ^ 27)) ^ n ≤ (x.halve n).value := by
  induction n generalizing x with
  | zero => exact ⟨pos, by rw [pow_zero, mul_one]; rfl, by rw [pow_zero, mul_one]; rfl⟩
  | succ n ih =>
    obtain ⟨y, same, digit, upper, lower⟩ := halve_step pos n
    obtain ⟨pos, high, low⟩ := ih digit
    rw [same]
    refine ⟨pos, high.trans ?_, le_trans ?_ low⟩
    · rw [pow_succ', ← mul_assoc]
      exact mul_le_mul_of_nonneg_right upper (by positivity)
    · rw [pow_succ', ← mul_assoc]
      exact mul_le_mul_of_nonneg_right lower (by positivity)

/-! ### Digits beyond the places -/

/-- Dropping fewer digits than there are leaves something. -/
lemma shorten_pos {m j : Nat} (h : tenTo j ≤ m) : 0 < Scaled.shorten j m := by
  induction j generalizing m with
  | zero => exact h
  | succ j ih =>
    have pos := tenTo_pos j
    rw [tenTo_succ] at h
    rw [Scaled.shorten, if_neg (by omega)]
    split_ifs <;> exact ih (by omega)

/-- The digits vanish if there are at most as many as have to be dropped, and the first is not
rounded up on the way. -/
lemma shorten_eq_zero {m j : Nat} (h : m ≤ 9 * tenTo j) : Scaled.shorten (j + 1) m = 0 := by
  induction j generalizing m with
  | zero =>
    rw [tenTo_zero] at h
    rw [Scaled.shorten, if_pos (by omega)]
  | succ j ih =>
    rw [tenTo_succ] at h
    rw [Scaled.shorten]
    split_ifs
    · rfl
    · exact ih (by omega)
    · exact ih (by omega)

lemma trim_pos {m : Nat} (pos : 0 < m) (s : Nat) : 0 < (Scaled.trim s m).1 := by
  induction s generalizing m with
  | zero => exact pos
  | succ s ih =>
    have large : 10 < twoTo 52 := by decide
    rw [Scaled.trim]
    split_ifs
    · exact ih (by omega)
    · exact ih (by omega)
    · exact pos

lemma stripZeros_pos {m : Nat} (pos : 0 < m) (s : Nat) : 0 < (Scaled.stripZeros s m).1 := by
  induction s generalizing m with
  | zero => exact pos
  | succ s ih =>
    rw [Scaled.stripZeros]
    split_ifs
    · exact ih (by omega)
    · exact pos

lemma expand_pos {m n k : Nat} (pos : 0 < m) (h : Scaled.expand n m = some k) : 0 < k := by
  induction n generalizing m with
  | zero =>
    cases h
    exact pos
  | succ n ih =>
    rw [Scaled.expand] at h
    split_ifs at h
    exact ih (by omega) h

lemma value_negSucc (m n : Nat) : Scaled.value ⟨m, .negSucc n⟩ = m / tenTo (n + 1) := by
  rw [value, zpow_negSucc, ← div_eq_mul_inv, tenTo_cast]

/-- Halving keeps the coefficient within the format. -/
lemma halve_lt (h : x.coefficient < coefficientLimit) (n : Nat) :
    (x.halve n).coefficient < coefficientLimit := by
  induction n generalizing x with
  | zero => exact h
  | succ n ih =>
    obtain ⟨m, e⟩ := x
    have half : m / 2 < coefficientLimit := Nat.lt_of_le_of_lt (Nat.div_le_self m 2) h
    rw [halve]
    split_ifs with even room
    · exact ih half
    · exact ih room
    · exact ih half

/-- Each digit that is dropped is rounded up at most. -/
lemma shorten_le {m k j : Nat} (h : m ≤ k * tenTo j) : Scaled.shorten j m ≤ k := by
  induction j generalizing m with
  | zero => rwa [tenTo_zero, Nat.mul_one] at h
  | succ j ih =>
    rw [tenTo_succ, ← Nat.mul_assoc] at h
    rw [Scaled.shorten]
    split_ifs
    · exact Nat.zero_le k
    · exact ih (by omega)
    · exact ih (by omega)

/-- As for the places, and one digit is left only if none is dropped. -/
lemma trim_spec (s m : Nat) : (Scaled.trim s m).2 ≤ s ∧
    (∀ k, m ≤ k * tenTo (s - (Scaled.trim s m).2) → (Scaled.trim s m).1 ≤ k) ∧
    (2 ≤ (Scaled.trim s m).1 ∨ Scaled.trim s m = (m, s)) := by
  induction s generalizing m with
  | zero =>
    refine ⟨Nat.le_refl 0, fun k h => ?_, .inr rfl⟩
    rwa [Nat.zero_sub, tenTo_zero, Nat.mul_one] at h
  | succ s ih =>
    have large : 20 < twoTo 52 := by decide
    rw [Scaled.trim]
    split
    · obtain ⟨m', same⟩ : ∃ m', (if 5 ≤ m % 10 then m / 10 + 1 else m / 10) = m' := ⟨_, rfl⟩
      have bounds : m / 10 ≤ m' ∧ 10 * m' ≤ m + 5 := by
        split_ifs at same <;> omega
      rw [same]
      obtain ⟨le, least, many⟩ := ih m'
      refine ⟨Nat.le_succ_of_le le, fun k h => least k ?_, .inl ?_⟩
      · rw [Nat.succ_sub le, tenTo_succ, ← Nat.mul_assoc] at h
        omega
      · rcases many with many | all
        · exact many
        · rw [all]
          omega
    · refine ⟨Nat.le_refl _, fun k h => ?_, .inr rfl⟩
      rwa [Nat.sub_self, tenTo_zero, Nat.mul_one] at h

/-- Zeros at the end of the places do not count. -/
lemma stripZeros_value (s m : Nat) :
    ((Scaled.stripZeros s m).1 / tenTo (Scaled.stripZeros s m).2 : ℚ) = m / tenTo s := by
  induction s generalizing m with
  | zero => rfl
  | succ s ih =>
    rw [Scaled.stripZeros]
    split
    · rename_i zero
      rw [ih, Nat.cast_div (Nat.dvd_of_mod_eq_zero zero) (by norm_num), div_div, tenTo_succ,
        Nat.mul_comm, Nat.cast_mul]
    · rfl

lemma stripZeros_le (s m : Nat) :
    (Scaled.stripZeros s m).1 ≤ m ∧ (Scaled.stripZeros s m).2 ≤ s := by
  induction s generalizing m with
  | zero => exact ⟨Nat.le_refl m, Nat.le_refl 0⟩
  | succ s ih =>
    rw [Scaled.stripZeros]
    split
    · obtain ⟨less, places⟩ := ih (m / 10)
      exact ⟨Nat.le_trans less (Nat.div_le_self m 10), Nat.le_succ_of_le places⟩
    · exact ⟨Nat.le_refl _, Nat.le_refl _⟩

/-- Bringing the exponent down to zero multiplies by its power of ten. -/
lemma expand_eq {m n k : Nat} (h : Scaled.expand n m = some k) : k = m * tenTo n := by
  induction n generalizing m with
  | zero =>
    cases h
    exact (Nat.mul_one _).symm
  | succ n ih =>
    rw [Scaled.expand] at h
    split_ifs at h
    rw [ih h, tenTo_succ, Nat.mul_assoc, Nat.mul_comm 10]

/-- Two digits or more that are kept stand for less than twice the number. -/
lemma trim_shorten_lt {m n j s c : Nat} (total : j + s = n + 1) (kept : Scaled.shorten j m = c)
    (many : 2 ≤ (Scaled.trim s c).1) :
    ((Scaled.trim s c).1 / tenTo (Scaled.trim s c).2 : ℚ) < 2 * Scaled.value ⟨m, .negSucc n⟩ := by
  obtain ⟨le, least, -⟩ := trim_spec s c
  generalize (Scaled.trim s c).1 = digits at *
  generalize (Scaled.trim s c).2 = places at *
  have dropped : (digits - 1) * tenTo (j + (s - places)) < m := by
    refine Nat.lt_of_not_le fun few => ?_
    rw [Nat.add_comm, tenTo_add, ← Nat.mul_assoc] at few
    have := least (digits - 1) (kept ▸ shorten_le few)
    omega
  have less : digits * tenTo (j + (s - places)) < 2 * m := by
    calc digits * tenTo (j + (s - places))
        ≤ 2 * (digits - 1) * tenTo (j + (s - places)) := Nat.mul_le_mul_right _ (by omega)
      _ < 2 * m := by rw [Nat.mul_assoc]; omega
  have split : tenTo (n + 1) = tenTo (j + (s - places)) * tenTo places := by
    rw [← tenTo_add]
    congr 1
    omega
  have dropped_pos := tenTo_cast_pos (j + (s - places))
  have places_pos := tenTo_cast_pos places
  rw [value_negSucc, split, Nat.cast_mul, ← div_div, ← mul_div_assoc]
  refine div_lt_div_of_pos_right ?_ places_pos
  rw [← mul_div_assoc, lt_div_iff₀ dropped_pos]
  exact_mod_cast less

/-- The digits that are kept stand for less than twice the number, or for at most the last place. -/
lemma parts_lt (pos : 0 < x.coefficient) {p : Nat × Nat} (h : x.parts = some p) :
    (p.1 / tenTo p.2 : ℚ) < 2 * x.value ∨ (p.1 / tenTo p.2 : ℚ) ≤ lastPlace := by
  have positive := value_pos pos
  obtain ⟨m, e⟩ := x
  cases e with
  | ofNat e =>
    obtain ⟨k, found, rfl⟩ := Option.map_eq_some_iff.1 h
    have same : ((k : ℚ) / tenTo 0) = Scaled.value ⟨m, .ofNat e⟩ := by
      rw [expand_eq found, tenTo_zero, Nat.cast_one, div_one, value, Int.ofNat_eq_natCast,
        zpow_natCast, Nat.cast_mul, tenTo_cast]
    refine .inl ?_
    dsimp only
    rw [same]
    linarith
  | negSucc n =>
    have max : maxScale = 28 := rfl
    cases h
    rw [stripZeros_value]
    dsimp only at *
    split_ifs with none
    · rw [none]
      refine .inr ((le_of_eq ?_).trans lastPlace_pos.le)
      change ((0 : Nat) : ℚ) / tenTo 0 = 0
      rw [Nat.cast_zero, zero_div]
    · obtain ⟨c, same⟩ : ∃ c, shorten (n + 1 - maxScale) m = c := ⟨_, rfl⟩
      rw [same] at none ⊢
      by_cases many : 2 ≤ (Scaled.trim (min (n + 1) maxScale) c).1
      · exact .inl (trim_shorten_lt (by omega) same many)
      · -- A single digit has not lost any places but those beyond the format.
        have all := (trim_spec (min (n + 1) maxScale) c).2.2.resolve_left many
        rw [all] at many ⊢
        obtain rfl : c = 1 := by dsimp only at many; omega
        rcases Nat.le_total (n + 1) maxScale with few | full
        · rw [Nat.sub_eq_zero_of_le few] at same
          change m = 1 at same
          have exact : ((1 : Nat) / tenTo (min (n + 1) maxScale) : ℚ)
              = Scaled.value ⟨m, .negSucc n⟩ := by
            rw [value_negSucc, same, Nat.min_eq_left few]
          refine .inl ?_
          dsimp only
          rw [exact]
          linarith
        · refine .inr (le_of_eq ?_)
          dsimp only
          rw [Nat.min_eq_right full]
          norm_num [lastPlace, maxScale, tenTo]

/-- A digit in the places of the format is there in the parts. -/
lemma parts_pos (pos : 0 < x.coefficient) (large : lastPlace ≤ x.value) {p : Nat × Nat}
    (h : x.parts = some p) : 0 < p.1 := by
  obtain ⟨m, e⟩ := x
  cases e with
  | ofNat e =>
    obtain ⟨k, found, rfl⟩ := Option.map_eq_some_iff.1 h
    exact expand_pos pos found
  | negSucc n =>
    cases h
    refine stripZeros_pos (trim_pos (shorten_pos ?_) _) _
    have max : maxScale = 28 := rfl
    rcases Nat.le_total (n + 1) maxScale with few | many
    · rw [Nat.sub_eq_zero_of_le few]
      exact pos
    · have split : tenTo (n + 1) = tenTo (n + 1 - maxScale) * tenTo 28 := by
        rw [← tenTo_add]
        congr 1
        omega
      rw [value_negSucc, lastPlace, div_le_div_iff₀ (by norm_num) (tenTo_cast_pos _),
        one_mul] at large
      have digits : tenTo (n + 1 - maxScale) * tenTo 28 ≤ m * tenTo 28 := by
        rw [← split]
        exact_mod_cast large
      exact Nat.le_of_mul_le_mul_right digits (tenTo_pos 28)

/-- Digits with places are there within the format. -/
lemma exists_parts {m n : Nat} (small : m < coefficientLimit) :
    ∃ p, Scaled.parts ⟨m, .negSucc n⟩ = some p ∧ p.1 < coefficientLimit ∧ p.2 ≤ maxScale := by
  refine ⟨_, rfl, ?_⟩
  dsimp only
  obtain ⟨c, same⟩ : ∃ c, shorten (n + 1 - maxScale) m = c := ⟨_, rfl⟩
  obtain ⟨s, scale⟩ : ∃ s, (if c = 0 then 0 else min (n + 1) maxScale) = s := ⟨_, rfl⟩
  rw [same, scale]
  have places : s ≤ maxScale := by
    rw [← scale]
    split_ifs
    · exact Nat.zero_le _
    · exact Nat.min_le_right _ _
  have shortened : c ≤ m := same ▸ shorten_le (Nat.le_mul_of_pos_right m (tenTo_pos _))
  obtain ⟨fewer, least, -⟩ := trim_spec s c
  have trimmed := least c (Nat.le_mul_of_pos_right c (tenTo_pos _))
  have stripped := stripZeros_le (Scaled.trim s c).2 (Scaled.trim s c).1
  exact ⟨by omega, by omega⟩

/-- Up to nine units of the 29th place, nothing is left within the places of the format. -/
lemma parts_of_le (pos : 0 < x.coefficient) (small : x.value ≤ 9 / 10 ^ 29) :
    x.parts = some (0, 0) := by
  obtain ⟨m, e⟩ := x
  change 0 < m at pos
  cases e with
  | ofNat e =>
    have := (one_le_value pos (Int.natCast_nonneg e)).trans small
    norm_num at this
  | negSucc n =>
    rw [value_negSucc, div_le_div_iff₀ (tenTo_cast_pos _) (by norm_num)] at small
    have digits : m * tenTo 29 ≤ 9 * tenTo (n + 1) := by exact_mod_cast small
    obtain ⟨j, rfl⟩ : ∃ j, n = j + 28 := by
      refine Nat.exists_eq_add_of_le' (Nat.le_of_not_lt fun few => ?_)
      have short : tenTo (n + 1) ≤ tenTo 28 := Nat.pow_le_pow_right (by decide) few
      have long : tenTo 29 = tenTo 28 * 10 := rfl
      have least : tenTo 29 ≤ m * tenTo 29 := Nat.le_mul_of_pos_left _ pos
      have := tenTo_pos 28
      omega
    rw [Nat.add_assoc, tenTo_add, ← Nat.mul_assoc] at digits
    have few : m ≤ 9 * tenTo j := Nat.le_of_mul_le_mul_right digits (tenTo_pos 29)
    have places : j + 28 + 1 - maxScale = j + 1 := rfl
    rw [parts]
    dsimp only
    rw [places, shorten_eq_zero few]
    rfl

/-! ### From units -/

/-- Doubling trades the powers of ten for powers of two, and leaves something. -/
lemma double_spec (pos : 0 < x.coefficient) {n : Nat} (le : n ≤ x.exponent) {y : Scaled}
    (h : x.double n = some y) :
    0 < y.coefficient ∧ 0 ≤ y.exponent ∧ y.value * 5 ^ n ≤ x.value := by
  induction n generalizing x with
  | zero =>
    cases h
    exact ⟨pos, le, by rw [pow_zero, mul_one]⟩
  | succ n ih =>
    obtain ⟨m, e⟩ := x
    have limit : coefficientLimit = 79228162514264337593543950336 := rfl
    rw [double] at h
    dsimp only at pos le
    split_ifs at h
    · obtain ⟨digit, whole, less⟩ := ih (Nat.mul_pos pos (by decide)) (by dsimp only; omega) h
      have same : Scaled.value ⟨m * 2, e - 1⟩ * 5 = Scaled.value ⟨m, e⟩ := by
        rw [value, value, zpow_sub_one₀ (by norm_num), Nat.cast_mul, Nat.cast_ofNat]
        ring
      refine ⟨digit, whole, ?_⟩
      rw [pow_succ, ← mul_assoc, ← same]
      exact mul_le_mul_of_nonneg_right less (by norm_num)
    · have pos : 0 < m / 5 := Nat.div_pos (by omega) (by decide)
      obtain ⟨digit, whole, less⟩ := ih pos (by dsimp only; omega) h
      have lower : Scaled.value ⟨m / 5, e⟩ * 5 ≤ Scaled.value ⟨m, e⟩ := by
        have fifth : ((m / 5 : Nat) : ℚ) * 5 ≤ m := by exact_mod_cast Nat.div_mul_le_self m 5
        rw [value, value, mul_right_comm]
        exact mul_le_mul_of_nonneg_right fifth (zpow_nonneg (by norm_num) _)
      refine ⟨digit, whole, ?_⟩
      rw [pow_succ, ← mul_assoc]
      exact (mul_le_mul_of_nonneg_right less (by norm_num)).trans lower

lemma ten_pow_eq (h : Nat) : (10 : ℚ) ^ h = twoTo h * 5 ^ h := by
  rw [twoTo, Nat.pow_eq, Nat.cast_pow, Nat.cast_ofNat, ← mul_pow]
  norm_num

lemma value_neg (m h : Nat) : Scaled.value ⟨m, -h⟩ * 5 ^ h = m / twoTo h := by
  rw [value, zpow_neg, zpow_natCast, ten_pow_eq]
  field_simp

variable {units : Nat}

/-- A float that may have a fraction gets a decimal that is below it by a small share at most. -/
lemma ofUnits_of_le (few : Significant units) (pos : 0 < units) (le : excessDigits units ≤ 1074) :
    ∃ x : Scaled, ofUnits units = some x ∧ 0 < x.coefficient ∧
      x.value ≤ units / unitsPerOne ∧ units / unitsPerOne * (1 - 1074 / 10 ^ 27) ≤ x.value := by
  obtain ⟨h, total⟩ := Nat.le.dest le
  obtain ⟨m, digits⟩ := few
  generalize same : excessDigits units = k at le total digits
  have digit : 0 < m := Nat.pos_of_ne_zero fun none => pos.ne' (by rw [digits, none, Nat.mul_zero])
  have size : (m : ℚ) / twoTo h = units / unitsPerOne := by
    have power : (twoTo k : ℚ) ≠ 0 := Nat.cast_ne_zero.2 (twoTo_pos k).ne'
    rw [digits, unitsPerOne, ← total, twoTo_add, Nat.cast_mul, Nat.cast_mul,
      mul_div_mul_left _ _ power]
  obtain ⟨found, upper, lower⟩ := halve_spec (x := ⟨m, -h⟩) digit h
  refine ⟨_, ?_, found, ?_, ?_⟩
  · have start : units / twoTo k = m := Nat.div_eq_of_eq_mul_right (twoTo_pos k) digits
    have exponent : (k : Int) - 1074 = -h := by omega
    have halvings : 1074 - k = h := by omega
    rw [ofUnits, same, if_pos le, halvings, exponent, start]
  · rwa [value_neg, size] at upper
  · have losses : (h : ℚ) ≤ 1074 := by exact_mod_cast Nat.le.intro ((Nat.add_comm h k).trans total)
    refine le_trans ?_ lower
    rw [mul_pow, ← mul_assoc, value_neg, size]
    refine mul_le_mul_of_nonneg_left ?_ (div_nonneg (Nat.cast_nonneg _) (Nat.cast_nonneg _))
    calc (1 : ℚ) - 1074 / 10 ^ 27
        ≤ 1 + h * (-(1 / 10 ^ 27)) := by linarith
      _ ≤ (1 + -(1 / 10 ^ 27)) ^ h := one_add_mul_le_pow (by norm_num) h
      _ = (1 - 1 / 10 ^ 27) ^ h := by rw [sub_eq_add_neg]

/-- A float without a fraction gets a decimal between one and itself. -/
lemma ofUnits_of_lt (lt : 1074 < excessDigits units) (few : Significant units)
    (h : ofUnits units = some x) :
    0 < x.coefficient ∧ 1 ≤ x.value ∧ x.value ≤ units / unitsPerOne := by
  have start : 0 < units / twoTo (excessDigits units) := by
    refine Nat.div_pos (Nat.le_trans ?_ (twoTo_le_of_excessDigits (by omega))) (twoTo_pos _)
    exact twoTo_le_twoTo (Nat.le_add_left _ _)
  rw [ofUnits, if_neg (Nat.not_le.2 lt)] at h
  obtain ⟨pos, whole, le⟩ := double_spec start (by dsimp only; omega) h
  refine ⟨pos, one_le_value pos whole, ?_⟩
  obtain ⟨m, digits⟩ := few
  obtain ⟨doublings, total⟩ := Nat.le.dest lt.le
  generalize excessDigits units = k at *
  subst digits total
  have unit : 1074 + doublings - 1074 = doublings := Nat.add_sub_cancel_left 1074 doublings
  have exponent : ((1074 + doublings : Nat) : Int) - 1074 = doublings := by omega
  have size : Scaled.value ⟨m, doublings⟩ = m * twoTo doublings * 5 ^ doublings := by
    rw [value, zpow_natCast, ten_pow_eq, mul_assoc]
  rw [unit, exponent, Nat.mul_div_cancel_left m (twoTo_pos _), size] at le
  have split : twoTo (1074 + doublings) = unitsPerOne * twoTo doublings := twoTo_add 1074 doublings
  rw [split, Nat.mul_assoc, Nat.cast_mul, mul_div_cancel_left₀ _ Binary64.unitsPerOne_cast_pos.ne',
    Nat.cast_mul, mul_comm (twoTo doublings : ℚ)]
  exact le_of_mul_le_mul_right le (by positivity)

/-- A float from the last place on stands for a number that is not below it either. -/
lemma le_of_significant (few : Significant units) (large : lastPlace ≤ units / unitsPerOne) :
    lastPlace ≤ units / unitsPerOne * (1 - 1074 / 10 ^ 27) := by
  have digit {k : Nat} (h : 89202980794122492566142873090593446023921664 ≤ k * 10 ^ 28) :
      8920298079412250 ≤ k := by omega
  rw [lastPlace, div_le_div_iff₀ (by norm_num) Binary64.unitsPerOne_cast_pos, one_mul] at large
  have large : unitsPerOne ≤ units * 10 ^ 28 := by exact_mod_cast large
  have bound : twoTo 980 ≤ units := by
    have small : twoTo 980 * 10 ^ 28 ≤ unitsPerOne := by decide +kernel
    exact Nat.le_of_mul_le_mul_right (small.trans large) (by decide)
  -- The last of its digits is worth so much that the float is beyond the last place by far.
  have digits : 928 ≤ excessDigits units := by
    have := excessDigits_mono bound
    rwa [excessDigits, log2_twoTo] at this
  have whole : twoTo 928 ∣ units := Nat.dvd_trans (twoTo_dvd_twoTo digits) few
  have split : unitsPerOne = twoTo 928 * twoTo 146 := twoTo_add 928 146
  have pos := twoTo_pos 928
  generalize twoTo 928 = last at whole split pos
  obtain ⟨k, rfl⟩ := whole
  have power : twoTo 146 = 89202980794122492566142873090593446023921664 := rfl
  rw [split, Nat.mul_assoc, Nat.mul_le_mul_left_iff pos, power] at large
  have least : (8920298079412250 : ℚ) ≤ k := by exact_mod_cast digit large
  rw [split, Nat.cast_mul, Nat.cast_mul, mul_div_mul_left _ _ (Nat.cast_pos.2 pos).ne', power]
  calc lastPlace
      ≤ 8920298079412250 / 89202980794122492566142873090593446023921664
          * (1 - 1074 / 10 ^ 27) := by norm_num [lastPlace]
    _ ≤ k / 89202980794122492566142873090593446023921664 * (1 - 1074 / 10 ^ 27) := by
      refine mul_le_mul_of_nonneg_right ?_ (by norm_num)
      exact div_le_div_of_nonneg_right least (by norm_num)

/-- The decimal digits stand for a number that is not above the float. -/
lemma ofUnits_spec (few : Significant units) (pos : 0 < units) (h : ofUnits units = some x) :
    0 < x.coefficient ∧ x.value ≤ units / unitsPerOne ∧
      (lastPlace ≤ units / unitsPerOne → lastPlace ≤ x.value) := by
  rcases Nat.lt_or_ge 1074 (excessDigits units) with lt | le
  · obtain ⟨digit, whole, upper⟩ := ofUnits_of_lt lt few h
    exact ⟨digit, upper, fun _ => le_trans (by norm_num [lastPlace]) whole⟩
  · obtain ⟨y, same, digit, upper, lower⟩ := ofUnits_of_le few pos le
    cases same.symm.trans h
    exact ⟨digit, upper, fun large => (le_of_significant few large).trans lower⟩

end Scaled

/-! ### The laws -/

variable {x : Binary64} {d : Decimal}

/-- Coefficient and scale of a float are found step by step. -/
lemma ofBinary?_finite {negative : Bool} {units : Nat} (representable : Representable units)
    (pos : 0 < units) : ofBinary? (.finite negative units representable)
      = (Scaled.ofUnits units).bind fun y => y.parts.bind fun p => ofParts? negative p.1 p.2 := by
  rw [ofBinary?, if_neg pos.ne']
  rfl

lemma ofBinary?_zero (negative : Bool) (representable : Representable 0) :
    ∃ d, ofBinary? (.finite negative 0 representable) = some d ∧ d.value = 0 :=
  ⟨_, by rw [ofBinary?, if_pos rfl], value_eq_zero_iff.2 rfl⟩

/-- A float is off by less than the last place, or by less than itself. -/
lemma ofBinary?_near (h : ofBinary? x = some d) :
    |d.value - x.toRat| < lastPlace ∨ |d.value - x.toRat| < |x.toRat| := by
  cases x with
  | nan => cases h
  | infinite => cases h
  | finite negative units representable =>
    rcases Nat.eq_zero_or_pos units with rfl | pos
    · obtain ⟨zero, found, none⟩ := ofBinary?_zero negative representable
      cases found.symm.trans h
      refine .inl ?_
      rw [none, Binary64.toRat, Nat.cast_zero, zero_div, withSign_zero, sub_zero, abs_zero]
      exact lastPlace_pos
    rw [ofBinary?_finite representable pos] at h
    obtain ⟨y, found, h⟩ := Option.bind_eq_some_iff.1 h
    obtain ⟨p, parts, h⟩ := Option.bind_eq_some_iff.1 h
    obtain ⟨digit, upper, least⟩ := Scaled.ofUnits_spec representable.2 pos found
    have positive : (0 : ℚ) < units / unitsPerOne :=
      div_pos (Nat.cast_pos.2 pos) Binary64.unitsPerOne_cast_pos
    have nonneg : (0 : ℚ) ≤ p.1 / tenTo p.2 := div_nonneg (Nat.cast_nonneg _) (Nat.cast_nonneg _)
    have lost : (p.1 / tenTo p.2 : ℚ) = 0 → (units / unitsPerOne : ℚ) < lastPlace := by
      intro none
      by_contra large
      have := Scaled.parts_pos digit (least (not_lt.1 large)) parts
      rw [div_eq_zero_iff, or_iff_left (tenTo_cast_pos _).ne', Nat.cast_eq_zero] at none
      omega
    have close := Scaled.parts_lt digit parts
    rw [value_of_ofParts? h, Binary64.toRat, withSign_sub, abs_withSign, abs_withSign,
      abs_of_pos positive]
    generalize (units / unitsPerOne : ℚ) = u at *
    generalize (p.1 / tenTo p.2 : ℚ) = v at *
    rcases nonneg.eq_or_lt with none | some
    · rw [← none, zero_sub, abs_neg, abs_of_pos positive]
      exact .inl (lost none.symm)
    · rw [abs_lt, abs_lt]
      rcases lt_or_ge v (2 * u) with twice | beyond
      · exact .inr ⟨by linarith, by linarith⟩
      · rcases close with less | small
        · linarith
        · exact .inl ⟨by linarith, by linarith⟩

lemma one_le_of_excessDigits {units : Nat} (many : 1074 < excessDigits units) :
    (1 : ℚ) ≤ units / unitsPerOne := by
  rw [one_le_div Binary64.unitsPerOne_cast_pos, Nat.cast_le]
  refine Nat.le_trans ?_ (twoTo_le_of_excessDigits (by omega))
  exact twoTo_le_twoTo (by omega)

/-- A float without a decimal that stands for it is too large. -/
lemma ofBinary?_none (finite : x.isFinite = true) (h : ofBinary? x = none) : 1 ≤ |x.toRat| := by
  obtain ⟨negative, units, representable, rfl⟩ := Binary64.exists_eq_finite finite
  rcases Nat.eq_zero_or_pos units with rfl | pos
  · obtain ⟨zero, found, -⟩ := ofBinary?_zero negative representable
    cases found.symm.trans h
  rw [Binary64.abs_toRat_finite]
  rcases Nat.lt_or_ge 1074 (excessDigits units) with lt | le
  · exact one_le_of_excessDigits lt
  obtain ⟨y, found, digit, upper, -⟩ := Scaled.ofUnits_of_le representable.2 pos le
  have small : y.coefficient < coefficientLimit := by
    rw [Scaled.ofUnits, if_pos le] at found
    cases found
    refine Scaled.halve_lt ?_ _
    have := lt_twoTo_excessDigits units
    rw [twoTo_add] at this
    exact Nat.lt_trans (Nat.div_lt_of_lt_mul (by rwa [Nat.mul_comm])) (by decide)
  rw [ofBinary?_finite representable pos, found, Option.bind_some] at h
  obtain ⟨m, e⟩ := y
  cases e with
  | ofNat e => exact (Scaled.one_le_value digit (Int.natCast_nonneg e)).trans upper
  | negSucc n =>
    obtain ⟨p, parts, fits⟩ := Scaled.exists_parts (n := n) small
    rw [parts, Option.bind_some, ofParts?, dif_pos fits] at h
    cases h

/-- A float up to `9e-29` stands for zero. -/
lemma ofBinary?_small (finite : x.isFinite = true) (small : |x.toRat| ≤ 9 / 10 ^ 29) :
    ∃ d, ofBinary? x = some d ∧ d.value = 0 := by
  obtain ⟨negative, units, representable, rfl⟩ := Binary64.exists_eq_finite finite
  rcases Nat.eq_zero_or_pos units with rfl | pos
  · exact ofBinary?_zero negative representable
  rw [Binary64.abs_toRat_finite] at small
  have le : excessDigits units ≤ 1074 := by
    by_contra lt
    have := (one_le_of_excessDigits (not_le.1 lt)).trans small
    norm_num at this
  obtain ⟨y, found, digit, upper, -⟩ := Scaled.ofUnits_of_le representable.2 pos le
  have parts := Scaled.parts_of_le digit (upper.trans small)
  have fits : 0 < coefficientLimit ∧ 0 ≤ maxScale := ⟨twoTo_pos 96, Nat.zero_le _⟩
  refine ⟨⟨negative, 0, 0, fits.1, fits.2⟩, ?_, value_eq_zero_iff.2 rfl⟩
  rw [ofBinary?_finite representable pos, found, Option.bind_some, parts, Option.bind_some,
    ofParts?, dif_pos fits]

end Decimal

@[simp] lemma Decimals.standard_ofBinary? : Decimals.standard.ofBinary? = Decimal.ofBinary? := rfl

/-- The decimals of 96 bits follow the laws. -/
theorem Decimals.lawful_standard : Decimals.standard.Lawful Decimal.value where
  places := Decimal.exists_value_eq
  ofInteger n := ⟨_, rfl, Decimal.value_ofInteger n⟩
  ofBinary _ h := Decimal.ofBinary?_near h
  ofBinary_small finite small :=
    Decimal.ofBinary?_small finite (small.le.trans (by norm_num [lastPlace]))
  ofBinary_none := Decimal.ofBinary?_none
  mul := Decimal.mul_rounds
  mul_none := Decimal.mul_none
  div := Decimal.div_rounds
  div_none := Decimal.div_none
  div_zero := Decimal.div_zero
  isWhole_iff := Decimal.isWhole_iff
  toInteger := Decimal.toInteger?_eq_some_iff
  toBinary nonzero h := by
    cases h
    exact Decimal.toBinary_near nonzero

end Sift
