import Mathlib.Data.Nat.Cast.Field
import Mathlib.Tactic.FieldSimp
import Sift.Number.Decimal
import Sift.Proofs.Number.Roundings

/-!
# Decimal fractions as rational numbers

A decimal is a rational number of at most 28 places. The product of two decimals is rounded once, at
the last of these or, where the digits do not fit, at a digit that is not the first one
(`Decimal.mul_rounds`).
-/

namespace Sift

lemma tenTo_add (j k : Nat) : tenTo (j + k) = tenTo j * tenTo k := Nat.pow_add 10 j k

lemma tenTo_cast (k : Nat) : (tenTo k : ℚ) = 10 ^ k := Nat.cast_pow 10 k

lemma tenTo_cast_pos (k : Nat) : (0 : ℚ) < tenTo k := Nat.cast_pos.2 (tenTo_pos k)

lemma tenTo_cast_split {j k : Nat} (h : j ≤ k) : (tenTo k : ℚ) = tenTo j * tenTo (k - j) := by
  rw [← Nat.cast_mul, ← tenTo_add, Nat.add_sub_of_le h]

lemma tenTo_le_tenTo {j k : Nat} (h : j ≤ k) : tenTo j ≤ tenTo k :=
  Nat.pow_le_pow_right (by decide) h

/-- A quotient is its whole part and the fraction that the remainder leaves. -/
lemma cast_div_add_cast_mod_div (n : Nat) {d : Nat} (nonzero : (d : ℚ) ≠ 0) :
    ((n / d : Nat) : ℚ) + (n % d : Nat) / d = n / d := by
  rw [eq_div_iff nonzero, add_mul, div_mul_cancel₀ _ nonzero]
  exact_mod_cast Nat.div_add_mod' n d

namespace Decimal

lemma coefficientLimit_cast : (coefficientLimit : ℚ) = 79228162514264337593543950336 := rfl

def magnitude (d : Decimal) : ℚ := d.coefficient / tenTo d.scale

def value (d : Decimal) : ℚ := withSign d.negative d.magnitude

variable {a b d : Decimal} {negative : Bool} {coefficient scale : Nat}

lemma magnitude_nonneg (d : Decimal) : 0 ≤ d.magnitude :=
  div_nonneg (Nat.cast_nonneg _) (Nat.cast_nonneg _)

@[simp] lemma abs_value (d : Decimal) : |d.value| = d.magnitude := by
  rw [value, abs_withSign, abs_of_nonneg d.magnitude_nonneg]

lemma value_eq_zero_iff : d.value = 0 ↔ d.coefficient = 0 := by
  rw [← abs_eq_zero, abs_value, magnitude, div_eq_zero_iff, Nat.cast_eq_zero,
    or_iff_left (tenTo_cast_pos d.scale).ne']

lemma isZero_iff : d.isZero = true ↔ d.value = 0 := beq_iff_eq.trans value_eq_zero_iff.symm

@[simp] lemma value_zero : zero.value = 0 := value_eq_zero_iff.2 rfl

lemma ofParts?_eq_some_iff : ofParts? negative coefficient scale = some d ↔
    d.negative = negative ∧ d.coefficient = coefficient ∧ d.scale = scale := by
  constructor
  · intro h
    rw [ofParts?] at h
    split at h
    · cases h
      exact ⟨rfl, rfl, rfl⟩
    · cases h
  · rintro ⟨rfl, rfl, rfl⟩
    rw [ofParts?, dif_pos ⟨d.coefficient_lt, d.scale_le⟩]

lemma value_of_ofParts? (h : ofParts? negative coefficient scale = some d) :
    d.value = withSign negative (coefficient / tenTo scale) := by
  obtain ⟨rfl, rfl, rfl⟩ := ofParts?_eq_some_iff.1 h
  rfl

/-! ### Places and whole numbers -/

/-- A decimal is a whole number of last places. -/
lemma exists_value_eq (d : Decimal) : ∃ k : ℤ, d.value = k * lastPlace := by
  obtain ⟨places, total⟩ := Nat.le.dest d.scale_le
  have last : lastPlace = 1 / (tenTo d.scale * tenTo places) := by
    rw [lastPlace, ← Nat.cast_mul, ← tenTo_add, total]
    norm_num [maxScale, tenTo]
  have same : d.magnitude = (d.coefficient * tenTo places : Nat) * lastPlace := by
    have := (tenTo_cast_pos places).ne'
    rw [magnitude, last, Nat.cast_mul]
    field_simp
  exact ⟨_, by rw [value, same, withSign_mul_right, withSign_natCast]⟩

@[simp] lemma value_ofInteger (n : Int64) : (ofInteger n).value = n.toInt := by
  have units : (ofInteger n).magnitude = n.toInt.natAbs := by
    rw [magnitude, ofInteger, tenTo_zero, Nat.cast_one, div_one]
  have sign : (ofInteger n).negative = decide (n.toInt < 0) :=
    decide_eq_decide.2 Int64.lt_iff_toInt_lt
  rw [value, units, withSign_natCast, sign, Binary64.signed_natAbs]

lemma value_of_isWhole (h : d.isWhole = true) :
    d.value = (Binary64.signed d.negative (d.coefficient / tenTo d.scale) : ℤ) := by
  have whole : tenTo d.scale ∣ d.coefficient := Nat.dvd_of_mod_eq_zero (beq_iff_eq.1 h)
  rw [← withSign_natCast, Nat.cast_div whole (tenTo_cast_pos _).ne']
  rfl

/-- A decimal counts as whole if it is an integer. -/
lemma isWhole_iff (d : Decimal) : d.isWhole = true ↔ ∃ k : ℤ, d.value = k := by
  refine ⟨fun h => ⟨_, value_of_isWhole h⟩, ?_⟩
  rintro ⟨k, same⟩
  have size : d.magnitude = k.natAbs := by
    rw [← abs_value, same, Nat.cast_natAbs, Int.cast_abs]
  rw [magnitude, div_eq_iff (tenTo_cast_pos _).ne'] at size
  have multiple : d.coefficient = k.natAbs * tenTo d.scale := by exact_mod_cast size
  rw [isWhole, multiple, Nat.mul_mod_left]
  rfl

/-- The machine integer of a whole decimal is equal to it. -/
lemma toInteger?_eq_some_iff (whole : d.isWhole = true) (n : Int64) :
    d.toInteger? = some n ↔ d.value = n.toInt := by
  rw [toInteger?, integer?_eq_some_iff, value_of_isWhole whole, Int.cast_inj, eq_comm]

/-! ### Products -/

lemma le_of_limit_le {num places : Nat}
    (large : coefficientLimit ≤ roundHalfEven num (tenTo places)) : tenTo (places + 28) ≤ num := by
  have near := roundHalfEven_le num (tenTo places)
  have limit : tenTo 28 + 1 ≤ coefficientLimit := by decide
  rw [Nat.add_comm, tenTo_add, ← Nat.le_div_iff_mul_le (tenTo_pos places)]
  omega

/-- Dropping no more places than necessary does not drop all digits. -/
lemma placesToDrop_spec (coefficient scale : Nat) :
    scale - maxScale ≤ placesToDrop coefficient scale ∧
      (placesToDrop coefficient scale = scale - maxScale ∨
        tenTo (placesToDrop coefficient scale) ≤ coefficient) := by
  rw [placesToDrop]
  generalize scale - maxScale = least
  simp only [List.find?_map]
  cases found : (List.range (decimalLength coefficient + 1)).find?
      (placesToDrop.fits coefficient ∘ (least + ·)) with
  | none => exact ⟨Nat.le_refl _, .inl rfl⟩
  | some places =>
    refine ⟨Nat.le_add_right _ _, ?_⟩
    cases places with
    | zero => exact .inl rfl
    | succ places =>
      obtain ⟨-, -, before⟩ := List.find?_range_eq_some.1 found
      have full := before places (Nat.lt_succ_self places)
      have large : coefficientLimit ≤ roundHalfEven coefficient (tenTo (least + places)) := by
        simpa [placesToDrop.fits] using full
      have more : least + (places + 1) ≤ least + places + 28 := by omega
      exact .inr (Nat.le_trans (tenTo_le_tenTo more) (le_of_limit_le large))

/-- Places are dropped with a loss of at most half of the last one that is left. -/
lemma roundHalfEven_tenTo_near (coefficient : Nat) {places scale : Nat} (le : places ≤ scale) :
    |(roundHalfEven coefficient (tenTo places) / tenTo (scale - places) : ℚ)
        - coefficient / tenTo scale| ≤ 1 / 2 / tenTo (scale - places) := by
  have unit := tenTo_cast_pos (scale - places)
  rw [tenTo_cast_split le, ← div_div, ← sub_div, abs_div, abs_of_pos unit]
  exact div_le_div_of_nonneg_right (roundHalfEven_near _ (tenTo_pos places)) unit.le

/-- A decimal that fits is rounded once. -/
lemma fit_rounds (h : fit negative coefficient scale = some d) :
    Rounds (withSign negative (coefficient / tenTo scale)) d.value := by
  have most := (placesToDrop_spec coefficient scale).2
  rw [fit] at h
  split at h
  · rename_i le
    have near := roundHalfEven_tenTo_near coefficient le
    rw [Rounds, value_of_ofParts? h, withSign_sub, abs_withSign, abs_withSign]
    rcases most with same | digits
    · refine .inl ?_
      rcases Nat.le_total scale maxScale with few | many
      · rw [same, Nat.sub_eq_zero_of_le few, tenTo_zero, roundHalfEven_one, Nat.sub_zero, sub_self,
          abs_zero]
        exact div_nonneg lastPlace_pos.le two_pos.le
      · rw [same, Nat.sub_sub_self many] at near ⊢
        refine near.trans (le_of_eq ?_)
        norm_num [lastPlace, maxScale, tenTo]
    · refine .inr (lt_of_le_of_lt near (lt_of_lt_of_le ?_ (le_abs_self _)))
      rw [tenTo_cast_split le, ← div_div]
      refine div_lt_div_of_pos_right ?_ (tenTo_cast_pos _)
      have : (1 : ℚ) ≤ coefficient / tenTo (placesToDrop coefficient scale) :=
        (one_le_div (tenTo_cast_pos _)).2 (Nat.cast_le.2 digits)
      linarith
  · cases h

/-- Only numbers from one on are too large for the format. -/
lemma fit_none (h : fit negative coefficient scale = none) :
    (1 : ℚ) ≤ coefficient / tenTo scale := by
  obtain ⟨least, most⟩ := placesToDrop_spec coefficient scale
  rw [one_le_div (tenTo_cast_pos _), Nat.cast_le]
  rw [fit] at h
  have max : maxScale = 28 := rfl
  split at h
  · rename_i le
    rw [ofParts?] at h
    split at h
    · cases h
    · rename_i large
      have full : tenTo (placesToDrop coefficient scale + 28) ≤ coefficient :=
        le_of_limit_le (by omega)
      exact Nat.le_trans (tenTo_le_tenTo (by omega)) full
  · rename_i long
    refine Nat.le_trans (tenTo_le_tenTo (Nat.le_of_not_le long)) (most.resolve_left ?_)
    omega

lemma mul_of_zero (h : a.value = 0 ∨ b.value = 0) : a.mul b = some zero := by
  rw [mul, if_pos (by rwa [Bool.or_eq_true, isZero_iff, isZero_iff])]

lemma mul_of_ne_zero (h : ¬ (a.value = 0 ∨ b.value = 0)) : a.mul b
    = fit (a.negative ^^ b.negative) (a.coefficient * b.coefficient) (a.scale + b.scale) := by
  rw [mul, if_neg (by rwa [Bool.or_eq_true, isZero_iff, isZero_iff])]

lemma value_mul_value (a b : Decimal) : a.value * b.value = withSign (a.negative ^^ b.negative)
    ((a.coefficient * b.coefficient : Nat) / tenTo (a.scale + b.scale)) := by
  rw [value, value, withSign_mul, magnitude, magnitude, div_mul_div_comm, tenTo_add, Nat.cast_mul,
    Nat.cast_mul]

/-- Products are rounded to the places of the format. -/
lemma mul_rounds (h : a.mul b = some d) : Rounds (a.value * b.value) d.value := by
  by_cases none : a.value = 0 ∨ b.value = 0
  · rw [mul_of_zero none] at h
    cases h
    rw [mul_eq_zero.2 none, value_zero]
    exact .refl 0
  · rw [mul_of_ne_zero none] at h
    rw [value_mul_value]
    exact fit_rounds h

/-- A product that is missing is at least one. -/
lemma mul_none (h : a.mul b = none) : 1 ≤ |a.value * b.value| := by
  by_cases none : a.value = 0 ∨ b.value = 0
  · rw [mul_of_zero none] at h
    cases h
  · rw [mul_of_ne_zero none] at h
    rw [value_mul_value, abs_withSign]
    exact (fit_none h).trans (le_abs_self _)

end Decimal

end Sift
