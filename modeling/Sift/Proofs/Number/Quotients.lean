import Sift.Proofs.Number.Fractions

/-!
# Quotients of decimal fractions

The quotient of two decimals is found by long division, several places at a time, until it comes out
even or the format has no room for a further place. Digits and remainder stand for the same number
all the time (`Decimal.Quotient.exact_advanced`), and only at the end it is rounded: at the last of
28 places, or at a digit that is not the first one (`Decimal.div_rounds`).
-/

namespace Sift

namespace Decimal

namespace Quotient

/-- The number that the digits stand for. -/
def value (x : Quotient) : ℚ := x.digits / 10 ^ x.scale

/-- The number that digits and remainder stand for. -/
def exact (divisor : Nat) (x : Quotient) : ℚ := (x.digits + x.remainder / divisor) / 10 ^ x.scale

/-- A quotient that is rounded, within the places of the format, or that is missing because it is
too large. -/
def Finds (exact : ℚ) : Option Quotient → Prop
  | some x => Rounds exact x.value ∧ 0 ≤ x.scale ∧ x.scale ≤ maxScale
  | none => 1 ≤ exact

variable {divisor rounds : Nat} {x : Quotient}

/-! ### The places of a round -/

/-- The places that there is room for are within the format. -/
lemma scale_add_room_le {quotient : Nat} {scale : Int} (h : scale ≤ maxScale) :
    scale + room quotient scale ≤ maxScale := by
  rw [room]
  cases found : (List.range 10).reverse.find? fun (p : Nat) =>
      scale + p ≤ maxScale && quotient * tenTo p < coefficientLimit with
  | none => simpa using h
  | some p =>
    have room := List.find?_some found
    rw [Bool.and_eq_true, decide_eq_true_eq] at room
    exact room.1

/-- A quotient without digits has room for a place that the format has. -/
lemma room_pos {scale : Int} (h : scale < maxScale) : 0 < room 0 scale := by
  have most : (List.range 10).reverse = [9, 8, 7, 6, 5, 4, 3, 2, 1] ++ [0] := rfl
  rw [room, most, List.find?_append]
  cases found : [9, 8, 7, 6, 5, 4, 3, 2, 1].find? fun (p : Nat) =>
      scale + p ≤ maxScale && 0 * tenTo p < coefficientLimit with
  | none =>
    have limit : 0 < coefficientLimit := twoTo_pos 96
    have full := List.find?_eq_none.1 found 1 (by simp)
    rw [Nat.zero_mul, Bool.and_eq_true, decide_eq_true_eq, decide_eq_true_eq] at full
    omega
  | some p =>
    have member := List.mem_of_find?_eq_some found
    simp only [List.mem_cons, List.not_mem_nil, or_false] at member
    simp only [Option.some_or, Option.getD_some]
    omega

lemma scale_add_gained_le (h : x.scale ≤ maxScale) : x.scale + x.gained ≤ maxScale := by
  rw [gained]
  split
  · have : maxScale = 28 := rfl
    omega
  · exact scale_add_room_le h

lemma of_gained_eq_zero (unfinished : ¬ (x.remainder = 0 ∧ 0 ≤ x.scale)) (h : x.gained = 0) :
    x.digits ≠ 0 ∨ maxScale ≤ x.scale := by
  refine or_iff_not_imp_left.2 fun none => Int.not_lt.1 fun less => ?_
  rw [gained, not_not.1 none] at h
  split at h
  · omega
  · exact (room_pos less).ne' h

/-! ### Rounds keep the number -/

lemma ten_zpow_pos (s : ℤ) : (0 : ℚ) < 10 ^ s := zpow_pos (by norm_num) s

/-- Gaining places does not change what digits and remainder stand for. -/
lemma exact_advanced (pos : 0 < divisor) :
    (x.advanced divisor).exact divisor = x.exact divisor := by
  have unit : (divisor : ℚ) ≠ 0 := Nat.cast_ne_zero.2 pos.ne'
  have gained : (10 : ℚ) ^ x.gained ≠ 0 := (pow_pos (by norm_num) _).ne'
  have split : ((x.remainder * tenTo x.gained / divisor : Nat) : ℚ)
      + (x.remainder * tenTo x.gained % divisor : Nat) / divisor
      = x.remainder * 10 ^ x.gained / divisor := by
    rw [cast_div_add_cast_mod_div _ unit, Nat.cast_mul, tenTo_cast]
  simp only [exact, advanced, Nat.cast_add, Nat.cast_mul]
  rw [add_assoc, split, zpow_add₀ (by norm_num), zpow_natCast, tenTo_cast]
  field_simp

/-- Rounding by the remainder is off by half of the last place at most. -/
lemma value_rounded_near (pos : 0 < divisor) (small : x.remainder < divisor) :
    |(x.rounded divisor).value - x.exact divisor| ≤ 1 / 2 / 10 ^ x.scale := by
  have unit : (0 : ℚ) < divisor := Nat.cast_pos.2 pos
  have power := ten_zpow_pos x.scale
  have less : (x.remainder / divisor : ℚ) < 1 := (div_lt_one unit).2 (Nat.cast_lt.2 small)
  have rest : (0 : ℚ) ≤ x.remainder / divisor := by positivity
  have places : (x.rounded divisor).scale = x.scale := rfl
  rw [value, exact, places, ← sub_div, abs_div, abs_of_pos power]
  refine div_le_div_of_nonneg_right ?_ power.le
  simp only [rounded]
  split_ifs with up
  · have half : (1 / 2 : ℚ) ≤ x.remainder / divisor := by
      rw [div_le_div_iff₀ two_pos unit]
      have : divisor ≤ 2 * x.remainder := by omega
      have : (divisor : ℚ) ≤ 2 * x.remainder := by exact_mod_cast this
      linarith
    rw [Nat.cast_succ, abs_le]
    constructor <;> linarith
  · have half : (x.remainder / divisor : ℚ) ≤ 1 / 2 := by
      rw [div_le_div_iff₀ unit two_pos]
      have : 2 * x.remainder ≤ divisor := by omega
      have : (2 * x.remainder : ℚ) ≤ divisor := by exact_mod_cast this
      linarith
    rw [abs_le]
    constructor <;> linarith

lemma value_le_exact : x.value ≤ x.exact divisor := by
  rw [value, exact]
  refine div_le_div_of_nonneg_right ?_ (ten_zpow_pos _).le
  exact le_add_of_nonneg_right (by positivity)

/-- The digits alone are off by less than the last place. -/
lemma value_near (small : x.remainder < divisor) :
    |x.value - x.exact divisor| ≤ 1 / 10 ^ x.scale := by
  have unit : (0 : ℚ) < divisor := Nat.cast_pos.2 (Nat.zero_lt_of_lt small)
  have power := ten_zpow_pos x.scale
  have rest : (x.remainder / divisor : ℚ) ≤ 1 := (div_le_one unit).2 (Nat.cast_le.2 small.le)
  have nonneg : (0 : ℚ) ≤ x.remainder / divisor := by positivity
  rw [value, exact, ← sub_div, abs_div, abs_of_pos power, sub_add_cancel_left, abs_neg,
    abs_of_nonneg nonneg]
  exact div_le_div_of_nonneg_right rest power.le

lemma one_div_le_value (digits : x.digits ≠ 0) : 1 / 10 ^ x.scale ≤ x.value :=
  div_le_div_of_nonneg_right (Nat.one_le_cast.2 (Nat.pos_of_ne_zero digits)) (ten_zpow_pos _).le

/-- The last rounding is at the last of 28 places, or not at the first digit. -/
lemma rounds_rounded (pos : 0 < divisor) (small : x.remainder < divisor) (le : x.scale ≤ maxScale)
    (full : x.digits ≠ 0 ∨ maxScale ≤ x.scale) :
    Rounds (x.exact divisor) (x.rounded divisor).value := by
  have near := value_rounded_near pos small
  rcases full with digits | last
  · refine .inr (lt_of_le_of_lt near (lt_of_lt_of_le ?_ (le_abs_self _)))
    refine lt_of_lt_of_le ?_ ((one_div_le_value digits).trans value_le_exact)
    exact div_lt_div_of_pos_right (by norm_num) (ten_zpow_pos _)
  · refine .inl (near.trans (le_of_eq ?_))
    rw [le_antisymm le last]
    norm_num [lastPlace, maxScale]

lemma one_le_value_of_limit (next : x.scale + x.gained ≤ maxScale)
    (large : coefficientLimit ≤ x.digits * tenTo x.gained) : 1 ≤ x.value := by
  have digits : (coefficientLimit : ℚ) ≤ x.digits * 10 ^ x.gained := by
    rw [← tenTo_cast]
    exact_mod_cast large
  have places : (10 : ℚ) ^ x.scale * 10 ^ x.gained ≤ 10 ^ 28 := by
    rw [← zpow_natCast, ← zpow_add₀ (by norm_num), ← zpow_natCast (10 : ℚ) 28]
    exact zpow_le_zpow_right₀ (by norm_num) next
  have gained : (0 : ℚ) < 10 ^ x.gained := by positivity
  rw [coefficientLimit_cast] at digits
  rw [value, one_le_div (ten_zpow_pos _)]
  refine le_of_mul_le_mul_right ?_ gained
  linarith

/-- Dropping the last of too many digits. -/
lemma finds_carry {exact : ℚ} (large : coefficientLimit ≤ x.digits) (le : x.scale ≤ maxScale)
    (near : |x.value - exact| ≤ 1 / 10 ^ x.scale) : Finds exact x.carry := by
  have power := ten_zpow_pos x.scale
  have digits : (coefficientLimit : ℚ) ≤ x.digits := Nat.cast_le.2 large
  rw [coefficientLimit_cast] at digits
  obtain ⟨high, low⟩ := abs_le.1 near
  rw [neg_le_sub_iff_le_add, value, ← add_div, le_div_iff₀ power] at high
  rw [sub_le_iff_le_add, value, ← sub_le_iff_le_add', ← sub_div, div_le_iff₀ power] at low
  rw [carry, if_neg (Nat.not_lt.2 large)]
  split_ifs with whole
  · have small : (10 : ℚ) ^ x.scale ≤ 1 := zpow_le_one_of_nonpos₀ (by norm_num) whole
    change 1 ≤ exact
    by_contra less
    have := mul_lt_mul_of_pos_right (not_le.1 less) power
    linarith
  · have near := roundHalfEven_near x.digits (by decide : 0 < 10)
    refine ⟨.inr ?_, by dsimp only; omega, by dsimp only; omega⟩
    have positive : 0 < exact := pos_of_mul_pos_left (by linarith) power.le
    have result : (roundHalfEven x.digits 10 / 10 ^ (x.scale - 1) - exact : ℚ)
        = (roundHalfEven x.digits 10 * 10 - exact * 10 ^ x.scale) / 10 ^ x.scale := by
      rw [zpow_sub_one₀ (by norm_num)]
      field_simp
    obtain ⟨less, more⟩ := abs_le.1 near
    rw [value, result, abs_div, abs_of_pos power, abs_of_pos positive, div_lt_iff₀ power, abs_lt]
    rw [Nat.cast_ofNat] at less more
    constructor <;> linarith

/-- Gaining places ends with a rounded quotient, or it is too large. The induction is on the rounds,
which cannot run out before the places do. -/
lemma finds_refine (pos : 0 < divisor) (le : x.scale ≤ maxScale) (small : x.remainder < divisor)
    (enough : maxScale < x.scale + rounds) : Finds (x.exact divisor) (x.refine divisor rounds) := by
  induction rounds generalizing x with
  | zero => omega
  | succ rounds ih =>
    rw [refine]
    split_ifs with finished full whole large
    · refine ⟨?_, finished.2, le⟩
      rw [exact, finished.1, Nat.cast_zero, zero_div, add_zero]
      exact .refl _
    · -- There is room for a first digit, so a whole part without room is not zero.
      refine le_trans ?_ value_le_exact
      rcases of_gained_eq_zero finished full with digits | last
      · exact le_trans ((one_le_div (ten_zpow_pos _)).2
          (zpow_le_one_of_nonpos₀ (by norm_num) whole.le)) (one_div_le_value digits)
      · omega
    · by_cases grown : coefficientLimit ≤ (x.rounded divisor).digits
      · refine finds_carry grown le ((value_rounded_near pos small).trans ?_)
        exact div_le_div_of_nonneg_right (by norm_num) (ten_zpow_pos _).le
      · rw [carry, if_pos (Nat.not_le.1 grown)]
        have rounds := rounds_rounded pos small le (of_gained_eq_zero finished full)
        exact ⟨rounds, Int.not_lt.1 whole, le⟩
    · exact (one_le_value_of_limit (scale_add_gained_le le) large).trans value_le_exact
    · dsimp only
      rw [← exact_advanced pos]
      have next := scale_add_gained_le le
      split_ifs with grown
      · exact finds_carry grown next (value_near (Nat.mod_lt _ pos))
      · refine ih next (Nat.mod_lt _ pos) ?_
        simp only [advanced]
        omega

end Quotient

/-! ### Zeros at the end -/

/-- Coefficient and scale stand for the same number, with no more places. -/
def SameNumber (x y : Nat × Nat) : Prop :=
  (y.1 / tenTo y.2 : ℚ) = x.1 / tenTo x.2 ∧ y.2 ≤ x.2

variable {x y : Nat × Nat}

/-- Dropping zeros at the end does not change the number. -/
lemma sameNumber_dropZeros (places test : Nat) (h : SameNumber x y) :
    SameNumber x (dropZeros places test y) := by
  rw [dropZeros]
  split_ifs with zeros
  · obtain ⟨-, le, zeros⟩ := zeros
    refine ⟨?_, Nat.le_trans (Nat.sub_le _ _) h.2⟩
    rw [← h.1, tenTo_cast_split le, ← div_div]
    congr 1
    exact Nat.cast_div (Nat.dvd_of_mod_eq_zero zeros) (tenTo_cast_pos places).ne'
  · exact h

lemma sameNumber_dropAllZeros (x : Nat × Nat) : SameNumber x (dropAllZeros x) := by
  have start : SameNumber x x := ⟨rfl, Nat.le_refl _⟩
  exact sameNumber_dropZeros _ _ <| sameNumber_dropZeros _ _ <| sameNumber_dropZeros _ _ <|
    sameNumber_dropZeros _ _ <| sameNumber_dropZeros _ _ <| sameNumber_dropZeros _ _ start

lemma parts_spec {q : Quotient} (whole : 0 ≤ q.scale) :
    (q.parts.1 / tenTo q.parts.2 : ℚ) = q.value ∧ q.parts.2 ≤ q.scale.toNat := by
  have start : SameNumber (q.digits, q.scale.toNat) q.parts := by
    rw [Quotient.parts]
    split
    · exact sameNumber_dropAllZeros _
    · exact ⟨rfl, Nat.le_refl _⟩
  obtain ⟨places, same⟩ := Int.eq_ofNat_of_zero_le whole
  refine ⟨start.1.trans ?_, start.2⟩
  rw [Quotient.value, same, zpow_natCast, ← tenTo_cast]
  rfl

/-! ### Division -/

variable {a b d : Decimal}

lemma div_of_zero (ha : a.value = 0) (hb : b.value ≠ 0) : a.div b = some zero := by
  rw [div, if_neg (isZero_iff.not.2 hb), if_pos (isZero_iff.2 ha)]

lemma div_zero (hb : b.value = 0) : a.div b = none := by
  rw [div, if_pos (isZero_iff.2 hb)]

lemma div_of_ne_zero (ha : a.value ≠ 0) (hb : b.value ≠ 0) : a.div b =
    ((Quotient.start a b).refine b.coefficient (2 * maxScale + 1)).bind fun x =>
      ofParts? (a.negative ^^ b.negative) x.parts.1 x.parts.2 := by
  rw [div, if_neg (isZero_iff.not.2 hb), if_neg (isZero_iff.not.2 ha)]
  rfl

/-- The quotient of the decimals is what their coefficients are divided for. -/
lemma value_div_value (hb : b.value ≠ 0) : a.value / b.value = withSign (a.negative ^^ b.negative)
    ((Quotient.start a b).exact b.coefficient) := by
  have divisor : (b.coefficient : ℚ) ≠ 0 := Nat.cast_ne_zero.2 (value_eq_zero_iff.not.1 hb)
  rw [value, value, withSign_div]
  congr 1
  simp only [magnitude, Quotient.exact, Quotient.start]
  rw [cast_div_add_cast_mod_div _ divisor, zpow_sub₀ (by norm_num), zpow_natCast, zpow_natCast,
    tenTo_cast, tenTo_cast]
  field_simp

lemma finds_start (hb : b.value ≠ 0) :
    Quotient.Finds ((Quotient.start a b).exact b.coefficient)
      ((Quotient.start a b).refine b.coefficient (2 * maxScale + 1)) := by
  have pos := Nat.pos_of_ne_zero (value_eq_zero_iff.not.1 hb)
  have max : maxScale = 28 := rfl
  have := a.scale_le
  have := b.scale_le
  refine Quotient.finds_refine pos ?_ (Nat.mod_lt _ pos) ?_
  · simp only [Quotient.start]
    omega
  · simp only [Quotient.start]
    omega

/-- Quotients are rounded to the places of the format. -/
lemma div_rounds (hb : b.value ≠ 0) (h : a.div b = some d) :
    Rounds (a.value / b.value) d.value := by
  by_cases ha : a.value = 0
  · rw [div_of_zero ha hb] at h
    cases h
    rw [ha, zero_div, value_zero]
    exact .refl 0
  · rw [div_of_ne_zero ha hb] at h
    obtain ⟨x, found, parts⟩ := Option.bind_eq_some_iff.1 h
    have finds := finds_start (a := a) hb
    rw [found] at finds
    obtain ⟨near, whole, -⟩ := finds
    rw [value_div_value hb, value_of_ofParts? parts, (parts_spec whole).1]
    exact near.withSign _

/-- A quotient is missing only if it is too large. -/
lemma div_none (hb : b.value ≠ 0) (h : a.div b = none) : 1 ≤ |a.value / b.value| := by
  by_cases ha : a.value = 0
  · rw [div_of_zero ha hb] at h
    cases h
  rw [div_of_ne_zero ha hb] at h
  rw [value_div_value hb, abs_withSign]
  have finds := finds_start (a := a) hb
  cases found : (Quotient.start a b).refine b.coefficient (2 * maxScale + 1) with
  | none =>
    rw [found] at finds
    exact le_trans finds (le_abs_self _)
  | some x =>
    rw [found] at finds h
    obtain ⟨near, whole, le⟩ := finds
    obtain ⟨same, places⟩ := parts_spec whole
    have large : coefficientLimit ≤ x.parts.1 := by
      rw [Option.bind_some, ofParts?] at h
      split_ifs at h
      omega
    have digits : (coefficientLimit : ℚ) ≤ x.parts.1 := Nat.cast_le.2 large
    have max : maxScale = 28 := rfl
    have power : (tenTo x.parts.2 : ℚ) ≤ 10 ^ 28 := by
      exact_mod_cast tenTo_le_tenTo (j := x.parts.2) (k := 28) (by omega)
    have result : 7 ≤ x.value := by
      rw [coefficientLimit_cast] at digits
      rw [← same, le_div_iff₀ (tenTo_cast_pos _)]
      linarith
    exact near.one_le result

end Decimal

end Sift
