/-!
# Machine integers

Integers of 64 bits with sign. Sums, differences and products are computed exactly and kept when
they are in range. A division is done on the machine where it has a quotient in range, and a
remainder cannot be asked for anywhere else.
-/

namespace Sift

/-- Integers that 64 bits hold. -/
def InRange (n : Int) : Prop := Int64.minValue.toInt ≤ n ∧ n ≤ Int64.maxValue.toInt

instance (n : Int) : Decidable (InRange n) := inferInstanceAs (Decidable (_ ∧ _))

/-- The machine integer equal to `n`, if there is one. -/
def integer? (n : Int) : Option Int64 := if InRange n then some (Int64.ofInt n) else none

/-- The machine integer nearest to `n`. -/
def clampInteger (n : Int) : Int64 :=
  if n < Int64.minValue.toInt then Int64.minValue
  else if Int64.maxValue.toInt < n then Int64.maxValue
  else Int64.ofInt n

theorem inRange_iff {n : Int} :
    InRange n ↔ -9223372036854775808 ≤ n ∧ n ≤ 9223372036854775807 := Iff.rfl

theorem inRange_toInt (a : Int64) : InRange a.toInt := by
  have low := a.le_toInt
  have high := a.toInt_lt
  rw [inRange_iff]
  omega

@[simp] theorem integer?_toInt (a : Int64) : integer? a.toInt = some a := by
  simp [integer?, inRange_toInt]

/-- The machine integer of a whole number is the only one that is equal to it. -/
theorem integer?_eq_some_iff {n : Int} {a : Int64} : integer? n = some a ↔ a.toInt = n := by
  constructor
  · intro h
    unfold integer? at h
    split at h
    · rename_i range
      obtain rfl := Option.some.inj h
      rw [inRange_iff] at range
      exact Int64.toInt_ofInt_of_le (by omega) (by omega)
    · exact absurd h (by simp)
  · rintro rfl
    exact integer?_toInt a

theorem integer?_eq_none_iff {n : Int} : integer? n = none ↔ ¬ InRange n := by
  unfold integer?
  split <;> simp_all

/-- Only the least integer has no opposite. -/
theorem toInt_neg_of_ne_minValue {a : Int64} (h : a ≠ Int64.minValue) :
    (-a).toInt = -a.toInt := by
  have low := a.le_toInt
  have high := a.toInt_lt
  have more : a.toInt ≠ Int64.minValue.toInt := fun eq => h (Int64.toInt_inj.1 eq)
  rw [Int64.toInt_minValue] at more
  rw [Int64.toInt_neg]
  exact Int.bmod_eq_of_le (by omega) (by omega)

/-! ### Division -/

/-- The quotient of the integers is in range: the divisor is not zero, and the dividend is not the
least integer with the divisor `-1`. -/
def HasQuotient (m n : Int64) : Prop := n ≠ 0 ∧ ¬ (m = Int64.minValue ∧ n = -1)

instance (m n : Int64) : Decidable (HasQuotient m n) := inferInstanceAs (Decidable (_ ∧ _))

/-- The quotient rounded toward zero, if it is in range. -/
def quotient? (m n : Int64) : Option Int64 := if HasQuotient m n then some (m / n) else none

/-- The remainder of the division toward zero, where there is a quotient. -/
def remainder (m n : Int64) (_ : HasQuotient m n) : Int64 := m % n

def remainder? (m n : Int64) : Option Int64 :=
  if h : HasQuotient m n then some (remainder m n h) else none

theorem quotient?_eq_some_iff {m n q : Int64} :
    quotient? m n = some q ↔ HasQuotient m n ∧ m / n = q := by
  simp [quotient?]

def exactQuotient? (m n : Int64) : Option Int64 :=
  (remainder? m n).bind fun r => if r = 0 then quotient? m n else none

/-- The quotient rounded toward minus infinity, if the one rounded toward zero is in range. -/
def floorQuotient? (m n : Int64) : Option Int64 :=
  match h : quotient? m n with
  | none => none
  | some q =>
    let r := remainder m n (quotient?_eq_some_iff.1 h).1
    if r ≠ 0 ∧ decide (m < 0) ≠ decide (n < 0) then integer? (q.toInt - 1) else some q

end Sift
