import Mathlib.Data.List.GetD
import Sift.Proofs.Evaluation.Filtering
import Sift.Proofs.Value.Comparison

/-!
# Integers among the numbers, and positions in arrays

The integer view of a number is there if the number is whole, and it is the number itself unless
that is beyond the range of machine integers, where the view is the nearest of them. No array has
more elements than machine integers can count. So its elements are found under exactly the whole
numbers from minus its length up to its length, be they integers or floats, and nothing is found
under any other key.
-/

namespace Sift

/-! ### Whole numbers -/

lemma clampInteger_toInt (n : Int64) : clampInteger n.toInt = n :=
  Int64.toInt_inj.1 (toInt_clampInteger (inRange_toInt n))

/-- Nearest means the same or the end that is passed. -/
lemma toInt_clampInteger_eq (n : Int) :
    (clampInteger n).toInt = max Int64.minValue.toInt (min n Int64.maxValue.toInt) := by
  have order : Int64.minValue.toInt < Int64.maxValue.toInt := by decide
  by_cases low : n < Int64.minValue.toInt
  · rw [clampInteger, if_pos low]
    omega
  · by_cases high : Int64.maxValue.toInt < n
    · rw [clampInteger, if_neg low, if_pos high]
      omega
    · rw [toInt_clampInteger ⟨by omega, by omega⟩]
      omega

namespace Binary64

def Denotes (x : Binary64) (n : Int) : Prop :=
  x.denoted? = some ((n : ℚ) : WithBot (WithTop ℚ))

lemma inUnits_inj {m n : Int} : inUnits m = inUnits n ↔ m = n := by
  rw [inUnits, inUnits, div_left_inj' unitsPerOne_cast_pos.ne', Int.cast_inj]

variable {negative : Bool} {units : Nat} {h : Representable units} {n : Int}

lemma not_denotes_infinite : ¬ (infinite negative).Denotes n := by
  intro h
  have same := Option.some.inj h
  cases negative with
  | false => exact WithBotTop.coe_ne_top _ same.symm
  | true => exact WithBotTop.coe_ne_bot _ same.symm

/-- A finite float is an integer if its units are a multiple of those of one. -/
lemma denotes_finite_iff : (finite negative units h).Denotes n ↔
    unitsPerOne ∣ units ∧ signed negative (units / unitsPerOne) = n := by
  rw [Denotes, denoted?, Option.some_inj, WithBotTop.coe_injective.eq_iff, ← inUnits_mul,
    inUnits_inj]
  constructor
  · intro same
    have size := congrArg Int.natAbs same
    rw [natAbs_signed, Int.natAbs_mul, Int.natAbs_natCast] at size
    have whole : unitsPerOne ∣ units := Dvd.intro_left _ size.symm
    rw [← Nat.div_mul_cancel whole, signed_mul] at same
    exact ⟨whole, Int.eq_of_mul_eq_mul_right (Int.natCast_pos.2 unitsPerOne_pos).ne' same⟩
  · rintro ⟨whole, rfl⟩
    rw [← signed_mul, Nat.div_mul_cancel whole]

/-- The whole floats are those that are integers, and their whole part is the nearest machine
integer. -/
lemma toInteger_eq_iff {x : Binary64} {n : Int64} : x.isWhole = true ∧ x.toInteger = n ↔
    ∃ m, x.Denotes m ∧ clampInteger m = n := by
  cases x with
  | nan => exact iff_of_false (fun h => nomatch h.1) fun ⟨_, h, _⟩ => nomatch h
  | infinite negative =>
    exact iff_of_false (fun h => nomatch h.1) fun ⟨_, h, _⟩ => not_denotes_infinite h
  | finite negative units h =>
    simp only [denotes_finite_iff, isWhole, toInteger, beq_iff_eq, ← Nat.dvd_iff_mod_eq_zero]
    constructor
    · rintro ⟨whole, rfl⟩
      exact ⟨_, ⟨whole, rfl⟩, rfl⟩
    · rintro ⟨_, ⟨whole, rfl⟩, rfl⟩
      exact ⟨whole, rfl⟩

end Binary64

namespace Value

/-- The value is a number that is exactly an integer. -/
def Denotes (v : Value) (n : Int) : Prop :=
  v.denoted? = some ((n : ℚ) : WithBot (WithTop ℚ))

variable {v : Value}

/-- A number is no more than one integer. -/
lemma Denotes.unique {m n : Int} (hm : v.Denotes m) (hn : v.Denotes n) : m = n :=
  Int.cast_inj.1 (WithBotTop.coe_injective (Option.some.inj (hm.symm.trans hn)))

lemma denotes_integer (n : Int64) : (integer n).Denotes n.toInt := rfl

/-- A value is loosely equal to an integer if it is exactly that. -/
lemma looseEq_integer_iff {n : Int64} : v.looseEq (integer n) = true ↔ v.Denotes n.toInt := by
  constructor
  · intro h
    exact (looseEq_iff_of_denoted (denotes_integer n)).1 (looseEq_symm h)
  · intro h
    exact (looseEq_iff_of_denoted h).2 rfl

/-- A number is in the place of an integer if it is equal to it. -/
lemma compare?_integer_iff {n : Int64} :
    v.compare? (integer n) = some .eq ↔ v.looseEq (integer n) = true := by
  cases hv : v.denoted? with
  | none =>
    rw [compare?_eq, hv, looseEq_integer_iff, Denotes, hv]
    exact iff_of_false nofun nofun
  | some a => rw [looseEq_eq_of_denoted hv, beq_iff_eq]

/-- The integer view of a number is the machine integer nearest to it, if it is an integer. -/
lemma asInteger?_eq_some_iff {n : Int64} :
    v.asInteger? = some n ↔ ∃ m, v.Denotes m ∧ clampInteger m = n := by
  match v with
  | integer k =>
    rw [asInteger?, Option.some_inj]
    constructor
    · rintro rfl
      exact ⟨_, denotes_integer k, clampInteger_toInt k⟩
    · rintro ⟨m, hm, rfl⟩
      rw [hm.unique (denotes_integer k), clampInteger_toInt]
  | float x =>
    rw [asInteger?, Option.ite_none_right_eq_some, Option.some_inj]
    exact Binary64.toInteger_eq_iff
  | null | boolean _ | string _ | array _ | object _ =>
    constructor
    · rintro ⟨⟩
    · rintro ⟨_, ⟨⟩, -⟩

lemma denotes_upperBound : (float (.integerBound false)).Denotes (twoTo 63) :=
  Binary64.denoted?_integerBound false

/-- The view of the first number beyond the range is the last integer in it. -/
lemma asInteger?_upperBound :
    (float (.integerBound false)).asInteger? = some Int64.maxValue :=
  asInteger?_eq_some_iff.2 ⟨_, denotes_upperBound, by decide⟩

/-- The integer view of a value and its loose equality with integers agree, but for the numbers
beyond the range of machine integers: these are equal to none of them, and the view is the nearest
one. Loose equality with an integer is equality in the order of numbers. -/
theorem asInteger?_eq_some_iff_looseEq (v : Value) (n : Int64) :
    (v.asInteger? = some n ↔ v.looseEq (integer n) = true ∨
      ∃ m, v.Denotes m ∧ ¬ InRange m ∧ clampInteger m = n) ∧
    (v.compare? (integer n) = some .eq ↔ v.looseEq (integer n) = true) ∧
    (v.looseEq (integer n) = true ↔ v.Denotes n.toInt) := by
  refine ⟨?_, compare?_integer_iff, looseEq_integer_iff⟩
  rw [asInteger?_eq_some_iff, looseEq_integer_iff]
  constructor
  · rintro ⟨m, hm, rfl⟩
    by_cases range : InRange m
    · rw [toInt_clampInteger range]
      exact .inl hm
    · exact .inr ⟨m, hm, range, rfl⟩
  · rintro (h | ⟨m, hm, -, nearest⟩)
    · exact ⟨_, h, clampInteger_toInt n⟩
    · exact ⟨m, hm, nearest⟩

/-- The integer view of the float `2 ^ 63` is the greatest integer, which is less than it. -/
theorem not_asInteger?_iff_looseEq :
    ¬ ∀ (v : Value) (n : Int64), v.asInteger? = some n ↔ v.looseEq (integer n) = true := by
  intro law
  have equal := (law _ _).1 asInteger?_upperBound
  have same := denotes_upperBound.unique (looseEq_integer_iff.1 equal)
  exact absurd same (by decide)

/-! ### Positions -/

/-- What is found in an array under a key: the element at the position that the key is, counted
from the end if it is negative, or null if the key is no position. -/
inductive FoundAt (items : List Value) (key : Value) : Value → Prop
  | front (n : Int) (exact : key.Denotes n) (low : 0 ≤ n) (high : n < items.length) :
    FoundAt items key items[n.toNat]
  | back (n : Int) (exact : key.Denotes n) (low : -items.length ≤ n) (high : n < 0) :
    FoundAt items key items[(items.length + n).toNat]
  | missing (none : ∀ n : Int, -items.length ≤ n → n < items.length → ¬ key.Denotes n) :
    FoundAt items key null

variable {items : List Value} {key : Value}

/-- Positions from the front. -/
lemma element_of_front {n : Int} (low : 0 ≤ n) (high : n < items.length) :
    element items n = items[n.toNat] := by
  rw [element, if_pos low]
  exact List.getD_eq_getElem _ _ (by omega)

/-- Positions from the back. -/
lemma element_of_back {n : Int} (low : -items.length ≤ n) (high : n < 0) :
    element items n = items[(items.length + n).toNat] := by
  have same : items.length - n.natAbs = (items.length + n).toNat := by omega
  rw [element, if_neg (by omega)]
  simp only [same]
  rw [if_neg (by omega)]
  exact List.getD_eq_getElem _ _ (by omega)

/-- Positions outside. -/
lemma element_of_missing {n : Int} (h : n < -items.length ∨ items.length ≤ n) :
    element items n = null := by
  rw [element]
  split
  · exact List.getD_eq_default _ _ (by omega)
  · exact if_pos (by omega)

lemma index_of_asInteger? {n : Int64} (h : key.asInteger? = some n) :
    (array items).index key = element items n.toInt := by
  rw [index, h]

lemma index_of_asInteger?_none (h : key.asInteger? = none) : (array items).index key = null := by
  rw [index, h]

/-- No key beyond the range of machine integers is a position of an array that they can count. -/
lemma foundAt_index (short : items.length ≤ Int64.maxValue.toInt) (key : Value) :
    FoundAt items key ((array items).index key) := by
  have order : -Int64.maxValue.toInt = Int64.minValue.toInt + 1 := by decide
  cases view : key.asInteger? with
  | none =>
    rw [index_of_asInteger?_none view]
    refine .missing fun n _ _ exact => ?_
    rw [asInteger?_eq_some_iff.2 ⟨n, exact, rfl⟩] at view
    cases view
  | some k =>
    obtain ⟨n, exact, nearest⟩ := asInteger?_eq_some_iff.1 view
    rw [index_of_asInteger? view]
    by_cases inside : -items.length ≤ n ∧ n < items.length
    · have range : InRange n := ⟨by omega, by omega⟩
      rw [← nearest, toInt_clampInteger range]
      by_cases front : 0 ≤ n
      · rw [element_of_front front inside.2]
        exact .front n exact front inside.2
      · rw [element_of_back inside.1 (by omega)]
        exact .back n exact inside.1 (by omega)
    · have outside : k.toInt < -items.length ∨ items.length ≤ k.toInt := by
        rw [← nearest, toInt_clampInteger_eq]
        omega
      rw [element_of_missing outside]
      refine .missing fun m low high other => inside ?_
      rw [exact.unique other]
      exact ⟨low, high⟩

end Value

/-! ### Static filters -/

/-- A static filter by a key that is no boolean looks the key up in its subject. -/
lemma Process.Runs.eval_filter_static {run : ∀ {α : Type}, Process α → Except EvalError α}
    (h : Runs run) {env : Environment} {frame : Option Value} {s k : Expr} {subject key : Value}
    (hsubject : run (s.eval env frame) = .ok subject) (hkey : run (k.eval env frame) = .ok key)
    (notBoolean : ∀ b, key ≠ .boolean b) :
    run ((Expr.filter s k false).eval env frame) = .ok (subject.index key) := by
  have select : subject.select key = subject.index key := by
    unfold Value.select
    split
    · exact absurd rfl (notBoolean true)
    · exact absurd rfl (notBoolean false)
    · rfl
  rw [Expr.eval, h.bind_eq_ok_iff]
  refine ⟨subject, hsubject, ?_⟩
  rw [if_neg Bool.false_ne_true, h.bind_eq_ok_iff]
  exact ⟨key, hkey, by rw [h.pure, select]⟩

namespace Value

/-- Every key has something in an array, which is the element at the position that the key is
exactly, from the front or from the end, or else null. A static filter by a key that is no boolean
finds the same, whether or not its evaluation is waited for. -/
theorem foundAt_index_and_filter (items : List Value)
    (short : items.length ≤ Int64.maxValue.toInt) (key : Value) :
    ∃ v, FoundAt items key v ∧ (array items).index key = v ∧
      ∀ (env : Environment) (frame : Option Value) (s k : Expr), (∀ b, key ≠ boolean b) →
        ((s.eval env frame).now.2 = .ok (array items) → (k.eval env frame).now.2 = .ok key →
          ((Expr.filter s k false).eval env frame).now.2 = .ok v) ∧
        ((s.eval env frame).course.result = .ok (array items) →
          (k.eval env frame).course.result = .ok key →
          ((Expr.filter s k false).eval env frame).course.result = .ok v) := by
  refine ⟨_, foundAt_index short key, rfl, fun env frame s k notBoolean => ⟨?_, ?_⟩⟩
  · intro hsubject hkey
    exact Process.runs_now.eval_filter_static hsubject hkey notBoolean
  · intro hsubject hkey
    exact Process.runs_course.eval_filter_static hsubject hkey notBoolean

/-- Three before the end of three elements is the first one. Under the float `2 ^ 63`, of which the
integer view is the greatest integer, there is nothing. -/
theorem foundAt_index_and_filter_ends :
    let items := [string "a", string "b", string "c"]
    let env : Environment := { grammar := .standard, context := null }
    items.length ≤ Int64.maxValue.toInt ∧
      FoundAt items (integer (-3)) (string "a") ∧
      ((Expr.filter (.literal (array items)) (.literal (integer (-3))) false).eval env none).now.2
        = .ok (string "a") ∧
      FoundAt items (float (.integerBound false)) null := by
  intro items env
  have short : items.length ≤ Int64.maxValue.toInt := by decide
  obtain ⟨_, first, rfl, evaluated⟩ := foundAt_index_and_filter items short (integer (-3))
  obtain ⟨_, above, same, -⟩ := foundAt_index_and_filter items short (float (.integerBound false))
  rw [index_of_asInteger? asInteger?_upperBound] at same
  subst same
  exact ⟨short, first, (evaluated env none _ _ nofun).1 rfl rfl, above⟩

end Value

end Sift
