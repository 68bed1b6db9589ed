import Mathlib.Data.List.Perm.Subperm
import Sift.Proofs.Number.Exact
import Sift.Value.Order

/-!
# Exact comparison of values

A number that is not NaN denotes a rational number or an end of the rationals, whether it is an
integer or a float. Numbers are compared by what they denote, so that comparison is a linear order
across both kinds, and two numbers are loosely equal if they denote the same. Loose equality is
symmetric and transitive on values of any nesting, and all that is not equal to itself contains NaN.
-/

namespace Sift

namespace Value

/-! ### Numbers -/

/-- What a number denotes. NaN, and what is no number, denotes nothing. -/
def denoted? : Value → Option (WithBot (WithTop ℚ))
  | integer n => some (n.toInt : ℚ)
  | float x => x.denoted?
  | _ => none

lemma compare_toInt (m n : Int64) :
    compare ((m.toInt : ℚ) : WithBot (WithTop ℚ)) (n.toInt : ℚ) = compare m n := by
  rw [← Binary64.inUnits_mul, ← Binary64.inUnits_mul, Binary64.compare_inUnits,
    compare_eq_compare_toInt, ← cmp_eq_compare, ← cmp_eq_compare,
    cmp_mul_pos_right (Int.natCast_pos.2 unitsPerOne_pos)]

/-- Numbers are compared by what they denote, and nothing else is compared. -/
lemma compare?_eq (v w : Value) : v.compare? w = Option.map₂ compare v.denoted? w.denoted? := by
  match v, w with
  | integer m, integer n => exact congrArg some (compare_toInt m n).symm
  | integer n, float y => exact Binary64.compareInteger?_eq n y
  | float x, float y => exact Binary64.compare?_eq x y
  | float x, integer n =>
    rw [compare?, Binary64.compareInteger?_eq, Option.map_map]
    simp only [denoted?]
    cases x.denoted? with
    | none => rfl
    | some a => exact congrArg some Std.OrientedOrd.eq_swap.symm
  | integer _, null | integer _, boolean _ | integer _, string _ | integer _, array _
  | integer _, object _ => rfl
  | float x, null | float x, boolean _ | float x, string _ | float x, array _
  | float x, object _ => exact (Option.map₂_none_right _ x.denoted?).symm
  | null, _ | boolean _, _ | string _, _ | array _, _ | object _, _ => rfl

variable {v w : Value} {a b : WithBot (WithTop ℚ)}

/-- Numbers are ordered as what they denote. -/
lemma compare?_of_denoted (hv : v.denoted? = some a) (hw : w.denoted? = some b) :
    v.compare? w = some (compare a b) := by
  rw [compare?_eq, hv, hw]
  rfl

/-- Where there is a number on the left, loose equality is equality in the order of numbers. -/
lemma looseEq_eq_of_denoted (hv : v.denoted? = some a) :
    v.looseEq w = (v.compare? w == some .eq) := by
  match v, w with
  | integer m, integer n =>
    rw [looseEq, compare?, Bool.eq_iff_iff, beq_iff_eq, beq_iff_eq, Option.some_inj,
      compare_eq_compare_toInt, compare_eq_iff_eq, Int64.toInt_inj]
  | integer _, float _ | float _, float _ => rfl
  | float x, integer n =>
    rw [looseEq, compare?]
    cases Binary64.compareInteger? n x with
    | none => rfl
    | some o => cases o <;> rfl
  | integer _, null | integer _, boolean _ | integer _, string _ | integer _, array _
  | integer _, object _ | float _, null | float _, boolean _ | float _, string _
  | float _, array _ | float _, object _ => rfl

/-- A number is loosely equal to the numbers that denote the same. -/
lemma looseEq_iff_of_denoted (hv : v.denoted? = some a) :
    v.looseEq w = true ↔ w.denoted? = some a := by
  rw [looseEq_eq_of_denoted hv, beq_iff_eq, compare?_eq, hv]
  cases w.denoted? with
  | none => simp
  | some b => simp [eq_comm (a := b)]

/-- A float equals what denotes the same. -/
lemma float_looseEq_iff {x : Binary64} : (float x).looseEq w = true ↔
    ∃ a, x.denoted? = some a ∧ w.denoted? = some a := by
  cases hx : x.denoted? with
  | none =>
    obtain rfl : x = .nan := by cases x <;> first | rfl | cases hx
    cases w <;> simp [looseEq, Binary64.equal, Binary64.compare?, Binary64.compareInteger?]
  | some a =>
    rw [looseEq_iff_of_denoted (show (float x).denoted? = some a from hx)]
    simp

/-! ### Values that are loosely equal to a given one -/

lemma null_looseEq_iff : null.looseEq w = true ↔ w = null := by
  cases w <;> simp [looseEq]

lemma boolean_looseEq_iff {b : Bool} : (boolean b).looseEq w = true ↔ w = boolean b := by
  cases w <;> simp [looseEq, eq_comm (a := b)]

lemma string_looseEq_iff {s : String} : (string s).looseEq w = true ↔ w = string s := by
  cases w <;> simp [looseEq, eq_comm (a := s)]

lemma array_looseEq_iff {xs : List Value} :
    (array xs).looseEq w = true ↔ ∃ ys, w = array ys ∧ looseEqAll xs ys = true := by
  cases w <;> simp [looseEq]

lemma object_looseEq_iff {es : List (String × Value)} :
    (object es).looseEq w = true ↔ ∃ fs, w = object fs ∧ looseEqEntries es fs = true := by
  cases w <;> simp [looseEq]

lemma nil_looseEqAll_iff {ys : List Value} : looseEqAll [] ys = true ↔ ys = [] := by
  cases ys <;> simp [looseEqAll]

lemma cons_looseEqAll_iff {x : Value} {xs ys : List Value} : looseEqAll (x :: xs) ys = true ↔
    ∃ y ys', ys = y :: ys' ∧ x.looseEq y = true ∧ looseEqAll xs ys' = true := by
  cases ys <;> simp [looseEqAll]

lemma nil_looseEqEntries_iff {fs : List (String × Value)} :
    looseEqEntries [] fs = true ↔ fs = [] := by
  cases fs <;> simp [looseEqEntries]

/-- Objects are equal entry by entry. -/
lemma cons_looseEqEntries_iff {k : String} {x : Value} {es fs : List (String × Value)} :
    looseEqEntries ((k, x) :: es) fs = true ↔
      ∃ y fs', fs = (k, y) :: fs' ∧ x.looseEq y = true ∧ looseEqEntries es fs' = true := by
  rcases fs with _ | ⟨⟨l, y⟩, fs⟩
  · simp [looseEqEntries]
  · rw [looseEqEntries, Bool.and_eq_true, Bool.and_eq_true, beq_iff_eq]
    constructor
    · rintro ⟨⟨rfl, first⟩, rest⟩
      exact ⟨y, fs, rfl, first, rest⟩
    · rintro ⟨_, _, ⟨⟩, first, rest⟩
      exact ⟨⟨rfl, first⟩, rest⟩

/-! ### Symmetry and transitivity -/

mutual
/-- Loose equality is symmetric. -/
lemma looseEq_symm : ∀ {v w : Value}, v.looseEq w = true → w.looseEq v = true
  | null, _, h => by
    obtain rfl := null_looseEq_iff.1 h
    exact h
  | boolean _, _, h => by
    obtain rfl := boolean_looseEq_iff.1 h
    exact h
  | integer _, _, h => by
    have hw := (looseEq_iff_of_denoted rfl).1 h
    exact (looseEq_iff_of_denoted hw).2 rfl
  | float _, _, h => by
    obtain ⟨a, hv, hw⟩ := float_looseEq_iff.1 h
    exact (looseEq_iff_of_denoted hw).2 hv
  | string _, _, h => by
    obtain rfl := string_looseEq_iff.1 h
    exact h
  | array _, _, h => by
    obtain ⟨ys, rfl, items⟩ := array_looseEq_iff.1 h
    exact array_looseEq_iff.2 ⟨_, rfl, looseEqAll_symm items⟩
  | object _, _, h => by
    obtain ⟨fs, rfl, entries⟩ := object_looseEq_iff.1 h
    exact object_looseEq_iff.2 ⟨_, rfl, looseEqEntries_symm entries⟩

lemma looseEqAll_symm : ∀ {xs ys : List Value}, looseEqAll xs ys = true → looseEqAll ys xs = true
  | [], _, h => by
    obtain rfl := nil_looseEqAll_iff.1 h
    exact h
  | _ :: _, _, h => by
    obtain ⟨y, ys, rfl, first, rest⟩ := cons_looseEqAll_iff.1 h
    exact cons_looseEqAll_iff.2 ⟨_, _, rfl, looseEq_symm first, looseEqAll_symm rest⟩

lemma looseEqEntries_symm : ∀ {es fs : List (String × Value)},
    looseEqEntries es fs = true → looseEqEntries fs es = true
  | [], _, h => by
    obtain rfl := nil_looseEqEntries_iff.1 h
    exact h
  | (_, _) :: _, _, h => by
    obtain ⟨y, fs, rfl, first, rest⟩ := cons_looseEqEntries_iff.1 h
    exact cons_looseEqEntries_iff.2 ⟨_, _, rfl, looseEq_symm first, looseEqEntries_symm rest⟩
end

mutual
/-- Loose equality is transitive. -/
lemma looseEq_trans : ∀ {u v w : Value},
    u.looseEq v = true → v.looseEq w = true → u.looseEq w = true
  | null, _, _, h, h' => by
    obtain rfl := null_looseEq_iff.1 h
    exact h'
  | boolean _, _, _, h, h' => by
    obtain rfl := boolean_looseEq_iff.1 h
    exact h'
  | integer _, _, _, h, h' => by
    have hv := (looseEq_iff_of_denoted rfl).1 h
    exact (looseEq_iff_of_denoted rfl).2 ((looseEq_iff_of_denoted hv).1 h')
  | float _, _, _, h, h' => by
    obtain ⟨a, hu, hv⟩ := float_looseEq_iff.1 h
    exact float_looseEq_iff.2 ⟨a, hu, (looseEq_iff_of_denoted hv).1 h'⟩
  | string _, _, _, h, h' => by
    obtain rfl := string_looseEq_iff.1 h
    exact h'
  | array _, _, _, h, h' => by
    obtain ⟨ys, rfl, items⟩ := array_looseEq_iff.1 h
    obtain ⟨zs, rfl, items'⟩ := array_looseEq_iff.1 h'
    exact array_looseEq_iff.2 ⟨zs, rfl, looseEqAll_trans items items'⟩
  | object _, _, _, h, h' => by
    obtain ⟨fs, rfl, entries⟩ := object_looseEq_iff.1 h
    obtain ⟨gs, rfl, entries'⟩ := object_looseEq_iff.1 h'
    exact object_looseEq_iff.2 ⟨gs, rfl, looseEqEntries_trans entries entries'⟩

lemma looseEqAll_trans : ∀ {xs ys zs : List Value},
    looseEqAll xs ys = true → looseEqAll ys zs = true → looseEqAll xs zs = true
  | [], _, _, h, h' => by
    obtain rfl := nil_looseEqAll_iff.1 h
    exact h'
  | _ :: _, _, _, h, h' => by
    obtain ⟨y, ys, rfl, first, rest⟩ := cons_looseEqAll_iff.1 h
    obtain ⟨z, zs, rfl, first', rest'⟩ := cons_looseEqAll_iff.1 h'
    exact cons_looseEqAll_iff.2
      ⟨z, zs, rfl, looseEq_trans first first', looseEqAll_trans rest rest'⟩

lemma looseEqEntries_trans : ∀ {es fs gs : List (String × Value)},
    looseEqEntries es fs = true → looseEqEntries fs gs = true → looseEqEntries es gs = true
  | [], _, _, h, h' => by
    obtain rfl := nil_looseEqEntries_iff.1 h
    exact h'
  | (_, _) :: _, _, _, h, h' => by
    obtain ⟨y, fs, rfl, first, rest⟩ := cons_looseEqEntries_iff.1 h
    obtain ⟨z, gs, rfl, first', rest'⟩ := cons_looseEqEntries_iff.1 h'
    exact cons_looseEqEntries_iff.2
      ⟨z, gs, rfl, looseEq_trans first first', looseEqEntries_trans rest rest'⟩
end

/-! ### Values that are not equal to themselves -/

mutual
/-- There is no NaN in the value, at any depth. -/
def NanFree : Value → Prop
  | float x => x ≠ .nan
  | array items => NanFreeAll items
  | object entries => NanFreeEntries entries
  | _ => True

def NanFreeAll : List Value → Prop
  | [] => True
  | v :: rest => v.NanFree ∧ NanFreeAll rest

def NanFreeEntries : List (String × Value) → Prop
  | [] => True
  | (_, v) :: rest => v.NanFree ∧ NanFreeEntries rest
end

mutual
/-- A value is loosely equal to itself unless there is a NaN in it. -/
lemma looseEq_self_iff : ∀ v : Value, v.looseEq v = true ↔ v.NanFree
  | null => iff_of_true rfl trivial
  | boolean b => iff_of_true (boolean_looseEq_iff.2 rfl) trivial
  | integer n => iff_of_true ((looseEq_iff_of_denoted rfl).2 rfl) trivial
  | float x => by
    rw [float_looseEq_iff, NanFree]
    cases x <;> simp [denoted?, Binary64.denoted?]
  | string s => iff_of_true (string_looseEq_iff.2 rfl) trivial
  | array items => by
    rw [looseEq, NanFree, looseEqAll_self_iff]
  | object entries => by
    rw [looseEq, NanFree, looseEqEntries_self_iff]

lemma looseEqAll_self_iff : ∀ vs : List Value, looseEqAll vs vs = true ↔ NanFreeAll vs
  | [] => iff_of_true rfl trivial
  | v :: rest => by
    rw [looseEqAll, NanFreeAll, Bool.and_eq_true, looseEq_self_iff, looseEqAll_self_iff]

lemma looseEqEntries_self_iff : ∀ es : List (String × Value),
    looseEqEntries es es = true ↔ NanFreeEntries es
  | [] => iff_of_true rfl trivial
  | (k, v) :: rest => by
    rw [looseEqEntries, NanFreeEntries, Bool.and_eq_true, Bool.and_eq_true, beq_self_eq_true,
      looseEq_self_iff, looseEqEntries_self_iff, eq_self, true_and]
end

/-! ### Objects as maps -/

section

variable {es fs : Entries Value}

/-- Where keys ascend, equal entries are found under the same keys. -/
lemma exists_get?_of_looseEqEntries (sorted : es.Sorted) (h : looseEqEntries es fs = true) :
    ∀ e ∈ es, ∃ v, fs.get? e.1 = some v ∧ e.2.looseEq v = true := by
  induction es generalizing fs with
  | nil => exact List.forall_mem_nil _
  | cons e es ih =>
    obtain ⟨k, x⟩ := e
    obtain ⟨least, sorted⟩ := (Entries.sorted_cons _ _).1 sorted
    obtain ⟨y, fs, rfl, first, rest⟩ := cons_looseEqEntries_iff.1 h
    refine List.forall_mem_cons.2 ⟨⟨y, if_pos rfl, first⟩, fun e he => ?_⟩
    obtain ⟨v, found, equal⟩ := ih sorted rest e he
    have later : k ≠ e.1 := fun eq => String.lt_irrefl k (eq ▸ least e he)
    exact ⟨v, by rw [Entries.get?_cons, if_neg later, found], equal⟩

lemma length_eq_of_looseEqEntries (h : looseEqEntries es fs = true) : es.length = fs.length := by
  induction es generalizing fs with
  | nil => rw [nil_looseEqEntries_iff.1 h]
  | cons e es ih =>
    obtain ⟨y, fs, rfl, -, rest⟩ := cons_looseEqEntries_iff.1 h
    rw [List.length_cons, List.length_cons, ih rest]

/-- As many keys, all of which are found in another map, are the keys of that map. -/
lemma keys_eq_of_get? (hes : es.Sorted) (hfs : fs.Sorted) (length : es.length = fs.length)
    (found : ∀ e ∈ es, (fs.get? e.1).isSome = true) : es.keys = fs.keys := by
  have subset : es.keys ⊆ fs.keys := by
    intro k hk
    obtain ⟨e, he, rfl⟩ := List.mem_map.1 hk
    exact Entries.isSome_get?_iff.1 (found e he)
  have perm : es.keys.Perm fs.keys := by
    refine (List.subperm_of_subset hes.keys_nodup subset).perm_of_length_le ?_
    rw [Entries.keys, Entries.keys, List.length_map, List.length_map, length]
  exact perm.eq_of_pairwise
    (fun k l _ _ less greater => absurd (String.lt_trans less greater) (String.lt_irrefl k))
    hes.keys_ascend hfs.keys_ascend

/-- Objects with the same keys are equal if the values under each of them are. -/
lemma looseEqEntries_of_get? (sorted : es.Sorted) (keys : es.keys = fs.keys)
    (found : ∀ e ∈ es, ∃ v, fs.get? e.1 = some v ∧ e.2.looseEq v = true) :
    looseEqEntries es fs = true := by
  induction es generalizing fs with
  | nil =>
    obtain rfl := List.map_eq_nil_iff.1 keys.symm
    rfl
  | cons e es ih =>
    obtain ⟨k, x⟩ := e
    obtain ⟨least, ascending⟩ := (Entries.sorted_cons _ _).1 sorted
    obtain ⟨⟨l, y⟩, fs, rfl, rfl, others⟩ := List.map_eq_cons_iff.1 keys.symm
    obtain ⟨⟨v, first, equal⟩, found⟩ := List.forall_mem_cons.1 found
    rw [Entries.get?_cons, if_pos rfl] at first
    cases first
    refine cons_looseEqEntries_iff.2 ⟨y, fs, rfl, equal, ih ascending others.symm fun e he => ?_⟩
    obtain ⟨v, found, equal⟩ := found e he
    have later : l ≠ e.1 := fun eq => String.lt_irrefl l (eq ▸ least e he)
    rw [Entries.get?_cons, if_neg later] at found
    exact ⟨v, found, equal⟩

/-- Two objects are loosely equal if there are as many entries in both, and under every key of the
first one there is an equal value in the second one. -/
lemma looseEq_object_iff (hes : es.Sorted) (hfs : fs.Sorted) :
    (object es).looseEq (object fs) = true ↔ es.length = fs.length ∧
      ∀ e ∈ es, ∃ v, fs.get? e.1 = some v ∧ e.2.looseEq v = true := by
  rw [looseEq]
  constructor
  · intro h
    exact ⟨length_eq_of_looseEqEntries h, exists_get?_of_looseEqEntries hes h⟩
  · rintro ⟨length, found⟩
    refine looseEqEntries_of_get? hes (keys_eq_of_get? hes hfs length fun e he => ?_) found
    obtain ⟨v, found, -⟩ := found e he
    rw [found]
    rfl

end

/-! ### The order of all numbers -/

/-- In a linear order, the first of two steps that is not between equals decides about both. -/
lemma compare_eq_then {α : Type} [LinearOrder α] {a b c : α} (hab : (compare a b).isLE = true)
    (hbc : (compare b c).isLE = true) : compare a c = (compare a b).then (compare b c) := by
  rcases lt_trichotomy a b with less | rfl | greater
  · have le : b ≤ c := Std.LawfulBCmp.isLE_iff_le.1 hbc
    rw [compare_lt_iff_lt.2 less, compare_lt_iff_lt.2 (lt_of_lt_of_le less le)]
    rfl
  · rw [compare_eq_iff_eq.2 rfl]
    rfl
  · rw [compare_gt_iff_gt.2 greater] at hab
    cases hab

/-- The order is the other way round from the other side. -/
lemma compare?_swap (v w : Value) : w.compare? v = (v.compare? w).map Ordering.swap := by
  rw [compare?_eq, compare?_eq, Option.map_map₂, Option.map₂_swap]
  congr 1
  funext a b
  exact Std.OrientedOrd.eq_swap

/-- The order is transitive. -/
lemma compare?_trans {u v w : Value} {o o' : Ordering} (huv : u.compare? v = some o)
    (hvw : v.compare? w = some o') (ho : o.isLE = true) (ho' : o'.isLE = true) :
    u.compare? w = some (o.then o') := by
  rw [compare?_eq] at huv hvw
  obtain ⟨a, b, hu, hv, rfl⟩ := Option.map₂_eq_some_iff.1 huv
  obtain ⟨b', c, hv', hw, rfl⟩ := Option.map₂_eq_some_iff.1 hvw
  obtain rfl := Option.some_inj.1 (hv.symm.trans hv')
  rw [compare?_of_denoted hu hw, compare_eq_then ho ho']

/-- Numbers are ordered by what they denote, and loose equality is exact.

The order is antisymmetric and transitive across integers and floats, the numbers that are equal in
it are the loosely equal ones, and NaN has no place in it. On all values loose equality is symmetric
and transitive, it fails between a value and itself just where there is a NaN, and it compares
objects as maps. -/
theorem compare?_exact :
    (∀ (v w : Value) a b, v.denoted? = some a → w.denoted? = some b →
      v.compare? w = some (compare a b) ∧ (v.compare? w = some .eq ↔ v.looseEq w = true)) ∧
    (∀ v w : Value, w.compare? v = (v.compare? w).map Ordering.swap) ∧
    (∀ (u v w : Value) o o', u.compare? v = some o → v.compare? w = some o' → o.isLE = true →
      o'.isLE = true → u.compare? w = some (o.then o')) ∧
    (∀ w : Value, (float .nan).compare? w = none ∧ w.compare? (float .nan) = none) ∧
    (∀ v w : Value, v.looseEq w = w.looseEq v) ∧
    (∀ u v w : Value, u.looseEq v = true → v.looseEq w = true → u.looseEq w = true) ∧
    (∀ v : Value, v.looseEq v = true ↔ v.NanFree) ∧
    ∀ es fs : Entries Value, es.Sorted → fs.Sorted →
      ((object es).looseEq (object fs) = true ↔ es.length = fs.length ∧
        ∀ e ∈ es, ∃ v, fs.get? e.1 = some v ∧ e.2.looseEq v = true) := by
  refine ⟨fun v w a b hv hw => ?_, compare?_swap, fun u v w o o' => compare?_trans, fun w => ?_,
    fun v w => ?_, fun u v w => looseEq_trans, looseEq_self_iff, fun es fs => looseEq_object_iff⟩
  · have order := compare?_of_denoted hv hw
    exact ⟨order, by rw [looseEq_eq_of_denoted hv, beq_iff_eq]⟩
  · rw [compare?_eq, compare?_eq]
    exact ⟨rfl, Option.map₂_none_right _ _⟩
  · exact Bool.eq_iff_iff.2 ⟨looseEq_symm, looseEq_symm⟩

/-- The greatest integer is less than the upper bound of the integers, although no integer is nearer
to it, and the least integer is equal to the lower one. -/
theorem compare?_exact_bounds :
    let least := integer Int64.minValue
    let greatest := integer Int64.maxValue
    let lower := float (.integerBound true)
    let upper := float (.integerBound false)
    greatest.compare? upper = some .lt ∧ upper.compare? greatest = some .gt ∧
      lower.compare? least = some .eq ∧ lower.compare? upper = some .lt ∧
      lower.looseEq lower = true ∧ (array [float .nan]).looseEq (array [float .nan]) = false ∧
      (object [("k", lower)]).looseEq (object [("k", least)]) = true := by
  intro least greatest lower upper
  obtain ⟨order, swap, trans, -, symm, equal, self, maps⟩ := compare?_exact
  have hlower := Binary64.denoted?_integerBound true
  have hupper := Binary64.denoted?_integerBound false
  have less {m n : Int} (h : m < n) : compare ((m : ℚ) : WithBot (WithTop ℚ)) (n : ℚ) = .lt :=
    compare_lt_iff_lt.2 (WithBot.coe_lt_coe.2 (WithTop.coe_lt_coe.2 (Int.cast_lt.2 h)))
  have last : greatest.compare? upper = some .lt :=
    (order greatest upper _ _ rfl hupper).1.trans (congrArg some (less (by decide)))
  have first : lower.compare? least = some .eq :=
    (order lower least _ _ hlower rfl).1.trans (congrArg some (compare_eq_iff_eq.2 rfl))
  have across : least.compare? upper = some .lt :=
    (order least upper _ _ rfl hupper).1.trans (congrArg some (less (by decide)))
  have loose := (order lower least _ _ hlower rfl).2.1 first
  refine ⟨last, by rw [swap, last]; rfl, first, trans _ _ _ _ _ first across rfl rfl,
    equal lower least lower loose ((symm least lower).trans loose),
    Bool.eq_false_iff.2 fun h => ((self _).1 h).1 rfl, ?_⟩
  refine (maps _ _ (List.pairwise_singleton _ _) (List.pairwise_singleton _ _)).2 ⟨rfl, ?_⟩
  exact List.forall_mem_singleton.2 ⟨least, rfl, loose⟩

end Value

end Sift
