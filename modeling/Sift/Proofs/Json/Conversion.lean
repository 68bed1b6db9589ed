import Mathlib.Tactic.Lemma
import Sift.Json.Basic

/-!
# Values as documents and back

A document has no number for a float that is not finite, and a machine integer has no place for a
document's integers from `2 ^ 63` on. Nothing else is lost between values and documents, in either
direction and at any depth (`Json.conversions`). In which order the entries of an object come when
they are converted and collected anew makes no difference.
-/

namespace Sift

namespace Value

mutual
/-- The value with null in place of every float that is not finite. -/
def finitePart : Value → Value
  | float x => if x.isFinite then float x else null
  | array items => array (finitePartAll items)
  | object entries => object (finitePartEntries entries)
  | v => v

def finitePartAll : List Value → List Value
  | [] => []
  | v :: rest => v.finitePart :: finitePartAll rest

def finitePartEntries : List (String × Value) → List (String × Value)
  | [] => []
  | (k, v) :: rest => (k, v.finitePart) :: finitePartEntries rest
end

end Value

namespace Json

mutual
/-- Every integer of the document is a machine integer. -/
def IntegersFit : Json → Prop
  | integer n _ => InRange n
  | array items => IntegersFitAll items
  | object entries => IntegersFitEntries entries
  | _ => True

def IntegersFitAll : List Json → Prop
  | [] => True
  | j :: rest => j.IntegersFit ∧ IntegersFitAll rest

def IntegersFitEntries : List (String × Json) → Prop
  | [] => True
  | (_, j) :: rest => j.IntegersFit ∧ IntegersFitEntries rest
end

/-! ### Numbers -/

lemma ofFloat_of_finite {x : Binary64} (h : x.isFinite) : ofFloat x = float x h := dif_pos h

lemma ofFloat_ne_integer (x : Binary64) (n : Int) (range : JsonInteger n) :
    ofFloat x ≠ integer n range := by
  unfold ofFloat
  split <;> simp

@[simp] lemma toValue_ofInteger (n : Int64) : (ofInteger n).toValue = .integer n := by
  rw [ofInteger, toValue, integer?_toInt]

/-- A float comes back unless it is not finite. -/
@[simp] lemma toValue_ofFloat (x : Binary64) :
    (ofFloat x).toValue = if x.isFinite then .float x else .null := by
  unfold ofFloat
  split <;> rfl

/-- An integer comes back if it is a machine integer. Otherwise a float comes back. -/
lemma ofValue_toValue_integer_iff (n : Int) (range : JsonInteger n) :
    ofValue (integer n range).toValue = integer n range ↔ InRange n := by
  rw [toValue]
  cases fits : integer? n with
  | some a =>
    obtain rfl := integer?_eq_some_iff.1 fits
    exact iff_of_true rfl (inRange_toInt a)
  | none => exact iff_of_false (ofFloat_ne_integer _ _ _) (integer?_eq_none_iff.1 fits)

/-! ### There and back -/

mutual
/-- A value comes back as a document's value up to the floats that JSON cannot write. -/
lemma toValue_ofValue : ∀ v : Value, (ofValue v).toValue = v.finitePart
  | .integer n => toValue_ofInteger n
  | .float x => by rw [ofValue, toValue_ofFloat, Value.finitePart]
  | .array items => by rw [ofValue, toValue, toValues_ofValues items, Value.finitePart]
  | .object entries => by
    rw [ofValue, toValue, toValueEntries_ofValueEntries entries, Value.finitePart]
  | .null | .boolean _ | .string _ => rfl

lemma toValues_ofValues : ∀ vs : List Value, toValues (ofValues vs) = Value.finitePartAll vs
  | [] => rfl
  | v :: vs => by
    rw [ofValues, toValues, toValue_ofValue v, toValues_ofValues vs, Value.finitePartAll]

lemma toValueEntries_ofValueEntries : ∀ es : List (String × Value),
    toValueEntries (ofValueEntries es) = Value.finitePartEntries es
  | [] => rfl
  | (k, v) :: es => by
    rw [ofValueEntries, toValueEntries, toValue_ofValue v, toValueEntries_ofValueEntries es,
      Value.finitePartEntries]
end

mutual
/-- A document comes back if and only if its integers are machine integers. -/
lemma ofValue_toValue_iff : ∀ j : Json, ofValue j.toValue = j ↔ j.IntegersFit
  | integer n range => ofValue_toValue_integer_iff n range
  | float x finite => iff_of_true (ofFloat_of_finite finite) trivial
  | array items => by
    rw [toValue, ofValue, array.injEq, ofValues_toValues_iff items, IntegersFit]
  | object entries => by
    rw [toValue, ofValue, object.injEq, ofValueEntries_toValueEntries_iff entries, IntegersFit]
  | null | boolean _ | string _ => iff_of_true rfl trivial

lemma ofValues_toValues_iff : ∀ js : List Json, ofValues (toValues js) = js ↔ IntegersFitAll js
  | [] => iff_of_true rfl trivial
  | j :: js => by
    rw [toValues, ofValues, List.cons.injEq, ofValue_toValue_iff j, ofValues_toValues_iff js,
      IntegersFitAll]

lemma ofValueEntries_toValueEntries_iff : ∀ es : List (String × Json),
    ofValueEntries (toValueEntries es) = es ↔ IntegersFitEntries es
  | [] => iff_of_true rfl trivial
  | (k, j) :: es => by
    rw [toValueEntries, ofValueEntries, List.cons.injEq, Prod.mk.injEq, ofValue_toValue_iff j,
      ofValueEntries_toValueEntries_iff es, IntegersFitEntries, and_iff_right rfl]
end

/-! ### Entries in any order -/

lemma ofValueEntries_eq_map (es : Entries Value) :
    ofValueEntries es = es.map fun e => (e.1, ofValue e.2) := by
  induction es with
  | nil => rfl
  | cons e es ih => rw [ofValueEntries, ih, List.map_cons]

lemma toValueEntries_eq_map (es : Entries Json) :
    toValueEntries es = es.map fun e => (e.1, e.2.toValue) := by
  induction es with
  | nil => rfl
  | cons e es ih => rw [toValueEntries, ih, List.map_cons]

/-- The entries of an object may be converted in any order. -/
lemma ofEntries_ofValueEntries {entries listing : Entries Value} (h : entries.Sorted)
    (perm : listing.Perm entries) :
    ofEntries (ofValueEntries listing) = ofValue (.object entries) := by
  rw [ofEntries, ofValue, ofValueEntries_eq_map, ofValueEntries_eq_map]
  exact congrArg object (Entries.ofList_eq_of_perm (List.pairwise_map.2 h) (perm.map _))

lemma ofEntries_toValueEntries {entries listing : Entries Json} (h : entries.Sorted)
    (perm : listing.Perm entries) :
    Value.ofEntries (toValueEntries listing) = (object entries).toValue := by
  rw [Value.ofEntries, toValue, toValueEntries_eq_map, toValueEntries_eq_map]
  exact congrArg Value.object (Entries.ofList_eq_of_perm (List.pairwise_map.2 h) (perm.map _))

/-- A value comes back from its document with null in place of the floats that are not finite, and a
document comes back from its value if and only if its integers are machine integers. The object of
some entries is converted alike in whatever order they are converted and collected. -/
theorem conversions :
    (∀ v : Value, (ofValue v).toValue = v.finitePart) ∧
    (∀ j : Json, ofValue j.toValue = j ↔ j.IntegersFit) ∧
    (∀ entries listing : Entries Value, entries.Sorted → listing.Perm entries →
      ofEntries (ofValueEntries listing) = ofValue (.object entries)) ∧
    ∀ entries listing : Entries Json, entries.Sorted → listing.Perm entries →
      Value.ofEntries (toValueEntries listing) = (object entries).toValue :=
  ⟨toValue_ofValue, ofValue_toValue_iff, fun _ _ => ofEntries_ofValueEntries,
    fun _ _ => ofEntries_toValueEntries⟩

/-- The first integer that is no machine integer. -/
def firstUnfit : Json := integer (twoTo 63) (by decide)

/-- Entries in descending order, with a float that is not finite and an integer that is no machine
integer. -/
theorem conversions_reversed :
    let values : Entries Value := [("a", .array [.float .nan]), ("b", .float (.zero true))]
    let documents : Entries Json := [("a", array [firstUnfit]), ("b", null)]
    (ofValue (.object values)).toValue
        = .object [("a", .array [.null]), ("b", .float (.zero true))] ∧
      ofValue (object documents).toValue ≠ object documents ∧
      (values.Sorted ∧ values.reverse.Perm values ∧
        ofEntries (ofValueEntries values.reverse) = ofValue (.object values)) ∧
      documents.Sorted ∧ documents.reverse.Perm documents ∧
        Value.ofEntries (toValueEntries documents.reverse) = (object documents).toValue := by
  intro values documents
  have order : "a" < "b" := by decide
  have sortedValues : values.Sorted := List.pairwise_pair.2 order
  have sortedDocuments : documents.Sorted := List.pairwise_pair.2 order
  have beyond : ¬ InRange (twoTo 63) := by decide
  have unfit : ¬ (object documents).IntegersFit := fun fit => beyond fit.1.1
  obtain ⟨there, back, collectDocuments, collectValues⟩ := conversions
  exact ⟨there _, mt (back _).1 unfit,
    ⟨sortedValues, values.reverse_perm, collectDocuments _ _ sortedValues values.reverse_perm⟩,
    sortedDocuments, documents.reverse_perm,
    collectValues _ _ sortedDocuments documents.reverse_perm⟩

end Json

end Sift
