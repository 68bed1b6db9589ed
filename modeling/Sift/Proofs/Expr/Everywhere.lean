import Mathlib.Tactic.Lemma
import Sift.Expr.Basic
import Sift.Grammar.Basic

/-!
# Properties of all parts of an expression

`Expr.Everywhere P e` says that `P` holds of the expression and of all its parts. Two properties of
interest are those of a single node: its mark is the one that the parser would give it, and its
operator is one of the grammar.
-/

namespace Sift.Expr

section

variable (P : Expr → Prop)

mutual
/-- The property holds of the expression and of all its parts. -/
def Everywhere : Expr → Prop
  | literal v => P (literal v)
  | identifier name => P (identifier name)
  | relative name => P (relative name)
  | member owner name marked => P (member owner name marked) ∧ owner.Everywhere
  | filter subject predicate marked =>
    P (filter subject predicate marked) ∧ subject.Everywhere ∧ predicate.Everywhere
  | array items => P (array items) ∧ EverywhereAll items
  | object entries => P (object entries) ∧ EverywhereEntries entries
  | unary symbol operand => P (unary symbol operand) ∧ operand.Everywhere
  | binary symbol left right => P (binary symbol left right) ∧ left.Everywhere ∧ right.Everywhere
  | conditional test consequent alternate =>
    P (conditional test consequent alternate) ∧ test.Everywhere ∧ consequent.Everywhere ∧
      alternate.Everywhere
  | fallback test alternate => P (fallback test alternate) ∧ test.Everywhere ∧ alternate.Everywhere
  | call name arguments => P (call name arguments) ∧ EverywhereAll arguments
  | transform name subject arguments =>
    P (transform name subject arguments) ∧ subject.Everywhere ∧ EverywhereAll arguments

def EverywhereAll : List Expr → Prop
  | [] => True
  | e :: rest => e.Everywhere ∧ EverywhereAll rest

def EverywhereEntries : List (String × Expr) → Prop
  | [] => True
  | (_, e) :: rest => e.Everywhere ∧ EverywhereEntries rest
end

end

/-- A mark at the root tells whether a path starts at a relative identifier, or whether a predicate
reads the elements of its filter. -/
def Marked : Expr → Prop
  | member owner _ marked => marked = owner.isRelativePath
  | filter _ predicate marked => marked = predicate.referencesRelative
  | _ => True

/-- The mark of a filter at the root tells whether the predicate reads the elements of the filter.
-/
def FilterMarked : Expr → Prop
  | filter _ predicate marked => marked = predicate.referencesRelative
  | _ => True

lemma Marked.filterMarked {e : Expr} (h : e.Marked) : e.FilterMarked := by
  cases e with
  | filter subject predicate marked => exact h
  | _ => trivial

/-- An operator at the root is one of the grammar, in its role. -/
def Registered (g : Grammar) : Expr → Prop
  | unary symbol _ => g.unary.contains symbol = true
  | binary symbol _ _ => g.binary.contains symbol = true
  | _ => True

/-! ### Lists, properties of all expressions, and weaker properties -/

section

variable {P Q : Expr → Prop}

/-- What holds everywhere in some expressions holds everywhere in each of them. -/
lemma everywhereAll_iff {es : List Expr} : EverywhereAll P es ↔ ∀ e ∈ es, e.Everywhere P := by
  induction es with
  | nil => simp [EverywhereAll]
  | cons e rest ih => rw [EverywhereAll, ih, List.forall_mem_cons]

lemma everywhereEntries_iff {es : List (String × Expr)} :
    EverywhereEntries P es ↔ ∀ e ∈ es, e.2.Everywhere P := by
  induction es with
  | nil => simp [EverywhereEntries]
  | cons e rest ih => rw [EverywhereEntries, ih, List.forall_mem_cons]

mutual
/-- What holds of every expression holds everywhere in it. -/
lemma everywhere_of_forall (h : ∀ e, P e) : ∀ e : Expr, e.Everywhere P
  | literal _ | identifier _ | relative _ => h _
  | member owner _ _ => ⟨h _, everywhere_of_forall h owner⟩
  | filter subject predicate _ =>
    ⟨h _, everywhere_of_forall h subject, everywhere_of_forall h predicate⟩
  | array items => ⟨h _, everywhereAll_of_forall h items⟩
  | object entries => ⟨h _, everywhereEntries_of_forall h entries⟩
  | unary _ operand => ⟨h _, everywhere_of_forall h operand⟩
  | binary _ left right => ⟨h _, everywhere_of_forall h left, everywhere_of_forall h right⟩
  | conditional test consequent alternate =>
    ⟨h _, everywhere_of_forall h test, everywhere_of_forall h consequent,
      everywhere_of_forall h alternate⟩
  | fallback test alternate =>
    ⟨h _, everywhere_of_forall h test, everywhere_of_forall h alternate⟩
  | call _ arguments => ⟨h _, everywhereAll_of_forall h arguments⟩
  | transform _ subject arguments =>
    ⟨h _, everywhere_of_forall h subject, everywhereAll_of_forall h arguments⟩

lemma everywhereAll_of_forall (h : ∀ e, P e) : ∀ es : List Expr, EverywhereAll P es
  | [] => trivial
  | e :: rest => ⟨everywhere_of_forall h e, everywhereAll_of_forall h rest⟩

lemma everywhereEntries_of_forall (h : ∀ e, P e) :
    ∀ es : List (String × Expr), EverywhereEntries P es
  | [] => trivial
  | (_, e) :: rest => ⟨everywhere_of_forall h e, everywhereEntries_of_forall h rest⟩
end

mutual
/-- What follows from a property follows from it everywhere. -/
lemma Everywhere.mono (imp : ∀ e, P e → Q e) : ∀ {e : Expr}, e.Everywhere P → e.Everywhere Q
  | literal _, h | identifier _, h | relative _, h => imp _ h
  | member _ _ _, h => ⟨imp _ h.1, h.2.mono imp⟩
  | filter _ _ _, h => ⟨imp _ h.1, h.2.1.mono imp, h.2.2.mono imp⟩
  | array _, h => ⟨imp _ h.1, h.2.mono imp⟩
  | object _, h => ⟨imp _ h.1, h.2.mono imp⟩
  | unary _ _, h => ⟨imp _ h.1, h.2.mono imp⟩
  | binary _ _ _, h => ⟨imp _ h.1, h.2.1.mono imp, h.2.2.mono imp⟩
  | conditional _ _ _, h => ⟨imp _ h.1, h.2.1.mono imp, h.2.2.1.mono imp, h.2.2.2.mono imp⟩
  | fallback _ _, h => ⟨imp _ h.1, h.2.1.mono imp, h.2.2.mono imp⟩
  | call _ _, h => ⟨imp _ h.1, h.2.mono imp⟩
  | transform _ _ _, h => ⟨imp _ h.1, h.2.1.mono imp, h.2.2.mono imp⟩

lemma EverywhereAll.mono (imp : ∀ e, P e → Q e) :
    ∀ {es : List Expr}, EverywhereAll P es → EverywhereAll Q es
  | [], _ => trivial
  | _ :: _, h => ⟨h.1.mono imp, h.2.mono imp⟩

lemma EverywhereEntries.mono (imp : ∀ e, P e → Q e) :
    ∀ {es : List (String × Expr)}, EverywhereEntries P es → EverywhereEntries Q es
  | [], _ => trivial
  | (_, _) :: _, h => ⟨h.1.mono imp, h.2.mono imp⟩
end

end

end Sift.Expr
