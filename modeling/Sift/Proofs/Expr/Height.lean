import Mathlib.Tactic.Lemma
import Sift.Expr.Basic

/-!
# Height of expressions

Some parts of an expression are leading: the left operand of a binary operator, the test of a
conditional, and what a postfix step is applied to begin where the whole expression begins.
`Expr.pathWeight` weighs the edges to leading parts apart from all other edges. Where they weigh
one, it is the height; where they weigh nothing, it is the nesting.
-/

namespace Sift.Expr

variable (lead : Nat)

mutual
/-- The greatest weight of a path from the root to a leaf. An edge to a leading part has the given
weight, every other edge weighs one. -/
def pathWeight : Expr → Nat
  | literal _ | identifier _ | relative _ => 0
  | member owner _ _ => owner.pathWeight + lead
  | filter subject predicate _ => max (subject.pathWeight + lead) (predicate.pathWeight + 1)
  | array items => pathWeightAll items
  | object entries => pathWeightEntries entries
  | unary _ operand => operand.pathWeight + 1
  | binary _ left right => max (left.pathWeight + lead) (right.pathWeight + 1)
  | conditional test consequent alternate =>
    max (test.pathWeight + lead) (max (consequent.pathWeight + 1) (alternate.pathWeight + 1))
  | fallback test alternate => max (test.pathWeight + lead) (alternate.pathWeight + 1)
  | call _ arguments => pathWeightAll arguments
  | transform _ subject arguments => max (subject.pathWeight + lead) (pathWeightAll arguments)

def pathWeightAll : List Expr → Nat
  | [] => 0
  | e :: rest => max (e.pathWeight + 1) (pathWeightAll rest)

def pathWeightEntries : List (String × Expr) → Nat
  | [] => 0
  | (_, e) :: rest => max (e.pathWeight + 1) (pathWeightEntries rest)
end

/-- The number of edges on the longest path from the root to a leaf. -/
def height (e : Expr) : Nat := e.pathWeight 1

/-- The number of edges on a path from the root to a leaf that do not lead to leading parts, at its
greatest. -/
def nesting (e : Expr) : Nat := e.pathWeight 0

section

variable (e e' : Expr)

@[simp] lemma height_member (name : String) (marked : Bool) :
    (member e name marked).height = e.height + 1 := by
  rw [height, pathWeight, height]

@[simp] lemma height_filter (marked : Bool) :
    (filter e e' marked).height = max (e.height + 1) (e'.height + 1) := by
  rw [height, pathWeight, height, height]

@[simp] lemma height_array (items : List Expr) : (array items).height = pathWeightAll 1 items := by
  rw [height, pathWeight]

@[simp] lemma height_object (entries : List (String × Expr)) :
    (object entries).height = pathWeightEntries 1 entries := by
  rw [height, pathWeight]

@[simp] lemma height_unary (symbol : String) : (unary symbol e).height = e.height + 1 := by
  rw [height, pathWeight, height]

@[simp] lemma height_binary (symbol : String) :
    (binary symbol e e').height = max (e.height + 1) (e'.height + 1) := by
  rw [height, pathWeight, height, height]

@[simp] lemma height_conditional (e'' : Expr) : (conditional e e' e'').height
    = max (e.height + 1) (max (e'.height + 1) (e''.height + 1)) := by
  rw [height, pathWeight, height, height, height]

@[simp] lemma height_fallback :
    (fallback e e').height = max (e.height + 1) (e'.height + 1) := by
  rw [height, pathWeight, height, height]

@[simp] lemma height_call (name : String) (arguments : List Expr) :
    (call name arguments).height = pathWeightAll 1 arguments := by
  rw [height, pathWeight]

@[simp] lemma height_transform (name : String) (arguments : List Expr) :
    (transform name e arguments).height = max (e.height + 1) (pathWeightAll 1 arguments) := by
  rw [height, pathWeight, height]

end

variable {lead}

/-- The paths through some parts are bounded by those of each part. -/
lemma pathWeightAll_le_iff {es : List Expr} {h : Nat} :
    pathWeightAll lead es ≤ h ↔ ∀ e ∈ es, e.pathWeight lead < h := by
  induction es with
  | nil => simp [pathWeightAll]
  | cons e es ih =>
    rw [pathWeightAll, Nat.max_le, ih, List.forall_mem_cons]
    exact Iff.rfl

lemma pathWeightEntries_le_iff {es : List (String × Expr)} {h : Nat} :
    pathWeightEntries lead es ≤ h ↔ ∀ e ∈ es, e.2.pathWeight lead < h := by
  induction es with
  | nil => simp [pathWeightEntries]
  | cons e es ih =>
    obtain ⟨k, e⟩ := e
    rw [pathWeightEntries, Nat.max_le, ih, List.forall_mem_cons]
    exact Iff.rfl

end Sift.Expr
