import Mathlib.Logic.Function.Iterate
import Mathlib.Tactic.Lemma
import Sift.Expr.Basic

/-!
# Grouping by precedence

A chain is an operand followed by links, each of which is a binary operator with its right operand.
It is grouped by splitting it at the rightmost operator of least precedence and grouping both sides
in the same way (`Expr.group_append_cons`). A reader that goes from left to right sees the same
grouping in another order (`Expr.group_cons_append`): an operator takes the links that bind tighter
for its right operand, and the rest of the chain begins with what has been built so far.
-/

namespace Sift.Expr

abbrev Link := String × Expr

variable (prec : String → Int)

/-- The links before the rightmost operator of least precedence, its own link, and the links after
it. -/
def splitLoosest : List Link → Option (List Link × Link × List Link)
  | [] => none
  | x :: rest =>
    match splitLoosest rest with
    | none => some ([], x, [])
    | some (before, y, after) =>
      if prec y.1 ≤ prec x.1 then some (x :: before, y, after) else some ([], x, rest)

variable {prec}

lemma splitLoosest_eq_none_iff {links : List Link} :
    splitLoosest prec links = none ↔ links = [] := by
  cases links with
  | nil => simp [splitLoosest]
  | cons x rest =>
    simp only [splitLoosest, reduceCtorEq, iff_false]
    split
    · simp
    · split <;> simp

/-- The links are split at the rightmost operator of least precedence. -/
lemma of_splitLoosest {links before after : List Link} {link : Link}
    (h : splitLoosest prec links = some (before, link, after)) :
    links = before ++ link :: after ∧ (∀ x ∈ before, prec link.1 ≤ prec x.1) ∧
      ∀ x ∈ after, prec link.1 < prec x.1 := by
  induction links generalizing before link after with
  | nil => simp [splitLoosest] at h
  | cons x rest ih =>
    simp only [splitLoosest] at h
    split at h
    · rename_i none
      obtain rfl := splitLoosest_eq_none_iff.1 none
      simp only [Option.some.injEq, Prod.mk.injEq] at h
      obtain ⟨rfl, rfl, rfl⟩ := h
      simp
    · rename_i b y a some
      obtain ⟨rfl, hb, ha⟩ := ih some
      split at h
      · rename_i le
        simp only [Option.some.injEq, Prod.mk.injEq] at h
        obtain ⟨rfl, rfl, rfl⟩ := h
        exact ⟨rfl, List.forall_mem_cons.2 ⟨le, hb⟩, ha⟩
      · rename_i lt
        rw [Int.not_le] at lt
        simp only [Option.some.injEq, Prod.mk.injEq] at h
        obtain ⟨rfl, rfl, rfl⟩ := h
        refine ⟨rfl, by simp, fun z hz => ?_⟩
        simp only [List.mem_append, List.mem_cons] at hz
        rcases hz with hz | rfl | hz
        · exact Int.lt_of_lt_of_le lt (hb z hz)
        · exact lt
        · exact Int.lt_trans lt (ha z hz)

/-- There is only one place to split at. -/
lemma splitLoosest_append_cons {before after : List Link} {link : Link}
    (hb : ∀ x ∈ before, prec link.1 ≤ prec x.1) (ha : ∀ x ∈ after, prec link.1 < prec x.1) :
    splitLoosest prec (before ++ link :: after) = some (before, link, after) := by
  induction before with
  | nil =>
    simp only [List.nil_append, splitLoosest]
    split
    · rename_i none
      rw [splitLoosest_eq_none_iff.1 none]
    · rename_i b y a some
      have hy : y ∈ after := by simp [(of_splitLoosest some).1]
      rw [if_neg (Int.not_le.2 (ha y hy))]
  | cons x before ih =>
    obtain ⟨hx, hb⟩ := List.forall_mem_cons.1 hb
    simp only [List.cons_append, splitLoosest, ih hb, if_pos hx]

variable (prec) in
/-- The expression of a chain with the given first operand. -/
def group (first : Expr) (links : List Link) : Expr :=
  match _h : splitLoosest prec links with
  | none => first
  | some (before, (symbol, operand), after) =>
    .binary symbol (group first before) (group operand after)
termination_by links.length
decreasing_by
  all_goals
    rw [(of_splitLoosest _h).1, List.length_append, List.length_cons]
    omega

@[simp] lemma group_nil (first : Expr) : group prec first [] = first := by
  rw [group]
  rfl

/-- A chain is split at the rightmost operator of least precedence. -/
theorem group_append_cons {first operand : Expr} {symbol : String} {before after : List Link}
    (hb : ∀ x ∈ before, prec symbol ≤ prec x.1) (ha : ∀ x ∈ after, prec symbol < prec x.1) :
    group prec first (before ++ (symbol, operand) :: after)
      = .binary symbol (group prec first before) (group prec operand after) := by
  rw [group]
  split
  · rename_i none
    simp [splitLoosest_eq_none_iff] at none
  · rename_i some
    rw [splitLoosest_append_cons hb ha] at some
    simp only [Option.some.injEq, Prod.mk.injEq] at some
    obtain ⟨rfl, ⟨rfl, rfl⟩, rfl⟩ := some
    rfl

/-- What holds of all operands, and of every binary operator whose operands it holds of, holds of
the expression of a chain. -/
lemma of_group {P : Expr → Prop} (binary : ∀ symbol left right, P left → P right →
      P (.binary symbol left right)) {first : Expr} {links : List Link}
    (hfirst : P first) (hlinks : ∀ x ∈ links, P x.2) : P (group prec first links) := by
  induction hlength : links.length using Nat.strongRecOn generalizing first links with
  | ind n ih =>
    cases hsplit : splitLoosest prec links with
    | none =>
      obtain rfl := splitLoosest_eq_none_iff.1 hsplit
      rwa [group_nil]
    | some parts =>
      obtain ⟨before, ⟨symbol, operand⟩, after⟩ := parts
      obtain ⟨rfl, hb, ha⟩ := of_splitLoosest hsplit
      rw [group_append_cons hb ha]
      rw [List.length_append, List.length_cons] at hlength
      refine binary _ _ _ (ih before.length (by omega) hfirst (fun x hx => ?_) rfl)
        (ih after.length (by omega) ?_ (fun x hx => ?_) rfl)
      · exact hlinks x (by simp [hx])
      · exact hlinks (symbol, operand) (by simp)
      · exact hlinks x (by simp [hx])

/-- Operators do not read elements. -/
lemma freeRelative?_group {first : Expr} {links : List Link} (hfirst : first.freeRelative? = none)
    (hlinks : ∀ x ∈ links, x.2.freeRelative? = none) :
    (group prec first links).freeRelative? = none := by
  refine of_group (P := fun e => e.freeRelative? = none) (fun symbol left right hleft hright => ?_)
    hfirst hlinks
  rw [freeRelative?, hleft, hright]
  rfl

/-- An operator with the tighter links after it can be built first, if what follows binds no
tighter. -/
theorem group_cons_append {left operand : Expr} {symbol : String} {inner rest : List Link}
    (tighter : ∀ x ∈ inner, prec symbol < prec x.1)
    (next : ∀ x ∈ rest.head?, prec x.1 ≤ prec symbol) :
    group prec left ((symbol, operand) :: inner ++ rest)
      = group prec (.binary symbol left (group prec operand inner)) rest := by
  -- the induction takes the right side of the split off the rest
  induction hlength : rest.length using Nat.strongRecOn generalizing rest with
  | ind n ih =>
    cases hsplit : splitLoosest prec rest with
    | none =>
      obtain rfl := splitLoosest_eq_none_iff.1 hsplit
      rw [List.append_nil, group_nil]
      have hnil : ∀ x ∈ ([] : List Link), prec symbol ≤ prec x.1 := by simp
      simpa using group_append_cons hnil tighter
    | some parts =>
      obtain ⟨before, ⟨looser, right⟩, after⟩ := parts
      obtain ⟨rfl, hb, ha⟩ := of_splitLoosest hsplit
      have hle : prec looser ≤ prec symbol := by
        cases before with
        | nil => exact next _ rfl
        | cons x before => exact Int.le_trans (hb x (by simp)) (next x rfl)
      have hbefore : ∀ x ∈ (symbol, operand) :: inner ++ before, prec looser ≤ prec x.1 := by
        intro x hx
        simp only [List.cons_append, List.mem_cons, List.mem_append] at hx
        rcases hx with rfl | hx | hx
        · exact hle
        · exact Int.le_trans hle (Int.le_of_lt (tighter x hx))
        · exact hb x hx
      have hnext : ∀ x ∈ before.head?, prec x.1 ≤ prec symbol := by
        cases before with
        | nil => simp
        | cons x before => exact next
      rw [← List.append_assoc, group_append_cons hbefore ha, group_append_cons hb ha]
      rw [ih before.length (by rw [← hlength]; simp) hnext rfl]

/-- An operator can be built first if the next one binds no tighter. -/
lemma group_cons {left operand : Expr} {symbol : String} {rest : List Link}
    (next : ∀ x ∈ rest.head?, prec x.1 ≤ prec symbol) :
    group prec left ((symbol, operand) :: rest)
      = group prec (.binary symbol left operand) rest := by
  have h := @group_cons_append prec left operand symbol [] rest (by simp) next
  rwa [group_nil] at h

/-- Operators of equal precedence group to the left. -/
lemma group_replicate (left operand : Expr) (symbol : String) (n : Nat) :
    group prec left (List.replicate n (symbol, operand))
      = (fun e => .binary symbol e operand)^[n] left := by
  induction n generalizing left with
  | zero => exact group_nil left
  | succ n ih =>
    rw [List.replicate_succ, Function.iterate_succ_apply, ← ih]
    apply group_cons
    intro x hx
    obtain rfl := List.eq_of_mem_replicate (List.mem_of_mem_head? hx)
    exact Int.le_refl _

end Sift.Expr
