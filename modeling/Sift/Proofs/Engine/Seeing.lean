import Sift.Proofs.Engine.Keeping

/-!
# What is seen of a grammar

What begins in a store sees the grammars that are current. It does not matter what has happened
before, apart from the trees that expressions have kept: as long as a cell has the same grammar,
reading and evaluating by way of the cell gives the same.
-/

namespace Sift

/-- What is read and evaluated by way of a cell sees a grammar, given the trees that had been kept
before. Evaluations at once and polls of tasks begin with the process that is given here. -/
structure Store.Sees (s : Store) (cell : Nat) (g : Grammar) (kept : Nat → Option Expr) : Prop where
  current : s.grammar cell = g
  source : ∀ text context, (s.begin (.source cell text) context).1
    = (Template.compile g [.source text]).map fun tree => tree.evaluate g context
  compile : ∀ id e, s.expressions[id]? = some e → e.cell = cell →
    (s.compile id).1 = (kept id).elim (Template.compile g e.fragments) .ok
  expression : ∀ id e, s.expressions[id]? = some e → e.cell = cell → ∀ context,
    (s.begin (.expression id) context).1 = (s.compile id).1.map fun tree => tree.evaluate g context

/-- The trees that have been kept. -/
def Store.kept (s : Store) (id : Nat) : Option Expr := (s.expression id).tree

namespace Store

variable {s : Store} {cell : Nat} {g : Grammar} {kept : Nat → Option Expr}

/-- To see a grammar and trees, every expression has to be read with them. -/
lemma sees_of_compile (current : s.grammar cell = g)
    (compile : ∀ id e, s.expressions[id]? = some e → e.cell = cell →
      (s.compile id).1 = (kept id).elim (Template.compile g e.fragments) .ok) :
    s.Sees cell g kept where
  current := current
  source text context := by rw [begin, current]
  compile := compile
  expression id e h same context := by
    rw [begin_eq, treeOf_expression, grammarOf, cellOf, expression_eq h, same, current]

lemma kept_of_none {id : Nat} (h : s.expressions[id]? = none) : s.kept id = none := by
  rw [Store.kept, expression, List.getD_eq_getElem?_getD, h]
  rfl

/-- Reading does not make expressions. -/
lemma expressions_compile_of_none {id : Nat} (h : s.expressions[id]? = none) (other : Nat) :
    (s.compile other).2.expressions[id]? = none := by
  simp only [compile]
  split
  · exact h
  · split
    · rw [List.getElem?_eq_none_iff, List.length_set]
      exact List.getElem?_eq_none_iff.1 h
    · exact h

/-- What begins now sees the grammar that is current. -/
lemma sees (s : Store) (cell : Nat) : s.Sees cell (s.grammar cell) s.kept := by
  refine sees_of_compile rfl fun id e h same => ?_
  rw [compile_eq h, Store.kept, expression_eq h, same]

end Store

/-- It does not matter whether an expression is read before with the same grammar. -/
lemma Expression.elim_read (e : Expression) (g : Grammar) :
    (e.read g).tree.elim (Template.compile g e.fragments) .ok
      = e.tree.elim (Template.compile g e.fragments) .ok := by
  cases htree : e.tree <;> cases hcompile : Template.compile g e.fragments <;>
    simp [read, htree, hcompile, Except.toOption]

namespace World

variable {w : World} {cell : Nat} {g : Grammar} {kept : Nat → Option Expr}

lemma expressions_none_of_step {event : Event} {id : Nat}
    (h : (w.step event).store.expressions[id]? = none) : w.store.expressions[id]? = none := by
  cases before : w.store.expressions[id]? with
  | none => rfl
  | some e =>
    rw [expressions_step before] at h
    cases h

/-- An expression that has come into being has no tree yet. -/
lemma tree_of_new {event : Event} {id : Nat} {e : Expression}
    (old : w.store.expressions[id]? = none)
    (new : (w.step event).store.expressions[id]? = some e) : e.tree = none := by
  have read (id? : Option Nat) (found : (w.store.reading id?).expressions[id]? = some e) :
      e.tree = none := by
    cases id? with
    | none => cases old.symm.trans found
    | some other =>
      rw [Store.reading, Option.elim, Store.expressions_compile_of_none old] at found
      cases found
  rw [store_step] at new
  cases event with
  | engine g | configure cell change => cases old.symm.trans new
  | create fragments cell =>
    have last : (w.store.expressions ++ [⟨fragments, cell, none⟩])[id]? = some e := new
    rw [List.getElem?_append_right (List.getElem?_eq_none_iff.1 old)] at last
    rw [List.mem_singleton.1 (List.mem_of_getElem? last)]
  | _ => exact read _ new

/-- As long as a cell has the same grammar, it does not matter what else happens. -/
lemma sees_step {event : Event} (sees : w.store.Sees cell g kept)
    (new : ∀ id, w.store.expressions[id]? = none → kept id = none)
    (same : (w.step event).store.grammar cell = g) : (w.step event).store.Sees cell g kept := by
  refine Store.sees_of_compile same fun id e' h' hcell => ?_
  rw [Store.compile_eq h', hcell, same]
  cases h : w.store.expressions[id]? with
  | none => rw [tree_of_new h h', new id h]
  | some e =>
    rw [expressions_step h] at h'
    obtain rfl := Option.some.inj h'
    have hcell : e.cell = cell := by
      split at hcell <;> exact hcell
    have current : w.store.grammar e.cell = g := hcell ▸ sees.current
    have before := sees.compile id e h hcell
    rw [Store.compile_eq h, current] at before
    rw [current]
    split
    · exact (e.elim_read g).trans before
    · exact before

end World

end Sift
