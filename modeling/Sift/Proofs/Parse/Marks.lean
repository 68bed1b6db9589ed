import Sift.Proofs.Expr.Everywhere
import Sift.Proofs.Parse.Yields

/-!
# Marks and operators of parsed expressions

Every part of a parsed expression is marked as it ought to be, every operator in it is one of the
grammar, and outside of all filters there is no relative identifier. Whoever takes a parsed
expression apart may rely on that.
-/

namespace Sift

open Parse

/-- The root is marked as it ought to be, and its operator is one of the grammar. -/
structure Expr.Regular (g : Grammar) (e : Expr) : Prop where
  marked : e.Marked
  registered : e.Registered g

namespace Level

variable {g : Grammar}

/-- What is read is regular everywhere, if what has been read before is. -/
structure Regular (g : Grammar) (level : Level) : Prop where
  expression : Yields level.expression (Expr.Everywhere (Expr.Regular g))
  operand : Yields level.operand (Expr.Everywhere (Expr.Regular g))
  folds : ∀ least left, left.Everywhere (Expr.Regular g) →
    Yields (level.folds least left) (Expr.Everywhere (Expr.Regular g))
  steps : ∀ subject, subject.Everywhere (Expr.Regular g) →
    Yields (level.steps subject) (Expr.Everywhere (Expr.Regular g))

/-- What comes first in an operand is regular if the expressions in it are. -/
lemma regular_primary {expression : Parse Expr}
    (h : Yields expression (Expr.Everywhere (Expr.Regular g))) :
    Yields (primary expression) (Expr.Everywhere (Expr.Regular g)) := by
  refine yields_primary h (fun _ => ⟨trivial, trivial⟩) (fun _ => ⟨trivial, trivial⟩)
    (fun _ => ⟨trivial, trivial⟩) (fun _ he => he) ?_ ?_ ?_
  · intro name arguments harguments
    exact ⟨⟨trivial, trivial⟩, Expr.everywhereAll_iff.2 harguments⟩
  · intro items hitems
    exact ⟨⟨trivial, trivial⟩, Expr.everywhereAll_iff.2 hitems⟩
  · intro entries hentries
    exact ⟨⟨trivial, trivial⟩, Expr.everywhereEntries_iff.2 hentries⟩

namespace Regular

variable {level : Level} (h : Regular g level)
include h

lemma chain (least : Int) : Yields (level.chain least) (Expr.Everywhere (Expr.Regular g)) :=
  h.operand.bind fun left hleft => h.folds least left hleft

lemma conditional : Yields level.conditional (Expr.Everywhere (Expr.Regular g)) := by
  refine yields_conditional h.expression (h.chain anyPrecedence) (fun _ he => he) ?_ ?_
  · intro test htest alternate halternate
    exact ⟨⟨trivial, trivial⟩, htest, halternate⟩
  · intro test htest consequent hconsequent alternate halternate
    exact ⟨⟨trivial, trivial⟩, htest, hconsequent, halternate⟩

/-- The marks of postfix steps are set by what is before them. -/
lemma steps_above (subject : Expr) (hsubject : subject.Everywhere (Expr.Regular g)) :
    Yields (stepsAbove (some level) subject) (Expr.Everywhere (Expr.Regular g)) := by
  refine yields_stepsAbove_some h.expression hsubject ?_ ?_ ?_
  · intro name
    exact h.steps _ ⟨⟨rfl, trivial⟩, hsubject⟩
  · intro predicate hpredicate
    exact h.steps _ ⟨⟨rfl, trivial⟩, hsubject, hpredicate⟩
  · intro name arguments harguments
    exact h.steps _ ⟨⟨trivial, trivial⟩, hsubject, Expr.everywhereAll_iff.2 harguments⟩

/-- A level above a regular one is regular. -/
lemma above : Regular g (above g (some level)) where
  expression := h.conditional
  operand := by
    refine yields_operandAbove h.conditional ?_ ?_
    · rintro symbol _ registered ⟨⟩
      exact h.operand.mono fun e he => ⟨⟨trivial, registered⟩, he⟩
    · exact (regular_primary h.conditional).bind h.steps_above
  folds := by
    intro least left hleft
    refine yields_foldsAbove hleft ?_
    rintro symbol op _ registered ⟨⟩ -
    have contained : g.binary.contains symbol = true := by rw [Dict.contains, registered]; rfl
    exact (h.chain _).bind fun right hright =>
      h.folds _ _ ⟨⟨trivial, contained⟩, hleft, hright⟩
  steps := h.steps_above

end Regular

lemma regular_lowest : Regular g (above g none) := by
  have hexpression : Yields (expressionAbove none) (Expr.Everywhere (Expr.Regular g)) :=
    (yields_tooDeep fun _ => False).bind fun _ no => no.elim
  have hsteps : ∀ subject, subject.Everywhere (Expr.Regular g) →
      Yields (stepsAbove none subject) (Expr.Everywhere (Expr.Regular g)) :=
    fun subject hsubject => yields_stepsAbove_none hsubject
  refine ⟨hexpression, ?_, ?_, hsteps⟩
  · refine yields_operandAbove hexpression ?_ ?_
    · rintro symbol _ - ⟨⟩
    · exact (regular_primary hexpression).bind hsteps
  · intro least left hleft
    refine yields_foldsAbove hleft ?_
    rintro symbol op _ - ⟨⟩

/-- All levels are regular. -/
lemma regular_ofDepth (g : Grammar) (n : Nat) : Regular g (ofDepth g n) := by
  induction n with
  | zero => exact regular_lowest
  | succ n ih => exact ih.above

end Level

variable {g : Grammar} {tokens : List Token} {e : Expr}

/-- A parsed expression is regular everywhere. -/
lemma regular_of_parse (h : parse g tokens = .ok e) : e.Everywhere (Expr.Regular g) :=
  of_parse (Level.regular_ofDepth g maxNesting).expression h

/-- Outside of all filters there is no relative identifier. -/
lemma freeRelative?_of_parse (h : parse g tokens = .ok e) : e.freeRelative? = none := by
  have hscope : ∀ e, Yields (checkScope e) fun e' => e'.freeRelative? = none := by
    intro e
    rw [checkScope]
    split
    · exact yields_throw _ _
    · rename_i closed
      exact yields_pure closed
  have hall : Yields (parseAll g) fun e => e.freeRelative? = none := by
    rw [parseAll_eq]
    exact yields_bind fun e => yields_bind fun _ => hscope e
  exact of_parseAll hall h

end Sift
