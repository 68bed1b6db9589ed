import Sift.Proofs.Parse.Steps

/-!
# What steps of parsing can return

`Parse.Yields p Q` says that every result of the step `p` satisfies `Q`, wherever the step begins. A
step that fails has no result. There is one rule for each production of the parser, which asks for
the results of its parts and for nothing else, so that a property of all parsed expressions is
proved by one induction on the levels.
-/

namespace Sift

namespace Parse

variable {α β : Type}

/-- Every result of the step satisfies a property. -/
def Yields (p : Parse α) (Q : α → Prop) : Prop := ∀ c a c', p.run c = .ok a c' → Q a

/-- A result satisfies what follows from a property. -/
lemma Yields.mono {p : Parse α} {P Q : α → Prop} (h : Yields p P) (imp : ∀ a, P a → Q a) :
    Yields p Q :=
  fun c a c' eq => imp a (h c a c' eq)

lemma yields_true (p : Parse α) : Yields p fun _ => True := fun _ _ _ _ => trivial

lemma yields_pure {Q : α → Prop} {a : α} (h : Q a) : Yields (pure a) Q := by
  intro c b c' eq
  cases eq
  exact h

/-- The results of a second step, for those of the first. -/
lemma Yields.bind {x : Parse α} {f : α → Parse β} {P : α → Prop} {Q : β → Prop}
    (hx : Yields x P) (hf : ∀ a, P a → Yields (f a) Q) : Yields (x >>= f) Q := by
  intro c b c' eq
  obtain ⟨a, d, hrun, eq⟩ := run_bind_eq_ok.1 eq
  exact hf a (hx c a d hrun) d b c' eq

/-- A step whose own result does not matter. -/
lemma yields_bind {x : Parse α} {f : α → Parse β} {Q : β → Prop} (hf : ∀ a, Yields (f a) Q) :
    Yields (x >>= f) Q :=
  (yields_true x).bind fun a _ => hf a

lemma yields_throw (e : ParseError) (Q : α → Prop) : Yields (throw e) Q := by
  intro c a c' eq
  cases eq

lemma yields_unexpected (expected : Expectation) (Q : α → Prop) :
    Yields (unexpected expected) Q := by
  apply yields_bind
  intro token
  split <;> exact yields_throw _ Q

lemma yields_tooDeep (Q : α → Prop) : Yields tooDeep Q :=
  yields_bind fun _ => yields_throw _ Q

/-- The items of a list are results of the same step. -/
lemma Yields.itemsWithin {item : Parse α} {Q : α → Prop} (h : Yields item Q)
    (closing : Punctuation) (bound : Nat) :
    Yields (itemsWithin item closing bound) fun xs => ∀ x ∈ xs, Q x := by
  induction bound with
  | zero => exact yields_unexpected _ _
  | succ bound ih =>
    rw [itemsWithin_succ]
    apply yields_bind
    intro closed
    split
    · exact yields_bind fun _ => yields_pure (by simp)
    · refine h.bind fun x hx => yields_bind fun _ => ?_
      exact ih.bind fun xs hxs => yields_pure (List.forall_mem_cons.2 ⟨hx, hxs⟩)

/-- Every item of a list is a result of the step that reads an item. -/
lemma Yields.items {item : Parse α} {Q : α → Prop} (h : Yields item Q) (closing : Punctuation) :
    Yields (items item closing) fun xs => ∀ x ∈ xs, Q x :=
  yields_bind fun c => h.itemsWithin closing (c.rest.length + 1)

end Parse

namespace Level

open Parse

variable {g : Grammar} {level : Level} {P Q : Expr → Prop}

/-- The results of what comes first in an operand, one case for each kind of expression. -/
lemma yields_primary {expression : Parse Expr} (h : Yields expression P)
    (literal : ∀ v, Q (.literal v)) (identifier : ∀ name, Q (.identifier name))
    (relative : ∀ name, Q (.relative name)) (group : ∀ e, P e → Q e)
    (call : ∀ name arguments, (∀ e ∈ arguments, P e) → Q (.call name arguments))
    (array : ∀ items, (∀ e ∈ items, P e) → Q (.array items))
    (object : ∀ entries, (∀ entry ∈ entries, P entry.2) → Q (.object entries)) :
    Yields (primary expression) Q := by
  apply yields_bind
  intro token
  split
  · exact yields_bind fun _ => yields_pure (literal _)
  · refine yields_bind fun _ => yields_bind fun called => ?_
    split
    · refine yields_bind fun _ => (h.items .closeParen).bind fun arguments hargs => ?_
      exact yields_pure (call _ arguments hargs)
    · exact yields_pure (identifier _)
  · apply yields_bind
    intro kind
    split
    · exact yields_bind fun _ => yields_bind fun _ => yields_pure (relative _)
    · exact yields_unexpected _ Q
  · refine yields_bind fun _ => h.bind fun e he => yields_bind fun _ => ?_
    exact yields_pure (group e he)
  · refine yields_bind fun _ => (h.items .closeBracket).bind fun items hitems => ?_
    exact yields_pure (array items hitems)
  · have hentry : Yields (entry expression) fun x => P x.2 :=
      yields_bind fun _ => yields_bind fun _ => h.bind fun _ he => yields_pure he
    refine yields_bind fun _ => (hentry.items .closeBrace).bind fun entries hentries => ?_
    exact yields_pure (object entries hentries)
  · exact yields_unexpected _ Q

/-- At the lowest level no step follows what has been read. -/
lemma yields_stepsAbove_none {subject : Expr} (stop : Q subject) :
    Yields (stepsAbove none subject) Q := by
  have none : ∀ f, Yields (descend none >>= f) Q := fun f =>
    (yields_tooDeep fun _ => False).bind fun _ no => no.elim
  apply yields_bind
  intro token
  split
  · exact none _
  · exact none _
  · exact none _
  · exact yields_pure stop

/-- The results of postfix steps, one case for each kind of step. -/
lemma yields_stepsAbove_some {subject : Expr} (h : Yields level.expression P) (stop : Q subject)
    (member : ∀ name, Yields (level.steps (.member subject name subject.isRelativePath)) Q)
    (filter : ∀ e, P e → Yields (level.steps (.filter subject e e.referencesRelative)) Q)
    (transform : ∀ name arguments, (∀ e ∈ arguments, P e) →
      Yields (level.steps (.transform name subject arguments)) Q) :
    Yields (stepsAbove (some level) subject) Q := by
  simp only [stepsAbove, descend_some, pure_bind]
  apply yields_bind
  intro token
  split
  · exact yields_bind fun _ => yields_bind fun name => member name
  · refine yields_bind fun _ => h.bind fun e he => yields_bind fun _ => ?_
    exact filter e he
  · refine yields_bind fun _ => yields_bind fun name => yields_bind fun called => ?_
    split
    · refine yields_bind fun _ => (h.items .closeParen).bind fun arguments hargs => ?_
      exact transform name arguments hargs
    · exact transform name [] (by simp)
  · exact yields_pure stop

/-- Without a level below there is no operand of a unary operator. -/
lemma yields_operandAbove {below : Option Level} (h : Yields (expressionAbove below) P)
    (unary : ∀ symbol level, g.unary.contains symbol = true → below = some level →
      Yields level.operand fun e => Q (.unary symbol e))
    (steps : Yields (primary (expressionAbove below) >>= stepsAbove below) Q) :
    Yields (operandAbove g below) Q := by
  apply yields_bind
  intro token
  split
  · rename_i symbol _
    split
    · rename_i registered
      apply yields_bind
      intro _
      cases below with
      | none => exact (yields_tooDeep fun _ => False).bind fun _ no => no.elim
      | some level =>
        rw [descend_some, pure_bind]
        exact (unary symbol level registered rfl).bind fun e he => yields_pure he
    · exact yields_unexpected _ Q
  · exact steps

/-- The results of folds, by their first one. -/
lemma yields_foldsAbove {below : Option Level} {least : Int} {left : Expr} (stop : Q left)
    (fold : ∀ symbol op level, g.binary.get? symbol = some op → below = some level →
      least ≤ op.precedence.toInt →
      Yields (level.chain (op.precedence.toInt + 1) >>= fun right =>
        level.folds least (.binary symbol left right)) Q) :
    Yields (foldsAbove g below least left) Q := by
  apply yields_bind
  intro token
  split
  · rename_i symbol _
    split
    · exact yields_unexpected _ Q
    · rename_i op registered
      simp only
      split
      · exact yields_pure stop
      · rename_i tight
        cases below with
        | none => exact (yields_tooDeep fun _ => False).bind fun _ no => no.elim
        | some level =>
          rw [descend_some, pure_bind]
          exact yields_bind fun _ => fold symbol op level registered rfl (Int.not_lt.1 tight)
  · exact yields_pure stop

/-- The results of a conditional, one case for each kind of branch. -/
lemma yields_conditional {R : Expr → Prop} (h : Yields level.expression P)
    (test : Yields (level.chain anyPrecedence) Q) (stop : ∀ e, Q e → R e)
    (fallback : ∀ e, Q e → ∀ b, P b → R (.fallback e b))
    (conditional : ∀ e, Q e → ∀ a, P a → ∀ b, P b → R (.conditional e a b)) :
    Yields level.conditional R := by
  refine test.bind fun e he => yields_bind fun asked => ?_
  split
  · refine yields_bind fun _ => yields_bind fun short => ?_
    split
    · exact yields_bind fun _ => h.bind fun b hb => yields_pure (fallback e he b hb)
    · refine h.bind fun a ha => yields_bind fun _ => h.bind fun b hb => ?_
      exact yields_pure (conditional e he a ha b hb)
  · exact yields_pure (stop e he)

end Level

open Parse

/-- Whatever every result of reading whole token lists satisfies, every parsed expression does. -/
lemma of_parseAll {g : Grammar} {Q : Expr → Prop} (hQ : Yields (parseAll g) Q)
    {tokens : List Token} {e : Expr} (h : parse g tokens = .ok e) : Q e := by
  rw [parse] at h
  split at h
  · rename_i e' c' run
    obtain rfl := Except.ok.inj h
    exact hQ _ _ _ run
  · cases h

/-- Whatever every expression at the front of some tokens satisfies, every parsed expression does.
-/
lemma of_parse {g : Grammar} {Q : Expr → Prop} (hQ : Yields (parseExpression g) Q)
    {tokens : List Token} {e : Expr} (h : parse g tokens = .ok e) : Q e := by
  have hall : Yields (parseAll g) Q := by
    rw [parseAll_eq]
    refine hQ.bind fun e he => yields_bind fun _ => ?_
    rw [checkScope]
    split
    · exact yields_throw _ _
    · exact yields_pure he
  exact of_parseAll hall h

end Sift
