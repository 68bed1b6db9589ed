import Mathlib.Data.Option.Basic
import Sift.Evaluation.Evaluator
import Sift.Proofs.Expr.Everywhere

/-!
# Related evaluations

A relation between processes is compositional if sequencing keeps it. Two environments agree at the
root of an expression if what they make of the root, given that they make related things of its
parts, is related. The main result is that evaluations are related if their environments agree
everywhere in the expression, and if the expression reads the same of the elements in both frames or
does not look at the element at all. Equality is such a relation, and so is every property of
processes that sequencing keeps.
-/

namespace Sift

/-- A relation between processes that sequencing keeps. -/
structure Process.Compositional (R : ∀ α : Type, Process α → Process α → Prop) : Prop where
  pure : ∀ {α : Type} (a : α), R α (pure a) (pure a)
  bind : ∀ {α β : Type} {p p' : Process α} {f f' : α → Process β},
    R α p p' → (∀ a, R β (f a) (f' a)) → R β (p >>= f) (p' >>= f')

/-- Two look-ups find related things, or neither finds anything. -/
inductive LookUp.Agree {α : Type} (found : α → α → Prop) (missing : Prop) :
    Option α → Option α → Prop
  | some {a a' : α} (h : found a a') : Agree found missing (some a) (some a')
  | none (h : missing) : Agree found missing none none

/-- What is true of related things, and of finding nothing, is true of the look-ups. -/
@[elab_as_elim]
lemma LookUp.Agree.elim {α : Type} {found : α → α → Prop} {missing : Prop}
    {motive : Option α → Option α → Prop} {o o' : Option α} (h : LookUp.Agree found missing o o')
    (hfound : ∀ a a', found a a' → motive (.some a) (.some a'))
    (hmissing : missing → motive .none .none) : motive o o' := by
  cases h with
  | some h => exact hfound _ _ h
  | none h => exact hmissing h

/-- A look-up agrees with itself if what it finds is related to itself. -/
lemma LookUp.Agree.refl {α : Type} {found : α → α → Prop} {missing : Prop} {o : Option α}
    (hfound : ∀ a, o = .some a → found a a) (hmissing : o = .none → missing) :
    LookUp.Agree found missing o o := by
  cases o with
  | none => exact .none (hmissing rfl)
  | some a => exact .some (hfound a rfl)

variable {R : ∀ α : Type, Process α → Process α → Prop} {env env' : Environment}

/-- The answers of a callable are related. -/
abbrev Reply.Agree (R : ∀ α : Type, Process α → Process α → Prop) (callee : Callee)
    (arguments : List Value) (reply reply' : Reply) : Prop :=
  R Value (Process.invoke callee arguments reply) (Process.invoke callee arguments reply')

/-- What two operators do with operands is related. -/
inductive BinaryRule.Agree (R : ∀ α : Type, Process α → Process α → Prop) (symbol : String)
    (left right : Expr) : BinaryRule → BinaryRule → Prop
  | eager {f f' : Value → Value → Reply}
    (h : ∀ v w, Reply.Agree R (.binary symbol) [v, w] (f v w) (f' v w)) :
    Agree R symbol left right (.eager f) (.eager f')
  | lazy {plan plan' : Expr → Expr → Strategy}
    (h : ∀ operand operand' : Side → Process Value,
      (∀ side, R Value (operand side) (operand' side)) →
      R Value ((plan left right).run operand) ((plan' left right).run operand')) :
    Agree R symbol left right (.lazy plan) (.lazy plan')

namespace Expr

/-- The environments agree at the root of the expression. -/
def Agree (R : ∀ α : Type, Process α → Process α → Prop) (env env' : Environment) : Expr → Prop
  | identifier name => env.context.property name = env'.context.property name
  | unary symbol _ =>
    LookUp.Agree (fun rule rule' => ∀ v, Reply.Agree R (.unary symbol) [v] (rule v) (rule' v))
      (R Value (env.missing (.operator symbol)) (env'.missing (.operator symbol)))
      (env.grammar.unary.get? symbol) (env'.grammar.unary.get? symbol)
  | binary symbol left right =>
    LookUp.Agree (fun op op' => BinaryRule.Agree R symbol left right op.rule op'.rule)
      (R Value (env.missing (.operator symbol)) (env'.missing (.operator symbol)))
      (env.grammar.binary.get? symbol) (env'.grammar.binary.get? symbol)
  | call name _ =>
    LookUp.Agree (fun rule rule' => ∀ vs, Reply.Agree R (.function name) vs (rule vs) (rule' vs))
      (R Value (env.missing (.function name)) (env'.missing (.function name)))
      (env.grammar.functions.get? name) (env'.grammar.functions.get? name)
  | transform name _ _ =>
    LookUp.Agree
      (fun rule rule' => ∀ v vs,
        Reply.Agree R (.transform name) (v :: vs) (rule v vs) (rule' v vs))
      (R Value (env.missing (.transform name)) (env'.missing (.transform name)))
      (env.grammar.transforms.get? name) (env'.grammar.transforms.get? name)
  | _ => True

/-- Whatever is read of the element is related in the two frames. -/
def FramesAgree (R : ∀ α : Type, Process α → Process α → Prop) (env env' : Environment)
    (frame frame' : Option Value) : Prop :=
  ∀ name, R Value ((relative name).eval env frame) ((relative name).eval env' frame')

/-- The expression does not look at the element under the filter around it. -/
def Unaware (e : Expr) : Prop := e.freeRelative? = none ∧ e.Everywhere FilterMarked

end Expr

namespace Process.Compositional

/-- Filtering by related tests. -/
lemma filter (comp : Compositional R) {α : Type} {test test' : α → Process Bool}
    (h : ∀ a, R Bool (test a) (test' a)) (as : List α) :
    R (List α) (Process.filter test as) (Process.filter test' as) := by
  induction as with
  | nil => exact comp.pure []
  | cons a rest ih => exact comp.bind (h a) fun keep => comp.bind ih fun kept => comp.pure _

end Process.Compositional

namespace Expr

variable (comp : Process.Compositional R)
include comp

mutual
/-- Evaluations are related if the environments agree everywhere, and the frames do so or do not
matter. -/
theorem eval_related : ∀ (e : Expr) {frame frame' : Option Value},
    e.Everywhere (Agree R env env') → FramesAgree R env env' frame frame' ∨ e.Unaware →
    R Value (e.eval env frame) (e.eval env' frame')
  | literal v, _, _, _, _ => by
    rw [eval, eval]
    exact comp.pure v
  | identifier name, _, _, h, _ => by
    have same : env.context.property name = env'.context.property name := h
    rw [eval, eval, same]
    exact comp.pure _
  | relative name, _, _, _, hframe => by
    rcases hframe with same | unaware
    · exact same name
    · cases unaware.1
  | member owner name _, _, _, h, hframe => by
    rw [eval, eval]
    have howner := eval_related owner h.2 (hframe.imp_right fun u => ⟨u.1, u.2.2⟩)
    exact comp.bind howner fun v => comp.pure _
  | filter subject predicate marked, frame, frame', h, hframe => by
    rw [eval, eval]
    have hsubject := eval_related subject h.2.1 (hframe.imp_right fun u => ⟨u.1, u.2.2.1⟩)
    refine comp.bind hsubject fun v => ?_
    cases hmarked : marked with
    | true =>
      -- The elements are the same in both runs, whatever the frames around the filter.
      have htest (element : Value) := eval_related predicate h.2.2
        (.inl fun name => by rw [eval, eval]; exact comp.pure _ :
          FramesAgree R env env' (some element) (some element) ∨ _)
      exact comp.bind (comp.filter (fun a => comp.bind (htest a) fun w => comp.pure _) _)
        fun kept => comp.pure _
    | false =>
      have hpredicate := eval_related predicate h.2.2 (hframe.imp_right fun u => by
        have unmarked : marked = predicate.referencesRelative := u.2.1
        rw [hmarked] at unmarked
        exact ⟨Option.isSome_eq_false_iff.1 unmarked.symm |> Option.isNone_iff_eq_none.1, u.2.2.2⟩)
      exact comp.bind hpredicate fun w => comp.pure _
  | array items, _, _, h, hframe => by
    rw [eval, eval]
    exact comp.bind (evalAll_related items h.2 (hframe.imp_right fun u => ⟨u.1, u.2.2⟩))
      fun vs => comp.pure _
  | object entries, _, _, h, hframe => by
    rw [eval, eval]
    exact comp.bind (evalEntries_related entries h.2 (hframe.imp_right fun u => ⟨u.1, u.2.2⟩))
      fun vs => comp.pure _
  | unary symbol operand, frame, frame', h, hframe => by
    have hoperand := eval_related operand h.2 (hframe.imp_right fun u => ⟨u.1, u.2.2⟩)
    rw [eval, eval]
    refine LookUp.Agree.elim h.1 (fun rule rule' hrule => ?_) id
    exact comp.bind hoperand hrule
  | binary symbol left right, frame, frame', h, hframe => by
    have hleft := eval_related left h.2.1
      (hframe.imp_right fun u => ⟨(Option.or_eq_none_iff.1 u.1).1, u.2.2.1⟩)
    have hright := eval_related right h.2.2
      (hframe.imp_right fun u => ⟨(Option.or_eq_none_iff.1 u.1).2, u.2.2.2⟩)
    rw [eval, eval]
    refine LookUp.Agree.elim h.1 (fun op op' hop => ?_) id
    simp only
    revert hop
    generalize op.rule = rule, op'.rule = rule'
    rintro (⟨happly⟩ | ⟨hplan⟩)
    · exact comp.bind hleft fun v => comp.bind hright fun w => happly v w
    · refine hplan _ _ fun side => ?_
      cases side with
      | left => exact hleft
      | right => exact hright
  | conditional test consequent alternate, _, _, h, hframe => by
    have hfree (u : (conditional test consequent alternate).Unaware) :=
      Option.or_eq_none_iff.1 u.1
    have htest := eval_related test h.2.1 (hframe.imp_right fun u =>
      ⟨(Option.or_eq_none_iff.1 (hfree u).1).1, u.2.2.1⟩)
    have hconsequent := eval_related consequent h.2.2.1 (hframe.imp_right fun u =>
      ⟨(Option.or_eq_none_iff.1 (hfree u).1).2, u.2.2.2.1⟩)
    have halternate := eval_related alternate h.2.2.2 (hframe.imp_right fun u =>
      ⟨(hfree u).2, u.2.2.2.2⟩)
    rw [eval, eval]
    refine comp.bind htest fun v => ?_
    split
    · exact hconsequent
    · exact halternate
  | fallback test alternate, _, _, h, hframe => by
    have htest := eval_related test h.2.1
      (hframe.imp_right fun u => ⟨(Option.or_eq_none_iff.1 u.1).1, u.2.2.1⟩)
    have halternate := eval_related alternate h.2.2
      (hframe.imp_right fun u => ⟨(Option.or_eq_none_iff.1 u.1).2, u.2.2.2⟩)
    rw [eval, eval]
    refine comp.bind htest fun v => ?_
    split
    · exact comp.pure v
    · exact halternate
  | call name arguments, _, _, h, hframe => by
    have harguments := evalAll_related arguments h.2 (hframe.imp_right fun u => ⟨u.1, u.2.2⟩)
    rw [eval, eval]
    refine LookUp.Agree.elim h.1 (fun rule rule' hrule => ?_) id
    exact comp.bind harguments hrule
  | transform name subject arguments, _, _, h, hframe => by
    have hsubject := eval_related subject h.2.1
      (hframe.imp_right fun u => ⟨(Option.or_eq_none_iff.1 u.1).1, u.2.2.1⟩)
    have harguments := evalAll_related arguments h.2.2
      (hframe.imp_right fun u => ⟨(Option.or_eq_none_iff.1 u.1).2, u.2.2.2⟩)
    rw [eval, eval]
    refine LookUp.Agree.elim h.1 (fun rule rule' hrule => ?_) id
    exact comp.bind hsubject fun v => comp.bind harguments (hrule v)

theorem evalAll_related : ∀ (es : List Expr) {frame frame' : Option Value},
    EverywhereAll (Agree R env env') es →
    FramesAgree R env env' frame frame' ∨
      (freeRelativeAny? es = none ∧ EverywhereAll FilterMarked es) →
    R (List Value) (evalAll env frame es) (evalAll env' frame' es)
  | [], _, _, _, _ => by
    rw [evalAll, evalAll]
    exact comp.pure []
  | e :: rest, _, _, h, hframe => by
    have he := eval_related e h.1
      (hframe.imp_right fun u => ⟨(Option.or_eq_none_iff.1 u.1).1, u.2.1⟩)
    have hrest := evalAll_related rest h.2
      (hframe.imp_right fun u => ⟨(Option.or_eq_none_iff.1 u.1).2, u.2.2⟩)
    rw [evalAll, evalAll]
    exact comp.bind he fun v => comp.bind hrest fun vs => comp.pure _

theorem evalEntries_related : ∀ (es : List (String × Expr)) {frame frame' : Option Value},
    EverywhereEntries (Agree R env env') es →
    FramesAgree R env env' frame frame' ∨
      (freeRelativeEntries? es = none ∧ EverywhereEntries FilterMarked es) →
    R (List (String × Value)) (evalEntries env frame es) (evalEntries env' frame' es)
  | [], _, _, _, _ => by
    rw [evalEntries, evalEntries]
    exact comp.pure []
  | (k, e) :: rest, _, _, h, hframe => by
    have he := eval_related e h.1
      (hframe.imp_right fun u => ⟨(Option.or_eq_none_iff.1 u.1).1, u.2.1⟩)
    have hrest := evalEntries_related rest h.2
      (hframe.imp_right fun u => ⟨(Option.or_eq_none_iff.1 u.1).2, u.2.2⟩)
    rw [evalEntries, evalEntries]
    exact comp.bind he fun v => comp.bind hrest fun vs => comp.pure _
end

end Expr

end Sift
