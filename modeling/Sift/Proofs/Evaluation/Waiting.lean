import Mathlib.Algebra.GroupWithZero.Nat
import Sift.Catalog
import Sift.Grammar.Standard
import Sift.Proofs.Evaluation.Polling
import Sift.Proofs.Evaluation.Related

/-!
# Waiting is transparent

Callables that answer late do not change what an evaluation comes to. A process delays another one
if it makes the same calls, but waits after each of them for as long as its answer takes. With the
standard lazy operators, an evaluation delays the evaluation in which everything is answered at
once. So both have the same calls and the same result, there is one pause for every poll that finds
nothing, and without waiting the evaluation ends at the first call that is not answered at once.
-/

namespace Sift

variable {α β : Type}

/-! ### Answers at once -/

def Reply.atOnce (r : Reply) : Reply := { r with deferred := .ready r.deferred.outcome }

namespace Call

def atOnce (c : Call) : Call := { c with reply := c.reply.atOnce }

def polls (c : Call) : Nat := c.reply.deferred.polls

/-- The calls up to the first one that is not answered at once, which is the last of them. -/
def untilPending : List Call → List Call
  | [] => []
  | c :: rest => if c.polls = 0 then c :: untilPending rest else [c]

end Call

/-- The same operator, answering at once. A lazy one stays as it is. -/
def BinaryRule.atOnce : BinaryRule → BinaryRule
  | eager apply => eager fun v w => (apply v w).atOnce
  | lazy plan => lazy plan

/-- Something else in place of what the keys stand for. -/
def Entries.map (f : α → β) (es : Entries α) : Entries β := List.map (fun e => (e.1, f e.2)) es

lemma Entries.Sorted.map (f : α → β) {es : Entries α} (h : es.Sorted) : (es.map f).Sorted :=
  List.pairwise_map.2 h

def Dict.map (f : α → β) (d : Dict α) : Dict β := ⟨d.entries.map f, d.sorted.map f⟩

lemma Entries.get?_map (f : α → β) (es : Entries α) (k : String) :
    (es.map f).get? k = (es.get? k).map f := by
  induction es with
  | nil => rfl
  | cons e rest ih =>
    have tail : get? (rest.map fun e => (e.1, f e.2)) k = (get? rest k).map f := ih
    rw [map, List.map_cons, get?_cons, get?_cons, tail]
    split <;> rfl

@[simp] lemma Dict.get?_map (f : α → β) (d : Dict α) (k : String) :
    (d.map f).get? k = (d.get? k).map f := Entries.get?_map f d.entries k

@[simp] lemma Dict.keys_map (f : α → β) (d : Dict α) : (d.map f).keys = d.keys :=
  List.map_map

namespace Grammar

/-- The same grammar, with eager operators, functions and transforms that answer at once. -/
def atOnce (g : Grammar) : Grammar where
  binary := g.binary.map fun op => { op with rule := op.rule.atOnce }
  unary := g.unary.map fun rule v => (rule v).atOnce
  functions := g.functions.map fun rule vs => (rule vs).atOnce
  transforms := g.transforms.map fun rule v vs => (rule v vs).atOnce
  table := g.table
  table_symbols := by rw [g.table_symbols, Dict.keys_map, Dict.keys_map]

/-! ### The standard lazy operators -/

/-- The lazy operators do what some operators of the standard grammar do. -/
def LazyStandard (g : Grammar) : Prop :=
  ∀ symbol op, g.binary.get? symbol = some op → op.isLazy →
    ∃ symbol' op', standard.binary.get? symbol' = some op' ∧ op'.rule = op.rule

/-- A binary operator of a changed grammar was there before or comes with one of the edits. -/
lemma binary_of_editAll {edits : List Edit} {symbol : String} {op : BinaryOperator} :
    ∀ {g : Grammar}, (g.editAll edits).binary.get? symbol = some op →
      g.binary.get? symbol = some op ∨ .binary symbol op ∈ edits := by
  induction edits with
  | nil => exact .inl
  | cons e rest ih =>
    intro g h
    rcases ih h with before | later
    · cases e with
      | binary symbol' op' =>
        rw [binary_editWith, Dict.get?_insert] at before
        split at before
        · cases before
          subst symbol'
          exact .inr List.mem_cons_self
        · exact .inl before
      | removeOperator symbol' =>
        rw [binary_editWith, Dict.get?_erase] at before
        split at before
        · cases before
        · exact .inl before
      | _ => exact .inl (by rwa [binary_editWith] at before)
    · exact .inr (List.mem_cons_of_mem e later)

end Grammar

/-- Either both operands are evaluated, or the right one only if the left one passes a test. -/
inductive BinaryRule.Choosing : BinaryRule → Prop
  | eager (apply : Value → Value → Reply) : Choosing (.eager apply)
  | rightIf (test : Value → Bool) : Choosing (.lazy fun _ _ => .rightIf test)

namespace Grammar

/-- The lazy operators of the standard grammar choose by their left operand. -/
lemma choosing_of_standard {symbol : String} {op : BinaryOperator}
    (h : standard.binary.get? symbol = some op) : op.rule.Choosing := by
  have edits : ∀ e ∈ standardEdits .standard, ∀ symbol op, e = .binary symbol op →
      op.rule.Choosing := by
    simp [standardEdits, BinaryOperator.immediate, BinaryRule.Choosing.eager,
      BinaryRule.Choosing.rightIf]
  rcases binary_of_editAll h with before | member
  · cases before
  · exact edits _ member symbol op rfl

/-- The lazy operators choose by their left operand, whatever symbol they have. -/
lemma LazyStandard.choosing {g : Grammar} (h : g.LazyStandard) {symbol : String}
    {op : BinaryOperator} (found : g.binary.get? symbol = some op) : op.rule.Choosing := by
  cases hrule : op.rule with
  | eager apply => exact .eager apply
  | lazy plan =>
    have hlazy : op.isLazy := by rw [BinaryOperator.isLazy, hrule]
    obtain ⟨symbol', op', standard, same⟩ := h symbol op found hlazy
    exact hrule ▸ same ▸ choosing_of_standard standard

end Grammar

/-- The right operand is evaluated after the left one, if at all. -/
lemma Strategy.run_rightIf (test : Value → Bool) (operand : Side → Process Value) :
    (rightIf test).run operand
      = (do let v ← operand .left; if test v then operand .right else pure v) := by
  refine congrArg (operand .left).andThen (funext fun outcome => ?_)
  cases outcome with
  | error e => rfl
  | ok v =>
    dsimp only
    split
    · exact (operand .right).andThen_done
    · rfl

/-- What choosing by a test comes to is related if the operands are. -/
lemma Process.Compositional.rightIf {R : ∀ α : Type, Process α → Process α → Prop}
    (comp : Compositional R) (test : Value → Bool) {operand operand' : Side → Process Value}
    (h : ∀ side, R Value (operand side) (operand' side)) :
    R Value ((Strategy.rightIf test).run operand) ((Strategy.rightIf test).run operand') := by
  rw [Strategy.run_rightIf, Strategy.run_rightIf]
  refine comp.bind (h .left) fun v => ?_
  split
  · exact h .right
  · exact comp.pure v

/-! ### Delays -/

namespace Process

/-- The first process makes the calls of the second one, which are all answered at once, and waits
after each of them. -/
inductive Delays : Process α → Process α → Prop
  | done (result : Except EvalError α) : Delays (done result) (done result)
  | call (c : Call) {p q : Process α} (h : Delays p q) :
    Delays (call c (pauseFor c.polls p)) (call c.atOnce q)

namespace Delays

/-- Waiting is preserved by going on with the result. -/
lemma andThen {p q : Process α} {f f' : Except EvalError α → Process β} (h : p.Delays q)
    (hf : ∀ result, (f result).Delays (f' result)) : (p.andThen f).Delays (q.andThen f') := by
  induction h with
  | done result => exact hf result
  | call c h ih =>
    -- The pauses after the call stay in front of what comes next.
    rw [Process.andThen, pauseFor_andThen]
    exact .call c ih

/-- A call that is waited for is like a call that is answered at once. -/
lemma invoke (callee : Callee) (arguments : List Value) (reply : Reply) :
    (Process.invoke callee arguments reply).Delays
      (Process.invoke callee arguments reply.atOnce) :=
  .call ⟨callee, arguments, reply⟩ (.done reply.deferred.outcome)

end Delays

/-- Delaying is kept by sequencing. -/
lemma compositional_delays : Compositional fun _ => Delays where
  pure a := .done (.ok a)
  bind hp hf := hp.andThen fun
    | .ok a => hf a
    | .error e => .done (.error e)

end Process

lemma BinaryRule.Choosing.agree {rule : BinaryRule} (h : rule.Choosing) (symbol : String)
    (left right : Expr) :
    BinaryRule.Agree (fun _ => Process.Delays) symbol left right rule rule.atOnce := by
  cases h with
  | eager apply => exact .eager fun v w => .invoke (.binary symbol) [v, w] (apply v w)
  | rightIf test => exact .lazy fun operand operand' => Process.compositional_delays.rightIf test

lemma LookUp.Agree.map {found : α → α → Prop} {missing : Prop} {f : α → α} {o : Option α}
    (hfound : ∀ a, o = .some a → found a (f a)) (hmissing : missing) :
    LookUp.Agree found missing o (o.map f) := by
  cases o with
  | none => exact .none hmissing
  | some a => exact .some (hfound a rfl)

namespace Expr

/-- The grammar that answers at once differs in nothing but the waiting. -/
lemma agree_atOnce {g : Grammar} (h : g.LazyStandard) (context : Value) (e : Expr) :
    e.Agree (fun _ => Process.Delays) { grammar := g, context }
      { grammar := g.atOnce, context } := by
  cases e with
  | identifier name => rfl
  | unary symbol operand =>
    rw [Agree, Grammar.atOnce, Dict.get?_map]
    exact .map (fun rule _ v => .invoke (.unary symbol) [v] (rule v)) (.done _)
  | binary symbol left right =>
    rw [Agree, Grammar.atOnce, Dict.get?_map]
    exact .map (fun op found => (h.choosing found).agree symbol left right) (.done _)
  | call name arguments =>
    rw [Agree, Grammar.atOnce, Dict.get?_map]
    exact .map (fun rule _ vs => .invoke (.function name) vs (rule vs)) (.done _)
  | transform name subject arguments =>
    rw [Agree, Grammar.atOnce, Dict.get?_map]
    exact .map (fun rule _ v vs => .invoke (.transform name) (v :: vs) (rule v vs)) (.done _)
  | _ => trivial

/-- An evaluation delays the evaluation in which everything is answered at once. -/
lemma evaluate_delays {g : Grammar} (h : g.LazyStandard) (context : Value) (e : Expr) :
    (e.evaluate g context).Delays (e.evaluate g.atOnce context) :=
  eval_related Process.compositional_delays e (everywhere_of_forall (agree_atOnce h context) e)
    (.inl fun _ => .done _)

end Expr

/-! ### Transparency -/

namespace Process

/-- Polled until it is ready, the first process shows what the second one shows, which never waits,
but it is pending whenever a call is. Run without waiting, it ends at the first such call. -/
structure Transparent (p q : Process α) : Prop where
  atOnce : q.course.pendings = 0
  calls : p.course.calls.map Call.atOnce = q.course.calls
  result : p.course.result = q.course.result
  pendings : p.course.pendings = (p.course.calls.map Call.polls).sum
  now : p.now = (Call.untilPending p.course.calls,
    if p.course.pendings = 0 then q.course.result else .error .wouldBlock)

/-- Processes that differ by waits make the same calls up to the first one that is pending, and come
to the same result. -/
lemma Delays.transparent {p q : Process α} (h : p.Delays q) : p.Transparent q := by
  induction h with
  | done result =>
    constructor <;> simp [course_eq, calls, pauses, Process.result, Call.untilPending]
  | @call c p q h ih =>
    obtain ⟨atOnce, hcalls, hresult, hpendings, hnow⟩ := ih
    simp only [course_eq] at atOnce hcalls hresult hpendings hnow
    constructor <;> simp only [course_eq, calls, pauses, Process.result, calls_pauseFor,
      pauses_pauseFor, result_pauseFor]
    · exact atOnce
    · rw [List.map_cons, hcalls]
    · exact hresult
    · rw [List.map_cons, List.sum_cons, hpendings]
    · rw [now_call, now_pauseFor, Call.untilPending]
      by_cases atOnce : c.polls = 0
      · simp [atOnce, hnow]
      · simp [atOnce]

end Process

namespace Expr

/-- Waiting for the calls of an evaluation makes no difference to their order, their arguments and
the result, whether the waits are those of the grammar or differ from call to call. -/
theorem evaluate_transparent {g : Grammar} (h : g.LazyStandard) (context : Value) (e : Expr) :
    (e.evaluate g context).Transparent (e.evaluate g.atOnce context) ∧
      (e.evaluate g context).Delays (e.evaluate g.atOnce context) ∧
        ∀ p : Process Value, p.Delays (e.evaluate g.atOnce context) →
          p.Transparent (e.evaluate g.atOnce context) :=
  have delays := evaluate_delays h context e
  ⟨delays.transparent, delays, fun _ delays => delays.transparent⟩

/-- The standard grammar with a function that takes a poll for each of its arguments. -/
def waitingGrammar : Grammar :=
  Grammar.standard.edit
    (.function "wait" fun vs => Catalog.late vs.length (Catalog.argument vs 0))

/-- The lazy operators are those of the standard grammar. -/
lemma lazyStandard_waitingGrammar : waitingGrammar.LazyStandard := by
  intro symbol op found _
  rw [waitingGrammar, Grammar.edit, Grammar.binary_editWith] at found
  exact ⟨symbol, op, found, rfl⟩

def waitingExpr : Expr :=
  .binary "&&" (.call "wait" [.literal (.boolean true)])
    (.call "wait" [.literal (.integer 5), .literal .null])

/-- Two calls with one and with two arguments take three polls in all. -/
theorem evaluate_waitingExpr_transparent :
    waitingGrammar.LazyStandard ∧ (waitingExpr.evaluate waitingGrammar .null).course.pendings = 3 ∧
      (waitingExpr.evaluate waitingGrammar .null).Transparent
        (waitingExpr.evaluate waitingGrammar.atOnce .null) := by
  refine ⟨lazyStandard_waitingGrammar, ?_,
    (evaluate_transparent lazyStandard_waitingGrammar .null waitingExpr).1⟩
  have conjunction : waitingGrammar.binary.get? "&&"
      = some ⟨10, .lazy fun _ _ => .rightIf Value.isTruthy⟩ := by
    simp [waitingGrammar, Grammar.edit, Grammar.standard, Grammar.standardWith,
      Grammar.standardEdits, Grammar.editAll, Grammar.editAllWith, Grammar.binary_editWith]
  have wait : waitingGrammar.functions.get? "wait"
      = some fun vs => Catalog.late vs.length (Catalog.argument vs 0) := rfl
  rw [Process.course_eq]
  simp only [waitingExpr, evaluate, eval, evalAll, conjunction, wait]
  cbv

end Expr

end Sift
