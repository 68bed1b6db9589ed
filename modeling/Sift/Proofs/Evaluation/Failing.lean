import Sift.Proofs.Evaluation.Waiting

/-!
# Failures are final

An evaluation ends at its first failure. A call that fails is the last one, and its error is the
result; the same goes for an error that the evaluator raises itself, where a name stands for
nothing. To see where that happens, a mark is put there, a call of its own in front of the error.
-/

namespace Sift

variable {α β : Type}

namespace Call

def outcome (c : Call) : Outcome := c.reply.deferred.outcome

def outcomeNow (c : Call) : Outcome := if c.polls = 0 then c.outcome else .error .wouldBlock

end Call

/-! ### Marks -/

/-- Go on like the evaluator where a name stands for nothing, but leave a mark if that is an error.
-/
def Missing.marked (mark : Missing → Call) (m : Missing) : Process Value :=
  match m.outcome with
  | .ok v => .done (.ok v)
  | .error error => .call (mark m) (.done (.error error))

/-- The evaluation of a whole expression, with a mark where the evaluator raises an error. -/
def Expr.evaluateMarked (mark : Missing → Call) (g : Grammar) (context : Value) (e : Expr) :
    Process Value :=
  e.eval ⟨g, context, Missing.marked mark⟩ none

namespace Process

/-- The first process ends at its first failure, and the second one is the same with a mark where
the error is raised without a call. -/
inductive FailsFast (mark : Missing → Call) : Process α → Process α → Prop
  | value (a : α) : FailsFast mark (done (.ok a)) (done (.ok a))
  | raised {m : Missing} {error : EvalError} (h : m.outcome = .error error) :
    FailsFast mark (done (.error error)) (call (mark m) (done (.error error)))
  | failed {c : Call} {error : EvalError} (h : c.outcome = .error error) :
    FailsFast mark (call c (pauseFor c.polls (done (.error error))))
      (call c (pauseFor c.polls (done (.error error))))
  | call {c : Call} {v : Value} (h : c.outcome = .ok v) {p q : Process α}
    (rest : FailsFast mark p q) :
    FailsFast mark (call c (pauseFor c.polls p)) (call c (pauseFor c.polls q))

lemma call_pauseFor_bind (c : Call) (n : Nat) (p : Process α) (f : α → Process β) :
    call c (pauseFor n p) >>= f = call c (pauseFor n (p >>= f)) :=
  congrArg (call c) (pauseFor_andThen n p _)

namespace FailsFast

variable {mark : Missing → Call}

/-- Failing fast is preserved by going on with the value. -/
lemma bind {p q : Process α} {f f' : α → Process β} (h : p.FailsFast mark q)
    (hf : ∀ a, (f a).FailsFast mark (f' a)) : (p >>= f).FailsFast mark (q >>= f') := by
  induction h with
  | value a => exact hf a
  | raised h => exact .raised h
  | failed h =>
    rw [call_pauseFor_bind, call_pauseFor_bind]
    exact .failed h
  | call h rest ih =>
    rw [call_pauseFor_bind, call_pauseFor_bind]
    exact .call h ih

lemma invoke (callee : Callee) (arguments : List Value) (reply : Reply) :
    (Process.invoke callee arguments reply).FailsFast mark
      (Process.invoke callee arguments reply) := by
  rw [Process.invoke]
  cases h : reply.deferred.outcome with
  | error error => exact .failed (c := ⟨callee, arguments, reply⟩) h
  | ok v => exact .call (c := ⟨callee, arguments, reply⟩) h (.value v)

/-- A mark is left exactly where the evaluator itself fails. -/
lemma missing (m : Missing) : (done m.outcome).FailsFast mark (m.marked mark) := by
  rw [Missing.marked]
  cases h : m.outcome with
  | error error => exact .raised h
  | ok v => exact .value v

end FailsFast

/-- Failing at the first failure is kept by sequencing. -/
lemma compositional_failsFast (mark : Missing → Call) :
    Compositional fun _ => FailsFast mark where
  pure a := .value a
  bind := .bind

end Process

lemma BinaryRule.Choosing.failsFast {rule : BinaryRule} (h : rule.Choosing) (mark : Missing → Call)
    (symbol : String) (left right : Expr) :
    BinaryRule.Agree (fun _ => Process.FailsFast mark) symbol left right rule rule := by
  cases h with
  | eager apply => exact .eager fun v w => .invoke (.binary symbol) [v, w] (apply v w)
  | rightIf test =>
    exact .lazy fun operand operand' => (Process.compositional_failsFast mark).rightIf test

namespace Expr

/-- Leaving marks is the only difference that an evaluator with marks makes. -/
lemma agree_marked {g : Grammar} (h : g.LazyStandard) (context : Value) (mark : Missing → Call)
    (e : Expr) : e.Agree (fun _ => Process.FailsFast mark) { grammar := g, context }
      ⟨g, context, Missing.marked mark⟩ := by
  cases e with
  | identifier name => rfl
  | unary symbol operand =>
    exact .refl (fun rule _ v => .invoke (.unary symbol) [v] (rule v)) fun _ => .missing _
  | binary symbol left right =>
    exact .refl (fun op found => (h.choosing found).failsFast mark symbol left right)
      fun _ => .missing _
  | call name arguments =>
    exact .refl (fun rule _ vs => .invoke (.function name) vs (rule vs)) fun _ => .missing _
  | transform name subject arguments =>
    exact .refl (fun rule _ v vs => .invoke (.transform name) (v :: vs) (rule v vs))
      fun _ => .missing _
  | _ => trivial

/-- An evaluation goes on after no failure, its own ones included. -/
lemma evaluate_failsFast {g : Grammar} (h : g.LazyStandard) (context : Value) (e : Expr)
    (mark : Missing → Call) :
    (e.evaluate g context).FailsFast mark (e.evaluateMarked mark g context) :=
  eval_related (Process.compositional_failsFast mark) e
    (everywhere_of_forall (agree_marked h context mark) e) (.inl fun _ => .missing _)

end Expr

/-! ### Runs -/

/-- The calls of a run, its result and the name that it ends at, if that stands for nothing: calls
that succeed, and then a value, a call that fails or an error that is raised. -/
inductive RunsTo (outcome : Call → Outcome) :
    List Call → Except EvalError α → Option Missing → Prop
  | value (a : α) : RunsTo outcome [] (.ok a) none
  | raised {m : Missing} {error : EvalError} (h : m.outcome = .error error) :
    RunsTo outcome [] (.error error) (some m)
  | failed {c : Call} {error : EvalError} (h : outcome c = .error error) :
    RunsTo outcome [c] (.error error) none
  | call {c : Call} {v : Value} (h : outcome c = .ok v) {calls : List Call}
    {result : Except EvalError α} {raised : Option Missing}
    (rest : RunsTo outcome calls result raised) : RunsTo outcome (c :: calls) result raised

/-- Nothing of a run is forgiven. A call that fails is the last thing that happens, and so is an
error that is raised, which is where the mark is: either is the result. A value is the result only
if all calls have succeeded, and an error only if there is one of the two. -/
structure Unforgiving (outcome : Call → Outcome) (mark : Missing → Call) (raised : Option Missing)
    (run marked : List Call × Except EvalError α) : Prop where
  marked_eq : marked = (run.1 ++ raised.toList.map mark, run.2)
  failed {before after : List Call} {c : Call} {error : EvalError} :
    run.1 = before ++ c :: after → outcome c = .error error →
      after = [] ∧ raised = none ∧ run.2 = .error error
  missing {m : Missing} : raised = some m → ∃ error, m.outcome = .error error ∧ run.2 = .error error
  succeeded {a : α} : run.2 = .ok a → ∀ c ∈ run.1, ∃ v, outcome c = .ok v
  cause {error : EvalError} : run.2 = .error error →
    (∃ m, raised = some m) ∨ ∃ before c, run.1 = before ++ [c] ∧ outcome c = .error error

namespace RunsTo

variable {outcome : Call → Outcome} {calls : List Call} {result : Except EvalError α}
  {raised : Option Missing}

/-- A call that has failed is the last thing that happens, and its error is the result. -/
lemma failed_last (h : RunsTo outcome calls result raised) {before after : List Call} {c : Call}
    {error : EvalError} (split : calls = before ++ c :: after) (hc : outcome c = .error error) :
    after = [] ∧ raised = none ∧ result = .error error := by
  induction h generalizing before with
  | value _ | raised _ => simp at split
  | failed h =>
    rcases List.cons_eq_append_iff.1 split with ⟨rfl, same⟩ | ⟨before, rfl, later⟩
    · cases same
      rw [h] at hc
      cases hc
      exact ⟨rfl, rfl, rfl⟩
    · simp at later
  | call h rest ih =>
    rcases List.cons_eq_append_iff.1 split with ⟨rfl, same⟩ | ⟨before, rfl, later⟩
    · cases same
      rw [h] at hc
      cases hc
    · exact ih later

/-- An error of the evaluator itself is the result. -/
lemma raised_last (h : RunsTo outcome calls result raised) {m : Missing} (hm : raised = some m) :
    ∃ error, m.outcome = .error error ∧ result = .error error := by
  induction h with
  | value _ | failed _ => cases hm
  | raised h =>
    cases hm
    exact ⟨_, h, rfl⟩
  | call _ _ ih => exact ih hm

lemma succeeded (h : RunsTo outcome calls result raised) {a : α} (value : result = .ok a) :
    ∀ c ∈ calls, ∃ v, outcome c = .ok v := by
  induction h with
  | value _ => exact List.forall_mem_nil _
  | raised _ | failed _ => cases value
  | call h _ ih => exact List.forall_mem_cons.2 ⟨⟨_, h⟩, ih value⟩

/-- An error has a cause: the evaluator has raised it, or the last call has. -/
lemma cause (h : RunsTo outcome calls result raised) {error : EvalError}
    (failure : result = .error error) : (∃ m, raised = some m) ∨
      ∃ before c, calls = before ++ [c] ∧ outcome c = .error error := by
  induction h with
  | value _ => cases failure
  | raised _ => exact .inl ⟨_, rfl⟩
  | @failed c _ h =>
    cases failure
    exact .inr ⟨[], c, rfl, h⟩
  | @call c _ _ _ _ _ _ ih =>
    rcases ih failure with raised | ⟨before, last, rfl, h⟩
    · exact .inl raised
    · exact .inr ⟨c :: before, last, rfl, h⟩

/-- A run in which failures are final forgives none of them. -/
lemma unforgiving (h : RunsTo outcome calls result raised) (mark : Missing → Call) :
    Unforgiving outcome mark raised (calls, result) (calls ++ raised.toList.map mark, result) where
  marked_eq := rfl
  failed := h.failed_last
  missing := h.raised_last
  succeeded := h.succeeded
  cause := h.cause

end RunsTo

namespace Process.FailsFast

variable {mark : Missing → Call} {p q : Process α}

/-- Polled until it is ready, such a process makes calls up to its first failure. -/
lemma runsTo (h : p.FailsFast mark q) : ∃ raised, RunsTo Call.outcome p.calls p.result raised ∧
    q.calls = p.calls ++ raised.toList.map mark ∧ q.result = p.result := by
  induction h with
  | value a => exact ⟨none, .value a, rfl, rfl⟩
  | raised h => exact ⟨some _, .raised h, rfl, rfl⟩
  | @failed c error h =>
    refine ⟨none, ?_, (List.append_nil _).symm, rfl⟩
    rw [calls, calls_pauseFor, Process.result, result_pauseFor]
    exact .failed h
  | @call c v h p q rest ih =>
    obtain ⟨raised, runsTo, hcalls, hresult⟩ := ih
    simp only [calls, calls_pauseFor, Process.result, result_pauseFor]
    exact ⟨raised, .call h runsTo, congrArg (c :: ·) hcalls, hresult⟩

/-- Run without waiting, it ends at the first call that is not answered at once, if not before. -/
lemma runsTo_now (h : p.FailsFast mark q) :
    ∃ raised, RunsTo Call.outcomeNow p.now.1 p.now.2 raised ∧
      q.now = (p.now.1 ++ raised.toList.map mark, p.now.2) := by
  induction h with
  | value a => exact ⟨none, .value a, rfl⟩
  | raised h => exact ⟨some _, .raised h, rfl⟩
  | @failed c error h =>
    refine ⟨none, ?_, (congrArg (·, _) (List.append_nil _)).symm⟩
    rw [now_call, now_pauseFor]
    split
    · rename_i atOnce
      exact .failed ((if_pos atOnce).trans h)
    · rename_i waits
      exact .failed (if_neg waits)
  | @call c v h p q rest ih =>
    obtain ⟨raised, runsTo, same⟩ := ih
    rw [now_call, now_call, now_pauseFor, now_pauseFor]
    split
    · rename_i atOnce
      rw [same]
      exact ⟨raised, .call ((if_pos atOnce).trans h) runsTo, rfl⟩
    · rename_i waits
      -- What comes behind the wait, a mark among it, is not reached.
      exact ⟨none, .failed (if_neg waits), rfl⟩

end Process.FailsFast

namespace Expr

/-- No failure is forgiven in an evaluation with the standard lazy operators, whether it is waited
for or not: nothing is called after it, and it is the result. -/
theorem evaluate_unforgiving {g : Grammar} (h : g.LazyStandard) (context : Value) (e : Expr)
    (mark : Missing → Call) :
    let run := e.evaluate g context
    let marked := e.evaluateMarked mark g context
    (∃ raised, Unforgiving Call.outcome mark raised (run.course.calls, run.course.result)
      (marked.course.calls, marked.course.result)) ∧
    ∃ raised, Unforgiving Call.outcomeNow mark raised run.now marked.now := by
  intro run marked
  have failsFast : run.FailsFast mark marked := evaluate_failsFast h context e mark
  constructor
  · obtain ⟨raised, runsTo, calls, result⟩ := failsFast.runsTo
    rw [Process.course_eq, Process.course_eq]
    dsimp only
    rw [calls, result]
    exact ⟨raised, runsTo.unforgiving mark⟩
  · obtain ⟨raised, runsTo, same⟩ := failsFast.runsTo_now
    rw [same]
    exact ⟨raised, runsTo.unforgiving mark⟩

/-- A function that is not there between two that are to be waited for. -/
def failingExpr : Expr :=
  .array [.call "wait" [.literal (.integer 5)], .call "absent" [.call "wait" []],
    .call "wait" [.literal .null, .literal .null]]

/-- The first call is waited for, then the missing function ends the evaluation: the last function
is never called. -/
theorem evaluate_failingExpr_unforgiving :
    let mark (_ : Missing) : Call := ⟨.function "mark", [], .value .null⟩
    let run := failingExpr.evaluate waitingGrammar .null
    let marked := failingExpr.evaluateMarked mark waitingGrammar .null
    waitingGrammar.LazyStandard ∧
      marked.course.calls.map Call.callee = [.function "wait", .function "mark"] ∧
      run.course.result = .error (.unknownFunction "absent") ∧ run.now.2 = .error .wouldBlock ∧
      (∃ raised, Unforgiving Call.outcome mark raised (run.course.calls, run.course.result)
        (marked.course.calls, marked.course.result)) ∧
      ∃ raised, Unforgiving Call.outcomeNow mark raised run.now marked.now := by
  intro mark run marked
  have wait : waitingGrammar.functions.get? "wait"
      = some fun vs => Catalog.late vs.length (Catalog.argument vs 0) := rfl
  have absent : waitingGrammar.functions.get? "absent" = none := rfl
  refine ⟨lazyStandard_waitingGrammar, ?_, ?_, ?_,
    evaluate_unforgiving lazyStandard_waitingGrammar .null failingExpr mark⟩
  · rw [Process.course_eq]
    simp only [marked, failingExpr, evaluateMarked, eval, evalAll, absent, wait]
    cbv
  · rw [Process.course_eq]
    simp only [run, failingExpr, evaluate, eval, evalAll, absent, wait]
    cbv
  · simp only [run, failingExpr, evaluate, eval, evalAll, absent, wait]
    rfl

end Expr

end Sift
