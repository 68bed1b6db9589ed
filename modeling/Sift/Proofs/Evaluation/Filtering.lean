import Sift.Proofs.Evaluation.Waiting

/-!
# Relative filters

A relative filter evaluates its predicate on one element after the other. It succeeds if the subject
does and the predicate does on every element, and it keeps the elements of which the predicate is
truthy. From this one description it follows that two filters in a row are one filter by the
conjunction, although the predicates are evaluated in another order, and that a filter done twice is
the filter. All this holds of every way to run an evaluation in which failures are final, be it with
or without waiting.
-/

namespace Sift

variable {α β : Type}

def Outcome.isTruthy : Outcome → Bool
  | .ok v => v.isTruthy
  | .error _ => false

@[simp] lemma Outcome.isTruthy_ok (v : Value) : Outcome.isTruthy (.ok v) = v.isTruthy := rfl

/-- The standard conjunction evaluates its right operand only if the left one is truthy. -/
lemma Grammar.get?_standard_conjunction : standard.binary.get? "&&"
    = some ⟨10, .lazy fun _ _ => .rightIf Value.isTruthy⟩ := by
  simp [standard, standardWith, standardEdits, editAll, editAllWith, binary_editWith]

/-! ### Ways to run processes -/

namespace Process

/-- A way to run processes in which a failure is final. -/
structure Runs (run : ∀ {α : Type}, Process α → Except EvalError α) : Prop where
  pure {α : Type} (a : α) : run (pure a) = .ok a
  bind {α β : Type} (p : Process α) (f : α → Process β) :
    run (p >>= f) = run p >>= fun a => run (f a)

/-- Polling until the result is there. -/
lemma runs_course : Runs fun p => p.course.result where
  pure a := by
    rw [course_eq]
    rfl
  bind p f := by
    simp only [course_eq]
    refine (result_andThen p _).trans ?_
    cases p.result <;> rfl

/-- Running without waiting. -/
lemma runs_now : Runs fun p => p.now.2 where
  pure _ := rfl
  bind p f := by
    induction p with
    | done result => cases result <;> rfl
    | pause rest => rfl
    | call c rest ih =>
      have later : call c rest >>= f = call c (rest >>= f) := rfl
      rw [later, now_call, now_call]
      exact ih

namespace Runs

variable {run : ∀ {α : Type}, Process α → Except EvalError α} (h : Runs run)
include h

/-- A value comes out of two steps if and only if it comes out of both. -/
lemma bind_eq_ok_iff {p : Process α} {f : α → Process β} {b : β} :
    run (p >>= f) = .ok b ↔ ∃ a, run p = .ok a ∧ run (f a) = .ok b := by
  rw [h.bind]
  cases run p with
  | error e => exact ⟨nofun, nofun⟩
  | ok a => exact ⟨fun hf => ⟨a, rfl, hf⟩, fun ⟨_, rfl, hf⟩ => hf⟩

lemma bind_of_error {p : Process α} {f : α → Process β} {e : EvalError} (hp : run p = .error e) :
    run (p >>= f) = .error e := by
  rw [h.bind, hp]
  rfl

/-- Elements are kept if all of them can be tested. -/
lemma filter_eq_ok_iff {p : α → Process Value} {as bs : List α} :
    run (Process.filter (fun a => do return (← p a).isTruthy) as) = .ok bs ↔
      (∀ a ∈ as, ∃ v, run (p a) = .ok v) ∧
        bs = as.filter fun a => Outcome.isTruthy (run (p a)) := by
  induction as generalizing bs with
  | nil =>
    rw [Process.filter, h.pure]
    simp [eq_comm]
  | cons a rest ih =>
    rw [Process.filter, bind_assoc, h.bind_eq_ok_iff, List.forall_mem_cons, List.filter_cons]
    cases ha : run (p a) with
    | error e => simp
    | ok v =>
      simp only [pure_bind, h.bind_eq_ok_iff, h.pure, ih, Outcome.isTruthy_ok, Except.ok.injEq,
        exists_eq_left', exists_eq', true_and]
      constructor
      · rintro ⟨_, ⟨all, rfl⟩, rfl⟩
        exact ⟨all, rfl⟩
      · rintro ⟨all, rfl⟩
        exact ⟨_, ⟨all, rfl⟩, rfl⟩

variable {env : Environment} {frame : Option Value} {s p q : Expr} {v : Value}

/-- What a relative filter comes to. -/
lemma eval_filter_eq_ok_iff : run ((Expr.filter s p true).eval env frame) = .ok v ↔
    ∃ subject, run (s.eval env frame) = .ok subject ∧
      (∀ x ∈ subject.elements, ∃ w, run (p.eval env (some x)) = .ok w) ∧
      v = .array (subject.elements.filter fun x =>
        Outcome.isTruthy (run (p.eval env (some x)))) := by
  rw [Expr.eval, h.bind_eq_ok_iff]
  refine exists_congr fun subject => and_congr_right fun _ => ?_
  rw [if_pos rfl, h.bind_eq_ok_iff]
  simp only [h.filter_eq_ok_iff, h.pure, Except.ok.injEq]
  constructor
  · rintro ⟨_, ⟨all, rfl⟩, rfl⟩
    exact ⟨all, rfl⟩
  · rintro ⟨all, rfl⟩
    exact ⟨_, ⟨all, rfl⟩, rfl⟩

section

variable (conjunction : env.grammar.binary.get? "&&" = Grammar.standard.binary.get? "&&")
include conjunction

/-- What the standard conjunction comes to. -/
lemma eval_conjunction : run ((Expr.binary "&&" p q).eval env frame)
    = run (p.eval env frame) >>= fun l => if l.isTruthy then run (q.eval env frame) else .ok l := by
  rw [Expr.eval, conjunction, Grammar.get?_standard_conjunction]
  dsimp only
  rw [Strategy.run_rightIf, h.bind]
  refine congrArg _ (funext fun l => ?_)
  split
  · rfl
  · exact h.pure l

/-- A conjunction is evaluated if its left side is, and its right side where that is truthy. -/
lemma exists_eval_conjunction_iff :
    (∃ w, run ((Expr.binary "&&" p q).eval env frame) = .ok w) ↔
      (∃ l, run (p.eval env frame) = .ok l) ∧ (Outcome.isTruthy (run (p.eval env frame)) →
        ∃ w, run (q.eval env frame) = .ok w) := by
  rw [h.eval_conjunction conjunction]
  cases run (p.eval env frame) with
  | error e => exact iff_of_false (fun ⟨_, hw⟩ => nomatch hw) fun ⟨⟨_, hl⟩, _⟩ => nomatch hl
  | ok l =>
    change (∃ w, (if l.isTruthy then run (q.eval env frame) else .ok l) = .ok w) ↔ _
    cases truthy : l.isTruthy <;> simp [truthy]

/-- A conjunction is truthy if both sides are. -/
lemma isTruthy_eval_conjunction :
    Outcome.isTruthy (run ((Expr.binary "&&" p q).eval env frame))
      = (Outcome.isTruthy (run (p.eval env frame))
        && Outcome.isTruthy (run (q.eval env frame))) := by
  rw [h.eval_conjunction conjunction]
  cases run (p.eval env frame) with
  | error e => rfl
  | ok l =>
    change Outcome.isTruthy (if l.isTruthy then run (q.eval env frame) else .ok l) = _
    cases truthy : l.isTruthy <;> simp [truthy]

/-- Two filters in a row succeed with what one filter by the conjunction succeeds with. -/
lemma eval_filter_filter_eq_ok_iff :
    run ((Expr.filter (.filter s p true) q true).eval env frame) = .ok v ↔
      run ((Expr.filter s (.binary "&&" p q) true).eval env frame) = .ok v := by
  rw [h.eval_filter_eq_ok_iff, h.eval_filter_eq_ok_iff]
  simp only [h.eval_filter_eq_ok_iff, h.exists_eval_conjunction_iff conjunction,
    h.isTruthy_eval_conjunction conjunction]
  have elements (items : List Value) : (Value.array items).elements = items := rfl
  constructor
  · rintro ⟨_, ⟨subject, hs, hp, rfl⟩, hq, rfl⟩
    refine ⟨subject, hs, fun x hx => ⟨hp x hx, fun kept => ?_⟩, ?_⟩
    · exact hq x (List.mem_filter.2 ⟨hx, kept⟩)
    · rw [elements, List.filter_filter]
      simp only [Bool.and_comm]
  · rintro ⟨subject, hs, both, rfl⟩
    refine ⟨_, ⟨subject, hs, fun x hx => (both x hx).1, rfl⟩, fun x hx => ?_, ?_⟩
    · obtain ⟨hx, kept⟩ := List.mem_filter.1 hx
      exact (both x hx).2 kept
    · rw [elements, List.filter_filter]
      simp only [Bool.and_comm]

end

/-- A relative filter done twice is the filter, in its failures as well. -/
lemma eval_filter_self : run ((Expr.filter (.filter s p true) p true).eval env frame)
    = run ((Expr.filter s p true).eval env frame) := by
  cases once : run ((Expr.filter s p true).eval env frame) with
  | error e =>
    rw [Expr.eval]
    exact h.bind_of_error once
  | ok v =>
    refine h.eval_filter_eq_ok_iff.2 ⟨v, once, ?_⟩
    obtain ⟨subject, -, hp, rfl⟩ := h.eval_filter_eq_ok_iff.1 once
    let test (x : Value) : Bool := Outcome.isTruthy (run (p.eval env (some x)))
    have kept {x : Value} : x ∈ subject.elements.filter test ↔ x ∈ subject.elements ∧ test x :=
      List.mem_filter
    refine ⟨fun x hx => hp x (kept.1 hx).1, congrArg Value.array ?_⟩
    exact (List.filter_eq_self.2 fun x hx => (kept.1 hx).2).symm

end Runs

end Process

/-! ### The laws of relative filters -/

namespace Expr

/-- The laws of relative filters, where expressions are evaluated in frames. -/
structure FilterLaws (evaluate : Option Value → Expr → Outcome) (frame : Option Value)
    (s p q : Expr) : Prop where
  /-- Two filters in a row and the filter by the conjunction have the same array, or both fail. -/
  fused : (∃ items, evaluate frame (.filter (.filter s p true) q true) = .ok (.array items) ∧
      evaluate frame (.filter s (.binary "&&" p q) true) = .ok (.array items)) ∨
    ∃ e e', evaluate frame (.filter (.filter s p true) q true) = .error e ∧
      evaluate frame (.filter s (.binary "&&" p q) true) = .error e'
  /-- A filter done twice is the filter. -/
  again : evaluate frame (.filter (.filter s p true) p true) = evaluate frame (.filter s p true)
  /-- The elements of the subject of which the predicate is truthy are kept, in their order. -/
  kept (v : Value) : evaluate frame (.filter s p true) = .ok v ↔
    ∃ subject, evaluate frame s = .ok subject ∧
      (∀ x ∈ subject.elements, ∃ w, evaluate (some x) p = .ok w) ∧
      v = .array (subject.elements.filter fun x => Outcome.isTruthy (evaluate (some x) p))

/-- The laws hold however processes are run, as long as failures are final. -/
lemma filterLaws_of_runs {run : ∀ {α : Type}, Process α → Except EvalError α}
    (h : Process.Runs run) {env : Environment}
    (conjunction : env.grammar.binary.get? "&&" = Grammar.standard.binary.get? "&&")
    (frame : Option Value) (s p q : Expr) :
    FilterLaws (fun frame e => run (e.eval env frame)) frame s p q where
  fused := by
    have same (v : Value) : run ((filter (filter s p true) q true).eval env frame) = .ok v ↔
        run ((filter s (binary "&&" p q) true).eval env frame) = .ok v :=
      h.eval_filter_filter_eq_ok_iff conjunction
    cases two : run ((filter (filter s p true) q true).eval env frame) with
    | ok v =>
      obtain ⟨_, -, -, rfl⟩ := h.eval_filter_eq_ok_iff.1 two
      exact .inl ⟨_, rfl, (same _).1 two⟩
    | error e =>
      cases one : run ((filter s (binary "&&" p q) true).eval env frame) with
      | ok v =>
        rw [(same v).2 one] at two
        cases two
      | error e' => exact .inr ⟨e, e', rfl, rfl⟩
  again := h.eval_filter_self
  kept v := h.eval_filter_eq_ok_iff

/-- Relative filters keep the elements that satisfy them, in their order, and fuse, in a grammar
with the standard conjunction, whatever else is registered there, in every context and frame. It
makes no difference to these laws whether the evaluation is waited for. -/
theorem filterLaws {g : Grammar}
    (conjunction : g.binary.get? "&&" = Grammar.standard.binary.get? "&&") (context : Value)
    (frame : Option Value) (s p q : Expr) :
    FilterLaws (fun frame e => (e.eval { grammar := g, context } frame).now.2) frame s p q ∧
    FilterLaws (fun frame e => (e.eval { grammar := g, context } frame).course.result)
      frame s p q :=
  ⟨filterLaws_of_runs Process.runs_now conjunction frame s p q,
    filterLaws_of_runs Process.runs_course conjunction frame s p q⟩

/-- The standard grammar with a function that answers at once. -/
def firstGrammar : Grammar :=
  Grammar.standard.edit (.function "first" fun vs => .value (Catalog.argument vs 0))

def numberedThings : Expr :=
  .literal (.array [.object [("n", .integer 1)], .object [("n", .integer 0)],
    .object [("n", .integer 2), ("off", .boolean true)], .object [("n", .integer 3)]])

/-- Things with a number are filtered by a function and by a property that is missing or set. -/
theorem filterLaws_numberedThings :
    let numbered := Expr.call "first" [.relative "n"]
    let on := Expr.unary "!" (.relative "off")
    let env : Environment := { grammar := firstGrammar, context := .null }
    let evaluate := fun frame e => (Expr.eval env frame e).now.2
    firstGrammar.binary.get? "&&" = Grammar.standard.binary.get? "&&" ∧
      evaluate none (.filter (.filter numberedThings numbered true) on true)
        = .ok (.array [.object [("n", .integer 1)], .object [("n", .integer 3)]]) ∧
      FilterLaws evaluate none numberedThings numbered on := by
  intro numbered on env evaluate
  have conjunction : firstGrammar.binary.get? "&&" = Grammar.standard.binary.get? "&&" := by
    rw [firstGrammar, Grammar.edit, Grammar.binary_editWith]
  refine ⟨conjunction, ?_, (filterLaws conjunction .null none numberedThings numbered on).1⟩
  have first : firstGrammar.functions.get? "first"
      = some fun vs => .value (Catalog.argument vs 0) := rfl
  have negation : firstGrammar.unary.get? "!" = some fun v => .value (.boolean !v.isTruthy) := rfl
  simp only [evaluate, env, numbered, on, numberedThings, eval, evalAll, first, negation]
  rfl

end Expr

end Sift
