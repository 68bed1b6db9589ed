import Sift.Engine.Store
import Sift.Proofs.Evaluation.Polling
import Sift.Proofs.Parse.Spelling
import Sift.Proofs.Template.Splicing
import Sift.Proofs.Value.Source
import Sift.Value.Order

/-!
# Values that evaluate to themselves

The tokens of a value that is written out are parsed as `Value.toExpr`, a tree of literals, lists
and negations, which evaluates to the value. So a value without floats can be written as an
expression (`evaluate_source`).
-/

namespace Sift

open Token (Kind)

namespace Value

/-! ### Trees -/

mutual
/-- The tree of a value that is written out. A negative integer is the opposite of a literal. -/
def toExpr : Value → Expr
  | integer n =>
    if n.toInt < 0 then .unary "-" (.literal (integer (-n))) else .literal (integer n)
  | array items => .array (exprAll items)
  | object entries => .object (exprEntries entries)
  | v => .literal v

def exprAll : List Value → List Expr
  | [] => []
  | v :: rest => v.toExpr :: exprAll rest

def exprEntries : List (String × Value) → List (String × Expr)
  | [] => []
  | (k, v) :: rest => (k, v.toExpr) :: exprEntries rest
end

mutual
/-- A value that is written out reads no elements. -/
lemma freeRelative?_toExpr : ∀ v : Value, v.toExpr.freeRelative? = none
  | integer n => by
    rw [toExpr]
    split <;> rfl
  | array items => freeRelativeAny?_exprAll items
  | object entries => freeRelativeEntries?_exprEntries entries
  | null | boolean _ | float _ | string _ => rfl

lemma freeRelativeAny?_exprAll : ∀ vs : List Value, Expr.freeRelativeAny? (exprAll vs) = none
  | [] => rfl
  | v :: vs => by
    rw [exprAll, Expr.freeRelativeAny?, freeRelative?_toExpr v, freeRelativeAny?_exprAll vs]
    rfl

lemma freeRelativeEntries?_exprEntries : ∀ es : List (String × Value),
    Expr.freeRelativeEntries? (exprEntries es) = none
  | [] => rfl
  | (k, v) :: es => by
    rw [exprEntries, Expr.freeRelativeEntries?, freeRelative?_toExpr v,
      freeRelativeEntries?_exprEntries es]
    rfl
end

/-! ### Parsing -/

/-- An integer is read back, with its minus sign as an operator. -/
lemma spelled_integer (n : Int64) :
    Level.Spelled .standard 2 (integer n).toExpr (integer n).kinds := by
  rw [toExpr, kinds]
  split
  · refine .of_operand (by simp) rfl fun room stop => ?_
    refine Level.reads_operand_unary (by decide) (by omega) fun m hm => ?_
    have stop := Kind.continuesOperand_eq_false stop
    exact Level.reads_operand (by simp) (Level.reads_literal _) (Level.reads_steps_stop stop _)
  · exact (Level.Spelled.literal _).mono (by omega)

mutual
/-- A value that is written out is parsed as its tree, if there are as many levels as it is deep,
and two more. -/
lemma spelled_toExpr : ∀ v : Value, Level.Spelled .standard (v.depth + 2) v.toExpr v.kinds
  | integer n => spelled_integer n
  | array items => by
    rw [toExpr, kinds]
    exact Level.Spelled.array (spelled_exprAll items (Nat.le_refl _))
  | object entries => by
    rw [toExpr, kinds]
    exact Level.Spelled.object (spelled_exprEntries entries (Nat.le_refl _))
  | null | boolean _ | float _ | string _ => (Level.Spelled.literal _).mono (by omega)

lemma spelled_exprAll : ∀ (vs : List Value) {d : Nat}, depthAll vs ≤ d →
    List.Forall₂ (Level.Spelled .standard (d + 1)) (exprAll vs) (kindsAll vs)
  | [], _, _ => .nil
  | v :: vs, d, h => by
    rw [depthAll, Nat.max_le] at h
    exact .cons ((spelled_toExpr v).mono (Nat.succ_le_succ h.1)) (spelled_exprAll vs h.2)

lemma spelled_exprEntries : ∀ (es : List (String × Value)) {d : Nat}, depthEntries es ≤ d →
    List.Forall₂ (Level.SpelledEntry .standard (d + 1)) (exprEntries es) (kindsEntries es)
  | [], _, _ => .nil
  | (k, v) :: es, d, h => by
    rw [depthEntries, Nat.max_le] at h
    exact .cons ⟨_, rfl, (spelled_toExpr v).mono (Nat.succ_le_succ h.1)⟩
      (spelled_exprEntries es h.2)
end

/-- A plain value is compiled from its text, if it is not too deep. -/
lemma compile_source {v : Value} (plain : v.Plain) (shallow : v.depth + 2 ≤ maxNesting) :
    Template.compile .standard [.source v.source] = .ok v.toExpr := by
  have spells := spellsOperand_source plain stops_nil Lexer.spells_nil
  rw [List.append_nil, List.append_nil] at spells
  obtain ⟨tokens, kinds, reads⟩ := spells 0
  have read : tokensAfter .standard [] v.source 0 = (tokens, none) :=
    tokensAfter_eq_none_iff.2 ⟨tokens, rfl, reads⟩
  have compiles : Template.tokens .standard [] 0 [.source v.source]
      = .ok (tokens ++ [⟨.endOfInput, "", 0 + v.source.length⟩]) := by
    rw [Template.tokens, read]
    rfl
  have parses : parse .standard (tokens ++ [⟨.endOfInput, "", 0 + v.source.length⟩])
      = .ok v.toExpr := by
    refine (parse_of_reads (fun rest closes => (spelled_toExpr v).read shallow closes)
      (freeRelative?_toExpr v) (.inr ?_)).resolve_right And.left
    rw [List.map_append, kinds]
    rfl
  rw [Template.compile_of_ok compiles, parses]
  rfl

/-! ### Evaluation -/

section

variable {env : Environment} {frame : Option Value}

/-- An integer is evaluated to itself, a negative one by the operator. -/
lemma now_eval_integer (standard : env.grammar = .standard) {n : Int64} (h : n ≠ Int64.minValue) :
    ((integer n).toExpr.eval env frame).now.2 = .ok (integer n) := by
  rw [toExpr]
  split
  · have rule : env.grammar.unary.get? "-" = some fun v => .now v.negate := by
      rw [standard]
      rfl
    have opposite : (integer (-n)).negate = .ok (integer n) := by
      rw [negate, toInt_neg_of_ne_minValue h, Int.neg_neg, integer?_toInt]
    rw [Expr.eval, rule]
    refine Process.now_bind_eq_ok (a := integer (-n)) rfl ?_
    change (Process.invoke _ _ (.now (integer (-n)).negate)).now.2 = _
    rw [opposite]
    rfl
  · rfl

mutual
/-- The tree of a value evaluates to it, in whatever order its entries are listed. -/
lemma now_eval_toExpr (standard : env.grammar = .standard) : ∀ {w v : Value}, w.Rearranges v →
    w.Plain → v.Canonical → (w.toExpr.eval env frame).now.2 = .ok v
  | integer n, _, h, plain, _ => by
    obtain rfl := h
    exact now_eval_integer standard plain
  | array items, _, h, plain, canonical => by
    obtain ⟨items', rfl, h⟩ := h
    rw [toExpr, Expr.eval]
    exact Process.now_bind_eq_ok (now_evalAll_exprAll standard h plain canonical) rfl
  | object entries, _, h, plain, canonical => by
    obtain ⟨order, entries', rfl, perm, h⟩ := h
    have values : CanonicalEntries order := canonicalEntries_iff.2 fun e he =>
      canonicalEntries_iff.1 canonical.2 e (perm.mem_iff.1 he)
    rw [toExpr, Expr.eval]
    -- The entries come as they are listed, and only then are they brought into order.
    refine Process.now_bind_eq_ok (now_evalEntries_exprEntries standard h plain values) ?_
    rw [ofEntries, Entries.ofList_eq_of_perm canonical.1 perm]
    rfl
  | null, _, h, _, _ | boolean _, _, h, _, _ | float _, _, h, _, _ | string _, _, h, _, _ => by
    obtain rfl := h
    rfl

lemma now_evalAll_exprAll (standard : env.grammar = .standard) :
    ∀ {ws vs : List Value}, RearrangesAll ws vs → PlainAll ws → CanonicalAll vs →
    (Expr.evalAll env frame (exprAll ws)).now.2 = .ok vs
  | [], _, h, _, _ => by
    obtain rfl := h
    rfl
  | w :: ws, _, h, plain, canonical => by
    obtain ⟨v, vs, rfl, first, rest⟩ := h
    rw [exprAll, Expr.evalAll]
    refine Process.now_bind_eq_ok (now_eval_toExpr standard first plain.1 canonical.1) ?_
    exact Process.now_bind_eq_ok (now_evalAll_exprAll standard rest plain.2 canonical.2) rfl

lemma now_evalEntries_exprEntries (standard : env.grammar = .standard) :
    ∀ {es fs : List (String × Value)}, RearrangesEntries es fs → PlainEntries es →
    CanonicalEntries fs →
    (Expr.evalEntries env frame (exprEntries es)).now.2 = .ok fs
  | [], _, h, _, _ => by
    obtain rfl := h
    rfl
  | (k, w) :: es, _, h, plain, canonical => by
    obtain ⟨v, fs, rfl, first, rest⟩ := h
    rw [exprEntries, Expr.evalEntries]
    refine Process.now_bind_eq_ok (now_eval_toExpr standard first plain.1 canonical.1) ?_
    exact Process.now_bind_eq_ok (now_evalEntries_exprEntries standard rest plain.2 canonical.2) rfl
end

end

/-! ### Equality -/

mutual
/-- A value without floats is strictly equal to itself. -/
lemma strictEq_self : ∀ {v : Value}, v.Plain → v.strictEq v = true
  | null, _ => rfl
  | boolean _, _ | integer _, _ | string _, _ => beq_self_eq_true _
  | float _, h => h.elim
  | array _, h => strictEqAll_self h
  | object _, h => strictEqEntries_self h

lemma strictEqAll_self : ∀ {vs : List Value}, PlainAll vs → strictEqAll vs vs = true
  | [], _ => rfl
  | v :: vs, h => by
    rw [strictEqAll, strictEq_self h.1, strictEqAll_self h.2]
    rfl

lemma strictEqEntries_self : ∀ {es : List (String × Value)}, PlainEntries es →
    strictEqEntries es es = true
  | [], _ => rfl
  | (k, v) :: es, h => by
    rw [strictEqEntries, strictEq_self h.1, strictEqEntries_self h.2, beq_self_eq_true]
    rfl
end

end Value

/-! ### Whole evaluations -/

/-- A value without floats and the least integer evaluates to itself where it is written out, with
the entries of its objects in any order, whatever the context is. -/
theorem evaluate_source {v w : Value} (canonical : v.Canonical) (plain : v.Plain)
    (shallow : v.depth ≤ 60) (order : w.Rearranges v) {s : Store} {cell : Nat}
    (standard : s.grammar cell = .standard) (context : Value) :
    (∃ made, s.evaluate (.source cell w.source) context = (made, .ok v, s)) ∧
      v.strictEq v = true := by
  obtain ⟨plainSource, shallowSource⟩ := order.bounds
  have compiles : Template.compile (s.grammar cell) [.source w.source] = .ok w.toExpr := by
    rw [standard]
    refine Value.compile_source (plainSource plain) ?_
    have := shallowSource 60 shallow
    rw [maxNesting]
    omega
  have gives : (w.toExpr.evaluate (s.grammar cell) context).now.2 = .ok v :=
    Value.now_eval_toExpr standard order (plainSource plain) canonical
  refine ⟨⟨(w.toExpr.evaluate (s.grammar cell) context).now.1, ?_⟩, Value.strictEq_self plain⟩
  rw [Store.evaluate, Store.begin, compiles]
  change (_, Except.mapError Error.eval (w.toExpr.evaluate (s.grammar cell) context).now.2, s) = _
  rw [gives]
  rfl

/-- Entries in ascending order, with a negative integer and a text that has quotes in it. -/
def quotedEntries : List (String × Value) :=
  [("a", .object []), ("b", .array [.integer (-5), .string "say \"é\\"])]

/-- Entries in descending order, read by an engine with the standard grammar. -/
theorem evaluate_source_quotedEntries :
    (∃ made, (Store.mk [.standard] []).evaluate
        (.source 0 "\x7b\"b\":[-5,\"say \\\"é\\\\\"],\"a\":\x7b\x7d\x7d") .null
      = (made, .ok (.object quotedEntries), ⟨[.standard], []⟩)) ∧
    (Value.object quotedEntries).strictEq (.object quotedEntries) = true := by
  have sorted : Entries.Sorted quotedEntries :=
    List.pairwise_pair.2 (by decide)
  have canonical : (Value.object quotedEntries).Canonical :=
    ⟨sorted, ⟨.nil, trivial⟩, ⟨trivial, trivial, trivial⟩, trivial⟩
  have plain : (Value.object quotedEntries).Plain := by
    refine ⟨trivial, ⟨?_, trivial, trivial⟩, trivial⟩
    rw [Value.Plain]
    decide
  have order : (Value.object quotedEntries.reverse).Rearranges (.object quotedEntries) :=
    ⟨quotedEntries.reverse, quotedEntries, rfl, quotedEntries.reverse_perm, .refl _⟩
  have text : (Value.object quotedEntries.reverse).source
      = "\x7b\"b\":[-5,\"say \\\"é\\\\\"],\"a\":\x7b\x7d\x7d" := by
    decide +kernel
  have standard : (Store.mk [.standard] []).grammar 0 = .standard := List.getD_cons_zero
  have shallow : (Value.object quotedEntries).depth ≤ 60 := by decide
  rw [← text]
  exact evaluate_source canonical plain shallow order standard .null

end Sift
