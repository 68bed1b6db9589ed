import Mathlib.Data.Int.Order.Basic
import Mathlib.Data.Option.Basic
import Sift.Proofs.Parse.Chain
import Sift.Proofs.Parse.Marks

/-!
# Grammars that read alike

How tokens are read depends on the symbols of the operators and on the order of their precedences,
and on nothing else of a grammar. The least precedence that a step of parsing admits is no
precedence of the other grammar; what is kept from level to level is that both bounds admit the same
operators. Conversely, two grammars that read all tokens alike have the same symbols in the same
order, as chains of two operators show.
-/

namespace Sift

open Parse
open Token (Kind)

/-- The grammars have the same operators, and the same order of their precedences. -/
structure Grammar.SameOrder (g g' : Grammar) : Prop where
  unary : ∀ s, g.unary.contains s = g'.unary.contains s
  binary : ∀ s, g.binary.contains s = g'.binary.contains s
  order : ∀ s t, g.binary.contains s = true → g.binary.contains t = true →
    compare (g.precedence s) (g.precedence t) = compare (g'.precedence s) (g'.precedence t)

variable {g g' : Grammar}

/-- A symbol is bound in both grammars or in none. -/
lemma Grammar.SameOrder.get? (h : g.SameOrder g') (s : String) :
    (g.binary.get? s = none ∧ g'.binary.get? s = none) ∨
      ∃ op op', g.binary.get? s = some op ∧ g'.binary.get? s = some op' := by
  have same := h.binary s
  rw [Dict.contains, Dict.contains] at same
  cases hop : g.binary.get? s with
  | none =>
    rw [hop] at same
    exact .inl ⟨rfl, Option.isNone_iff_eq_none.1 (Option.isSome_eq_false_iff.1 same.symm)⟩
  | some op =>
    rw [hop] at same
    obtain ⟨op', hop'⟩ := Option.isSome_iff_exists.1 same.symm
    exact .inr ⟨op, op', rfl, hop'⟩

namespace Level

variable {level level' : Level} {below below' : Option Level} {α : Type}

/-- Two least precedences admit the same operators. -/
def AdmitAlike (g g' : Grammar) (least least' : Int) : Prop :=
  ∀ s, g.binary.contains s = true → (least ≤ g.precedence s ↔ least' ≤ g'.precedence s)

/-- What can be read at the levels is the same, if the least precedences admit the same. -/
structure Same (g g' : Grammar) (level level' : Level) : Prop where
  expression : level.expression = level'.expression
  operand : level.operand = level'.operand
  folds : ∀ least least' left, AdmitAlike g g' least least' →
    level.folds least left = level'.folds least' left
  steps : ∀ subject, level.steps subject = level'.steps subject

lemma Same.chain (h : Same g g' level level') {least least' : Int}
    (alike : AdmitAlike g g' least least') : level.chain least = level'.chain least' := by
  rw [Level.chain, Level.chain, h.operand]
  exact bind_congr fun left => h.folds least least' left alike

/-- The least precedence of all admits every operator of both grammars. -/
lemma admitAlike_anyPrecedence (h : g.SameOrder g') :
    AdmitAlike g g' anyPrecedence anyPrecedence := by
  have all {g : Grammar} {s : String} (registered : g.binary.contains s = true) :
      anyPrecedence ≤ g.precedence s := by
    obtain ⟨op, hop⟩ := Option.isSome_iff_exists.1 registered
    rw [Grammar.precedence_eq hop]
    exact op.precedence.minValue_le_toInt
  intro s registered
  exact iff_of_true (all registered) (all (h.binary s ▸ registered))

/-- Behind an operator, those are admitted that bind tighter in both grammars. -/
lemma admitAlike_succ (h : g.SameOrder g') {s : String} (registered : g.binary.contains s = true) :
    AdmitAlike g g' (g.precedence s + 1) (g'.precedence s + 1) := by
  intro t registered'
  rw [Int.add_one_le_iff, Int.add_one_le_iff, ← compare_lt_iff_lt, ← compare_lt_iff_lt,
    h.order s t registered registered']

/-- A conditional only asks for chains and expressions. -/
lemma Same.conditional (order : g.SameOrder g') (h : Same g g' level level') :
    level.conditional = level'.conditional := by
  rw [Level.conditional, Level.conditional, h.chain (admitAlike_anyPrecedence order), h.expression]

section

variable (h : Option.Rel (Same g g') below below')
include h

lemma descend_bind_congr {f f' : Level → Parse α}
    (hf : ∀ level level', Same g g' level level' → f level = f' level') :
    descend below >>= f = descend below' >>= f' := by
  cases h with
  | none => rfl
  | some same => exact hf _ _ same

lemma expressionAbove_eq (order : g.SameOrder g') :
    expressionAbove below = expressionAbove below' :=
  descend_bind_congr h fun _ _ same => same.conditional order

/-- Postfix steps do not look at precedences. -/
lemma stepsAbove_eq (subject : Expr) : stepsAbove below subject = stepsAbove below' subject := by
  refine bind_congr fun token => ?_
  split
  · refine descend_bind_congr h fun level level' same => ?_
    simp only [same.steps]
  · refine descend_bind_congr h fun level level' same => ?_
    simp only [same.expression, same.steps]
  · refine descend_bind_congr h fun level level' same => ?_
    simp only [same.expression, same.steps]
  · rfl

lemma operandAbove_eq (order : g.SameOrder g') :
    operandAbove g below = operandAbove g' below' := by
  refine bind_congr fun token => ?_
  split
  · rename_i symbol _
    rw [order.unary symbol]
    split
    · refine bind_congr fun _ => descend_bind_congr h fun level level' same => ?_
      rw [same.operand]
    · rfl
  · rw [expressionAbove_eq h order]
    exact bind_congr fun subject => stepsAbove_eq h subject

/-- The same operators are folded where the least precedences admit the same ones. -/
lemma foldsAbove_eq (order : g.SameOrder g') {least least' : Int}
    (alike : AdmitAlike g g' least least') (left : Expr) :
    foldsAbove g below least left = foldsAbove g' below' least' left := by
  refine bind_congr fun token => ?_
  split
  · rename_i symbol _
    rcases order.get? symbol with ⟨hop, hop'⟩ | ⟨op, op', hop, hop'⟩
    · rw [hop, hop']
    · have registered : g.binary.contains symbol = true := by rw [Dict.contains, hop]; rfl
      have within := alike symbol registered
      have tighter := admitAlike_succ order registered
      rw [Grammar.precedence_eq hop, Grammar.precedence_eq hop'] at within tighter
      rw [hop, hop']
      simp only [← Int.not_le, within]
      split
      · rfl
      · refine descend_bind_congr h fun level level' same => bind_congr fun _ => ?_
        rw [same.chain tighter]
        exact bind_congr fun right => same.folds _ _ _ alike
  · rfl

/-- Levels that are the same have the same levels above them. -/
lemma Same.above (order : g.SameOrder g') : Same g g' (above g below) (above g' below') where
  expression := expressionAbove_eq h order
  operand := operandAbove_eq h order
  folds _ _ left alike := foldsAbove_eq h order alike left
  steps := stepsAbove_eq h

end

/-- All levels are the same for grammars with the operators in the same order. -/
theorem same_ofDepth (order : g.SameOrder g') (n : Nat) :
    Same g g' (ofDepth g n) (ofDepth g' n) := by
  induction n with
  | zero => exact .above .none order
  | succ n ih => exact .above (.some ih) order

end Level

/-! ### What tells grammars apart -/

namespace Grammar

def nameOperand : Operand := ⟨[], .identifier "a", []⟩

/-- Tokens that are read as an operand with operators are parsed as such. -/
lemma parse_of_reads_chain {ks : List Kind} {e : Expr} (closed : e.freeRelative? = none)
    (h : ∀ rest, (Kind.first rest).closes = true →
      Reads False ((Level.ofDepth g 63).chain Level.anyPrecedence) (ks ++ rest) e rest) :
    parse g (ks.map Token.ofKind) = .ok e := by
  have whole : ∀ rest, (Kind.first rest).closes = true →
      Reads False (parseExpression g) (ks ++ rest) e rest := by
    refine fun rest hrest => Level.reads_expression nofun fun m hm => ?_
    obtain rfl : m = 63 := Nat.succ.inj hm.symm
    exact Level.reads_conditional_stop hrest (h rest hrest)
  have parsed := parse_of_reads whole closed (.inl (Token.map_kind_ofKind ks))
  exact parsed.resolve_right And.left

/-- A unary operator can be told by an expression. -/
lemma parse_unary {s : String} (registered : g.unary.contains s = true) :
    parse g ([.operator .unary s, .identifier "a"].map Token.ofKind)
      = .ok (.unary s (.identifier "a")) := by
  refine parse_of_reads_chain rfl fun rest hrest => ?_
  have stop := Kind.continuesChain_of_closes hrest
  refine Reads.bind ?_ (Level.reads_folds_end stop _ _)
  refine Level.reads_operand_unary registered nofun fun m _ => ?_
  exact Level.reads_chain_operand nameOperand (by simp [nameOperand])
    (.inl ⟨rfl, rfl⟩) (Kind.continuesOperand_eq_false stop)

/-- Names with a few registered operators between them are grouped by their precedences. -/
lemma parse_names {symbols : List String} (few : symbols.length ≤ 63)
    (registered : ∀ s ∈ symbols, g.binary.contains s = true) :
    parse g ((.identifier "a" :: Level.linkKinds (symbols.map fun s => (s, nameOperand))).map
        Token.ofKind)
      = .ok (Expr.group g.precedence (.identifier "a")
          (symbols.map fun s => (s, .identifier "a"))) := by
  have hlinks : Level.linkExprs (symbols.map fun s => (s, nameOperand))
      = symbols.map fun s => (s, .identifier "a") := by
    rw [Level.linkExprs, List.map_map]
    rfl
  refine parse_of_reads_chain ?_ fun rest hrest => ?_
  · refine Expr.freeRelative?_group rfl fun x hx => ?_
    obtain ⟨s, -, rfl⟩ := List.mem_map.1 hx
    rfl
  · rw [← hlinks]
    have unary : ∀ s ∈ nameOperand.prefixes, g.unary.contains s = true := by simp [nameOperand]
    refine Level.reads_chain unary (.inl ⟨rfl, rfl⟩)
      (fun link hlink => ?_) (.inl ⟨by simpa using few, fun link hlink => ?_⟩)
      (Kind.continuesChain_of_closes hrest)
    · obtain ⟨s, hs, rfl⟩ := List.mem_map.1 hlink
      exact ⟨registered s hs, by simp [nameOperand]⟩
    · obtain ⟨s, hs, rfl⟩ := List.mem_map.1 hlink
      exact ⟨rfl, rfl⟩

lemma group_one (prec : String → Int) (a b : Expr) (s : String) :
    Expr.group prec a [(s, b)] = .binary s a b := by
  rw [Expr.group_cons (by simp), Expr.group_nil]

/-- Of two operators the last one is at the root, unless it binds tighter. -/
lemma group_two (prec : String → Int) (a : Expr) (s t : String) :
    Expr.group prec a [(s, a), (t, a)]
      = if prec t ≤ prec s then .binary t (.binary s a a) a else .binary s a (.binary t a a) := by
  split
  · rename_i loose
    rw [Expr.group_cons (by simpa using loose), group_one]
  · rename_i tight
    have split := @Expr.group_append_cons prec a a s [] [(t, a)] (by simp) (by simpa using tight)
    rwa [List.nil_append, Expr.group_nil, group_one] at split

section

variable (same : ∀ tokens, parse g tokens = parse g' tokens)
include same

lemma unary_of_parse {s : String} (registered : g.unary.contains s = true) :
    g'.unary.contains s = true :=
  (regular_of_parse ((same _).symm.trans (parse_unary registered))).1.registered

/-- A binary operator of the one grammar is one of the other. -/
lemma binary_of_parse {s : String} (registered : g.binary.contains s = true) :
    g'.binary.contains s = true := by
  have known : ∀ x ∈ [s], g.binary.contains x = true := List.forall_mem_singleton.2 registered
  have parsed := parse_names (by simp) known
  rw [List.map_singleton, List.map_singleton, group_one] at parsed
  exact (regular_of_parse ((same _).symm.trans parsed)).1.registered

/-- Two operators bind in the same order, as the grouping of three names tells. -/
lemma precedence_le_iff_of_parse {s t : String} (hs : g.binary.contains s = true)
    (ht : g.binary.contains t = true) :
    g.precedence t ≤ g.precedence s ↔ g'.precedence t ≤ g'.precedence s := by
  have known : ∀ x ∈ [s, t], g.binary.contains x = true := by simp [hs, ht]
  have known' : ∀ x ∈ [s, t], g'.binary.contains x = true :=
    fun x hx => binary_of_parse same (known x hx)
  have trees := (parse_names (by simp) known).symm.trans
    ((same _).trans (parse_names (by simp) known'))
  have tree := Except.ok.inj trees
  simp only [List.map_cons, List.map_nil, group_two] at tree
  by_cases loose : g.precedence t ≤ g.precedence s
  · by_cases loose' : g'.precedence t ≤ g'.precedence s
    · exact iff_of_true loose loose'
    · rw [if_pos loose, if_neg loose'] at tree
      cases tree
  · by_cases loose' : g'.precedence t ≤ g'.precedence s
    · rw [if_neg loose, if_pos loose'] at tree
      cases tree
    · exact iff_of_false loose loose'

end

end Grammar

variable {g g' : Grammar}

/-- Two grammars read all tokens alike, with the same expressions and the same errors, if and only
if they have the same operators in the same order of precedences. -/
theorem parse_eq_iff_sameOrder :
    (∀ tokens, parse g tokens = parse g' tokens) ↔ g.SameOrder g' := by
  constructor
  · intro same
    have symm := fun tokens => (same tokens).symm
    refine ⟨fun s => ?_, fun s => ?_, fun s t hs ht => ?_⟩
    · exact Bool.eq_iff_iff.2 ⟨Grammar.unary_of_parse same, Grammar.unary_of_parse symm⟩
    · exact Bool.eq_iff_iff.2 ⟨Grammar.binary_of_parse same, Grammar.binary_of_parse symm⟩
    · have le := Grammar.precedence_le_iff_of_parse same ht hs
      have ge := Grammar.precedence_le_iff_of_parse same hs ht
      rcases lt_trichotomy (g.precedence s) (g.precedence t) with less | equal | greater
      · have less' : g'.precedence s < g'.precedence t := by omega
        rw [compare_lt_iff_lt.2 less, compare_lt_iff_lt.2 less']
      · have equal' : g'.precedence s = g'.precedence t := by omega
        rw [compare_eq_iff_eq.2 equal, compare_eq_iff_eq.2 equal']
      · have greater' : g'.precedence t < g'.precedence s := by omega
        rw [compare_gt_iff_gt.2 greater, compare_gt_iff_gt.2 greater']
  · intro order tokens
    have reading : parseExpression g = parseExpression g' :=
      (Level.same_ofDepth order maxNesting).expression
    rw [parse, parse, parseAll_eq, parseAll_eq, reading]

end Sift
