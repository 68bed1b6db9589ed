import Mathlib.Order.Bounds.Basic
import Sift.Proofs.Parse.Chain
import Sift.Proofs.Parse.Spelling
import Sift.Proofs.Parse.Yields

/-!
# Nesting of parsed expressions

A level of nesting is used up by every group, item, branch, operand of a unary operator, fold and
postfix step. The levels that a loop over folds or postfix steps uses up are free again behind it,
although the expression that it has built stays as high as it is. So `maxNesting` bounds the paths
of a parsed expression only if their edges to leading parts do not count. Their heights are bounded
by the loops that each level allows (`Level.Within` for both ways of counting), and there are
expressions of the greatest height that this leaves room for (`Level.highest`).
-/

namespace Sift

open Token (Kind)

namespace Level

open Parse

/-! ### Limits of each production -/

section

variable (lead fold : Nat)

/-- The limit of what is read as a conditional with some number of levels left. Edges to leading
parts weigh `lead`, those to left operands weigh `fold`. -/
def conditionalLimit : Nat → Nat
  | 0 => 0
  | n + 1 => conditionalLimit n + 1 + lead * (n + 1) + fold * (n + 1) + lead

/-- The limit of primaries, which any expression is below. -/
def primaryLimit : Nat → Nat
  | 0 => 0
  | n + 1 => conditionalLimit lead fold n + 1

/-- The limit of operands. -/
def operandLimit (n : Nat) : Nat := primaryLimit lead fold n + lead * n

/-- The limit of chains of binary operators. -/
def chainLimit (n : Nat) : Nat := operandLimit lead fold n + fold * n

lemma conditionalLimit_succ (n : Nat) :
    conditionalLimit lead fold (n + 1) = chainLimit lead fold (n + 1) + lead := rfl

lemma chainLimit_le_conditionalLimit (n : Nat) :
    chainLimit lead fold n ≤ conditionalLimit lead fold n := by
  cases n with
  | zero => simp [chainLimit, operandLimit, primaryLimit]
  | succ n => exact Nat.le_add_right _ _

lemma primaryLimit_le_conditionalLimit (n : Nat) :
    primaryLimit lead fold n ≤ conditionalLimit lead fold n := by
  have := chainLimit_le_conditionalLimit lead fold n
  rw [chainLimit, operandLimit] at this
  omega

lemma primaryLimit_lt_succ (n : Nat) :
    primaryLimit lead fold n < primaryLimit lead fold (n + 1) :=
  Nat.lt_succ_of_le (primaryLimit_le_conditionalLimit lead fold n)

lemma operandLimit_lt_succ (n : Nat) :
    operandLimit lead fold n < operandLimit lead fold (n + 1) := by
  have := primaryLimit_lt_succ lead fold n
  rw [operandLimit, operandLimit, Nat.mul_succ]
  omega

/-- The right operand of a fold is far below the limit of the chain. -/
lemma chainLimit_add_lt (n : Nat) :
    chainLimit lead fold n + fold * n < operandLimit lead fold (n + 1) + fold * (n + 1) := by
  have := chainLimit_le_conditionalLimit lead fold n
  rw [operandLimit, primaryLimit, Nat.mul_succ, Nat.mul_succ]
  omega

end

/-! ### Every result is within the limits -/

/-- What is read with some number of levels left is within the limits. -/
structure Within (lead fold n : Nat) (level : Level) : Prop where
  expression : Yields level.expression fun e => e.pathWeight lead < primaryLimit lead fold n
  steps : ∀ subject, Yields (level.steps subject) fun e =>
    e.pathWeight lead ≤ max (subject.pathWeight lead) (primaryLimit lead fold n) + lead * n
  operand : Yields level.operand fun e => e.pathWeight lead ≤ operandLimit lead fold n
  folds : ∀ least left, Yields (level.folds least left) fun e =>
    e.pathWeight lead ≤ max (left.pathWeight lead) (operandLimit lead fold n) + fold * n

namespace Within

variable {lead fold n : Nat} {g : Grammar} {level : Level}

lemma chain (h : Within lead fold n level) (least : Int) :
    Yields (level.chain least) fun e => e.pathWeight lead ≤ chainLimit lead fold n := by
  refine h.operand.bind fun left hleft => (h.folds least left).mono fun e he => ?_
  rw [chainLimit]
  omega

/-- A branch adds one edge to a chain. -/
lemma conditional (h : Within lead fold n level) :
    Yields level.conditional fun e => e.pathWeight lead ≤ conditionalLimit lead fold n := by
  have hchain := chainLimit_le_conditionalLimit lead fold n
  have branch : ∀ e : Expr, e.pathWeight lead < primaryLimit lead fold n →
      chainLimit lead fold n + lead ≤ conditionalLimit lead fold n ∧
        e.pathWeight lead + 1 ≤ conditionalLimit lead fold n := by
    intro e he
    have hprimary := primaryLimit_le_conditionalLimit lead fold n
    cases n with
    | zero => exact absurd he (Nat.not_lt_zero _)
    | succ n => exact ⟨(conditionalLimit_succ lead fold n).ge, by omega⟩
  refine yields_conditional h.expression (h.chain anyPrecedence) (fun e he => by omega) ?_ ?_
  · intro e he b hb
    have := branch b hb
    rw [Expr.pathWeight]
    omega
  · intro e he a ha b hb
    have := branch a ha
    have := branch b hb
    rw [Expr.pathWeight]
    omega

/-- What comes first in an operand is below the limit if the expressions in it are. -/
lemma primary {expression : Parse Expr}
    (h : Yields expression fun e => e.pathWeight lead < primaryLimit lead fold n) :
    Yields (primary expression) fun e => e.pathWeight lead ≤ primaryLimit lead fold n := by
  refine yields_primary h (fun _ => Nat.zero_le _) (fun _ => Nat.zero_le _)
    (fun _ => Nat.zero_le _) (fun _ => Nat.le_of_lt) ?_ ?_ ?_
  · intro name arguments hargs
    rw [Expr.pathWeight]
    exact Expr.pathWeightAll_le_iff.2 hargs
  · intro items hitems
    rw [Expr.pathWeight]
    exact Expr.pathWeightAll_le_iff.2 hitems
  · intro entries hentries
    rw [Expr.pathWeight]
    exact Expr.pathWeightEntries_le_iff.2 hentries

section

variable (h : Within lead fold n level)

include h

lemma expression_above : Yields (expressionAbove (some level)) fun e =>
    e.pathWeight lead < primaryLimit lead fold (n + 1) :=
  h.conditional.mono fun _ he => Nat.lt_succ_of_le he

/-- Every postfix step uses up a level, and leads to what is before it. -/
lemma steps_above (subject : Expr) : Yields (stepsAbove (some level) subject) fun e =>
    e.pathWeight lead
      ≤ max (subject.pathWeight lead) (primaryLimit lead fold (n + 1)) + lead * (n + 1) := by
  have hprimary := primaryLimit_lt_succ lead fold n
  rw [Nat.mul_succ]
  refine yields_stepsAbove_some h.expression ?_ ?_ ?_ ?_
  · omega
  · intro name
    refine (h.steps _).mono fun e he => ?_
    rw [Expr.pathWeight] at he
    omega
  · intro predicate hpredicate
    refine (h.steps _).mono fun e he => ?_
    rw [Expr.pathWeight] at he
    omega
  · intro name arguments hargs
    refine (h.steps _).mono fun e he => ?_
    have := Expr.pathWeightAll_le_iff.2 hargs
    rw [Expr.pathWeight] at he
    omega

/-- An operand adds a unary operator to one of the level below, or postfix steps to what comes
first. -/
lemma operand_above : Yields (operandAbove g (some level)) fun e =>
    e.pathWeight lead ≤ operandLimit lead fold (n + 1) := by
  refine yields_operandAbove h.expression_above ?_ ?_
  · rintro symbol _ - ⟨⟩
    refine h.operand.mono fun e he => ?_
    have := operandLimit_lt_succ lead fold n
    rw [Expr.pathWeight]
    omega
  · refine (primary h.expression_above).bind fun subject hsubject => ?_
    refine (h.steps_above subject).mono fun e he => ?_
    rw [operandLimit]
    omega

/-- Every fold uses up a level, and leads to its left operand. -/
lemma folds_above (hfold : ∀ symbol op, g.binary.get? symbol = some op → fold = lead)
    (least : Int) (left : Expr) : Yields (foldsAbove g (some level) least left) fun e =>
      e.pathWeight lead
        ≤ max (left.pathWeight lead) (operandLimit lead fold (n + 1)) + fold * (n + 1) := by
  refine yields_foldsAbove ?_ ?_
  · omega
  · rintro symbol op _ registered ⟨⟩ -
    refine (h.chain _).bind fun right hright => (h.folds _ _).mono fun e he => ?_
    obtain rfl := hfold symbol op registered
    have hoperand := operandLimit_lt_succ fold fold n
    have hlimit := chainLimit_add_lt fold fold n
    rw [Expr.pathWeight] at he
    rw [Nat.mul_succ] at hlimit ⊢
    omega

/-- What is read above a level is within the limits for one more level. -/
lemma above (hfold : ∀ symbol op, g.binary.get? symbol = some op → fold = lead) :
    Within lead fold (n + 1) (above g (some level)) :=
  ⟨h.expression_above, h.steps_above, h.operand_above, h.folds_above hfold⟩

end

/-- At the lowest level only leaves and empty lists can be read. -/
lemma lowest (lead fold : Nat) (g : Grammar) :
    Within lead fold 0 (Level.above g none) := by
  have hexpression : Yields (expressionAbove none) fun e =>
      e.pathWeight lead < primaryLimit lead fold 0 :=
    (yields_tooDeep fun _ => False).bind fun _ no => no.elim
  have hsteps : ∀ subject, Yields (stepsAbove none subject) fun e => e.pathWeight lead ≤
      max (subject.pathWeight lead) (primaryLimit lead fold 0) + lead * 0 :=
    fun subject => yields_stepsAbove_none (by omega)
  refine ⟨hexpression, hsteps, ?_, fun least left => ?_⟩
  · refine yields_operandAbove hexpression (by simp) ?_
    refine (primary hexpression).bind fun subject hsubject => (hsteps subject).mono fun e he => ?_
    rw [operandLimit]
    omega
  · exact yields_foldsAbove (by omega) (by simp)

end Within

variable {lead fold : Nat} {g : Grammar}

/-- What is read with some number of levels left is within the limits. If there are binary
operators, their left operands must weigh as other leading parts do. -/
lemma within_ofDepth (hfold : ∀ symbol op, g.binary.get? symbol = some op → fold = lead)
    (n : Nat) : Within lead fold n (ofDepth g n) := by
  induction n with
  | zero => exact .lowest lead fold g
  | succ n ih => exact ih.above hfold

/-! ### Expressions of the greatest height -/

section

variable (g : Grammar)

/-- Links with the first binary operator, if there is one. -/
def firstLinks (n : Nat) : List (String × Operand) :=
  match g.binary.keys with
  | [] => []
  | symbol :: _ => List.replicate n (symbol, ⟨[], .identifier "x", []⟩)

def memberSteps (n : Nat) : List Step := List.replicate n (.member "x")

/-- An expression that uses up every level left in every loop: the one for one level less in an
array, then postfix steps, folds and a branch. -/
def highest : Nat → Expr
  | 0 => .identifier "x"
  | n + 1 => .fallback
    (Expr.group g.precedence
      ((memberSteps (n + 1)).foldl Step.apply (.array [highest n]))
      (linkExprs (firstLinks g (n + 1))))
    (.identifier "x")

def highestKinds : Nat → List Kind
  | 0 => [.identifier "x"]
  | n + 1 => .punctuation .openBracket :: (highestKinds n ++ .punctuation .closeBracket ::
    ((memberSteps (n + 1)).flatMap Step.kinds ++ (linkKinds (firstLinks g (n + 1)) ++
      [.punctuation .question, .punctuation .colon, .identifier "x"])))

end

lemma knowsLink_of_mem_firstLinks {n : Nat} : ∀ link ∈ firstLinks g n, KnowsLink g link := by
  rw [firstLinks]
  split
  · simp
  · rename_i symbol rest keys
    intro link hlink
    obtain rfl := List.eq_of_mem_replicate hlink
    exact ⟨Dict.contains_iff.2 (by simp [keys]), by simp⟩

/-- The links fit into the levels that are left. -/
lemma fits_firstLinks (n : Nat) : Fits False n (firstLinks g n) := by
  refine .inl ?_
  rw [firstLinks]
  split
  · simp
  · refine ⟨List.length_replicate.le, fun link hlink => ?_⟩
    obtain rfl := List.eq_of_mem_replicate hlink
    exact ⟨rfl, rfl⟩

/-- An expression of the greatest height is read. -/
lemma reads_highest (n : Nat) {ks : List Kind} (h : (Kind.first ks).closes = true) :
    Reads False (ofDepth g n).conditional (highestKinds g n ++ ks) (highest g n) ks := by
  have hname : Readable g true (.identifier "x") := .identifier "x"
  induction n generalizing ks with
  | zero =>
    have read := hname.read (Nat.le_refl 1) h
    rwa [expression_succ] at read
  | succ n ih =>
    have hitem : ReadsItem False (ofDepth g (n + 1)).expression .closeBracket
        (highest g n) (highestKinds g n) := by
      refine ⟨by cases n <;> rfl, by cases n <;> simp [highestKinds], fun ks hks => ?_⟩
      apply reads_expression (by simp)
      intro m hm
      obtain rfl : n = m := by omega
      exact ih (by obtain h | h := hks <;> rw [h] <;> rfl)
    have harray : ∀ ks, Reads False (primary (ofDepth g (n + 1)).expression)
        (.punctuation .openBracket :: (highestKinds g n ++ .punctuation .closeBracket :: ks))
        (.array [highest g n]) ks := by
      intro ks
      have hitems : Reads False (items (ofDepth g (n + 1)).expression .closeBracket)
          (separated [highestKinds g n] ++ .punctuation .closeBracket :: ks) [highest g n] ks :=
        reads_items (.cons hitem .nil) (by simp)
      exact reads_array hitems
    have hoperand : ∀ ks, (Kind.first ks).continuesOperand = false → Reads False
        (ofDepth g (n + 1)).operand (.punctuation .openBracket :: (highestKinds g n ++
          .punctuation .closeBracket :: ((memberSteps (n + 1)).flatMap Step.kinds ++ ks)))
        ((memberSteps (n + 1)).foldl Step.apply (.array [highest g n])) ks := fun ks h =>
      reads_operand (by simp) (harray _) (reads_steps h rfl (.inl List.length_replicate.le))
    simp only [highestKinds, List.cons_append, List.append_assoc, List.nil_append]
    refine reads_fallback ((hoperand _ (continuesOperand_first_links _ rfl)).bind ?_)
      (hname.read (Nat.succ_pos n) h)
    exact reads_folds_all knowsLink_of_mem_firstLinks (fits_firstLinks (n + 1)) rfl _

/-- The weight of the edges to left operands: none if there are no binary operators. -/
def foldWeight (g : Grammar) : Nat := if g.binary.keys = [] then 0 else 1

lemma height_foldl_memberSteps (n : Nat) (e : Expr) :
    ((memberSteps n).foldl Step.apply e).height = e.height + n := by
  induction n generalizing e with
  | zero => rfl
  | succ n ih =>
    rw [memberSteps, List.replicate_succ, List.foldl_cons, ← memberSteps, ih, Step.apply,
      Expr.height_member]
    omega

/-- Folds to the left add an edge each. -/
lemma height_group_firstLinks (n : Nat) (e : Expr) :
    (Expr.group g.precedence e (linkExprs (firstLinks g n))).height
      = e.height + foldWeight g * n := by
  rw [firstLinks, foldWeight]
  split
  · rename_i none
    rw [linkExprs_nil, Expr.group_nil, if_pos none, Nat.zero_mul, Nat.add_zero]
  · rename_i symbol rest keys
    rw [keys, if_neg (List.cons_ne_nil _ _), Nat.one_mul, linkExprs, List.map_replicate,
      Expr.group_replicate]
    induction n generalizing e with
    | zero => rfl
    | succ n ih =>
      have hname : (Operand.expr ⟨[], .identifier "x", []⟩).height = 0 := rfl
      rw [Function.iterate_succ_apply, ih, Expr.height_binary, hname]
      omega

/-- The expression that uses up every level is as high as the limit. -/
lemma height_highest (n : Nat) : (highest g n).height = conditionalLimit 1 (foldWeight g) n := by
  induction n with
  | zero => rfl
  | succ n ih =>
    have harray : (Expr.array [highest g n]).height = (highest g n).height + 1 := by
      rw [Expr.height_array, Expr.pathWeightAll, Expr.pathWeightAll, Nat.max_zero, Expr.height]
    have hname : (Expr.identifier "x").height = 0 := rfl
    rw [highest, Expr.height_fallback, height_group_firstLinks, height_foldl_memberSteps, harray,
      hname, ih, conditionalLimit]
    omega

lemma freeRelative?_highest (n : Nat) : (highest g n).freeRelative? = none := by
  induction n with
  | zero => rfl
  | succ n ih =>
    have harray : (Expr.array [highest g n]).freeRelative? = none := by
      rw [Expr.freeRelative?, Expr.freeRelativeAny?, ih]
      rfl
    have htest : (Expr.group g.precedence ((memberSteps (n + 1)).foldl Step.apply
        (.array [highest g n])) (linkExprs (firstLinks g (n + 1)))).freeRelative? = none := by
      refine Expr.freeRelative?_group ?_ fun x hx => ?_
      · rw [Step.freeRelative?_foldl_apply, harray]
      · obtain ⟨link, -, rfl⟩ := List.mem_map.1 hx
        exact link.2.freeRelative?_expr
    rw [highest, Expr.freeRelative?, htest]
    rfl

end Level

/-! ### Parsed expressions -/

variable {g : Grammar} {tokens : List Token} {e : Expr}

/-- The levels that edges to other than leading parts need are never used up. -/
theorem nesting_lt_of_parse (h : parse g tokens = .ok e) : e.nesting < maxNesting := by
  have hwithin : Level.Within 0 0 maxNesting (Level.ofDepth g maxNesting) :=
    Level.within_ofDepth (fun _ _ _ => rfl) maxNesting
  exact of_parse hwithin.expression h

/-- The height is limited by the loops that each level allows. -/
theorem height_le_of_parse (h : parse g tokens = .ok e) :
    e.height ≤ Level.conditionalLimit 1 (Level.foldWeight g) 63 := by
  have hfold : ∀ symbol op, g.binary.get? symbol = some op → Level.foldWeight g = 1 := by
    intro symbol op registered
    have hmem : symbol ∈ g.binary.keys := by
      rw [← Dict.contains_iff, Dict.contains, registered]
      rfl
    exact if_neg (List.ne_nil_of_mem hmem)
  exact Nat.le_of_lt_succ (of_parse (Level.within_ofDepth hfold maxNesting).expression h)

/-- The limit of the height is reached. -/
lemma exists_parse_highest (g : Grammar) :
    ∃ tokens, parse g tokens = .ok (Level.highest g 63) := by
  have hreads : ∀ rest, (Kind.first rest).closes = true → Parse.Reads False (parseExpression g)
      (Level.highestKinds g 63 ++ rest) (Level.highest g 63) rest := by
    refine fun rest hrest => Level.reads_expression (by simp [maxNesting]) fun m hm => ?_
    obtain rfl : 63 = m := Nat.succ.inj hm
    exact Level.reads_highest 63 hrest
  have hparse := parse_of_reads hreads (Level.freeRelative?_highest 63)
    (.inl (Token.map_kind_ofKind (Level.highestKinds g 63)))
  exact ⟨_, hparse.resolve_right And.left⟩

/-- However deep the parts of a parsed expression lie below other than leading parts, they are
within the limit. The greatest height is beyond it in every grammar, with or without binary
operators. -/
theorem nesting_lt_and_isGreatest_height (g : Grammar) :
    (∀ tokens e, parse g tokens = .ok e → e.nesting < maxNesting) ∧
    IsGreatest {h | ∃ tokens e, parse g tokens = .ok e ∧ e.height = h}
      (if g.binary.keys = [] then 2142 else 4158) := by
  have hlimit : (if g.binary.keys = [] then 2142 else 4158)
      = Level.conditionalLimit 1 (Level.foldWeight g) 63 := by
    rw [Level.foldWeight]
    split <;> rfl
  rw [hlimit]
  refine ⟨fun tokens e => nesting_lt_of_parse, ?_, ?_⟩
  · obtain ⟨tokens, h⟩ := exists_parse_highest g
    exact ⟨tokens, _, h, Level.height_highest 63⟩
  · rintro _ ⟨tokens, e, h, rfl⟩
    exact height_le_of_parse h

/-- Thirty-three minus signs before a name, and thirty-two sums behind it. -/
def steepKinds : List Kind :=
  List.replicate 33 (Kind.operator .unary "-") ++ Kind.identifier "a" ::
    (List.replicate 32 [Kind.operator .binary "+", Kind.identifier "a"]).flatten

/-- The expression of `steepKinds`. -/
def steep : Expr :=
  (fun left => Expr.binary "+" left (.identifier "a"))^[32]
    ((Expr.unary "-")^[33] (.identifier "a"))

/-- The expression of the minus signs and sums is read. -/
lemma parse_steep : parse .standard (steepKinds.map Token.ofKind) = .ok steep := by
  rfl

/-- There are expressions with longer paths than the deepest nesting. -/
theorem not_forall_height_le_maxNesting : ¬ ∀ (g : Grammar) (tokens : List Token) (e : Expr),
    parse g tokens = .ok e → e.height ≤ maxNesting := by
  intro h
  have hheight : steep.height = maxNesting + 1 := by decide +kernel
  have := h .standard _ steep parse_steep
  omega

end Sift
