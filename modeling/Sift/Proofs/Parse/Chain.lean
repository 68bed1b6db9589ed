import Mathlib.Data.List.TakeWhile
import Sift.Proofs.Expr.Grouping
import Sift.Proofs.Parse.Reads

/-!
# Chains of binary operators

A chain is spelled as operands with binary operators between them. An operand is a literal or a name
with postfix steps after it and unary operators before it. The parser groups a chain as `Expr.group`
does: at the rightmost operator of least precedence, with the postfix steps applied before the unary
operators. The invariant of the loop over the operators (`Level.reads_folds`) is that it takes
exactly the links down to a least precedence and groups them.
-/

namespace Sift

open Token (Kind)

/-- The precedence of a binary operator, zero if there is none of that symbol. -/
def Grammar.precedence (g : Grammar) (symbol : String) : Int :=
  match g.binary.get? symbol with
  | some op => op.precedence.toInt
  | none => 0

lemma Grammar.precedence_eq {g : Grammar} {symbol : String} {op : BinaryOperator}
    (h : g.binary.get? symbol = some op) : g.precedence symbol = op.precedence.toInt := by
  simp only [precedence, h]

/-! ### Operands -/

/-- What an operand is made around. -/
inductive Atom where
  | literal (v : Value)
  | identifier (name : String)

namespace Atom

def kind : Atom → Kind
  | literal v => .literal v
  | identifier name => .identifier name

def expr : Atom → Expr
  | literal v => .literal v
  | identifier name => .identifier name

end Atom

/-- A postfix step of an operand. -/
inductive Step where
  | member (name : String)
  | transform (name : String)

namespace Step

def kinds : Step → List Kind
  | member name => [.punctuation .dot, .identifier name]
  | transform name => [.punctuation .pipe, .identifier name]

/-- The step applied to what is before it, which is no relative path. -/
def apply (e : Expr) : Step → Expr
  | member name => .member e name false
  | transform name => .transform name e []

lemma isRelativePath_apply (e : Expr) (step : Step) : (step.apply e).isRelativePath = false := by
  cases step <;> rfl

/-- Steps read no elements of their own. -/
lemma freeRelative?_foldl_apply (steps : List Step) (e : Expr) :
    (steps.foldl apply e).freeRelative? = e.freeRelative? := by
  induction steps generalizing e with
  | nil => rfl
  | cons step steps ih =>
    rw [List.foldl_cons, ih]
    cases step with
    | member name => rfl
    | transform name => simp [apply, Expr.freeRelative?, Expr.freeRelativeAny?]

end Step

/-- An operand with its unary operators, from the outermost to the innermost, and its postfix steps
in source order. -/
structure Operand where
  prefixes : List String
  atom : Atom
  steps : List Step

namespace Operand

def kinds (o : Operand) : List Kind :=
  o.prefixes.map (.operator .unary) ++ o.atom.kind :: o.steps.flatMap Step.kinds

/-- The operand as an expression: the steps are applied first, then the unary operators. -/
def expr (o : Operand) : Expr := o.prefixes.foldr .unary (o.steps.foldl Step.apply o.atom.expr)

def Single (o : Operand) : Prop := o.prefixes = [] ∧ o.steps = []

lemma freeRelative?_expr (o : Operand) : o.expr.freeRelative? = none := by
  obtain ⟨prefixes, atom, steps⟩ := o
  rw [expr]
  induction prefixes with
  | nil =>
    rw [List.foldr_nil, Step.freeRelative?_foldl_apply]
    cases atom <;> rfl
  | cons symbol prefixes ih => exact ih

end Operand

namespace Level

open Parse

variable {g : Grammar} {deep : Prop} {n : Nat} {ks : List Kind}

lemma isPunctuation_first_steps (steps : List Step)
    (h : (Kind.first ks).continuesOperand = false) :
    (Kind.first (steps.flatMap Step.kinds ++ ks)).isPunctuation .openParen = false := by
  cases steps with
  | nil => exact Kind.isPunctuation_openParen h
  | cons step steps => cases step <;> rfl

/-- Postfix steps are read one after the other, as long as there are levels. -/
lemma reads_steps {steps : List Step} (h : (Kind.first ks).continuesOperand = false)
    {subject : Expr} (absolute : subject.isRelativePath = false)
    (room : steps.length ≤ n ∨ deep) :
    Reads deep ((ofDepth g n).steps subject) (steps.flatMap Step.kinds ++ ks)
      (steps.foldl Step.apply subject) ks := by
  induction steps generalizing n subject with
  | nil => exact reads_steps_stop h subject
  | cons step steps ih =>
    have bottom : n = 0 → deep := fun hn => room.resolve_left (by simp [hn])
    have hrest : ∀ m, n = m + 1 → Reads deep ((ofDepth g m).steps (step.apply subject))
        (steps.flatMap Step.kinds ++ ks) ((step :: steps).foldl Step.apply subject) ks := by
      intro m hm
      refine ih (Step.isRelativePath_apply subject step) (room.imp_left fun hlength => ?_)
      rw [List.length_cons] at hlength
      omega
    cases step with
    | member name =>
      apply reads_steps_member bottom
      intro m hm
      rw [absolute]
      exact hrest m hm
    | transform name =>
      exact reads_steps_transform bottom (isPunctuation_first_steps steps h) hrest

/-- A single token is read as an operand. -/
lemma reads_atom (a : Atom) (bare : (Kind.first ks).isPunctuation .openParen = false)
    {expression : Parse Expr} : Reads deep (primary expression) (a.kind :: ks) a.expr ks := by
  cases a with
  | literal v => exact reads_literal v
  | identifier name => exact reads_identifier bare

lemma isRelativePath_atom (a : Atom) : a.expr.isRelativePath = false := by
  cases a <;> rfl

/-- An operand is read as far as it goes. -/
lemma reads_chain_operand (o : Operand) (registered : ∀ s ∈ o.prefixes, g.unary.contains s = true)
    (room : o.Single ∨ deep) (h : (Kind.first ks).continuesOperand = false) :
    Reads deep (ofDepth g n).operand (o.kinds ++ ks) o.expr ks := by
  obtain ⟨prefixes, atom, steps⟩ := o
  simp only [Operand.kinds, Operand.expr, List.append_assoc, List.cons_append]
  induction prefixes generalizing n with
  | nil =>
    have hatom : ∀ symbol, Kind.first (atom.kind :: (steps.flatMap Step.kinds ++ ks))
        ≠ .operator .unary symbol := by
      cases atom <;> simp [Atom.kind]
    refine reads_operand hatom (reads_atom atom (isPunctuation_first_steps steps h)) ?_
    refine reads_steps h (isRelativePath_atom atom) (room.imp_left fun single => ?_)
    have hsteps : steps = [] := single.2
    simp [hsteps]
  | cons symbol prefixes ih =>
    have hdeep : deep := room.resolve_left fun single => by simp [Operand.Single] at single
    refine reads_operand_unary (registered symbol (by simp)) (fun _ => hdeep) fun m _ => ?_
    exact ih (fun s hs => registered s (by simp [hs])) (.inr hdeep)

/-! ### The loop over the operators -/

def linkKinds (links : List (String × Operand)) : List Kind :=
  links.flatMap fun link => .operator .binary link.1 :: link.2.kinds

/-- The operators of links with their operands as expressions. -/
def linkExprs (links : List (String × Operand)) : List Expr.Link :=
  links.map fun link => (link.1, link.2.expr)

@[simp] lemma linkKinds_nil : linkKinds [] = [] := rfl

@[simp] lemma linkKinds_cons (link : String × Operand) (links : List (String × Operand)) :
    linkKinds (link :: links)
      = .operator .binary link.1 :: (link.2.kinds ++ linkKinds links) := rfl

@[simp] lemma linkExprs_nil : linkExprs [] = [] := rfl

@[simp] lemma linkExprs_cons (link : String × Operand) (links : List (String × Operand)) :
    linkExprs (link :: links) = (link.1, link.2.expr) :: linkExprs links := rfl

lemma linkExprs_append (links more : List (String × Operand)) :
    linkExprs (links ++ more) = linkExprs links ++ linkExprs more := List.map_append

section

variable (g) (least : Int) (links : List (String × Operand))

/-- The links up to the first one whose operator is below the least precedence. -/
def linksDownTo : List (String × Operand) :=
  links.takeWhile fun link => least ≤ g.precedence link.1

/-- The links from the first one on whose operator is below the least precedence. -/
def linksAfter : List (String × Operand) :=
  links.dropWhile fun link => least ≤ g.precedence link.1

end

variable {least : Int} {link : String × Operand} {links : List (String × Operand)}

@[simp] lemma linksDownTo_nil : linksDownTo g least [] = [] := rfl

@[simp] lemma linksAfter_nil : linksAfter g least [] = [] := rfl

lemma linksDownTo_cons (h : least ≤ g.precedence link.1) :
    linksDownTo g least (link :: links) = link :: linksDownTo g least links :=
  List.takeWhile_cons_of_pos (by simpa using h)

lemma linksAfter_cons (h : least ≤ g.precedence link.1) :
    linksAfter g least (link :: links) = linksAfter g least links :=
  List.dropWhile_cons_of_pos (by simpa using h)

lemma linksDownTo_cons_of_lt (h : g.precedence link.1 < least) :
    linksDownTo g least (link :: links) = [] :=
  List.takeWhile_cons_of_neg (by simpa using h)

lemma linksAfter_cons_of_lt (h : g.precedence link.1 < least) :
    linksAfter g least (link :: links) = link :: links :=
  List.dropWhile_cons_of_neg (by simpa using h)

/-- The links down to a precedence are those down to a greater one and then the rest. -/
lemma linksDownTo_append {most : Int} (h : least ≤ most) :
    linksDownTo g most links ++ linksDownTo g least (linksAfter g most links)
      = linksDownTo g least links := by
  induction links with
  | nil => rfl
  | cons link links ih =>
    by_cases tight : most ≤ g.precedence link.1
    · rw [linksDownTo_cons tight, linksAfter_cons tight, linksDownTo_cons (Int.le_trans h tight),
        List.cons_append, ih]
    · rw [Int.not_le] at tight
      rw [linksDownTo_cons_of_lt tight, linksAfter_cons_of_lt tight, List.nil_append]

lemma linksAfter_linksAfter {most : Int} (h : least ≤ most) :
    linksAfter g least (linksAfter g most links) = linksAfter g least links := by
  induction links with
  | nil => rfl
  | cons link links ih =>
    by_cases tight : most ≤ g.precedence link.1
    · rw [linksAfter_cons tight, linksAfter_cons (Int.le_trans h tight), ih]
    · rw [linksAfter_cons_of_lt (Int.not_le.1 tight)]

/-- All operators down to a least precedence bind at least as tightly. -/
lemma le_precedence_of_mem_linksDownTo (h : link ∈ linksDownTo g least links) :
    least ≤ g.precedence link.1 := by
  simpa using List.mem_takeWhile_imp h

lemma precedence_lt_of_mem_head?_linksAfter (h : link ∈ (linksAfter g least links).head?) :
    g.precedence link.1 < least := by
  have hnot := List.head?_dropWhile_not
    (fun link : String × Operand => decide (least ≤ g.precedence link.1)) links
  rw [← linksAfter, Option.mem_def.1 h] at hnot
  simpa using hnot

/-- The links down to a least precedence begin with the first one, or there are none. -/
lemma mem_head?_of_mem_head?_linksDownTo (h : link ∈ (linksDownTo g least links).head?) :
    link ∈ links.head? := by
  cases links with
  | nil => exact h
  | cons first links =>
    by_cases tight : least ≤ g.precedence first.1
    · rwa [linksDownTo_cons tight] at h
    · rw [linksDownTo_cons_of_lt (Int.not_le.1 tight)] at h
      cases h

lemma linksAfter_suffix : linksAfter g least links <:+ links := List.dropWhile_suffix _

/-- The grammar has the operators of a link in their roles. -/
def KnowsLink (g : Grammar) (link : String × Operand) : Prop :=
  g.binary.contains link.1 = true ∧ ∀ s ∈ link.2.prefixes, g.unary.contains s = true

lemma continuesOperand_first_links (links : List (String × Operand))
    (h : (Kind.first ks).continuesOperand = false) :
    (Kind.first (linkKinds links ++ ks)).continuesOperand = false := by
  cases links with
  | nil => exact h
  | cons link links => rfl

lemma anyPrecedence_le (known : KnowsLink g link) : anyPrecedence ≤ g.precedence link.1 := by
  obtain ⟨op, hop⟩ := Option.isSome_iff_exists.1 known.1
  rw [Grammar.precedence_eq hop]
  exact op.precedence.minValue_le_toInt

/-- No operator is below the least precedence of all. -/
lemma linksDownTo_anyPrecedence (known : ∀ link ∈ links, KnowsLink g link) :
    linksDownTo g anyPrecedence links = links :=
  List.takeWhile_eq_self_iff.2 fun link hlink => by simpa using anyPrecedence_le (known link hlink)

lemma linksAfter_anyPrecedence (known : ∀ link ∈ links, KnowsLink g link) :
    linksAfter g anyPrecedence links = [] :=
  List.dropWhile_eq_nil_iff.2 fun link hlink => by simpa using anyPrecedence_le (known link hlink)

/-- Building the operator of a link before the links that follow it down to a least precedence. -/
lemma group_link {left : Expr} {symbol : String} {operand : Operand}
    (tight : least ≤ g.precedence symbol) :
    Expr.group g.precedence
        (.binary symbol left (Expr.group g.precedence operand.expr
          (linkExprs (linksDownTo g (g.precedence symbol + 1) links))))
        (linkExprs (linksDownTo g least (linksAfter g (g.precedence symbol + 1) links)))
      = Expr.group g.precedence left
        (linkExprs (linksDownTo g least ((symbol, operand) :: links))) := by
  have more : least ≤ g.precedence symbol + 1 := by omega
  rw [linksDownTo_cons tight, ← @linksDownTo_append g least links _ more, linkExprs_cons,
    linkExprs_append, ← List.cons_append]
  refine (Expr.group_cons_append (fun x hx => ?_) fun x hx => ?_).symm
  · obtain ⟨link, hlink, rfl⟩ := List.mem_map.1 hx
    exact Int.lt_of_add_one_le (le_precedence_of_mem_linksDownTo hlink)
  · rw [linkExprs, List.head?_map] at hx
    obtain ⟨link, hlink, rfl⟩ := Option.map_eq_some_iff.1 hx
    have := precedence_lt_of_mem_head?_linksAfter (mem_head?_of_mem_head?_linksDownTo hlink)
    exact Int.le_of_lt_add_one this

/-- The links are single tokens and no more than there are levels, unless the nesting may be too
deep. -/
def Fits (deep : Prop) (n : Nat) (links : List (String × Operand)) : Prop :=
  (links.length ≤ n ∧ ∀ link ∈ links, link.2.Single) ∨ deep

namespace Fits

variable {m : Nat}

lemma bottom (fits : Fits deep n (link :: links)) (h : n = 0) : deep :=
  fits.resolve_left (by simp [h])

lemma single (fits : Fits deep n (link :: links)) : link.2.Single ∨ deep :=
  fits.imp_left fun ⟨_, single⟩ => single link (by simp)

/-- The links behind the first one fit into one level less. -/
lemma tail (fits : Fits deep n (link :: links)) (h : n = m + 1) : Fits deep m links := by
  refine fits.imp_left fun ⟨hlength, hsingle⟩ => ⟨?_, fun x hx => hsingle x (by simp [hx])⟩
  rw [List.length_cons] at hlength
  omega

lemma suffix (fits : Fits deep n links) {rest : List (String × Operand)} (h : rest <:+ links) :
    Fits deep n rest :=
  fits.imp_left fun ⟨hlength, hsingle⟩ =>
    ⟨h.length_le.trans hlength, fun x hx => hsingle x (h.subset hx)⟩

end Fits

/-- The loop over binary operators takes the links down to a least precedence and groups them. -/
theorem reads_folds (known : ∀ link ∈ links, KnowsLink g link) (fits : Fits deep n links)
    (h : (Kind.first ks).continuesChain = false) (least : Int) (left : Expr) :
    Reads deep ((ofDepth g n).folds least left) (linkKinds links ++ ks)
      (Expr.group g.precedence left (linkExprs (linksDownTo g least links)))
      (linkKinds (linksAfter g least links) ++ ks) := by
  induction n using Nat.strongRecOn generalizing links least left with
  | ind n ih =>
  cases links with
  | nil =>
    rw [linksDownTo_nil, linksAfter_nil, linkExprs_nil, linkKinds_nil, Expr.group_nil]
    exact reads_folds_end h least left
  | cons link links =>
    obtain ⟨symbol, operand⟩ := link
    obtain ⟨⟨registered, unary⟩, known⟩ := List.forall_mem_cons.1 known
    obtain ⟨op, hop⟩ := Option.isSome_iff_exists.1 registered
    have hprec : g.precedence symbol = op.precedence.toInt := Grammar.precedence_eq hop
    by_cases tight : least ≤ g.precedence symbol
    · -- the right operand takes the tighter links, and the loop goes on behind them
      have more : least ≤ g.precedence symbol + 1 := by omega
      have hrest : linksAfter g (g.precedence symbol + 1) links <:+ links := linksAfter_suffix
      have operandEnds := continuesOperand_first_links links (Kind.continuesOperand_eq_false h)
      have hright : ∀ m, n = m + 1 → Reads deep ((ofDepth g m).chain (g.precedence symbol + 1))
          (operand.kinds ++ (linkKinds links ++ ks))
          (Expr.group g.precedence operand.expr
            (linkExprs (linksDownTo g (g.precedence symbol + 1) links)))
          (linkKinds (linksAfter g (g.precedence symbol + 1) links) ++ ks) := fun m hm =>
        (reads_chain_operand operand unary fits.single operandEnds).bind
          (ih m (by omega) known (fits.tail hm) _ _)
      rw [linksAfter_cons tight, ← group_link tight, ← linksAfter_linksAfter more]
      rw [linkKinds_cons, List.cons_append, List.append_assoc]
      rw [hprec] at hright
      refine reads_folds_fold hop (by omega) fits.bottom fun m hm => ⟨hright m hm, ?_⟩
      rw [← hprec]
      exact ih m (by omega) (fun link hlink => known link (hrest.subset hlink))
        ((fits.tail hm).suffix hrest) _ _
    · have loose := Int.not_le.1 tight
      rw [linksDownTo_cons_of_lt loose, linksAfter_cons_of_lt loose, linkExprs_nil,
        Expr.group_nil]
      apply reads_folds_stop left
      intro other hother
      obtain rfl : symbol = other := by simpa [linkKinds] using hother
      exact ⟨op, hop, by omega⟩

/-- With the least precedence nothing is left over. -/
lemma reads_folds_all (known : ∀ link ∈ links, KnowsLink g link) (fits : Fits deep n links)
    (h : (Kind.first ks).continuesChain = false) (left : Expr) :
    Reads deep ((ofDepth g n).folds anyPrecedence left) (linkKinds links ++ ks)
      (Expr.group g.precedence left (linkExprs links)) ks := by
  have hfolds := reads_folds known fits h anyPrecedence left
  rwa [linksDownTo_anyPrecedence known, linksAfter_anyPrecedence known] at hfolds

/-- A chain is read as far as it goes. -/
theorem reads_chain {first : Operand} (unary : ∀ s ∈ first.prefixes, g.unary.contains s = true)
    (single : first.Single ∨ deep) (known : ∀ link ∈ links, KnowsLink g link)
    (fits : Fits deep n links) (h : (Kind.first ks).continuesChain = false) :
    Reads deep ((ofDepth g n).chain anyPrecedence) (first.kinds ++ (linkKinds links ++ ks))
      (Expr.group g.precedence first.expr (linkExprs links)) ks := by
  have operandEnds := continuesOperand_first_links links (Kind.continuesOperand_eq_false h)
  exact (reads_chain_operand first unary single operandEnds).bind
    (reads_folds_all known fits h first.expr)

end Level

/-! ### Whole chains -/

/-- A chain of operands with binary operators between them. -/
structure Chain where
  first : Operand
  links : List (String × Operand)

namespace Chain

def operands (c : Chain) : List Operand := c.first :: c.links.map Prod.snd

def kinds (c : Chain) : List Kind := c.first.kinds ++ Level.linkKinds c.links

/-- The chain split at the rightmost operator of least precedence, and so on on both sides. -/
def expr (g : Grammar) (c : Chain) : Expr :=
  Expr.group g.precedence c.first.expr (Level.linkExprs c.links)

/-- Every operator has been registered in its role. -/
def Registered (g : Grammar) (c : Chain) : Prop :=
  (∀ link ∈ c.links, g.binary.contains link.1 = true) ∧
    ∀ o ∈ c.operands, ∀ symbol ∈ o.prefixes, g.unary.contains symbol = true

/-- No operand has unary operators or postfix steps. -/
def Plain (c : Chain) : Prop := ∀ o ∈ c.operands, o.Single

variable {g : Grammar} {c : Chain}

lemma Registered.knowsLink (h : c.Registered g) : ∀ link ∈ c.links, Level.KnowsLink g link :=
  fun link hlink => ⟨h.1 link hlink, h.2 link.2 (by simp [operands, List.mem_map_of_mem hlink])⟩

/-- A chain reads no elements of a filter around it. -/
lemma freeRelative?_expr : (c.expr g).freeRelative? = none := by
  refine Expr.freeRelative?_group c.first.freeRelative?_expr fun x hx => ?_
  obtain ⟨link, -, rfl⟩ := List.mem_map.1 hx
  exact link.2.freeRelative?_expr

/-- Tokens of a chain are parsed as the chain split at the rightmost operator of least precedence,
or are nested too deeply. The latter does not happen to single tokens with fewer operators between
them than there are levels. -/
theorem parse_chain (registered : c.Registered g) {tokens : List Token}
    (htokens : tokens.map Token.kind = c.kinds ∨
      tokens.map Token.kind = c.kinds ++ [.endOfInput]) :
    (parse g tokens = .ok (c.expr g) ∨
      ∃ position, parse g tokens = .error (.tooDeep position)) ∧
    (c.links.length < maxNesting → c.Plain → parse g tokens = .ok (c.expr g)) := by
  have hparse : ∀ deep : Prop, (c.links.length < maxNesting ∧ c.Plain) ∨ deep →
      parse g tokens = .ok (c.expr g) ∨
        (deep ∧ ∃ position, parse g tokens = .error (.tooDeep position)) := by
    intro deep room
    refine parse_of_reads (fun rest hrest => ?_) freeRelative?_expr htokens
    refine Level.reads_expression (fun h => by simp [maxNesting] at h) fun m hm => ?_
    refine Level.reads_conditional_stop hrest ?_
    rw [kinds, List.append_assoc]
    refine Level.reads_chain (registered.2 c.first (by simp [operands])) ?_ registered.knowsLink ?_
      (Kind.continuesChain_of_closes hrest)
    · exact room.imp_left fun ⟨_, plain⟩ => plain c.first (by simp [operands])
    · refine room.imp_left fun ⟨hlength, plain⟩ => ⟨by omega, fun link hlink => ?_⟩
      exact plain link.2 (by simp [operands, List.mem_map_of_mem hlink])
  constructor
  · exact (hparse True (.inr trivial)).imp_right And.right
  · intro hlength plain
    exact (hparse False (.inl ⟨hlength, plain⟩)).resolve_right And.left

/-- A grammar with an operator at both ends of the precedences. -/
def extremes : Grammar := Grammar.empty.editAll
  [.binary "<" ⟨Int32.minValue, .eager fun a _ => .value a⟩,
    .binary ">" ⟨Int32.maxValue, .eager fun a _ => .value a⟩]

/-- A chain over operators of the least and the greatest precedence is split at the rightmost looser
one. -/
theorem parse_chain_extremes :
    parse extremes ([.identifier "a", .operator .binary "<", .identifier "b",
        .operator .binary ">", .identifier "c", .operator .binary ">", .identifier "d",
        .operator .binary "<", .identifier "e"].map Token.ofKind)
      = .ok (.binary "<" (.binary "<" (.identifier "a")
          (.binary ">" (.binary ">" (.identifier "b") (.identifier "c")) (.identifier "d")))
          (.identifier "e")) := by
  let name (s : String) : Operand := ⟨[], .identifier s, []⟩
  let c : Chain := ⟨name "a", [("<", name "b"), (">", name "c"), (">", name "d"), ("<", name "e")]⟩
  have registered : c.Registered extremes := by
    constructor
    · simp only [c, List.forall_mem_cons]
      decide
    · simp [c, operands, name]
  have plain : c.Plain := by simp [c, Plain, operands, Operand.Single, name]
  have grouped : c.expr extremes = .binary "<" (.binary "<" (.identifier "a")
      (.binary ">" (.binary ">" (.identifier "b") (.identifier "c")) (.identifier "d")))
      (.identifier "e") := by
    have hgroup := @Expr.group_cons_append extremes.precedence (.identifier "a") (.identifier "b")
      "<" [(">", .identifier "c"), (">", .identifier "d")] [("<", .identifier "e")]
      (by decide) (by decide)
    rwa [Expr.group_cons (by decide), Expr.group_nil, Expr.group_cons (by decide),
      Expr.group_cons (by decide), Expr.group_nil] at hgroup
  rw [← grouped]
  exact (parse_chain registered (.inl rfl)).2 (by decide) plain

end Chain

end Sift
