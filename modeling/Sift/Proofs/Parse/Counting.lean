import Sift.Proofs.Parse.Taking

/-!
# Counting the nesting

The levels of `Level` make nesting a part of what a parser is. The parser of this module keeps the
nesting in its state instead: every expression, fold, postfix step and operand of a unary operator
goes one level deeper, and an error may leave it there. Its loops have no bound either, so that it
might run forever. Yet outside of all nesting it ends with what `parseExpression` ends with and
leaves the counter as it was (`Counting.expression_eq_lift`): an expression puts the depth back
whatever happens in it, and every turn of a loop over items takes a token.
-/

namespace Sift

namespace Counting

/-- The tokens left, and the levels of nesting around them. -/
structure State where
  cursor : Cursor
  depth : Nat

end Counting

/-- A step of parsing with a counter, which may also run forever. -/
abbrev Counting := ExceptT ParseError (StateT Counting.State Option)

namespace Counting

variable {α β : Type}

/-- A step that does not count. -/
def lift (p : Parse α) : Counting α := fun s =>
  match p.run s.cursor with
  | .ok a c => some (.ok a, { s with cursor := c })
  | .error e c => some (.error e, { s with cursor := c })

def depth : Counting Nat := return (← get).depth

def restore (d : Nat) : Counting Unit := modify fun s => { s with depth := d }

/-- Go one level deeper. -/
def descend : Counting Unit := do
  let d ← depth
  if maxNesting ≤ d then lift Parse.tooDeep else restore (d + 1)

/-- A parser that counts. -/
structure Parser where
  grammar : Grammar

namespace Parser

mutual

/-- A whole expression. Its level is left again even if there is no expression: here an error is a
result like any other. -/
def expression (p : Parser) : StateT State Option (Except ParseError Expr) := do
  let s ← get
  let result ← ExceptT.run (do descend; p |>.conditional)
  modify fun t => { t with depth := s.depth }
  return result
partial_fixpoint

/-- An expression without the nesting that it adds. -/
def conditional (p : Parser) : Counting Expr := do
  let test ← p |>.chain Level.anyPrecedence
  if ← lift (Parse.isAt .question) then
    lift Parse.advance
    if ← lift (Parse.isAt .colon) then
      lift Parse.advance
      let alternate : Expr ← (p |>.expression : Counting Expr)
      return .fallback test alternate
    else
      let consequent : Expr ← (p |>.expression : Counting Expr)
      lift (Parse.expect .colon)
      let alternate : Expr ← (p |>.expression : Counting Expr)
      return .conditional test consequent alternate
  else return test
partial_fixpoint

/-- A chain of binary operators of at least the given precedence. -/
def chain (p : Parser) (least : Int) : Counting Expr := do
  let d ← depth
  let e ← (do
    let first ← p |>.operand
    p |>.folds least first)
  restore d
  return e
partial_fixpoint

/-- The binary operators after what has been read. Every one of them is a level of its own. -/
def folds (p : Parser) (least : Int) (left : Expr) : Counting Expr := do
  let token ← lift Parse.current
  match token.kind with
  | .operator .binary symbol =>
    match p.grammar.binary.get? symbol with
    | none => lift (Parse.unexpected .binaryOperator)
    | some op =>
      if op.precedence.toInt < least then return left
      else
        descend
        lift Parse.advance
        let right ← p |>.chain (op.precedence.toInt + 1)
        p |>.folds least (.binary symbol left right)
  | _ => return left
partial_fixpoint

/-- An operand with its unary operators and postfix steps. -/
def operand (p : Parser) : Counting Expr := do
  let token ← lift Parse.current
  match token.kind with
  | .operator .unary symbol =>
    if p.grammar.unary.contains symbol then
      lift Parse.advance
      let e : Expr ← (p |>.nestedOperand : Counting Expr)
      return .unary symbol e
    else lift (Parse.unexpected .operand)
  | _ =>
    let d ← depth
    let e ← (do
      let subject ← p |>.primary
      p |>.steps subject)
    restore d
    return e
partial_fixpoint

/-- The operand of a unary operator, whose level is left again even if there is none. -/
def nestedOperand (p : Parser) : StateT State Option (Except ParseError Expr) := do
  let s ← get
  let result ← ExceptT.run (do descend; p |>.operand)
  modify fun t => { t with depth := s.depth }
  return result
partial_fixpoint

/-- The postfix steps after what has been read. Every one of them is a level of its own. -/
def steps (p : Parser) (subject : Expr) : Counting Expr := do
  let token ← lift Parse.current
  match token.kind with
  | .punctuation .dot =>
    descend
    lift Parse.advance
    let property ← lift Parse.expectIdentifier
    p |>.steps (.member subject property subject.isRelativePath)
  | .punctuation .openBracket =>
    descend
    lift Parse.advance
    let predicate : Expr ← (p |>.expression : Counting Expr)
    lift (Parse.expect .closeBracket)
    p |>.steps (.filter subject predicate predicate.referencesRelative)
  | .punctuation .pipe =>
    descend
    lift Parse.advance
    let name ← lift Parse.expectIdentifier
    if ← lift (Parse.isAt .openParen) then
      lift Parse.advance
      let arguments ← p |>.items .closeParen
      p |>.steps (.transform name subject arguments)
    else p |>.steps (.transform name subject [])
  | _ => return subject
partial_fixpoint

def primary (p : Parser) : Counting Expr := do
  let token ← lift Parse.current
  match token.kind with
  | .literal value =>
    lift Parse.advance
    return .literal value
  | .identifier name =>
    lift Parse.advance
    if ← lift (Parse.isAt .openParen) then
      lift Parse.advance
      let arguments ← p |>.items .closeParen
      return .call name arguments
    else return .identifier name
  | .punctuation .dot => lift Level.relativeAfterDot
  | .punctuation .openParen =>
    lift Parse.advance
    let e : Expr ← (p |>.expression : Counting Expr)
    lift (Parse.expect .closeParen)
    return e
  | .punctuation .openBracket =>
    lift Parse.advance
    let es ← p |>.items .closeBracket
    return .array es
  | .punctuation .openBrace =>
    lift Parse.advance
    let es ← p |>.entries
    return .object es
  | _ => lift (Parse.unexpected .operand)
partial_fixpoint

/-- Expressions up to the closing character, however many there are. -/
def items (p : Parser) (closing : Punctuation) : Counting (List Expr) := do
  if ← lift (Parse.isAt closing) then
    lift Parse.advance
    return []
  else
    let e : Expr ← (p |>.expression : Counting Expr)
    lift (Parse.separator closing)
    let rest ← p |>.items closing
    return e :: rest
partial_fixpoint

/-- The entries of an object, however many there are. -/
def entries (p : Parser) : Counting (List (String × Expr)) := do
  if ← lift (Parse.isAt .closeBrace) then
    lift Parse.advance
    return []
  else
    let key ← lift Parse.expectKey
    lift (Parse.expect .colon)
    let e : Expr ← (p |>.expression : Counting Expr)
    lift (Parse.separator .closeBrace)
    let rest ← p |>.entries
    return (key, e) :: rest
partial_fixpoint

end

end Parser

/-! ### Following a step that does not count -/

/-- From some cursor and depth on, the counting step does what the other one does. Where there is a
result, the depth behind it is as said. -/
structure Follows (d : Nat) (c : Cursor) (after : Nat → Prop) (p : Counting α) (q : Parse α) :
    Prop where
  ok : ∀ a c', q.run c = .ok a c' → ∃ d', after d' ∧ p ⟨c, d⟩ = some (.ok a, ⟨c', d'⟩)
  error : ∀ e c', q.run c = .error e c' → ∃ d', p ⟨c, d⟩ = some (.error e, ⟨c', d'⟩)

variable {d : Nat} {c : Cursor} {after mid : Nat → Prop}

lemma lift_ok {q : Parse α} {a : α} {c' : Cursor} (h : q.run c = .ok a c') :
    lift q ⟨c, d⟩ = some (.ok a, ⟨c', d⟩) := by
  rw [lift, h]

lemma lift_error {q : Parse α} {e : ParseError} {c' : Cursor} (h : q.run c = .error e c') :
    lift q ⟨c, d⟩ = some (.error e, ⟨c', d⟩) := by
  rw [lift, h]

/-- A step that leaves the counter alone. -/
lemma follows_of_eq {p : Counting α} {q : Parse α} (h : p ⟨c, d⟩ = lift q ⟨c, d⟩) :
    Follows d c (Eq d) p q where
  ok _ _ run := ⟨d, rfl, h.trans (lift_ok run)⟩
  error _ _ run := ⟨d, h.trans (lift_error run)⟩

/-- A step that does not count follows itself. -/
lemma follows_lift (q : Parse α) : Follows d c (Eq d) (lift q) q := follows_of_eq rfl

lemma follows_pure (h : after d) (a : α) : Follows d c after (pure a) (pure a) where
  ok := by
    rintro _ _ ⟨⟩
    exact ⟨d, h, rfl⟩
  error := nofun

/-- The nesting behind a step may be said less precisely. -/
lemma Follows.mono {p : Counting α} {q : Parse α} (h : Follows d c mid p q)
    (imp : ∀ d', mid d' → after d') : Follows d c after p q where
  ok a c' run := by
    obtain ⟨d', hd', follow⟩ := h.ok a c' run
    exact ⟨d', imp d' hd', follow⟩
  error := h.error

lemma bind_ok {p : Counting α} {f : α → Counting β} {s s' : State} {a : α}
    (h : p s = some (.ok a, s')) : (p >>= f) s = f a s' := by
  change (p s >>= _) = _
  rw [h]
  rfl

lemma bind_error {p : Counting α} {f : α → Counting β} {s s' : State} {e : ParseError}
    (h : p s = some (.error e, s')) : (p >>= f) s = some (.error e, s') := by
  change (p s >>= _) = _
  rw [h]
  rfl

/-- Two steps follow two others, the nesting between them being known. -/
lemma Follows.bind {x : Counting α} {y : Parse α} {f : α → Counting β} {f' : α → Parse β}
    (hx : Follows d c mid x y)
    (hf : ∀ a c' d', y.run c = .ok a c' → mid d' → Follows d' c' after (f a) (f' a)) :
    Follows d c after (x >>= f) (y >>= f') where
  ok b c'' run := by
    obtain ⟨a, c', first, run⟩ := Parse.run_bind_eq_ok.1 run
    obtain ⟨d', hd', follow⟩ := hx.ok a c' first
    rw [bind_ok follow]
    exact (hf a c' d' first hd').ok b c'' run
  error e c'' run := by
    rw [EStateM.run_bind] at run
    cases first : y.run c with
    | ok a c' =>
      rw [first] at run
      obtain ⟨d', hd', follow⟩ := hx.ok a c' first
      rw [bind_ok follow]
      exact (hf a c' d' first hd').error e c'' run
    | error e' c' =>
      rw [first] at run
      cases run
      obtain ⟨d', follow⟩ := hx.error _ _ first
      exact ⟨d', bind_error follow⟩

/-- A step that leaves the depth as it was, and another one. -/
lemma Follows.then {x : Counting α} {y : Parse α} {f : α → Counting β} {f' : α → Parse β}
    (hx : Follows d c (Eq d) x y)
    (hf : ∀ a c', y.run c = .ok a c' → Follows d c' after (f a) (f' a)) :
    Follows d c after (x >>= f) (y >>= f') :=
  hx.bind fun a c' _ run same => same ▸ hf a c' run

lemma depth_bind (f : Nat → Counting β) : (depth >>= f) ⟨c, d⟩ = f d ⟨c, d⟩ := rfl

/-- The depth does not matter where it is put back. -/
lemma Follows.restore {x : Counting α} {y : Parse α} (h : Follows d c mid x y) :
    Follows d c (Eq d) (depth >>= fun d => x >>= fun a => restore d >>= fun _ => pure a) y where
  ok a c' run := by
    obtain ⟨d', -, follow⟩ := h.ok a c' run
    refine ⟨d, rfl, ?_⟩
    rw [depth_bind, bind_ok follow]
    rfl
  error e c' run := by
    obtain ⟨d', follow⟩ := h.error e c' run
    refine ⟨d', ?_⟩
    rw [depth_bind, bind_error follow]

lemma descend_of_lt (h : d < maxNesting) : descend ⟨c, d⟩ = some (.ok (), ⟨c, d + 1⟩) := by
  rw [descend, depth_bind, if_neg (Nat.not_le.2 h)]
  rfl

/-- From the deepest nesting on, going deeper fails. -/
lemma descend_of_le (h : maxNesting ≤ d) : descend ⟨c, d⟩ = lift Parse.tooDeep ⟨c, d⟩ := by
  rw [descend, depth_bind, if_pos h]

/-- A level that is left for one of the parsers is left for the other one, too. -/
lemma follows_descend_bind {g : Grammar} {n : Nat} (room : d + n = maxNesting) {p : Counting β}
    {f : Level → Parse β}
    (h : ∀ m, n = m + 1 → Follows (d + 1) c after p (f (Level.ofDepth g m))) :
    Follows d c after (descend >>= fun _ => p) (Level.descend (Level.below g n) >>= f) := by
  cases n with
  | zero =>
    have deep : descend ⟨c, d⟩ = lift Parse.tooDeep ⟨c, d⟩ := descend_of_le (Nat.le_of_eq room.symm)
    constructor
    · rintro a c' ⟨⟩
    · rintro e c' ⟨⟩
      exact ⟨d, bind_error deep⟩
  | succ m =>
    have deeper : descend ⟨c, d⟩ = some (.ok (), ⟨c, d + 1⟩) := descend_of_lt (by omega)
    have next := h m rfl
    constructor
    · intro a c' run
      rw [bind_ok deeper]
      exact next.ok a c' run
    · intro e c' run
      rw [bind_ok deeper]
      exact next.error e c' run

/-- The depth is put back behind a result and behind an error. -/
lemma nested_eq_lift {p : Counting α} {q : Parse α} (h : Follows d c after p q) :
    (do
      let s ← get
      let result ← ExceptT.run p
      modify fun t => { t with depth := s.depth }
      return result : StateT State Option (Except ParseError α)) ⟨c, d⟩ = lift q ⟨c, d⟩ := by
  change (p ⟨c, d⟩ >>= fun x => some (x.1, { x.2 with depth := d })) = _
  cases run : q.run c with
  | ok a c' =>
    obtain ⟨d', -, follow⟩ := h.ok a c' run
    rw [follow, lift_ok run]
    rfl
  | error e c' =>
    obtain ⟨d', follow⟩ := h.error e c' run
    rw [follow, lift_error run]
    rfl

/-! ### Productions -/

/-- With the same number of levels left, the same is read. -/
structure Matches (p : Parser) (d : Nat) (level : Level) : Prop where
  expression : ∀ c, p.expression ⟨c, d⟩ = lift level.expression ⟨c, d⟩
  operand : ∀ c, Follows d c (Eq d) p.operand level.operand
  folds : ∀ least left c, Follows d c (fun _ => True) (p.folds least left) (level.folds least left)
  steps : ∀ subject c, Follows d c (fun _ => True) (p.steps subject) (level.steps subject)

namespace Matches

variable {p : Parser} {level : Level} (h : Matches p d level)
include h

lemma chain (least : Int) : Follows d c (Eq d) (p.chain least) (level.chain least) := by
  rw [Parser.chain]
  exact ((h.operand c).then fun left c' _ => h.folds least left c').restore

/-- Without its own nesting, an expression is read as by the level. -/
lemma conditional : Follows d c (Eq d) p.conditional level.conditional := by
  have branch (c : Cursor) : Follows d c (Eq d) p.expression level.expression :=
    follows_of_eq (h.expression c)
  rw [Parser.conditional]
  refine (h.chain _).then fun test _ _ => (follows_lift _).then fun asked _ _ => ?_
  split
  · refine (follows_lift _).then fun _ _ _ => (follows_lift _).then fun short _ _ => ?_
    split
    · refine (follows_lift _).then fun _ _ _ => ?_
      exact (branch _).then fun alternate _ _ => follows_pure rfl _
    · refine (branch _).then fun consequent _ _ => (follows_lift _).then fun _ _ _ => ?_
      exact (branch _).then fun alternate _ _ => follows_pure rfl _
  · exact follows_pure rfl _

end Matches

section

variable {p : Parser} {e : Parse Expr} (h : ∀ c, p.expression ⟨c, d⟩ = lift e ⟨c, d⟩)
  (htakes : ∀ c, Parse.Takes 1 c e)
include h htakes

/-- Loops without a bound end, as every item takes a token. The induction is on the tokens left. -/
lemma follows_items (closing : Punctuation) :
    Follows d c (Eq d) (p.items closing) (Parse.items e closing) := by
  induction hlength : c.rest.length using Nat.strongRecOn generalizing c with
  | ind n ih =>
    rw [Parser.items, Parse.items_eq htakes]
    refine (follows_lift _).then fun closed c₀ asked => ?_
    cases asked
    split
    · exact (follows_lift _).then fun _ _ _ => follows_pure rfl _
    · refine (follows_of_eq (h _)).then fun x c₁ first => ?_
      refine (follows_lift _).then fun _ c₂ second => ?_
      -- the item has taken a token, so that fewer are left for the next turn
      have shorter := (htakes c).length_le first
      have later := Parse.length_le_of_separator second
      exact (ih _ (by omega) rfl).then fun rest _ _ => follows_pure rfl _

lemma follows_entries :
    Follows d c (Eq d) p.entries (Parse.items (Level.entry e) .closeBrace) := by
  induction hlength : c.rest.length using Nat.strongRecOn generalizing c with
  | ind n ih =>
    rw [Parser.entries, Parse.items_eq fun _ => Level.takes_entry htakes]
    refine (follows_lift _).then fun closed c₀ asked => ?_
    cases asked
    split
    · exact (follows_lift _).then fun _ _ _ => follows_pure rfl _
    · simp only [Level.entry, bind_assoc, pure_bind]
      refine (follows_lift _).then fun key c₁ first => ?_
      refine (follows_lift _).then fun _ c₂ second => ?_
      refine (follows_of_eq (h _)).then fun x c₃ third => ?_
      refine (follows_lift _).then fun _ c₄ last => ?_
      have hkey := Parse.takes_expectKey.length_le first
      have hcolon := (Parse.takes_expect .colon).length_le second
      have shorter := (htakes c₂).length_le third
      have later := Parse.length_le_of_separator last
      exact (ih _ (by omega) rfl).then fun rest _ _ => follows_pure rfl _

/-- What comes first in an operand is read as by the level. -/
lemma follows_primary : Follows d c (Eq d) p.primary (Level.primary e) := by
  rw [Parser.primary]
  refine (follows_lift _).then fun token c' _ => ?_
  cases token.kind with
  | literal value => exact (follows_lift _).then fun _ _ _ => follows_pure rfl _
  | identifier name =>
    refine (follows_lift _).then fun _ _ _ => (follows_lift _).then fun called _ _ => ?_
    split
    · refine (follows_lift _).then fun _ _ _ => ?_
      exact (follows_items h htakes .closeParen).then fun arguments _ _ => follows_pure rfl _
    · exact follows_pure rfl _
  | punctuation mark =>
    cases mark with
    | dot =>
      have relative : Follows d c' (Eq d) (lift Level.relativeAfterDot) _ := follows_lift _
      nth_rewrite 2 [Level.relativeAfterDot_eq] at relative
      exact relative
    | openParen =>
      refine (follows_lift _).then fun _ _ _ => (follows_of_eq (h _)).then fun e _ _ => ?_
      exact (follows_lift _).then fun _ _ _ => follows_pure rfl _
    | openBracket =>
      refine (follows_lift _).then fun _ _ _ => ?_
      exact (follows_items h htakes .closeBracket).then fun es _ _ => follows_pure rfl _
    | openBrace =>
      refine (follows_lift _).then fun _ _ _ => ?_
      exact (follows_entries h htakes).then fun es _ _ => follows_pure rfl _
    | _ => exact follows_lift _
  | _ => exact follows_lift _

end

section

variable {p : Parser} {n : Nat} (room : d + n = maxNesting)
  (h : ∀ m, n = m + 1 → Matches p (d + 1) (Level.ofDepth p.grammar m))
include room h

lemma expression_of_below :
    p.expression ⟨c, d⟩ = lift (Level.ofDepth p.grammar n).expression ⟨c, d⟩ := by
  rw [Parser.expression, Level.expression_ofDepth]
  exact nested_eq_lift (follows_descend_bind room fun m hm => (h m hm).conditional)

/-- Every postfix step is a level deeper than the one before it. -/
lemma follows_steps (subject : Expr) :
    Follows d c (fun _ => True) (p.steps subject) ((Level.ofDepth p.grammar n).steps subject) := by
  rw [Parser.steps, Level.steps_ofDepth]
  refine (follows_lift _).then fun token _ _ => ?_
  cases token.kind with
  | punctuation mark =>
    cases mark with
    | dot =>
      refine follows_descend_bind room fun m hm => ?_
      refine (follows_lift Parse.advance).then fun _ _ _ => ?_
      exact (follows_lift _).then fun property c' _ => (h m hm).steps _ c'
    | openBracket =>
      refine follows_descend_bind room fun m hm => ?_
      refine (follows_lift Parse.advance).then fun _ _ _ => ?_
      refine (follows_of_eq ((h m hm).expression _)).then fun predicate _ _ => ?_
      exact (follows_lift _).then fun _ c' _ => (h m hm).steps _ c'
    | pipe =>
      refine follows_descend_bind room fun m hm => ?_
      refine (follows_lift Parse.advance).then fun _ _ _ => ?_
      refine (follows_lift _).then fun name _ _ => (follows_lift _).then fun called c' _ => ?_
      split
      · refine (follows_lift _).then fun _ _ _ => ?_
        have htakes := (Level.taking_ofDepth p.grammar m).expression
        exact (follows_items (h m hm).expression htakes .closeParen).then fun arguments c' _ =>
          (h m hm).steps _ c'
      · exact (h m hm).steps _ c'
    | _ => exact follows_pure trivial subject
  | _ => exact follows_pure trivial subject

/-- Every fold is a level deeper than the one before it. -/
lemma follows_folds (least : Int) (left : Expr) : Follows d c (fun _ => True)
    (p.folds least left) ((Level.ofDepth p.grammar n).folds least left) := by
  rw [Parser.folds, Level.folds_ofDepth]
  refine (follows_lift _).then fun token _ _ => ?_
  cases token.kind with
  | operator role symbol =>
    cases role with
    | unary => exact follows_pure trivial left
    | binary =>
      dsimp only
      cases p.grammar.binary.get? symbol with
      | none => exact (follows_lift _).mono fun _ _ => trivial
      | some op =>
        dsimp only
        split
        · exact follows_pure trivial left
        · refine follows_descend_bind room fun m hm => ?_
          refine (follows_lift Parse.advance).then fun _ _ _ => ?_
          exact ((h m hm).chain _).then fun right c' _ => (h m hm).folds least _ c'
  | _ => exact follows_pure trivial left

lemma follows_nestedOperand : Follows d c (Eq d) p.nestedOperand
    (Level.descend (Level.below p.grammar n) >>= Level.operand) := by
  apply follows_of_eq
  rw [Parser.nestedOperand]
  exact nested_eq_lift (follows_descend_bind room fun m hm => (h m hm).operand _)

/-- An operand with its unary operators is read as by the level. -/
lemma follows_operand : Follows d c (Eq d) p.operand (Level.ofDepth p.grammar n).operand := by
  rw [Parser.operand, Level.operand_ofDepth]
  refine (follows_lift _).then fun token _ _ => ?_
  have stepped (c : Cursor) : Follows d c (Eq d)
      (depth >>= fun d => p.primary >>= p.steps >>= fun e => restore d >>= fun _ => pure e)
      (Level.primary (Level.expressionAbove (Level.below p.grammar n)) >>=
        Level.stepsAbove (Level.below p.grammar n)) := by
    rw [← Level.expression_ofDepth, ← Level.steps_ofDepth]
    have hprimary := follows_primary (c := c) (fun _ => expression_of_below room h)
      (Level.taking_ofDepth p.grammar n).expression
    exact (hprimary.then fun subject _ _ => follows_steps room h subject).restore
  cases token.kind with
  | operator role symbol =>
    cases role with
    | unary =>
      dsimp only
      split
      · refine (follows_lift _).then fun _ c' _ => ?_
        rw [← bind_assoc]
        exact (follows_nestedOperand room h).then fun e _ _ => follows_pure rfl _
      · exact follows_lift _
    | binary => exact stepped _
  | _ => exact stepped _

lemma matches_of_below : Matches p d (Level.ofDepth p.grammar n) where
  expression _ := expression_of_below room h
  operand _ := follows_operand room h
  folds least left _ := follows_folds room h least left
  steps subject _ := follows_steps room h subject

end

/-- However deep it is, the parser with a counter does what the level does that is left. -/
lemma matches_ofDepth (p : Parser) {n : Nat} (room : d + n = maxNesting) :
    Matches p d (Level.ofDepth p.grammar n) := by
  induction n generalizing d with
  | zero => exact matches_of_below room nofun
  | succ n ih =>
    refine matches_of_below room ?_
    rintro _ ⟨⟩
    exact ih (by omega)

/-- Outside of all nesting, the parser with a counter ends, reads what `parseExpression` reads, and
leaves the depth as it was. -/
theorem expression_eq_lift (p : Parser) (c : Cursor) :
    p.expression ⟨c, 0⟩ = lift (parseExpression p.grammar) ⟨c, 0⟩ :=
  (matches_ofDepth p (Nat.zero_add maxNesting)).expression c

/-! ### Calls one after the other -/

def State.ofTokens (tokens : List Token) : State := ⟨Cursor.ofTokens tokens, 0⟩

/-- The states of a parser: the first one, and what any call leaves behind, whether it has found an
expression or not. -/
inductive Reached (p : Parser) (tokens : List Token) : State → Prop
  | fresh : Reached p tokens (.ofTokens tokens)
  | call {s s' : State} {result : Except ParseError Expr} (before : Reached p tokens s)
      (run : p.expression s = some (result, s')) : Reached p tokens s'

/-- What a call of the parser comes to. -/
structure Call (p : Parser) (s : State) (result : Except ParseError Expr) (s' : State) : Prop where
  returns : p.expression s = some (result, s')
  /-- The parser without a counter does the same. -/
  uncounted : lift (parseExpression p.grammar) s = some (result, s')
  depth : s'.depth = s.depth
  /-- A new parser of the tokens left does the same. -/
  fresh : ∃ t, p.expression (.ofTokens s.cursor.rest) = some (result, t) ∧
    t.cursor.rest = s'.cursor.rest
  takes : ∀ e, result = .ok e → ∃ taken, taken ≠ [] ∧ s.cursor.rest = taken ++ s'.cursor.rest ∧
    ∀ t ∈ taken, t.kind.isEnd = false

variable {p : Parser} {tokens : List Token} {s : State}

/-- An expression takes a token at least. -/
lemma takes_parseExpression (g : Grammar) (c : Cursor) : Parse.Takes 1 c (parseExpression g) :=
  (Level.taking_ofDepth g maxNesting).expression c

/-- Between two calls, the parser is outside of all nesting and somewhere in its tokens. -/
lemma Reached.invariant (h : Reached p tokens s) : s.depth = 0 ∧
    s.cursor.stop = (Cursor.ofTokens tokens).stop ∧ s.cursor.rest <:+ tokens := by
  induction h with
  | fresh => exact ⟨rfl, rfl, List.suffix_refl tokens⟩
  | @call s s' result _ run ih =>
    obtain ⟨c, d⟩ := s
    obtain ⟨rfl, stop, behind⟩ := ih
    rw [expression_eq_lift, lift] at run
    split at run
    · rename_i e c' parsed
      cases run
      obtain ⟨stop', taken, rest, -⟩ := (takes_parseExpression p.grammar c).ok e c' parsed
      exact ⟨rfl, stop'.trans stop, .trans ⟨taken, rest.symm⟩ behind⟩
    · rename_i e c' failed
      cases run
      obtain ⟨stop', behind'⟩ := (takes_parseExpression p.grammar c).error e c' failed
      exact ⟨rfl, stop'.trans stop, behind'.trans behind⟩

/-- A part of the tokens up to their end is what a new parser of that part begins with. -/
lemma eq_ofTokens {c : Cursor} (stop : c.stop = (Cursor.ofTokens tokens).stop)
    (behind : c.rest <:+ tokens) (left : c.rest ≠ []) : c = Cursor.ofTokens c.rest := by
  obtain ⟨rest, _⟩ := c
  obtain ⟨taken, rfl⟩ := behind
  have same : (Cursor.ofTokens (taken ++ rest)).stop = (Cursor.ofTokens rest).stop := by
    simp only [Cursor.ofTokens, List.getLast?_append_of_ne_nil taken left]
  exact congrArg (Cursor.mk rest) (stop.trans same)

lemma run_parseExpression_of_nil (g : Grammar) {c : Cursor} (h : c.rest = []) :
    (parseExpression g).run c = .error (.unexpectedEnd .operand) c := by
  obtain ⟨rest, stop⟩ := c
  obtain rfl := h
  rfl

/-- The parser of the tokens left differs at most in the position of the end, which nothing depends
on where no other token is left. -/
lemma Reached.fresh_eq (h : Reached p tokens s) {result : Except ParseError Expr} {s' : State}
    (returns : p.expression s = some (result, s')) :
    ∃ t, p.expression (.ofTokens s.cursor.rest) = some (result, t) ∧
      t.cursor.rest = s'.cursor.rest := by
  obtain ⟨c, d⟩ := s
  obtain ⟨rfl, stop, behind⟩ := h.invariant
  by_cases left : c.rest = []
  · have failed := lift_error (d := 0) (run_parseExpression_of_nil p.grammar left)
    have failed' := lift_error (d := 0) (run_parseExpression_of_nil p.grammar
      (show (Cursor.ofTokens c.rest).rest = [] from left))
    rw [expression_eq_lift, failed] at returns
    cases returns
    exact ⟨_, (expression_eq_lift p _).trans failed', rfl⟩
  · refine ⟨s', ?_, rfl⟩
    rw [State.ofTokens, ← eq_ofTokens stop behind left]
    exact returns

/-- Whatever the parser has been called for, its next call ends and is one of a new parser. -/
theorem Reached.exists_call (h : Reached p tokens s) : ∃ result s', Call p s result s' := by
  obtain ⟨c, d⟩ := s
  obtain ⟨rfl, -⟩ := h.invariant
  cases run : (parseExpression p.grammar).run c with
  | ok e c' =>
    have uncounted := lift_ok (d := 0) run
    have returns := (expression_eq_lift p c).trans uncounted
    obtain ⟨-, taken, rest, count, noEnd, -⟩ := (takes_parseExpression p.grammar c).ok e c' run
    have some : taken ≠ [] := List.length_pos_iff.1 count
    exact ⟨_, _, returns, uncounted, rfl, h.fresh_eq returns,
      fun _ _ => ⟨taken, some, rest, noEnd⟩⟩
  | error e c' =>
    have uncounted := lift_error (d := 0) run
    have returns := (expression_eq_lift p c).trans uncounted
    exact ⟨_, _, returns, uncounted, rfl, h.fresh_eq returns, nofun⟩

end Counting

end Sift
