import Mathlib.Data.List.Forall2
import Sift.Grammar.Standard
import Sift.Proofs.Parse.Yields

/-!
# What tokens carry into an expression

Literals, names and operators are the payloads of an expression; punctuation only structures it. In
source order, a parsed expression lists exactly the payloads that its tokens carry, up to the first
end: parsing loses nothing, takes nothing twice, and keeps the order however operators group.

`Parse.Lists` follows the payloads through a step of parsing. It takes those that have been listed
before, so that postfix steps and binary operators append to what they wrap.
-/

namespace Sift

/-- What a token carries into an expression. -/
inductive Payload where
  | value (v : Value)
  | name (name : String)
  /-- The key of an entry of an object, however it is written. -/
  | key (text : String)
  | operator (role : Role) (symbol : String)

namespace Expr

mutual
/-- The payloads of an expression in source order. -/
def payloads : Expr → List Payload
  | literal v => [.value v]
  | identifier name | relative name => [.name name]
  | member owner name _ => owner.payloads ++ [.name name]
  | filter subject predicate _ => subject.payloads ++ predicate.payloads
  | array items => payloadsAll items
  | object entries => payloadsEntries entries
  | unary symbol operand => .operator .unary symbol :: operand.payloads
  | binary symbol left right => left.payloads ++ .operator .binary symbol :: right.payloads
  | conditional test consequent alternate =>
    test.payloads ++ consequent.payloads ++ alternate.payloads
  | fallback test alternate => test.payloads ++ alternate.payloads
  | call name arguments => .name name :: payloadsAll arguments
  | transform name subject arguments => subject.payloads ++ .name name :: payloadsAll arguments

def payloadsAll : List Expr → List Payload
  | [] => []
  | e :: rest => e.payloads ++ payloadsAll rest

def payloadsEntries : List (String × Expr) → List Payload
  | [] => []
  | (k, e) :: rest => .key k :: e.payloads ++ payloadsEntries rest
end

def payloadsEntry (entry : String × Expr) : List Payload := .key entry.1 :: entry.2.payloads

lemma payloadsAll_eq (es : List Expr) : payloadsAll es = es.flatMap payloads := by
  induction es with
  | nil => rfl
  | cons e rest ih => rw [payloadsAll, List.flatMap_cons, ih]

lemma payloadsEntries_eq (es : List (String × Expr)) :
    payloadsEntries es = es.flatMap payloadsEntry := by
  induction es with
  | nil => rfl
  | cons e rest ih => rw [payloadsEntries, List.flatMap_cons, ih, payloadsEntry]

end Expr

namespace Token.Kind

/-- Whether a token is more than structure. -/
def isPayload : Kind → Bool
  | literal _ | identifier _ | operator _ _ => true
  | punctuation _ | endOfInput => false

/-- The token carries the payload. Names and texts may carry keys. -/
inductive Carries : Kind → Payload → Prop
  | literal (v : Value) : Carries (literal v) (.value v)
  | identifier (name : String) : Carries (identifier name) (.name name)
  | key (name : String) : Carries (identifier name) (.key name)
  | quotedKey (text : String) : Carries (literal (.string text)) (.key text)
  | operator (role : Role) (symbol : String) :
    Carries (operator role symbol) (.operator role symbol)

/-- The tokens carry the payloads, with nothing but punctuation between them. -/
inductive CarryAll : List Kind → List Payload → Prop
  | nil : CarryAll [] []
  | punctuation (p : Punctuation) {kinds : List Kind} {payloads : List Payload}
    (rest : CarryAll kinds payloads) : CarryAll (.punctuation p :: kinds) payloads
  | payload {kind : Kind} {payload : Payload} (h : kind.Carries payload) {kinds : List Kind}
    {payloads : List Payload} (rest : CarryAll kinds payloads) :
    CarryAll (kind :: kinds) (payload :: payloads)

lemma Carries.isPayload {kind : Kind} {payload : Payload} (h : kind.Carries payload) :
    kind.isPayload = true := by
  cases h <;> rfl

lemma isEnd_of_isPayload {kind : Kind} (h : kind.isPayload = true) : kind.isEnd = false := by
  cases kind <;> first | rfl | cases h

namespace CarryAll

variable {kinds kinds' : List Kind} {payloads payloads' : List Payload}

/-- Tokens that carry some payloads may be put together. -/
lemma append (h : CarryAll kinds payloads) (h' : CarryAll kinds' payloads') :
    CarryAll (kinds ++ kinds') (payloads ++ payloads') := by
  induction h with
  | nil => exact h'
  | punctuation p _ ih => exact .punctuation p ih
  | payload hp _ ih => exact .payload hp ih

/-- The tokens with payloads carry these one by one. -/
lemma forall₂ (h : CarryAll kinds payloads) :
    List.Forall₂ Carries (kinds.filter isPayload) payloads := by
  induction h with
  | nil => exact .nil
  | punctuation p _ ih => exact ih
  | payload hp _ ih =>
    rw [List.filter_cons_of_pos hp.isPayload]
    exact .cons hp ih

lemma isEnd_eq_false (h : CarryAll kinds payloads) : ∀ kind ∈ kinds, kind.isEnd = false := by
  induction h with
  | nil => exact List.forall_mem_nil _
  | punctuation p _ ih => exact List.forall_mem_cons.2 ⟨rfl, ih⟩
  | payload hp _ ih => exact List.forall_mem_cons.2 ⟨isEnd_of_isPayload hp.isPayload, ih⟩

end CarryAll

end Token.Kind

open Token.Kind (CarryAll)

/-! ### Steps -/

namespace Parse

variable {α β : Type}

/-- Every result of the step lists some payloads, and after them those that the tokens carry that
the step takes. -/
def Lists (c : Cursor) (p : Parse α) (before : List Payload) (listing : α → List Payload) : Prop :=
  ∀ a c', p.run c = .ok a c' → ∃ taken payloads,
    c.rest.map Token.kind = taken ++ c'.rest.map Token.kind ∧ CarryAll taken payloads ∧
      listing a = before ++ payloads

variable {c : Cursor} {before : List Payload} {listing : α → List Payload}

lemma Lists.cast {p : Parse α} {before' : List Payload} (h : Lists c p before' listing)
    (same : before' = before) : Lists c p before listing := same ▸ h

lemma lists_of_not_yields {p : Parse α} (h : Yields p fun _ => False) :
    Lists c p before listing := fun a c' run => (h c a c' run).elim

lemma lists_pure {a : α} (h : listing a = before) : Lists c (pure a) before listing := by
  rintro _ _ ⟨⟩
  exact ⟨[], [], rfl, .nil, by rw [h, List.append_nil]⟩

/-- One part of a step after the other. -/
lemma Lists.bind {x : Parse α} {f : α → Parse β} {first : α → List Payload}
    {listing : β → List Payload} (hx : Lists c x [] first)
    (hf : ∀ a c', Lists c' (f a) (before ++ first a) listing) :
    Lists c (x >>= f) before listing := by
  intro b c' run
  obtain ⟨a, d, hrun, run⟩ := run_bind_eq_ok.1 run
  obtain ⟨taken, payloads, rest, carried, lists⟩ := hx a d hrun
  obtain ⟨taken', payloads', rest', carried', lists'⟩ := hf a d b c' run
  refine ⟨taken ++ taken', payloads ++ payloads', ?_, carried.append carried', ?_⟩
  · rw [rest, rest', List.append_assoc]
  · rw [lists', lists, List.nil_append, List.append_assoc]

/-- A part of a step that lists nothing. -/
lemma Lists.then {x : Parse α} {f : α → Parse β} {listing : β → List Payload}
    (hx : Lists c x [] fun _ => []) (hf : ∀ a c', Lists c' (f a) before listing) :
    Lists c (x >>= f) before listing :=
  hx.bind fun a c' => (hf a c').cast (List.append_nil before).symm

lemma lists_current_bind {f : Token → Parse α} (h : Lists c (f c.current) before listing) :
    Lists c (current >>= f) before listing := h

lemma lists_peek_bind {f : Token.Kind → Parse α} (h : ∀ kind, Lists c (f kind) before listing) :
    Lists c (peek >>= f) before listing := h _

lemma lists_isAt_bind {p : Punctuation} {f : Bool → Parse α}
    (h : ∀ b, (b = true → c.current.kind = .punctuation p) → Lists c (f b) before listing) :
    Lists c (isAt p >>= f) before listing :=
  h (c.current.is p) Token.Kind.of_isPunctuation

/-- A token that is taken carries its own payload. -/
lemma lists_advance {payload : Payload} (h : c.current.kind.Carries payload) :
    Lists c advance [] fun _ => [payload] := by
  rintro _ _ ⟨⟩
  have left := Token.Kind.isEnd_of_isPayload h.isPayload
  exact ⟨[c.current.kind], [payload], Cursor.map_kind_rest left, .payload h .nil, rfl⟩

lemma lists_advance_punctuation {p : Punctuation} (h : c.current.kind = .punctuation p) :
    Lists c advance [] fun _ => [] := by
  rintro _ _ ⟨⟩
  have left : c.current.kind.isEnd = false := h ▸ rfl
  exact ⟨[.punctuation p], [], h ▸ Cursor.map_kind_rest left, .punctuation p .nil, rfl⟩

lemma lists_expect (p : Punctuation) : Lists c (expect p) [] fun _ => [] := by
  refine lists_isAt_bind fun found h => ?_
  split
  · rename_i found
    exact lists_advance_punctuation (h found)
  · exact lists_of_not_yields (yields_unexpected _ _)

lemma lists_expectIdentifier : Lists c expectIdentifier [] fun name => [.name name] := by
  refine lists_current_bind ?_
  split
  · rename_i name h
    have carries : c.current.kind.Carries (.name name) := h ▸ .identifier name
    exact (lists_advance carries).bind fun _ _ => lists_pure rfl
  · exact lists_of_not_yields (yields_unexpected _ _)

lemma lists_expectKey : Lists c expectKey [] fun key => [.key key] := by
  refine lists_current_bind ?_
  split
  · rename_i key h
    have carries : c.current.kind.Carries (.key key) := h ▸ .key key
    exact (lists_advance carries).bind fun _ _ => lists_pure rfl
  · rename_i key h
    have carries : c.current.kind.Carries (.key key) := h ▸ .quotedKey key
    exact (lists_advance carries).bind fun _ _ => lists_pure rfl
  · exact lists_of_not_yields (yields_unexpected _ _)

lemma lists_separator (closing : Punctuation) : Lists c (separator closing) [] fun _ => [] := by
  refine lists_isAt_bind fun closed _ => ?_
  split
  · exact lists_pure rfl
  · exact lists_expect .comma

section

variable {item : Parse α} (h : ∀ c, Lists c item [] listing)
include h

/-- The items of a list carry their payloads one after the other. The induction is on the bound. -/
lemma lists_itemsWithin (closing : Punctuation) (bound : Nat) :
    Lists c (itemsWithin item closing bound) [] fun xs => xs.flatMap listing := by
  induction bound generalizing c with
  | zero => exact lists_of_not_yields (yields_unexpected _ _)
  | succ bound ih =>
    rw [itemsWithin_succ]
    refine lists_isAt_bind fun closed hclosed => ?_
    split
    · rename_i closed
      exact (lists_advance_punctuation (hclosed closed)).then fun _ _ => lists_pure rfl
    · refine (h c).bind fun x _ => (lists_separator closing).then fun _ _ => ?_
      exact ih.bind fun xs _ => lists_pure (List.flatMap_cons)

lemma lists_items (closing : Punctuation) :
    Lists c (items item closing) [] fun xs => xs.flatMap listing :=
  lists_itemsWithin h closing (c.rest.length + 1)

end

end Parse

/-! ### Productions -/

namespace Level

open Parse

variable {c : Cursor}

lemma lists_relativeAfterDot (h : c.current.kind = .punctuation .dot) :
    Lists c relativeAfterDot [] Expr.payloads := by
  refine lists_peek_bind fun kind => ?_
  split
  · refine (lists_advance_punctuation h).then fun _ _ => ?_
    exact lists_expectIdentifier.bind fun name _ => lists_pure rfl
  · exact lists_of_not_yields (yields_unexpected _ _)

section

variable {expression : Parse Expr} (h : ∀ c, Lists c expression [] Expr.payloads)
include h

lemma lists_entry : Lists c (entry expression) [] Expr.payloadsEntry := by
  refine lists_expectKey.bind fun key _ => (lists_expect .colon).then fun _ _ => ?_
  exact (h _).bind fun e _ => lists_pure rfl

/-- The tokens of what comes first in an operand carry its payloads, if those of expressions do. -/
lemma lists_primary : Lists c (primary expression) [] Expr.payloads := by
  refine lists_current_bind ?_
  split
  · rename_i v hkind
    have carries : c.current.kind.Carries (.value v) := hkind ▸ .literal v
    exact (lists_advance carries).bind fun _ _ => lists_pure rfl
  · rename_i name hkind
    have carries : c.current.kind.Carries (.name name) := hkind ▸ .identifier name
    refine (lists_advance carries).bind fun _ _ => lists_isAt_bind fun called hcalled => ?_
    split
    · rename_i called
      refine (lists_advance_punctuation (hcalled called)).then fun _ _ => ?_
      refine (lists_items h .closeParen).bind fun arguments _ => lists_pure ?_
      rw [Expr.payloads, Expr.payloadsAll_eq]
      rfl
    · exact lists_pure rfl
  · rename_i hkind
    have hrelative := lists_relativeAfterDot hkind
    rw [relativeAfterDot_eq] at hrelative
    exact hrelative
  · rename_i hkind
    refine (lists_advance_punctuation hkind).then fun _ _ => (h _).bind fun e _ => ?_
    exact (lists_expect .closeParen).then fun _ _ => lists_pure rfl
  · rename_i hkind
    refine (lists_advance_punctuation hkind).then fun _ _ => ?_
    refine (lists_items h .closeBracket).bind fun items _ => lists_pure ?_
    rw [Expr.payloads, Expr.payloadsAll_eq]
    rfl
  · rename_i hkind
    refine (lists_advance_punctuation hkind).then fun _ _ => ?_
    refine (lists_items (fun _ => lists_entry h) .closeBrace).bind fun entries _ => lists_pure ?_
    rw [Expr.payloads, Expr.payloadsEntries_eq]
    rfl
  · exact lists_of_not_yields (yields_unexpected _ _)

end

lemma lists_descend_bind {below : Option Level} {before : List Payload}
    {f : Level → Parse Expr}
    (h : ∀ level, below = some level → Lists c (f level) before Expr.payloads) :
    Lists c (descend below >>= f) before Expr.payloads := by
  cases below with
  | none => exact lists_of_not_yields ((yields_tooDeep fun _ => False).bind fun _ no => no.elim)
  | some level => exact h level rfl

/-- What is read lists what its tokens carry, after what has been read before. -/
structure Listing (level : Level) : Prop where
  expression : ∀ c, Lists c level.expression [] Expr.payloads
  operand : ∀ c, Lists c level.operand [] Expr.payloads
  folds : ∀ least left c, Lists c (level.folds least left) left.payloads Expr.payloads
  steps : ∀ subject c, Lists c (level.steps subject) subject.payloads Expr.payloads

namespace Listing

variable {level : Level} (h : Listing level)
include h

lemma chain (least : Int) : Lists c (level.chain least) [] Expr.payloads :=
  (h.operand c).bind fun left c' => h.folds least left c'

/-- The parts of a conditional are in source order. -/
lemma conditional : Lists c level.conditional [] Expr.payloads := by
  refine (h.chain _).bind fun test _ => lists_isAt_bind fun asked hasked => ?_
  split
  · rename_i asked
    refine (lists_advance_punctuation (hasked asked)).then fun _ _ => ?_
    refine lists_isAt_bind fun short hshort => ?_
    split
    · rename_i short
      refine (lists_advance_punctuation (hshort short)).then fun _ _ => ?_
      exact (h.expression _).bind fun alternate _ => lists_pure rfl
    · refine (h.expression _).bind fun consequent _ => (lists_expect .colon).then fun _ _ => ?_
      exact (h.expression _).bind fun alternate _ => lists_pure rfl
  · exact lists_pure rfl

end Listing

section

variable {below : Option Level} (h : ∀ level, below = some level → Listing level)
include h

lemma lists_expressionAbove : Lists c (expressionAbove below) [] Expr.payloads :=
  lists_descend_bind fun level hlevel => (h level hlevel).conditional

/-- Postfix steps carry payloads behind those of what is before them. -/
lemma lists_stepsAbove (subject : Expr) :
    Lists c (stepsAbove below subject) subject.payloads Expr.payloads := by
  refine lists_current_bind ?_
  split
  · rename_i hkind
    refine lists_descend_bind fun level hlevel => ?_
    refine (lists_advance_punctuation hkind).then fun _ _ => ?_
    exact lists_expectIdentifier.bind fun property c' => (h level hlevel).steps _ c'
  · rename_i hkind
    refine lists_descend_bind fun level hlevel => ?_
    refine (lists_advance_punctuation hkind).then fun _ _ => ?_
    refine ((h level hlevel).expression _).bind fun predicate _ => ?_
    exact (lists_expect .closeBracket).then fun _ c' => (h level hlevel).steps _ c'
  · rename_i hkind
    refine lists_descend_bind fun level hlevel => ?_
    refine (lists_advance_punctuation hkind).then fun _ _ => ?_
    refine lists_expectIdentifier.bind fun name _ => lists_isAt_bind fun called hcalled => ?_
    split
    · rename_i called
      refine (lists_advance_punctuation (hcalled called)).then fun _ _ => ?_
      refine (lists_items (h level hlevel).expression .closeParen).bind fun arguments c' => ?_
      refine ((h level hlevel).steps _ c').cast ?_
      rw [Expr.payloads, Expr.payloadsAll_eq, List.append_assoc]
      rfl
    · exact (h level hlevel).steps _ _
  · exact lists_pure rfl

lemma lists_operandAbove (g : Grammar) : Lists c (operandAbove g below) [] Expr.payloads := by
  refine lists_current_bind ?_
  split
  · rename_i symbol hkind
    split
    · have carries : c.current.kind.Carries (.operator .unary symbol) :=
        hkind ▸ .operator .unary symbol
      refine (lists_advance carries).bind fun _ _ => lists_descend_bind fun level hlevel => ?_
      exact ((h level hlevel).operand _).bind fun operand _ => lists_pure rfl
    · exact lists_of_not_yields (yields_unexpected _ _)
  · exact (lists_primary fun _ => lists_expressionAbove h).bind fun subject _ =>
      lists_stepsAbove h subject

/-- Binary operators carry payloads behind those of the left operand. -/
lemma lists_foldsAbove (g : Grammar) (least : Int) (left : Expr) :
    Lists c (foldsAbove g below least left) left.payloads Expr.payloads := by
  refine lists_current_bind ?_
  split
  · rename_i symbol hkind
    split
    · exact lists_of_not_yields (yields_unexpected _ _)
    · rename_i op _
      dsimp only
      split
      · exact lists_pure rfl
      · have carries : c.current.kind.Carries (.operator .binary symbol) :=
          hkind ▸ .operator .binary symbol
        refine lists_descend_bind fun level hlevel => ?_
        refine (lists_advance carries).bind fun _ _ => ?_
        refine ((h level hlevel).chain _).bind fun right c' => ?_
        refine ((h level hlevel).folds least _ c').cast ?_
        rw [Expr.payloads, List.append_assoc]
        rfl
  · exact lists_pure rfl

lemma listing_above (g : Grammar) : Listing (above g below) where
  expression _ := lists_expressionAbove h
  operand _ := lists_operandAbove h g
  folds least left _ := lists_foldsAbove h g least left
  steps subject _ := lists_stepsAbove h subject

end

/-- The tokens of every level carry the payloads of what is read. -/
lemma listing_ofDepth (g : Grammar) (n : Nat) : Listing (ofDepth g n) := by
  induction n with
  | zero =>
    refine listing_above ?_ g
    rintro _ ⟨⟩
  | succ n ih =>
    refine listing_above ?_ g
    rintro _ ⟨⟩
    exact ih

end Level

/-! ### Whole expressions -/

lemma isEnd_of_endOfTokens {c c' : Cursor} (h : endOfTokens.run c = .ok () c') :
    c.current.kind.isEnd = true := by
  obtain ⟨_, _, ⟨⟩, h⟩ := Parse.run_bind_eq_ok.1 h
  split at h
  · assumption
  · exact (Parse.yields_unexpected _ (fun _ => False) _ _ _ h).elim

/-- Behind an expression that all tokens spell there is an end. -/
lemma exists_run_of_parse {g : Grammar} {tokens : List Token} {e : Expr}
    (h : parse g tokens = .ok e) : ∃ c, (parseExpression g).run (Cursor.ofTokens tokens) = .ok e c ∧
      c.current.kind.isEnd = true := by
  rw [parse] at h
  split at h
  · rename_i e' c' run
    obtain rfl := Except.ok.inj h
    rw [parseAll_eq] at run
    obtain ⟨e, c, first, run⟩ := Parse.run_bind_eq_ok.1 run
    obtain ⟨_, d, last, run⟩ := Parse.run_bind_eq_ok.1 run
    have same : e' = e := by
      rw [checkScope] at run
      split at run <;> cases run
      rfl
    exact ⟨c, same ▸ first, isEnd_of_endOfTokens last⟩
  · cases h

/-- A parsed expression lists, in source order, just what the tokens before the first end carry. -/
theorem payloads_of_parse {g : Grammar} {tokens : List Token} {e : Expr}
    (h : parse g tokens = .ok e) :
    List.Forall₂ Token.Kind.Carries
      (((tokens.map Token.kind).takeWhile fun k => !k.isEnd).filter Token.Kind.isPayload)
      e.payloads := by
  obtain ⟨c, run, atEnd⟩ := exists_run_of_parse h
  obtain ⟨taken, payloads, split, carried, lists⟩ :=
    (Level.listing_ofDepth g maxNesting).expression _ e c run
  have stop : (c.rest.map Token.kind).takeWhile (fun k => !k.isEnd) = [] := by
    obtain ⟨rest, stop⟩ := c
    cases rest with
    | nil => rfl
    | cons t rest => exact List.takeWhile_cons_of_neg (by simpa [Cursor.current] using atEnd)
  -- No end is among the tokens taken, and one is behind them: these are all up to the first end.
  have whole : (tokens.map Token.kind).takeWhile (fun k => !k.isEnd) = taken := by
    change (((Cursor.ofTokens tokens).rest).map Token.kind).takeWhile (fun k => !k.isEnd) = taken
    rw [split, List.takeWhile_append_of_pos, stop, List.append_nil]
    intro k hk
    rw [carried.isEnd_eq_false k hk, Bool.not_false]
  rw [whole, lists]
  exact carried.forall₂

/-- The tokens of a fallback, with commas after the last items and a name behind the end. -/
def trailingKinds : List Token.Kind :=
  [.identifier "a", .punctuation .pipe, .identifier "t", .punctuation .openParen,
    .literal (.integer 1), .punctuation .comma, .punctuation .closeParen, .punctuation .question,
    .punctuation .colon, .operator .unary "-", .identifier "b", .operator .binary "*",
    .punctuation .openBrace, .literal (.string "k"), .punctuation .colon, .identifier "c",
    .punctuation .comma, .punctuation .closeBrace, .endOfInput, .identifier "d"]

/-- The expression that they spell. -/
def trailingExpr : Expr :=
  .fallback (.transform "t" (.identifier "a") [.literal (.integer 1)])
    (.binary "*" (.unary "-" (.identifier "b")) (.object [("k", .identifier "c")]))

/-- Commas carry nothing, nor do tokens behind the end. -/
theorem payloads_of_parse_trailing :
    let tokens : List Token := trailingKinds.map fun k => ⟨k, "", 0⟩
    parse .standard tokens = .ok trailingExpr ∧
      List.Forall₂ Token.Kind.Carries
        [.identifier "a", .identifier "t", .literal (.integer 1), .operator .unary "-",
          .identifier "b", .operator .binary "*", .literal (.string "k"), .identifier "c"]
        trailingExpr.payloads := by
  have parsed : parse .standard (trailingKinds.map fun k => ⟨k, "", 0⟩) = .ok trailingExpr := rfl
  exact ⟨parsed, payloads_of_parse parsed⟩

end Sift
