import Mathlib.Data.List.Forall2
import Sift.Proofs.Parse.Steps

/-!
# What steps of parsing read

`Parse.Reads deep p ks a ks'` says that the step `p` turns any tokens of the kinds `ks` into the
result `a` and leaves tokens of the kinds `ks'`, or else fails because nothing may be nested deeper,
which is possible only if `deep` holds. Texts and positions of tokens do not matter. Each production
of the parser has a rule for every way in which it can go on.
-/

namespace Sift

open Token (Kind)

/-- The kind of the first token, which is the end where there is none. -/
def Token.Kind.first (ks : List Kind) : Kind := ks.headD .endOfInput

@[simp] lemma Token.Kind.first_cons (k : Kind) (ks : List Kind) : Kind.first (k :: ks) = k := rfl

/-- A token whose text and position do not matter. -/
def Token.ofKind (kind : Kind) : Token := ⟨kind, "", 0⟩

@[simp] lemma Token.map_kind_ofKind (ks : List Kind) :
    (ks.map Token.ofKind).map Token.kind = ks := by
  rw [List.map_map]
  exact List.map_id ks

def Cursor.kinds (c : Cursor) : List Kind := c.rest.map Token.kind

@[simp] lemma Cursor.kind_current (c : Cursor) : c.current.kind = Kind.first c.kinds := by
  obtain ⟨rest, stop⟩ := c
  cases rest <;> rfl

namespace Parse

variable {α β : Type} {deep : Prop} {ks ks' ks'' : List Kind} {a : α} {b : β}

/-- The step reads a result off tokens of some kinds, unless the nesting is too deep. -/
def Reads (deep : Prop) (p : Parse α) (ks : List Kind) (a : α) (ks' : List Kind) : Prop :=
  ∀ c : Cursor, c.kinds = ks →
    (∃ c' : Cursor, p.run c = .ok a c' ∧ c'.kinds = ks') ∨
      (deep ∧ ∃ position c', p.run c = .error (.tooDeep position) c')

lemma reads_pure (a : α) : Reads deep (pure a) ks a ks :=
  fun c h => .inl ⟨c, rfl, h⟩

/-- A step reads on where the one before it has ended. -/
lemma Reads.bind {x : Parse α} {f : α → Parse β} (hx : Reads deep x ks a ks')
    (hf : Reads deep (f a) ks' b ks'') : Reads deep (x >>= f) ks b ks'' := by
  intro c h
  rcases hx c h with ⟨c', run, h'⟩ | ⟨hdeep, position, c', run⟩
  · simpa only [EStateM.run_bind, run] using hf c' h'
  · exact .inr ⟨hdeep, position, c', by rw [EStateM.run_bind, run]⟩

/-- Only the kind of the next token counts. -/
lemma reads_current_bind {f : Token → Parse β}
    (h : ∀ token : Token, token.kind = Kind.first ks → Reads deep (f token) ks b ks') :
    Reads deep (current >>= f) ks b ks' := by
  rintro c rfl
  exact h c.current c.kind_current c rfl

lemma reads_advance (k : Kind) : Reads deep advance (k :: ks) () ks := by
  intro c h
  refine .inl ⟨{ c with rest := c.rest.drop 1 }, rfl, ?_⟩
  rw [Cursor.kinds] at h ⊢
  rw [List.map_drop, h, List.drop_one, List.tail_cons]

lemma reads_isAt (p : Punctuation) :
    Reads deep (isAt p) ks ((Kind.first ks).isPunctuation p) ks := by
  apply reads_current_bind
  intro token h
  rw [← h]
  exact reads_pure _

lemma reads_peek : Reads deep peek ks (Kind.first (ks.drop 1)) ks := by
  rintro c rfl
  refine .inl ⟨c, ?_, rfl⟩
  obtain ⟨rest, stop⟩ := c
  obtain _ | ⟨_, _ | ⟨_, _⟩⟩ := rest <;> rfl

/-- A question about the next token whose answer is known. -/
lemma reads_isAt_bind {p : Punctuation} {f : Bool → Parse β} (answer : Bool)
    (next : (Kind.first ks).isPunctuation p = answer) (h : Reads deep (f answer) ks b ks') :
    Reads deep (isAt p >>= f) ks b ks' := by
  subst next
  exact (reads_isAt p).bind h

lemma reads_expect (p : Punctuation) : Reads deep (expect p) (.punctuation p :: ks) () ks :=
  reads_isAt_bind true (by simp [Kind.isPunctuation]) (reads_advance _)

lemma reads_expectIdentifier (name : String) :
    Reads deep expectIdentifier (.identifier name :: ks) name ks := by
  apply reads_current_bind
  intro token h
  simp only [h, Kind.first_cons]
  exact (reads_advance _).bind (reads_pure name)

lemma reads_expectKey (key : String) :
    Reads deep expectKey (.literal (.string key) :: ks) key ks := by
  apply reads_current_bind
  intro token h
  simp only [h, Kind.first_cons]
  exact (reads_advance _).bind (reads_pure key)

/-- Nesting that is too deep is allowed for. -/
lemma reads_tooDeep_bind {f : α → Parse β} (h : deep) : Reads deep (tooDeep >>= f) ks b ks' :=
  fun c _ => .inr ⟨h, c.current.position, c, rfl⟩

/-! ### Lists of items -/

/-- Spellings with commas between them. -/
def separated : List (List Kind) → List Kind
  | [] => []
  | [ks] => ks
  | ks :: rest => ks ++ .punctuation .comma :: separated rest

/-- An item of a list with its spelling: it does not begin with the closing character, and is read
wherever the list goes on. -/
def ReadsItem (deep : Prop) (item : Parse α) (closing : Punctuation) (x : α) (ks : List Kind) :
    Prop :=
  (Kind.first ks).isPunctuation closing = false ∧ ks ≠ [] ∧
    ∀ rest, Kind.first rest = .punctuation .comma ∨ Kind.first rest = .punctuation closing →
      Reads deep item (ks ++ rest) x rest

lemma reads_separator_closing (closing : Punctuation) :
    Reads deep (separator closing) (.punctuation closing :: ks) ()
      (.punctuation closing :: ks) := by
  refine reads_isAt_bind true (by simp [Kind.isPunctuation]) ?_
  exact reads_pure ()

lemma reads_separator_comma {closing : Punctuation} (h : closing ≠ .comma) :
    Reads deep (separator closing) (.punctuation .comma :: ks) () ks := by
  refine reads_isAt_bind false (by simp [Kind.isPunctuation, h]) ?_
  exact reads_expect .comma

lemma first_append {ks : List Kind} (h : ks ≠ []) : Kind.first (ks ++ ks') = Kind.first ks := by
  cases ks with
  | nil => exact absurd rfl h
  | cons k ks => rfl

section

variable {item : Parse α} {closing : Punctuation} {xs : List α} {spellings : List (List Kind)}
  (h : List.Forall₂ (ReadsItem deep item closing) xs spellings)

include h

/-- Spellings that are not empty have as many tokens at least. -/
lemma length_le_length_separated : xs.length ≤ (separated spellings).length := by
  induction h with
  | nil => exact Nat.zero_le _
  | @cons x ks xs spellings hx hxs ih =>
    have pos : 0 < ks.length := List.length_pos_iff.2 hx.2.1
    cases hxs with
    | nil =>
      simp only [separated, List.length_cons, List.length_nil]
      omega
    | cons hy hys =>
      simp only [separated, List.length_append, List.length_cons] at ih ⊢
      omega

variable (hcomma : closing ≠ .comma)

include hcomma

/-- Items with commas between them are read one by one. -/
lemma reads_itemsWithin {bound : Nat} (hbound : xs.length < bound) :
    Reads deep (itemsWithin item closing bound)
      (separated spellings ++ .punctuation closing :: ks) xs ks := by
  obtain ⟨bound, rfl⟩ : ∃ n, bound = n + 1 := ⟨bound - 1, by omega⟩
  induction h generalizing bound with
  | nil =>
    rw [itemsWithin_succ]
    refine reads_isAt_bind true (by simp [separated, Kind.isPunctuation]) ?_
    exact (reads_advance _).bind (reads_pure [])
  | @cons x ks' xs spellings hx hxs ih =>
    obtain ⟨bound, rfl⟩ : ∃ n, bound = n + 1 := ⟨bound - 1, by simp at hbound; omega⟩
    obtain ⟨hopen, hnil, hread⟩ := hx
    have later := ih bound (by simpa using hbound)
    rw [itemsWithin_succ]
    cases hxs with
    | nil =>
      refine reads_isAt_bind false (by simpa [separated, first_append hnil]) ?_
      refine (hread _ (.inr rfl)).bind ?_
      exact (reads_separator_closing closing).bind (later.bind (reads_pure _))
    | cons hy hys =>
      simp only [separated, List.append_assoc, List.cons_append] at later ⊢
      refine reads_isAt_bind false (by simpa [first_append hnil]) ?_
      refine (hread _ (.inl rfl)).bind ?_
      exact (reads_separator_comma hcomma).bind (later.bind (reads_pure _))

/-- Items with commas between them are read up to the closing character. -/
lemma reads_items :
    Reads deep (items item closing) (separated spellings ++ .punctuation closing :: ks) xs ks := by
  intro c hc
  have hlength := length_le_length_separated h
  have hkinds := congrArg List.length hc
  simp only [Cursor.kinds, List.length_map, List.length_append, List.length_cons] at hkinds
  exact reads_itemsWithin h hcomma (by omega) c hc

end

end Parse

/-! ### Productions -/

/-- Whether an operand goes on at a token of the kind: with a postfix step, or as a call. -/
def Token.Kind.continuesOperand : Kind → Bool
  | .punctuation .dot | .punctuation .openBracket | .punctuation .pipe
  | .punctuation .openParen => true
  | _ => false

/-- Whether a chain of binary operators goes on at a token of the kind. -/
def Token.Kind.continuesChain : Kind → Bool
  | .operator .binary _ => true
  | k => k.continuesOperand

lemma Token.Kind.continuesOperand_eq_false {k : Kind} (h : k.continuesChain = false) :
    k.continuesOperand = false := by
  cases k with
  | operator role symbol => rfl
  | punctuation p => exact h
  | literal v => rfl
  | identifier name => rfl
  | endOfInput => rfl

lemma Token.Kind.isPunctuation_openParen {k : Kind} (h : k.continuesOperand = false) :
    k.isPunctuation .openParen = false := by
  cases k with
  | punctuation p => cases p <;> first | rfl | cases h
  | operator role symbol => rfl
  | literal v => rfl
  | identifier name => rfl
  | endOfInput => rfl

/-- Whether a token of the kind ends an expression wherever it stands. -/
def Token.Kind.closes : Kind → Bool
  | .punctuation .closeParen | .punctuation .closeBracket | .punctuation .closeBrace
  | .punctuation .comma | .punctuation .colon | .endOfInput => true
  | _ => false

lemma Token.Kind.continuesChain_of_closes {k : Kind} (h : k.closes = true) :
    k.continuesChain = false := by
  cases k with
  | punctuation p => cases p <;> first | rfl | cases h
  | endOfInput => rfl
  | operator role symbol => cases h
  | literal v => cases h
  | identifier name => cases h

lemma Token.Kind.isPunctuation_eq_false {k : Kind} {p : Punctuation} (h : k.closes = false)
    (hp : (Kind.punctuation p).closes = true) : k.isPunctuation p = false := by
  cases k with
  | punctuation q =>
    rw [isPunctuation, decide_eq_false_iff_not]
    rintro rfl
    rw [h] at hp
    cases hp
  | _ => rfl

lemma Token.Kind.isPunctuation_question {k : Kind} (h : k.closes = true) :
    k.isPunctuation .question = false := by
  cases k with
  | punctuation p => cases p <;> first | rfl | cases h
  | _ => rfl

namespace Level

open Parse

variable {g : Grammar} {deep : Prop} {n : Nat} {ks ks' ks'' : List Kind} {e e' : Expr}
  {expression : Parse Expr}

/-- The level below the one with the given number of levels. -/
def below (g : Grammar) : Nat → Option Level
  | 0 => none
  | n + 1 => some (ofDepth g n)

/-- Every level is above another one, or the lowest. -/
lemma ofDepth_eq_above (g : Grammar) (n : Nat) : ofDepth g n = above g (below g n) := by
  cases n <;> rfl

lemma steps_ofDepth (g : Grammar) (n : Nat) : (ofDepth g n).steps = stepsAbove (below g n) := by
  rw [ofDepth_eq_above]
  rfl

lemma operand_ofDepth (g : Grammar) (n : Nat) :
    (ofDepth g n).operand = operandAbove g (below g n) := by
  rw [ofDepth_eq_above]
  rfl

lemma folds_ofDepth (g : Grammar) (n : Nat) : (ofDepth g n).folds = foldsAbove g (below g n) := by
  rw [ofDepth_eq_above]
  rfl

lemma expression_ofDepth (g : Grammar) (n : Nat) :
    (ofDepth g n).expression = expressionAbove (below g n) := by
  rw [ofDepth_eq_above]
  rfl

/-- One level is used up by an expression. -/
lemma expression_succ (g : Grammar) (n : Nat) :
    (ofDepth g (n + 1)).expression = (ofDepth g n).conditional := by
  rw [expression_ofDepth, expressionAbove, below, descend_some, pure_bind]

/-- A level below is needed, unless the nesting may be too deep. -/
lemma reads_descend_bind {f : Level → Parse Expr} (bottom : n = 0 → deep)
    (h : ∀ m, n = m + 1 → Reads deep (f (ofDepth g m)) ks e ks') :
    Reads deep (descend (below g n) >>= f) ks e ks' := by
  cases n with
  | zero => exact reads_tooDeep_bind (bottom rfl)
  | succ m => exact h m rfl

lemma reads_expression (bottom : n = 0 → deep)
    (h : ∀ m, n = m + 1 → Reads deep (ofDepth g m).conditional ks e ks') :
    Reads deep (ofDepth g n).expression ks e ks' := by
  rw [expression_ofDepth]
  exact reads_descend_bind bottom h

/-! #### Postfix steps -/

/-- Without another postfix step the operand is at its end. -/
lemma reads_steps_stop (h : (Kind.first ks).continuesOperand = false) (subject : Expr) :
    Reads deep ((ofDepth g n).steps subject) ks subject ks := by
  rw [steps_ofDepth]
  apply reads_current_bind
  intro token htoken
  rw [← htoken] at h
  split
  · rename_i dot
    rw [dot] at h
    cases h
  · rename_i bracket
    rw [bracket] at h
    cases h
  · rename_i pipe
    rw [pipe] at h
    cases h
  · exact reads_pure subject

lemma reads_steps_member {subject : Expr} {name : String} (bottom : n = 0 → deep)
    (h : ∀ m, n = m + 1 →
      Reads deep ((ofDepth g m).steps (.member subject name subject.isRelativePath)) ks e ks') :
    Reads deep ((ofDepth g n).steps subject)
      (.punctuation .dot :: .identifier name :: ks) e ks' := by
  rw [steps_ofDepth]
  apply reads_current_bind
  intro token htoken
  simp only [htoken, Kind.first_cons]
  refine reads_descend_bind bottom fun m hm => (reads_advance _).bind ?_
  exact (reads_expectIdentifier name).bind (h m hm)

lemma reads_steps_filter {subject predicate : Expr} (bottom : n = 0 → deep)
    (h : ∀ m, n = m + 1 → Reads deep (ofDepth g m).expression ks predicate
      (.punctuation .closeBracket :: ks') ∧
      Reads deep ((ofDepth g m).steps (.filter subject predicate predicate.referencesRelative))
        ks' e ks'') :
    Reads deep ((ofDepth g n).steps subject) (.punctuation .openBracket :: ks) e ks'' := by
  rw [steps_ofDepth]
  apply reads_current_bind
  intro token htoken
  simp only [htoken, Kind.first_cons]
  refine reads_descend_bind bottom fun m hm => (reads_advance _).bind ?_
  exact (h m hm).1.bind ((reads_expect .closeBracket).bind (h m hm).2)

lemma reads_steps_transform {subject : Expr} {name : String} (bottom : n = 0 → deep)
    (bare : (Kind.first ks).isPunctuation .openParen = false)
    (h : ∀ m, n = m + 1 →
      Reads deep ((ofDepth g m).steps (.transform name subject [])) ks e ks') :
    Reads deep ((ofDepth g n).steps subject)
      (.punctuation .pipe :: .identifier name :: ks) e ks' := by
  rw [steps_ofDepth]
  apply reads_current_bind
  intro token htoken
  simp only [htoken, Kind.first_cons]
  refine reads_descend_bind bottom fun m hm => (reads_advance _).bind ?_
  exact (reads_expectIdentifier name).bind (reads_isAt_bind false bare (h m hm))

/-- A transform with arguments. -/
lemma reads_steps_transform_items {subject : Expr} {name : String} {arguments : List Expr}
    (bottom : n = 0 → deep)
    (h : ∀ m, n = m + 1 →
      Reads deep (items (ofDepth g m).expression .closeParen) ks arguments ks' ∧
      Reads deep ((ofDepth g m).steps (.transform name subject arguments)) ks' e ks'') :
    Reads deep ((ofDepth g n).steps subject)
      (.punctuation .pipe :: .identifier name :: .punctuation .openParen :: ks) e ks'' := by
  rw [steps_ofDepth]
  apply reads_current_bind
  intro token htoken
  simp only [htoken, Kind.first_cons]
  refine reads_descend_bind bottom fun m hm => (reads_advance _).bind ?_
  refine (reads_expectIdentifier name).bind (reads_isAt_bind true rfl ?_)
  exact (reads_advance _).bind ((h m hm).1.bind (h m hm).2)

/-! #### Primaries -/

lemma reads_literal (v : Value) :
    Reads deep (primary expression) (.literal v :: ks) (.literal v) ks := by
  apply reads_current_bind
  intro token htoken
  simp only [htoken, Kind.first_cons]
  exact (reads_advance _).bind (reads_pure _)

lemma reads_identifier {name : String} (bare : (Kind.first ks).isPunctuation .openParen = false) :
    Reads deep (primary expression) (.identifier name :: ks) (.identifier name) ks := by
  apply reads_current_bind
  intro token htoken
  simp only [htoken, Kind.first_cons]
  exact (reads_advance _).bind (reads_isAt_bind false bare (reads_pure _))

lemma reads_call {name : String} {arguments : List Expr}
    (h : Reads deep (items expression .closeParen) ks arguments ks') :
    Reads deep (primary expression) (.identifier name :: .punctuation .openParen :: ks)
      (.call name arguments) ks' := by
  apply reads_current_bind
  intro token htoken
  simp only [htoken, Kind.first_cons]
  refine (reads_advance _).bind (reads_isAt_bind true rfl ?_)
  exact (reads_advance _).bind (h.bind (reads_pure _))

lemma reads_relative (name : String) :
    Reads deep (primary expression) (.punctuation .dot :: .identifier name :: ks)
      (.relative name) ks := by
  apply reads_current_bind
  intro token htoken
  simp only [htoken, Kind.first_cons]
  exact reads_peek.bind ((reads_advance _).bind ((reads_advance _).bind (reads_pure _)))

lemma reads_group (h : Reads deep expression ks e (.punctuation .closeParen :: ks')) :
    Reads deep (primary expression) (.punctuation .openParen :: ks) e ks' := by
  apply reads_current_bind
  intro token htoken
  simp only [htoken, Kind.first_cons]
  exact (reads_advance _).bind (h.bind ((reads_expect .closeParen).bind (reads_pure e)))

lemma reads_array {elements : List Expr}
    (h : Reads deep (items expression .closeBracket) ks elements ks') :
    Reads deep (primary expression) (.punctuation .openBracket :: ks) (.array elements) ks' := by
  apply reads_current_bind
  intro token htoken
  simp only [htoken, Kind.first_cons]
  exact (reads_advance _).bind (h.bind (reads_pure _))

lemma reads_entry {key : String} (h : Reads deep expression ks e ks') :
    Reads deep (entry expression) (.literal (.string key) :: .punctuation .colon :: ks)
      (key, e) ks' :=
  (reads_expectKey key).bind ((reads_expect .colon).bind (h.bind (reads_pure _)))

lemma reads_object {entries : List (String × Expr)}
    (h : Reads deep (items (entry expression) .closeBrace) ks entries ks') :
    Reads deep (primary expression) (.punctuation .openBrace :: ks) (.object entries) ks' := by
  apply reads_current_bind
  intro token htoken
  simp only [htoken, Kind.first_cons]
  exact (reads_advance _).bind (h.bind (reads_pure _))

/-! #### Operands -/

lemma reads_operand_unary {symbol : String} (registered : g.unary.contains symbol = true)
    (bottom : n = 0 → deep) (h : ∀ m, n = m + 1 → Reads deep (ofDepth g m).operand ks e ks') :
    Reads deep (ofDepth g n).operand (.operator .unary symbol :: ks) (.unary symbol e) ks' := by
  rw [operand_ofDepth]
  apply reads_current_bind
  intro token htoken
  simp only [htoken, Kind.first_cons, if_pos registered]
  refine (reads_advance _).bind (reads_descend_bind bottom fun m hm => ?_)
  exact (h m hm).bind (reads_pure _)

/-- An operand is what comes first and its postfix steps. -/
lemma reads_operand (notUnary : ∀ symbol, Kind.first ks ≠ .operator .unary symbol)
    (primary : Reads deep (primary (ofDepth g n).expression) ks e ks')
    (steps : Reads deep ((ofDepth g n).steps e) ks' e' ks'') :
    Reads deep (ofDepth g n).operand ks e' ks'' := by
  rw [operand_ofDepth]
  apply reads_current_bind
  intro token htoken
  split
  · rename_i symbol unary
    exact absurd (htoken.symm.trans unary) (notUnary symbol)
  · rw [← expression_ofDepth, ← steps_ofDepth]
    exact primary.bind steps

/-! #### Binary operators -/

/-- A looser operator ends the folds. -/
lemma reads_folds_stop {least : Int} (left : Expr)
    (h : ∀ symbol, Kind.first ks = .operator .binary symbol →
      ∃ op, g.binary.get? symbol = some op ∧ op.precedence.toInt < least) :
    Reads deep ((ofDepth g n).folds least left) ks left ks := by
  rw [folds_ofDepth]
  apply reads_current_bind
  intro token htoken
  split
  · rename_i symbol binary
    obtain ⟨op, registered, loose⟩ := h symbol (htoken.symm.trans binary)
    simp only [registered, if_pos loose]
    exact reads_pure left
  · exact reads_pure left

lemma reads_folds_end (stop : (Kind.first ks).continuesChain = false) (least : Int) (left : Expr) :
    Reads deep ((ofDepth g n).folds least left) ks left ks := by
  apply reads_folds_stop left
  intro symbol hsymbol
  rw [hsymbol] at stop
  cases stop

/-- A tighter operator takes its right operand, and the folds go on. -/
lemma reads_folds_fold {least : Int} {symbol : String} {op : BinaryOperator}
    {left right : Expr} (registered : g.binary.get? symbol = some op)
    (tight : least ≤ op.precedence.toInt) (bottom : n = 0 → deep)
    (h : ∀ m, n = m + 1 →
      Reads deep ((ofDepth g m).chain (op.precedence.toInt + 1)) ks right ks' ∧
      Reads deep ((ofDepth g m).folds least (.binary symbol left right)) ks' e ks'') :
    Reads deep ((ofDepth g n).folds least left) (.operator .binary symbol :: ks) e ks'' := by
  rw [folds_ofDepth]
  apply reads_current_bind
  intro token htoken
  simp only [htoken, Kind.first_cons, registered, if_neg (Int.not_lt.2 tight)]
  refine reads_descend_bind bottom fun m hm => (reads_advance _).bind ?_
  exact (h m hm).1.bind (h m hm).2

/-! #### Conditionals -/

/-- Without a question mark an expression is a chain. -/
lemma reads_conditional_stop (h : (Kind.first ks').closes = true)
    (test : Reads deep ((ofDepth g n).chain anyPrecedence) ks e ks') :
    Reads deep (ofDepth g n).conditional ks e ks' :=
  test.bind (reads_isAt_bind false (Kind.isPunctuation_question h) (reads_pure e))

lemma reads_fallback {test alternate : Expr}
    (htest : Reads deep ((ofDepth g n).chain anyPrecedence) ks test
      (.punctuation .question :: .punctuation .colon :: ks'))
    (halternate : Reads deep (ofDepth g n).expression ks' alternate ks'') :
    Reads deep (ofDepth g n).conditional ks (.fallback test alternate) ks'' := by
  refine htest.bind (reads_isAt_bind true rfl ((reads_advance _).bind ?_))
  refine reads_isAt_bind true rfl ((reads_advance _).bind ?_)
  exact halternate.bind (reads_pure _)

/-- A test with two branches. -/
lemma reads_conditional {ks₃ : List Kind} {test consequent alternate : Expr}
    (htest : Reads deep ((ofDepth g n).chain anyPrecedence) ks test
      (.punctuation .question :: ks'))
    (notColon : (Kind.first ks').isPunctuation .colon = false)
    (hconsequent : Reads deep (ofDepth g n).expression ks' consequent
      (.punctuation .colon :: ks''))
    (halternate : Reads deep (ofDepth g n).expression ks'' alternate ks₃) :
    Reads deep (ofDepth g n).conditional ks (.conditional test consequent alternate) ks₃ := by
  refine htest.bind (reads_isAt_bind true rfl ((reads_advance _).bind ?_))
  refine reads_isAt_bind false notColon (hconsequent.bind ?_)
  exact (reads_expect .colon).bind (halternate.bind (reads_pure _))

end Level

/-! ### Whole expressions -/

open Parse

/-- Tokens that are read as an expression without free relative identifiers, up to an end, are
parsed as that expression. -/
lemma parse_of_reads_end {g : Grammar} {deep : Prop} {ks rest : List Kind} {e : Expr}
    (h : Reads deep (parseExpression g) ks e rest) (hrest : (Kind.first rest).isEnd = true)
    (closed : e.freeRelative? = none) {tokens : List Token} (htokens : tokens.map Token.kind = ks) :
    parse g tokens = .ok e ∨ (deep ∧ ∃ position, parse g tokens = .error (.tooDeep position)) := by
  have hend : Reads deep endOfTokens rest () rest := by
    apply reads_current_bind
    intro token htoken
    rw [if_pos (htoken ▸ hrest)]
    exact reads_pure ()
  have hall : Reads deep (parseAll g) ks e rest := by
    rw [parseAll_eq]
    refine h.bind (hend.bind ?_)
    rw [checkScope, closed]
    exact reads_pure e
  rcases hall (Cursor.ofTokens tokens) htokens with ⟨c', run, -⟩ | ⟨hdeep, position, c', run⟩
  · exact .inl (by rw [parse, run])
  · exact .inr ⟨hdeep, position, by rw [parse, run]⟩

/-- Tokens of an expression without free relative identifiers are parsed as that expression, whether
or not the end is among them. -/
lemma parse_of_reads {g : Grammar} {deep : Prop} {ks : List Kind} {e : Expr}
    (h : ∀ rest, (Kind.first rest).closes = true →
      Reads deep (parseExpression g) (ks ++ rest) e rest)
    (closed : e.freeRelative? = none) {tokens : List Token}
    (htokens : tokens.map Token.kind = ks ∨ tokens.map Token.kind = ks ++ [.endOfInput]) :
    parse g tokens = .ok e ∨ (deep ∧ ∃ position, parse g tokens = .error (.tooDeep position)) := by
  rcases htokens with htokens | htokens
  · exact parse_of_reads_end (h [] rfl) rfl closed (htokens.trans (List.append_nil ks).symm)
  · exact parse_of_reads_end (h [.endOfInput] rfl) rfl closed htokens

end Sift
