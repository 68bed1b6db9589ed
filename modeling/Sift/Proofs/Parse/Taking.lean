import Sift.Proofs.Parse.Reads

/-!
# What steps of parsing take

`Parse.Takes least c p` says how the step `p` moves on from the cursor `c`. A failed step leaves a
part of the tokens behind it. A step that succeeds has taken some tokens, at least as many as is
said and no end among them, and it would take the same kinds of tokens with the same result wherever
they stand before a token at which an expression stops as well. So the tokens behind an expression
have no say in how it is read. There is one rule for each production, as for `Parse.Reads`.
-/

namespace Sift

open Token (Kind)

/-- An expression that stops before one of the kinds stops before the other one, too. -/
def Token.Kind.StopAlike (k k' : Kind) : Prop := k = k' ∨ (k.closes = true ∧ k'.closes = true)

lemma Token.Kind.StopAlike.refl (k : Kind) : k.StopAlike k := .inl rfl

/-- A token that closes is no punctuation that does not. -/
lemma Token.Kind.isPunctuation_of_closes {k : Kind} {p : Punctuation} (h : k.closes = true)
    (hp : (Kind.punctuation p).closes = false) : k.isPunctuation p = false := by
  cases k with
  | punctuation q =>
    rw [isPunctuation, decide_eq_false_iff_not]
    rintro rfl
    rw [hp] at h
    cases h
  | _ => rfl

namespace Parse

variable {α β : Type}

/-- How a step moves on. -/
structure Takes (least : Nat) (c : Cursor) (p : Parse α) : Prop where
  ok : ∀ a c', p.run c = .ok a c' → c'.stop = c.stop ∧ ∃ taken, c.rest = taken ++ c'.rest ∧
    least ≤ taken.length ∧ (∀ t ∈ taken, t.kind.isEnd = false) ∧
    ∀ ks, (Kind.first c'.kinds).StopAlike (Kind.first ks) →
      Reads False p (taken.map Token.kind ++ ks) a ks
  error : ∀ e c', p.run c = .error e c' → c'.stop = c.stop ∧ c'.rest <:+ c.rest

variable {least more : Nat} {c : Cursor}

/-- How to go on only matters where the first step ends. -/
lemma run_bind_congr {x : Parse α} {f f' : α → Parse β}
    (h : ∀ a c', x.run c = .ok a c' → (f a).run c' = (f' a).run c') :
    (x >>= f).run c = (x >>= f').run c := by
  rw [EStateM.run_bind, EStateM.run_bind]
  cases hx : x.run c with
  | ok a c' => exact h a c' hx
  | error e c' => rfl

/-- A step that takes more tokens takes fewer. -/
lemma Takes.mono {p : Parse α} (h : Takes more c p) (le : least ≤ more) : Takes least c p where
  ok a c' run := by
    obtain ⟨stop, taken, rest, count, noEnd, reads⟩ := h.ok a c' run
    exact ⟨stop, taken, rest, Nat.le_trans le count, noEnd, reads⟩
  error := h.error

lemma Takes.weaken {p : Parse α} (h : Takes 1 c p) : Takes 0 c p := h.mono (Nat.zero_le 1)

lemma takes_pure (a : α) : Takes 0 c (pure a) where
  ok := by
    rintro _ _ ⟨⟩
    exact ⟨rfl, [], rfl, Nat.le_refl 0, List.forall_mem_nil _, fun ks _ => reads_pure a⟩
  error := nofun

/-- A step that fails on the spot. -/
lemma takes_of_error {p : Parse α} {e : ParseError} (h : p.run c = .error e c) :
    Takes least c p where
  ok a c' run := by rw [h] at run; cases run
  error _ _ run := by
    rw [h] at run
    cases run
    exact ⟨rfl, List.suffix_refl _⟩

lemma takes_unexpected (expected : Expectation) :
    Takes least c (unexpected expected : Parse α) := by
  have run : (unexpected expected : Parse α).run c = if c.current.kind.isEnd = true then
      .error (.unexpectedEnd expected) c
    else .error (.unexpectedToken c.current.describe expected c.current.position) c := by
    change (if c.current.kind.isEnd = true then throw (.unexpectedEnd expected)
      else throw (.unexpectedToken c.current.describe expected c.current.position) : Parse α).run c
        = _
    split <;> rfl
  split at run
  · exact takes_of_error run
  · exact takes_of_error run

lemma takes_tooDeep_bind {f : α → Parse β} : Takes least c (tooDeep >>= f) :=
  takes_of_error (e := .tooDeep c.current.position) rfl

lemma Takes.length_le {p : Parse α} {a : α} {c' : Cursor} (h : Takes least c p)
    (run : p.run c = .ok a c') : c'.rest.length + least ≤ c.rest.length := by
  obtain ⟨-, taken, rest, count, -⟩ := h.ok a c' run
  rw [rest, List.length_append]
  omega

/-- One step after the other. The second one begins behind what the first one has taken, and need
not take that again. -/
lemma Takes.bind {x : Parse α} {f : α → Parse β} (hx : Takes least c x)
    (hf : ∀ a c', c'.rest.length + least ≤ c.rest.length → Takes (more - least) c' (f a)) :
    Takes more c (x >>= f) := by
  have second {a : α} {d : Cursor} (run : x.run c = .ok a d) : Takes (more - least) d (f a) :=
    hf a d (hx.length_le run)
  constructor
  · intro b c' run
    obtain ⟨a, d, first, run⟩ := run_bind_eq_ok.1 run
    obtain ⟨stop, taken, rest, count, noEnd, reads⟩ := hx.ok a d first
    obtain ⟨stop', taken', rest', count', noEnd', reads'⟩ := (second first).ok b c' run
    refine ⟨stop'.trans stop, taken ++ taken', ?_, ?_, ?_, fun ks alike => ?_⟩
    · rw [rest, rest', List.append_assoc]
    · rw [List.length_append]
      omega
    · exact List.forall_mem_append.2 ⟨noEnd, noEnd'⟩
    · rw [List.map_append, List.append_assoc]
      refine (reads _ ?_).bind (reads' ks alike)
      -- the second step has taken the next token, or else left it to what follows
      rw [Cursor.kinds, rest']
      cases taken' with
      | nil => exact alike
      | cons t taken' => exact .refl _
  · intro e c' run
    rw [EStateM.run_bind] at run
    cases first : x.run c with
    | error e' d =>
      rw [first] at run
      cases run
      exact hx.error _ _ first
    | ok a d =>
      rw [first] at run
      obtain ⟨stop, behind⟩ := (second first).error e c' run
      obtain ⟨stop', taken, rest, -⟩ := hx.ok a d first
      exact ⟨stop.trans stop', behind.trans ⟨taken, rest.symm⟩⟩

/-- A question about the next token, after which the step takes some tokens, or else does the same
before all tokens that close. -/
lemma takes_current_bind {f : Token → Parse α} (h : Takes least c (f c.current))
    (same : ∀ t t' : Token, t.kind = t'.kind → f t = f t')
    (stop : 0 < least ∨ ∃ p, ∀ t : Token, t.kind.closes = true → f t = p) :
    Takes least c (current >>= f) where
  ok a c' run := by
    obtain ⟨hstop, taken, rest, count, noEnd, reads⟩ := h.ok a c' run
    refine ⟨hstop, taken, rest, count, noEnd, fun ks alike => ?_⟩
    refine reads_current_bind fun token htoken => ?_
    have here : f token = f c.current := by
      cases taken with
      | nil =>
        have hkinds : Kind.first c'.kinds = c.current.kind := by
          rw [Cursor.kind_current, Cursor.kinds, Cursor.kinds, rest]
          rfl
        rw [hkinds] at alike
        rcases alike with alike | ⟨here, there⟩
        · exact same _ _ (htoken.trans alike.symm)
        · rcases stop with some | ⟨p, stop⟩
          · exact absurd count (Nat.not_le.2 some)
          · rw [stop _ (htoken ▸ there), stop _ here]
      | cons t taken =>
        refine same _ _ (htoken.trans ?_)
        rw [Cursor.kind_current, Cursor.kinds, rest]
        rfl
    rw [here]
    exact reads ks alike
  error := h.error

/-- Looking at punctuation takes nothing, but tells what the next token is. -/
lemma takes_isAt_bind {p : Punctuation} {f : Bool → Parse α}
    (h : ∀ b, (b = true → c.current.kind = .punctuation p) → Takes least c (f b))
    (stop : 0 < least ∨ (Kind.punctuation p).closes = false) :
    Takes least c (isAt p >>= f) := by
  rw [isAt, bind_assoc]
  refine takes_current_bind ?_ (fun t t' same => ?_)
    (stop.imp_right fun hp => ⟨pure false >>= f, fun t ht => ?_⟩)
  · rw [pure_bind]
    exact h _ Kind.of_isPunctuation
  · simp only [Token.is, same]
  · rw [Token.is, Kind.isPunctuation_of_closes ht hp]

/-- What is not the end is taken. -/
lemma takes_advance (h : c.current.kind.isEnd = false) : Takes 1 c advance where
  ok := by
    rintro _ _ ⟨⟩
    refine ⟨rfl, [c.current], Cursor.rest_eq_cons h, Nat.le_refl 1,
      List.forall_mem_singleton.2 h, ?_⟩
    exact fun ks _ => reads_advance c.current.kind
  error := nofun

lemma takes_advance_of_kind {k : Kind} (h : c.current.kind = k) (left : k.isEnd = false) :
    Takes 1 c advance :=
  takes_advance (h ▸ left)

lemma takes_expect (p : Punctuation) : Takes 1 c (expect p) := by
  refine takes_isAt_bind (fun found h => ?_) (.inl Nat.one_pos)
  split
  · rename_i found
    exact takes_advance_of_kind (h found) rfl
  · exact takes_unexpected _

lemma takes_expectIdentifier : Takes 1 c expectIdentifier := by
  refine takes_current_bind ?_ (fun t t' same => by simp only [same]) (.inl Nat.one_pos)
  split
  · rename_i h
    exact (takes_advance_of_kind h rfl).bind fun _ _ _ => takes_pure _
  · exact takes_unexpected _

lemma takes_expectKey : Takes 1 c expectKey := by
  refine takes_current_bind ?_ (fun t t' same => by simp only [same]) (.inl Nat.one_pos)
  split
  · rename_i h
    exact (takes_advance_of_kind h rfl).bind fun _ _ _ => takes_pure _
  · rename_i h
    exact (takes_advance_of_kind h rfl).bind fun _ _ _ => takes_pure _
  · exact takes_unexpected _

/-- Peeking is right where the token that has been looked at is taken as well. -/
lemma takes_peek_bind {f : Kind → Parse α} (two : 2 ≤ least)
    (h : ∀ kind, Takes least c (f kind)) : Takes least c (peek >>= f) where
  ok a c' run := by
    obtain ⟨stop, taken, rest, count, noEnd, reads⟩ := (h _).ok a c' run
    refine ⟨stop, taken, rest, count, noEnd, fun ks alike => ?_⟩
    have second : c.rest[1]?.elim Kind.endOfInput Token.kind
        = Kind.first ((taken.map Token.kind ++ ks).drop 1) := by
      obtain ⟨t, u, taken, rfl⟩ : ∃ t u rest, taken = t :: u :: rest := by
        match taken, Nat.le_trans two count with
        | t :: u :: taken, _ => exact ⟨t, u, taken, rfl⟩
      rw [rest]
      rfl
    have looked := reads ks alike
    rw [second] at looked
    exact reads_peek.bind looked
  error := (h _).error

/-! ### Lists of items -/

lemma separator_bind (closing : Punctuation) (f : Unit → Parse β) : separator closing >>= f
    = isAt closing >>= fun closed => (if closed then pure () else expect .comma) >>= f := by
  rw [separator, bind_assoc]

/-- A separator may be nothing, so that what follows it has to take a token. -/
lemma takes_separator_bind {closing : Punctuation} {f : Unit → Parse β}
    (h : ∀ c', c'.rest.length ≤ c.rest.length → Takes 1 c' (f ())) :
    Takes 1 c (separator closing >>= f) := by
  rw [separator_bind]
  refine takes_isAt_bind (fun closed _ => ?_) (.inl Nat.one_pos)
  split
  · rw [pure_bind]
    exact h c (Nat.le_refl _)
  · exact (takes_expect .comma).bind fun _ c' le => (h c' (by omega)).weaken

lemma length_le_of_separator {closing : Punctuation} {u : Unit} {c' : Cursor}
    (run : (separator closing).run c = .ok u c') : c'.rest.length ≤ c.rest.length := by
  change (if c.current.is closing then pure () else expect .comma : Parse Unit).run c = _ at run
  split at run
  · cases run
    exact Nat.le_refl _
  · exact Nat.le_of_add_right_le ((takes_expect .comma).length_le run)

section

variable {item : Parse α} (h : ∀ c, Takes 1 c item) (closing : Punctuation)
include h

/-- Any bound on the items does that is greater than the number of tokens left. -/
lemma run_itemsWithin_eq {bound bound' : Nat} (hb : c.rest.length < bound)
    (hb' : c.rest.length < bound') :
    (itemsWithin item closing bound).run c = (itemsWithin item closing bound').run c := by
  induction bound generalizing bound' c with
  | zero => omega
  | succ bound ih =>
    obtain ⟨bound', rfl⟩ : ∃ n, bound' = n + 1 := ⟨bound' - 1, by omega⟩
    rw [itemsWithin_succ, itemsWithin_succ]
    refine run_bind_congr fun closed c₀ asked => ?_
    cases asked
    split
    · rfl
    · refine run_bind_congr fun x c₁ first => run_bind_congr fun _ c₂ second => ?_
      have shorter := (h c).length_le first
      have later := length_le_of_separator second
      have same : (itemsWithin item closing bound).run c₂
          = (itemsWithin item closing bound').run c₂ := ih (by omega) (by omega)
      rw [EStateM.run_bind, EStateM.run_bind, same]

/-- Items are read one after the other, without a bound. -/
lemma items_eq : items item closing = do
    if ← isAt closing then
      advance
      return []
    else
      let x ← item
      separator closing
      return x :: (← items item closing) := by
  funext c
  change (itemsWithin item closing (c.rest.length + 1)).run c = EStateM.run _ c
  rw [itemsWithin_succ]
  refine run_bind_congr fun closed c₀ asked => ?_
  cases asked
  split
  · rfl
  · refine run_bind_congr fun x c₁ first => run_bind_congr fun _ c₂ second => ?_
    have shorter := (h c).length_le first
    have later := length_le_of_separator second
    have same : (items item closing).run c₂ = (itemsWithin item closing c.rest.length).run c₂ :=
      run_itemsWithin_eq h closing (Nat.lt_succ_self _) (by omega)
    rw [EStateM.run_bind, EStateM.run_bind, same]

/-- A list takes its closing character at least. -/
lemma takes_items : Takes 1 c (items item closing) := by
  induction hlength : c.rest.length using Nat.strongRecOn generalizing c with
  | ind n ih =>
    rw [items_eq h]
    refine takes_isAt_bind (fun closed hclosed => ?_) (.inl Nat.one_pos)
    split
    · rename_i closed
      exact (takes_advance_of_kind (hclosed closed) rfl).bind fun _ _ _ => takes_pure _
    · refine (h c).bind fun x c₁ le => Takes.weaken ?_
      refine takes_separator_bind fun c₂ le' => ?_
      exact (ih _ (by omega) rfl).bind fun xs _ _ => takes_pure _

end

end Parse

/-! ### Productions -/

namespace Level

open Parse

variable {c : Cursor} {least : Nat}

lemma takes_relativeAfterDot (h : c.current.kind = .punctuation .dot) :
    Takes 2 c relativeAfterDot := by
  refine takes_peek_bind (Nat.le_refl 2) fun kind => ?_
  split
  · refine (takes_advance_of_kind h rfl).bind fun _ _ _ => ?_
    exact takes_expectIdentifier.bind fun name _ _ => takes_pure _
  · exact takes_unexpected _

section

variable {expression : Parse Expr} (h : ∀ c, Takes 1 c expression)
include h

lemma takes_entry : Takes 1 c (entry expression) := by
  refine takes_expectKey.bind fun key _ _ => (takes_expect .colon).bind fun _ _ _ => ?_
  exact (h _).bind fun e _ _ => takes_pure _

/-- What comes first in an operand takes a token. -/
lemma takes_primary : Takes 1 c (primary expression) := by
  refine takes_current_bind ?_ (fun t t' same => by simp only [same]) (.inl Nat.one_pos)
  split
  · rename_i hkind
    exact (takes_advance_of_kind hkind rfl).bind fun _ _ _ => takes_pure _
  · rename_i name hkind
    refine (takes_advance_of_kind hkind rfl).bind fun _ _ _ => ?_
    refine takes_isAt_bind (fun called hcalled => ?_) (.inr rfl)
    split
    · rename_i called
      refine (takes_advance_of_kind (hcalled called) rfl).bind fun _ _ _ => ?_
      exact (takes_items h .closeParen).bind fun arguments _ _ => takes_pure _
    · exact takes_pure _
  · rename_i hkind
    have hrelative := takes_relativeAfterDot hkind
    rw [relativeAfterDot_eq] at hrelative
    exact hrelative.mono (Nat.le_succ 1)
  · rename_i hkind
    refine (takes_advance_of_kind hkind rfl).bind fun _ _ _ => (h _).bind fun e _ _ => ?_
    exact (takes_expect .closeParen).bind fun _ _ _ => takes_pure _
  · rename_i hkind
    refine (takes_advance_of_kind hkind rfl).bind fun _ _ _ => ?_
    exact (takes_items h .closeBracket).bind fun items _ _ => takes_pure _
  · rename_i hkind
    refine (takes_advance_of_kind hkind rfl).bind fun _ _ _ => ?_
    exact (takes_items (fun _ => takes_entry h) .closeBrace).bind fun _ _ _ => takes_pure _
  · exact takes_unexpected _

end

/-- What can be read at a level takes tokens, and does not depend on those behind. -/
structure Taking (level : Level) : Prop where
  expression : ∀ c, Takes 1 c level.expression
  operand : ∀ c, Takes 1 c level.operand
  folds : ∀ least left c, Takes 0 c (level.folds least left)
  steps : ∀ subject c, Takes 0 c (level.steps subject)

namespace Taking

variable {level : Level} (h : Taking level)
include h

lemma chain (least : Int) : Takes 1 c (level.chain least) :=
  (h.operand c).bind fun left c' _ => h.folds least left c'

lemma conditional : Takes 1 c level.conditional := by
  refine (h.chain _).bind fun test _ _ => takes_isAt_bind (fun asked hasked => ?_) (.inr rfl)
  split
  · rename_i asked
    refine (takes_advance_of_kind (hasked asked) rfl).bind fun _ _ _ => ?_
    refine Takes.weaken ?_
    -- a colon or an expression is taken, whatever closes there
    refine takes_isAt_bind (fun short hshort => ?_) (.inl Nat.one_pos)
    split
    · rename_i short
      refine (takes_advance_of_kind (hshort short) rfl).bind fun _ _ _ => ?_
      exact (h.expression _).bind fun alternate _ _ => takes_pure _
    · refine (h.expression _).bind fun consequent _ _ => (takes_expect .colon).bind fun _ _ _ => ?_
      exact (h.expression _).bind fun alternate _ _ => takes_pure _
  · exact takes_pure _

end Taking

section

variable {below : Option Level} (h : ∀ level, below = some level → Taking level)

lemma takes_descend_bind {f : Level → Parse Expr}
    (hf : ∀ level, below = some level → Takes least c (f level)) :
    Takes least c (descend below >>= f) := by
  cases below with
  | none => exact takes_tooDeep_bind
  | some level => exact hf level rfl

include h

lemma takes_expressionAbove : Takes 1 c (expressionAbove below) :=
  takes_descend_bind fun level hlevel => (h level hlevel).conditional

/-- Postfix steps take no tokens where there are none. -/
lemma takes_stepsAbove (subject : Expr) : Takes 0 c (stepsAbove below subject) := by
  refine takes_current_bind ?_ (fun t t' same => by simp only [same])
    (.inr ⟨pure subject, fun t closes => ?_⟩)
  · split
    · rename_i hkind
      refine takes_descend_bind fun level hlevel => ?_
      refine (takes_advance_of_kind hkind rfl).bind fun _ _ _ => ?_
      exact takes_expectIdentifier.bind fun property c' _ => (h level hlevel).steps _ c'
    · rename_i hkind
      refine takes_descend_bind fun level hlevel => ?_
      refine (takes_advance_of_kind hkind rfl).bind fun _ _ _ => ?_
      refine ((h level hlevel).expression _).bind fun predicate _ _ => ?_
      exact (takes_expect .closeBracket).bind fun _ c' _ => (h level hlevel).steps _ c'
    · rename_i hkind
      refine takes_descend_bind fun level hlevel => ?_
      refine (takes_advance_of_kind hkind rfl).bind fun _ _ _ => ?_
      refine takes_expectIdentifier.bind fun name _ _ => ?_
      refine takes_isAt_bind (fun called hcalled => ?_) (.inr rfl)
      split
      · rename_i called
        refine (takes_advance_of_kind (hcalled called) rfl).bind fun _ _ _ => ?_
        refine (takes_items (h level hlevel).expression .closeParen).bind fun arguments c' _ => ?_
        exact (h level hlevel).steps _ c'
      · exact (h level hlevel).steps _ _
    · exact takes_pure _
  · generalize t.kind = k at closes
    cases k with
    | punctuation p => cases p <;> first | rfl | cases closes
    | _ => rfl

lemma takes_operandAbove (g : Grammar) : Takes 1 c (operandAbove g below) := by
  refine takes_current_bind ?_ (fun t t' same => by simp only [same]) (.inl Nat.one_pos)
  split
  · rename_i symbol hkind
    split
    · refine (takes_advance_of_kind hkind rfl).bind fun _ _ _ => ?_
      refine takes_descend_bind fun level hlevel => ?_
      exact ((h level hlevel).operand _).bind fun operand _ _ => takes_pure _
    · exact takes_unexpected _
  · exact (takes_primary fun _ => takes_expressionAbove h).bind fun subject _ _ =>
      takes_stepsAbove h subject

lemma takes_foldsAbove (g : Grammar) (least : Int) (left : Expr) :
    Takes 0 c (foldsAbove g below least left) := by
  refine takes_current_bind ?_ (fun t t' same => by simp only [same])
    (.inr ⟨pure left, fun t closes => ?_⟩)
  · split
    · rename_i symbol hkind
      split
      · exact takes_unexpected _
      · dsimp only
        split
        · exact takes_pure _
        · refine takes_descend_bind fun level hlevel => ?_
          refine (takes_advance_of_kind hkind rfl).bind fun _ _ _ => ?_
          refine ((h level hlevel).chain _).bind fun right c' _ => ?_
          exact (h level hlevel).folds least _ c'
    · exact takes_pure _
  · generalize t.kind = k at closes
    cases k with
    | operator role symbol => cases closes
    | _ => rfl

lemma taking_above (g : Grammar) : Taking (above g below) where
  expression _ := takes_expressionAbove h
  operand _ := takes_operandAbove h g
  folds least left _ := takes_foldsAbove h g least left
  steps subject _ := takes_stepsAbove h subject

end

/-- Every level takes tokens, and stops alike before the same kinds. -/
lemma taking_ofDepth (g : Grammar) (n : Nat) : Taking (ofDepth g n) := by
  induction n with
  | zero =>
    refine taking_above ?_ g
    rintro _ ⟨⟩
  | succ n ih =>
    refine taking_above ?_ g
    rintro _ ⟨⟩
    exact ih

end Level

end Sift
