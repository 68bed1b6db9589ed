import Mathlib.Data.List.TakeWhile
import Sift.Proofs.Token.Reading

/-!
# Tokens tile their text

The texts of the tokens read from a source stand there at the positions of the tokens, one after the
other, and only white space is left between them. Names and operators are spelled by these texts. An
operator is in the role that the token before it leaves it.
-/

namespace Sift

/-- The character at a position belongs to the token. -/
def Token.Covers (t : Token) (position : Nat) : Prop :=
  t.position ≤ position ∧ position < t.position + t.raw.length

/-- Some tokens tile a text whose first character has the position `offset`. -/
structure Tiling (text : List Char) (offset : Nat) (tokens : List Token) : Prop where
  nonempty : ∀ t ∈ tokens, t.raw ≠ ""
  le_position : ∀ t ∈ tokens, offset ≤ t.position
  raw_eq : ∀ t ∈ tokens, t.raw.toList = (text.drop (t.position - offset)).take t.raw.length
  increasing : tokens.Pairwise fun t u => t.position + t.raw.length ≤ u.position
  blank : ∀ i (h : i < text.length),
    (∀ t ∈ tokens, ¬ t.Covers (offset + i)) → isWhiteSpace (text.get ⟨i, h⟩)

/-- Names and operators are what the texts of the tokens say. -/
structure Spelled (tokens : List Token) : Prop where
  identifier : ∀ t ∈ tokens, ∀ name, t.kind = .identifier name → name = t.raw
  operator : ∀ t ∈ tokens, ∀ role symbol, t.kind = .operator role symbol → symbol = t.raw

/-- An operator among the new tokens is unary if it is the first token of all, or the token before
it expects an operand, and only then. -/
def InRole (before new : List Token) : Prop :=
  ∀ earlier t later role symbol, before ++ new = earlier ++ t :: later →
    before.length ≤ earlier.length → t.kind = .operator role symbol →
      (role = .unary ↔ ∀ last ∈ earlier.getLast?, last.kind.expectsOperand = true)

/-! ### Texts -/

/-- A token behind white space, before a text that is tiled. -/
lemma Tiling.cons {blanks raw left : List Char} {offset : Nat} {t : Token} {tokens : List Token}
    (blank : ∀ c ∈ blanks, isWhiteSpace c) (nonempty : raw ≠ []) (text : t.raw = String.ofList raw)
    (position : t.position = offset + blanks.length)
    (h : Tiling left (offset + blanks.length + raw.length) tokens) :
    Tiling (blanks ++ (raw ++ left)) offset (t :: tokens) := by
  have length : t.raw.length = raw.length := by rw [text, String.length_ofList]
  constructor
  · refine List.forall_mem_cons.2 ⟨?_, h.nonempty⟩
    rw [text]
    exact fun empty => nonempty (by simpa using congrArg String.toList empty)
  · refine List.forall_mem_cons.2 ⟨by omega, fun u hu => ?_⟩
    have := h.le_position u hu
    omega
  · refine List.forall_mem_cons.2 ⟨?_, fun u hu => ?_⟩
    · rw [position, Nat.add_sub_cancel_left, List.drop_left, length, List.take_left, text,
        String.toList_ofList]
    · have le := h.le_position u hu
      have split : u.position - offset
          = (blanks ++ raw).length + (u.position - (offset + blanks.length + raw.length)) := by
        rw [List.length_append]
        omega
      rw [split, ← List.append_assoc, ← List.drop_drop, List.drop_left]
      exact h.raw_eq u hu
  · refine List.pairwise_cons.2 ⟨fun u hu => ?_, h.increasing⟩
    have := h.le_position u hu
    omega
  · intro i hi uncovered
    obtain ⟨hhead, htail⟩ := List.forall_mem_cons.1 uncovered
    simp only [Token.Covers, position, length] at hhead
    simp only [List.get_eq_getElem]
    -- The token covers what is not among its blanks nor in the text left.
    by_cases before : i < blanks.length
    · rw [List.getElem_append_left before]
      exact blank _ (List.getElem_mem before)
    · have behind : blanks.length + raw.length ≤ i := by omega
      have place : offset + blanks.length + raw.length + (i - blanks.length - raw.length)
          = offset + i := by
        omega
      rw [List.getElem_append_right (by omega), List.getElem_append_right (by omega)]
      refine h.blank _ _ fun u hu => ?_
      rw [place]
      exact htail u hu

/-- All tokens begin inside of the text. -/
lemma Tiling.position_lt {text : List Char} {offset : Nat} {tokens : List Token}
    (h : Tiling text offset tokens) {t : Token} (ht : t ∈ tokens) :
    t.position < offset + text.length := by
  by_contra beyond
  have := h.le_position t ht
  have raw := h.raw_eq t ht
  rw [List.drop_eq_nil_of_le (by omega), List.take_nil] at raw
  exact h.nonempty t ht (String.toList_inj.1 raw)

namespace Scans

variable {g : Grammar} {expectOperand afterDot : Bool} {c : Char} {rest : List Char}
  {kind : Token.Kind} {length : Nat}

/-- A name is spelled as it stands in the text. -/
lemma identifier_eq {name : String}
    (h : Scans g expectOperand afterDot c rest (.identifier name) length) :
    name = String.ofList ((c :: rest).take length) := by
  generalize eq : Token.Kind.identifier name = kind at h
  cases h with
  | word =>
    have spelled := List.prefix_iff_eq_take.1
      (List.takeWhile_prefix isIdentifierChar (l := c :: rest))
    rcases wordKind_cases g expectOperand afterDot
      (String.ofList ((c :: rest).takeWhile isIdentifierChar)) with ⟨v, word⟩ | word | word
    · cases eq.trans word
    · cases eq.trans word
      exact congrArg String.ofList spelled
    · cases eq.trans word
  | _ => cases eq

/-- An operator is spelled as it stands in the text, and has the role of its place. -/
lemma operator_eq {role : Role} {symbol : String}
    (h : Scans g expectOperand afterDot c rest (.operator role symbol) length) :
    symbol = String.ofList ((c :: rest).take length) ∧
      role = if expectOperand then .unary else .binary := by
  generalize eq : Token.Kind.operator role symbol = kind at h
  cases h with
  | symbol found =>
    cases eq
    have begins := (Grammar.of_matchSymbol found).2.1
    rw [List.prefix_iff_eq_take, String.length_toList] at begins
    exact ⟨by rw [← begins, String.ofList_toList], rfl⟩
  | word =>
    have spelled := List.prefix_iff_eq_take.1
      (List.takeWhile_prefix isIdentifierChar (l := c :: rest))
    rcases wordKind_cases g expectOperand afterDot
      (String.ofList ((c :: rest).takeWhile isIdentifierChar)) with ⟨v, word⟩ | word | word
    · cases eq.trans word
    · cases eq.trans word
    · cases eq.trans word
      exact ⟨congrArg String.ofList spelled, rfl⟩
  | _ => cases eq

end Scans

namespace Lexer

variable {g : Grammar} {lx : Lexer} {tokens : List Token}

/-- A text consists of its first blanks and what comes behind them. -/
lemma rest_eq (lx : Lexer) :
    lx.rest = lx.rest.takeWhile isWhiteSpace ++ lx.skipBlanks.rest :=
  List.takeWhile_append_dropWhile.symm

/-- Between the tokens there is only white space. -/
lemma Reads.tiling (h : lx.Reads g tokens) : Tiling lx.rest lx.position tokens := by
  induction h with
  | @stop lx blank =>
    refine ⟨by simp, by simp, by simp, List.Pairwise.nil, fun i hi _ => ?_⟩
    exact List.dropWhile_eq_nil_iff.1 blank _ (List.get_mem lx.rest ⟨i, hi⟩)
  | @step lx c rest kind length tokens begins scans more ih =>
    have taken : ((c :: rest).take length).length = length := by
      rw [List.length_take]
      exact Nat.min_eq_left scans.le_length
    have nonempty : (c :: rest).take length ≠ [] := by
      intro empty
      rw [empty, List.length_nil] at taken
      have := scans.one_le
      omega
    have parts : lx.rest = lx.rest.takeWhile isWhiteSpace
        ++ ((c :: rest).take length ++ (c :: rest).drop length) := by
      rw [List.take_append_drop, ← begins]
      exact lx.rest_eq
    rw [parts]
    refine .cons (fun c hc => List.mem_takeWhile_imp hc) nonempty rfl rfl ?_
    rw [taken, ← begins]
    exact ih

/-- Names and operators are spelled as they stand in the text. -/
lemma Reads.spelled (h : lx.Reads g tokens) : Spelled tokens := by
  induction h with
  | stop => exact ⟨by simp, by simp⟩
  | step begins scans more ih =>
    refine ⟨List.forall_mem_cons.2 ⟨?_, ih.identifier⟩, List.forall_mem_cons.2 ⟨?_, ih.operator⟩⟩
    · rintro name rfl
      exact scans.identifier_eq
    · rintro role symbol rfl
      exact scans.operator_eq.1

/-! ### Roles -/

/-- Whether an operand may come after some tokens, where one may come before them or not. -/
def expectsAfter (expectOperand : Bool) (tokens : List Token) : Bool :=
  (tokens.getLast?.map fun t => t.kind.expectsOperand).getD expectOperand

lemma expectOperand_afterTokens (lx : Lexer) (tokens : List Token) :
    (lx.afterTokens tokens).expectOperand = expectsAfter lx.expectOperand tokens := by
  rw [afterTokens, expectsAfter]
  cases tokens.getLast? <;> rfl

lemma expectsAfter_cons (expectOperand : Bool) (t : Token) (tokens : List Token) :
    expectsAfter expectOperand (t :: tokens) = expectsAfter t.kind.expectsOperand tokens := by
  rw [expectsAfter, expectsAfter, List.getLast?_cons]
  cases tokens.getLast? <;> rfl

lemma expectsAfter_append (expectOperand : Bool) (tokens tokens' : List Token) :
    expectsAfter expectOperand (tokens ++ tokens')
      = expectsAfter (expectsAfter expectOperand tokens) tokens' := by
  rw [expectsAfter, expectsAfter, expectsAfter, List.getLast?_append]
  cases tokens'.getLast? <;> rfl

/-- The role of an operator is decided by the tokens before it. -/
lemma Reads.role_eq (h : lx.Reads g tokens) {earlier later : List Token} {t : Token} {role : Role}
    {symbol : String} (split : tokens = earlier ++ t :: later)
    (operator : t.kind = .operator role symbol) :
    role = if expectsAfter lx.expectOperand earlier then .unary else .binary := by
  induction h generalizing earlier with
  | stop => cases earlier <;> cases split
  | step begins scans more ih =>
    cases earlier with
    | nil =>
      cases split
      cases operator
      exact scans.operator_eq.2
    | cons first earlier =>
      cases split
      rw [expectsAfter_cons]
      exact ih rfl

lemma expectsAfter_true_iff (tokens : List Token) : expectsAfter true tokens = true ↔
    ∀ last ∈ tokens.getLast?, last.kind.expectsOperand = true := by
  rw [expectsAfter]
  cases tokens.getLast? <;> simp

/-- The lexer takes no operator out of its role. -/
lemma Reads.inRole {before new : List Token} {source : String} {offset : Nat}
    (h : ((ofSource source offset).afterTokens before).Reads g new) : InRole before new := by
  intro earlier t later role symbol split behind operator
  obtain ⟨earlier, rfl, rest⟩ : ∃ earlier', earlier = before ++ earlier' ∧
      new = earlier' ++ t :: later := by
    rcases List.append_eq_append_iff.1 split with ⟨more, rfl, rest⟩ | ⟨more, rfl, rest⟩
    · exact ⟨more, rfl, rest⟩
    · have none : more = [] := by
        rw [List.length_append] at behind
        exact List.length_eq_zero_iff.1 (by omega)
      subst none
      exact ⟨[], by simp, by simpa using rest.symm⟩
  have expects : expectsAfter ((ofSource source offset).afterTokens before).expectOperand earlier
      = expectsAfter true (before ++ earlier) := by
    rw [expectOperand_afterTokens, expectsAfter_append]
    rfl
  rw [h.role_eq rest operator, expects, ← expectsAfter_true_iff]
  cases expectsAfter true (before ++ earlier) <;> simp

end Lexer

/-! ### Sources -/

/-- The tokens read from a whole source come behind those read before. They tile the source, are
spelled by it and stand in their roles. A text has these tokens and one end, behind its last
character. -/
theorem tokensAfter_tiles (g : Grammar) (source : String) (offset : Nat) :
    (∀ before all, tokensAfter g before source offset = (all, none) →
      ∃ new, all = before ++ new ∧ Tiling source.toList offset new ∧ Spelled new ∧
        InRole before new ∧ ∀ t ∈ new, t.kind.isEnd = false) ∧
    ∀ tokens, tokenize g source offset = .ok tokens ↔
      ∃ new, tokensAfter g [] source offset = (new, none) ∧
        tokens = new ++ [⟨.endOfInput, "", offset + source.length⟩] := by
  constructor
  · intro before all h
    obtain ⟨new, rfl, reads⟩ := tokensAfter_eq_none_iff.1 h
    have start := Lexer.rest_afterTokens (.ofSource source offset) before
    have place := Lexer.position_afterTokens (.ofSource source offset) before
    have tiling := reads.tiling
    rw [start, place] at tiling
    exact ⟨new, rfl, tiling, reads.spelled, reads.inRole, reads.isEnd_eq⟩
  · intro tokens
    rw [tokenize]
    rcases tokensAfter g [] source offset with ⟨new, _ | e⟩
    · simp [eq_comm]
    · simp

/-- A grammar with an operator that has a blank in it. -/
def arrows : Grammar := Grammar.empty.edit (.unary "→ →" fun v => .value v)

/-- A symbol with a blank in it covers the blank, behind a comma that was read before. -/
theorem tokensAfter_tiles_arrows :
    let comma : Token := ⟨.punctuation .comma, ",", 6⟩
    let new : List Token := [⟨.operator .unary "→ →", "→ →", 8⟩, ⟨.identifier "b", "b", 11⟩]
    tokensAfter arrows [comma] " → →b " 7 = (comma :: new, none) ∧
      Tiling " → →b ".toList 7 new ∧ Spelled new ∧ InRole [comma] new := by
  intro comma new
  have symbol : arrows.matchSymbol "→ →b ".toList = some "→ →" := by decide +kernel
  have noSymbol : arrows.matchSymbol "b ".toList = none := by decide +kernel
  have word : Lexer.Reads arrows ⟨"b ".toList, 11, true, false⟩ [⟨.identifier "b", "b", 11⟩] :=
    .step rfl (.word noSymbol (by decide)) (.stop (by decide))
  have reads : Lexer.Reads arrows ⟨" → →b ".toList, 7, true, false⟩ new :=
    .step rfl (.symbol symbol) word
  have read : tokensAfter arrows [comma] " → →b " 7 = (comma :: new, none) :=
    tokensAfter_eq_none_iff.2 ⟨new, rfl, reads⟩
  obtain ⟨new', same, tiling, spelled, inRole, -⟩ :=
    (tokensAfter_tiles arrows " → →b " 7).1 _ _ read
  have same : new' = new := (List.cons.inj same).2.symm
  rw [same] at tiling spelled inRole
  exact ⟨read, tiling, spelled, inRole⟩

end Sift
