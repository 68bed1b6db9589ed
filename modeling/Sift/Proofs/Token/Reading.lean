import Mathlib.Tactic.Lemma
import Sift.Token.Lexer

/-!
# Reading tokens

What stands at the beginning of a text (`Scans`, with a case for each class of tokens) and what a
lexer reads before it comes to the end of its text (`Lexer.Reads`, with a step for each token), as
relations. `scan_eq_ok_iff` and `Lexer.run_eq_none_iff` say that the lexer computes them.
-/

namespace Sift

/-! ### First characters -/

lemma isAlphabetic_eq_false_of_lt {c : Char} (h : c.toNat < 65) : isAlphabetic c = false := by
  have table : alphabeticRanges = (0x41, 0x5A) :: alphabeticRanges.drop 1 := rfl
  rw [isAlphabetic, table, CodeRanges.contains_cons]
  simp only [Bool.and_eq_false_iff, decide_eq_false_iff_not]
  omega

lemma isIdentifierStart_eq_false_of_isDigit {c : Char} (h : c.isDigit) :
    isIdentifierStart c = false := by
  have code : 48 ≤ c.toNat ∧ c.toNat ≤ 57 := by
    change (decide (48 ≤ c.toNat) && decide (c.toNat ≤ 57)) = true at h
    simpa using h
  have underscore : c ≠ '_' := by
    rintro rfl
    exact absurd code.2 (by decide)
  have dollar : c ≠ '$' := by
    rintro rfl
    exact absurd code.1 (by decide)
  simp [isIdentifierStart, isAlphabetic_eq_false_of_lt (c := c) (by omega), underscore, dollar]

/-- A quotation mark is no digit and begins no identifier. -/
lemma not_quote_of_isDigit {c : Char} (h : c.isDigit) : ¬ (c = '"' ∨ c = '\'') := by
  rintro (rfl | rfl) <;> cases h

lemma not_quote_of_isIdentifierStart {c : Char} (h : isIdentifierStart c) :
    ¬ (c = '"' ∨ c = '\'') := by
  rintro (rfl | rfl) <;> revert h <;> decide

namespace Punctuation

variable (p : Punctuation)

lemma not_quote_char : ¬ (p.char = '"' ∨ p.char = '\'') := by cases p <;> decide

lemma isDigit_char : p.char.isDigit = false := by cases p <;> rfl

lemma isIdentifierStart_char : isIdentifierStart p.char = false := by cases p <;> decide

end Punctuation

/-! ### One token -/

section

variable {g : Grammar} {expectOperand afterDot : Bool} {position : Nat} {c : Char}
  {rest : List Char} {kind : Token.Kind} {length : Nat}

/-- What stands at the beginning of a text, and the number of its characters. -/
inductive Scans (g : Grammar) (expectOperand afterDot : Bool) (c : Char) (rest : List Char) :
    Token.Kind → Nat → Prop
  | symbol {symbol : String} (found : g.matchSymbol (c :: rest) = some symbol) :
    Scans g expectOperand afterDot c rest (operatorKind expectOperand symbol) symbol.length
  | quoted {text : List Char} {length : Nat} (noSymbol : g.matchSymbol (c :: rest) = none)
      (quote : c = '"' ∨ c = '\'') (closed : scanQuoted c rest = .closed text length) :
    Scans g expectOperand afterDot c rest (.literal (.string (String.ofList text))) (length + 1)
  | number (noSymbol : g.matchSymbol (c :: rest) = none) (digit : c.isDigit) :
    Scans g expectOperand afterDot c rest (.literal (scanNumber (c :: rest)).1)
      (scanNumber (c :: rest)).2
  | word (noSymbol : g.matchSymbol (c :: rest) = none) (start : isIdentifierStart c) :
    Scans g expectOperand afterDot c rest
      (wordKind g expectOperand afterDot
        (String.ofList ((c :: rest).takeWhile isIdentifierChar)))
      ((c :: rest).takeWhile isIdentifierChar).length
  | punctuation {p : Punctuation} (noSymbol : g.matchSymbol (c :: rest) = none)
      (char : Punctuation.ofChar? c = some p) :
    Scans g expectOperand afterDot c rest (.punctuation p) 1

/-- What is read at the beginning of a text, by the character that it begins with. -/
lemma scans_of_scan
    (h : scan g expectOperand afterDot position c rest = (.ok kind, length)) :
    Scans g expectOperand afterDot c rest kind length := by
  rw [scan] at h
  split at h
  · rename_i found
    cases h
    exact .symbol found
  · rename_i noSymbol
    split at h
    · rename_i quote
      split at h
      · rename_i closed
        cases h
        exact .quoted noSymbol quote closed
      · cases h
      · cases h
    · split at h
      · rename_i digit
        cases h
        exact .number noSymbol digit
      · split at h
        · rename_i start
          cases h
          exact .word noSymbol start
        · split at h
          · rename_i char
            cases h
            exact .punctuation noSymbol char
          · cases h

/-- There is only one thing to be read at the beginning of a text. -/
lemma Scans.scan_eq (h : Scans g expectOperand afterDot c rest kind length) :
    scan g expectOperand afterDot position c rest = (.ok kind, length) := by
  rw [scan]
  cases h with
  | symbol found => rw [found]
  | quoted noSymbol quote closed =>
    rw [noSymbol]
    simp only [if_pos quote, closed]
  | number noSymbol digit =>
    rw [noSymbol]
    simp only [if_neg (not_quote_of_isDigit digit), if_pos digit]
  | word noSymbol start =>
    have notDigit : ¬ c.isDigit = true := fun digit => by
      rw [isIdentifierStart_eq_false_of_isDigit digit] at start
      cases start
    rw [noSymbol]
    simp only [if_neg (not_quote_of_isIdentifierStart start), if_neg notDigit, if_pos start]
  | punctuation noSymbol char =>
    rename_i p
    obtain rfl := Punctuation.char_of_ofChar? char
    rw [noSymbol]
    simp [p.not_quote_char, p.isDigit_char, p.isIdentifierStart_char]

lemma scan_eq_ok_iff : scan g expectOperand afterDot position c rest = (.ok kind, length) ↔
    Scans g expectOperand afterDot c rest kind length :=
  ⟨scans_of_scan, Scans.scan_eq⟩

/-- A word is a value, a name or an operator. -/
lemma wordKind_cases (g : Grammar) (expectOperand afterDot : Bool) (word : String) :
    (∃ v, wordKind g expectOperand afterDot word = .literal v) ∨
      wordKind g expectOperand afterDot word = .identifier word ∨
      wordKind g expectOperand afterDot word = operatorKind expectOperand word := by
  unfold wordKind
  grind

namespace Scans

variable (h : Scans g expectOperand afterDot c rest kind length)

include h

lemma one_le : 1 ≤ length := by
  have := one_le_scan g expectOperand afterDot 0 c rest
  rwa [h.scan_eq] at this

lemma le_length : length ≤ (c :: rest).length := by
  have := scan_le_length g expectOperand afterDot 0 c rest
  rwa [h.scan_eq] at this

/-- The end of the text is not scanned. -/
lemma isEnd_eq : kind.isEnd = false := by
  cases h with
  | word =>
    rcases wordKind_cases g expectOperand afterDot _ with ⟨v, eq⟩ | eq | eq <;> rw [eq] <;> rfl
  | _ => rfl

end Scans

end

namespace Lexer

variable {g : Grammar} {lx after : Lexer} {c : Char} {rest : List Char} {kind : Token.Kind}
  {length : Nat} {token : Token} {tokens : List Token}

/-- Behind nothing but white space the end follows. -/
lemma next_of_blank (blank : lx.skipBlanks.rest = []) :
    lx.next g = (.ok ⟨.endOfInput, "", lx.skipBlanks.position⟩,
      { lx.skipBlanks with afterDot := false }) := by
  simp only [next]
  split
  · rfl
  · simp_all

/-- The next token is what stands behind the white space. -/
lemma next_of_scans (begins : lx.skipBlanks.rest = c :: rest)
    (scans : Scans g lx.expectOperand lx.afterDot c rest kind length) :
    lx.next g = (.ok ⟨kind, String.ofList ((c :: rest).take length), lx.skipBlanks.position⟩,
      (lx.skipBlanks.advance length).afterKind kind) := by
  have scanned : scan g lx.expectOperand lx.afterDot lx.skipBlanks.position c rest = _ :=
    scans.scan_eq
  simp only [next]
  split
  · simp_all
  · rename_i eq
    cases begins.symm.trans eq
    simp_all [skipBlanks]

/-- A token comes after blanks, if it is not the end. -/
lemma of_next_ok (h : lx.next g = (.ok token, after)) :
    lx.skipBlanks.rest = [] ∧ token.kind.isEnd = true ∨
      ∃ c rest kind length, lx.skipBlanks.rest = c :: rest ∧
        Scans g lx.expectOperand lx.afterDot c rest kind length ∧
        token = ⟨kind, String.ofList ((c :: rest).take length), lx.skipBlanks.position⟩ ∧
        after = (lx.skipBlanks.advance length).afterKind kind := by
  cases begins : lx.skipBlanks.rest with
  | nil =>
    rw [next_of_blank begins] at h
    cases h
    exact .inl ⟨rfl, rfl⟩
  | cons c rest =>
    rcases scanned : scan g lx.expectOperand lx.afterDot lx.skipBlanks.position c rest with
      ⟨_ | kind, length⟩
    · simp only [next] at h
      split at h
      · simp_all
      · rename_i eq
        cases begins.symm.trans eq
        simp_all [skipBlanks]
    · have scans := scans_of_scan scanned
      rw [next_of_scans begins scans] at h
      cases h
      exact .inr ⟨c, rest, kind, length, rfl, scans, rfl, rfl⟩

/-! ### All tokens -/

/-- The lexer reads some tokens and comes to the end of its text. -/
inductive Reads (g : Grammar) : Lexer → List Token → Prop
  | stop {lx : Lexer} (blank : lx.skipBlanks.rest = []) : Reads g lx []
  | step {lx : Lexer} {c : Char} {rest : List Char} {kind : Token.Kind} {length : Nat}
      {tokens : List Token} (begins : lx.skipBlanks.rest = c :: rest)
      (scans : Scans g lx.expectOperand lx.afterDot c rest kind length)
      (more : Reads g ((lx.skipBlanks.advance length).afterKind kind) tokens) :
    Reads g lx
      (⟨kind, String.ofList ((c :: rest).take length), lx.skipBlanks.position⟩ :: tokens)

/-- The tokens are the next one and those behind it. -/
lemma run_eq (lx : Lexer) : lx.run g = match lx.next g with
    | (.error e, _) => ([], some e)
    | (.ok token, after) =>
      if token.kind.isEnd then ([], none)
      else (token :: (after.run g).1, (after.run g).2) := by
  rw [run]
  split <;> simp_all

lemma run_of_blank (blank : lx.skipBlanks.rest = []) : lx.run g = ([], none) := by
  rw [run_eq, next_of_blank blank]
  rfl

lemma run_of_scans (begins : lx.skipBlanks.rest = c :: rest)
    (scans : Scans g lx.expectOperand lx.afterDot c rest kind length) :
    lx.run g
      = (⟨kind, String.ofList ((c :: rest).take length), lx.skipBlanks.position⟩
          :: (((lx.skipBlanks.advance length).afterKind kind).run g).1,
        (((lx.skipBlanks.advance length).afterKind kind).run g).2) := by
  rw [run_eq, next_of_scans begins scans]
  exact if_neg (by simp [scans.isEnd_eq])

lemma Reads.run_eq (h : lx.Reads g tokens) : lx.run g = (tokens, none) := by
  induction h with
  | stop blank => exact run_of_blank blank
  | step begins scans _ ih => rw [run_of_scans begins scans, ih]

lemma reads_of_run (h : lx.run g = (tokens, none)) : lx.Reads g tokens := by
  fun_induction Lexer.run g lx generalizing tokens with
  | case1 => cases h
  | case2 lx token after hnext atEnd =>
    cases h
    rcases of_next_ok hnext with ⟨blank, -⟩ | ⟨c, rest, kind, length, -, scans, rfl, -⟩
    · exact .stop blank
    · rw [scans.isEnd_eq] at atEnd
      cases atEnd
  | case3 lx token after hnext more later error hrun ih =>
    cases h
    rcases of_next_ok hnext with ⟨-, atEnd⟩ | ⟨c, rest, kind, length, begins, scans, rfl, rfl⟩
    · exact absurd atEnd more
    · exact .step begins scans (ih hrun)

/-- Tokens are read to the end if and only if they stand in the text one after the other. -/
lemma run_eq_none_iff : lx.run g = (tokens, none) ↔ lx.Reads g tokens :=
  ⟨reads_of_run, Reads.run_eq⟩

lemma Reads.isEnd_eq (h : lx.Reads g tokens) : ∀ t ∈ tokens, t.kind.isEnd = false := by
  induction h with
  | stop => exact List.forall_mem_nil _
  | step begins scans more ih => exact List.forall_mem_cons.2 ⟨scans.isEnd_eq, ih⟩

/-- The end of a text is not among its tokens. -/
lemma isEnd_of_mem_run (lx : Lexer) : ∀ t ∈ (lx.run g).1, t.kind.isEnd = false := by
  fun_induction Lexer.run g lx with
  | case1 => simp
  | case2 => simp
  | case3 lx token after hnext more tokens error hrun ih =>
    rw [hrun] at ih
    exact List.forall_mem_cons.2 ⟨by simpa using more, ih⟩

/-! ### After tokens read before -/

@[simp] lemma rest_afterTokens (lx : Lexer) (before : List Token) :
    (lx.afterTokens before).rest = lx.rest := by
  rw [afterTokens]
  cases before.getLast? <;> rfl

@[simp] lemma position_afterTokens (lx : Lexer) (before : List Token) :
    (lx.afterTokens before).position = lx.position := by
  rw [afterTokens]
  cases before.getLast? <;> rfl

end Lexer

lemma tokensAfter_eq (g : Grammar) (before : List Token) (source : String) (offset : Nat) :
    tokensAfter g before source offset
      = (before ++ (((Lexer.ofSource source offset).afterTokens before).run g).1,
        (((Lexer.ofSource source offset).afterTokens before).run g).2) := rfl

/-- A text is read to the end if its tokens stand in it, behind those read before. -/
lemma tokensAfter_eq_none_iff {g : Grammar} {before all : List Token} {source : String}
    {offset : Nat} : tokensAfter g before source offset = (all, none) ↔
      ∃ new, all = before ++ new ∧
        ((Lexer.ofSource source offset).afterTokens before).Reads g new := by
  rw [tokensAfter_eq]
  constructor
  · intro h
    obtain ⟨rfl, error⟩ := Prod.mk.inj h
    exact ⟨_, rfl, Lexer.reads_of_run (Prod.ext rfl error)⟩
  · rintro ⟨new, rfl, reads⟩
    rw [reads.run_eq]

end Sift
