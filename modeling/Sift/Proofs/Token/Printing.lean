import Sift.Proofs.Token.Pieces

/-!
# Reading what has been written

Tokens are written with a single space between each two of them. What has been written is read as
the same tokens, if no operator can be taken for a part of another token: no operator has white
space in it, begins with a quotation mark or is a punctuation character (`Lexeme.tokenize_print`).
-/

namespace Sift

/-! ### Tokens that can be written -/

/-- The characters that a text can be quoted with. -/
inductive Quote where
  | double
  | single
deriving DecidableEq, Inhabited

namespace Quote

def char : Quote → Char
  | double => '"'
  | single => '\''

/-- A character of a quoted text, escaped where it needs to be. -/
def escape (q : Quote) (c : Char) : List Char :=
  if c = q.char ∨ c = '\\' then ['\\', c] else [c]

def quote (q : Quote) (text : String) : String :=
  String.ofList (q.char :: (text.toList.flatMap q.escape ++ [q.char]))

end Quote

/-- A token before it is written. It has no position, and an operator no role. -/
inductive Lexeme where
  | punctuation (p : Punctuation)
  | integer (n : Int64)
  | string (q : Quote) (text : String)
  | boolean (b : Bool)
  | null
  | identifier (name : String)
  | operator (symbol : String)
deriving DecidableEq, Inhabited

/-- Whether a text can be read as a name. -/
def isIdentifier (text : String) : Bool := text.toList.head?.any isIdentifierStart && isWord text

def keywords : List String := ["true", "false", "null"]

namespace Lexeme

/-- How the token is written. -/
def text : Lexeme → String
  | punctuation p => String.ofList [p.char]
  | integer n => toString n.toInt
  | string q text => q.quote text
  | boolean true => "true"
  | boolean false => "false"
  | null => "null"
  | identifier name => name
  | operator symbol => symbol

def kind (expectOperand : Bool) : Lexeme → Token.Kind
  | punctuation p => .punctuation p
  | integer n => .literal (.integer n)
  | string _ text => .literal (.string text)
  | boolean b => .literal (.boolean b)
  | null => .literal .null
  | identifier name => .identifier name
  | operator symbol => operatorKind expectOperand symbol

/-- What can be written, after a dot or not. After a dot every word is a name, and a word that
begins with a digit is never one. -/
def Writable (g : Grammar) (afterDot : Bool) : Lexeme → Prop
  | punctuation _ => True
  | integer n => 0 ≤ n.toInt
  | string _ _ => True
  | boolean _ => afterDot = false
  | null => afterDot = false
  | identifier name =>
    isIdentifier name ∧ (afterDot = true ∨ name ∉ keywords ∧ g.isOperator name = false)
  | operator symbol => g.isOperator symbol ∧ symbol ≠ "" ∧
      (isWord symbol = false ∨ isIdentifier symbol ∧ symbol ∉ keywords ∧ afterDot = false)

instance (g : Grammar) (afterDot : Bool) (l : Lexeme) : Decidable (l.Writable g afterDot) :=
  match l with
  | punctuation _ => inferInstanceAs (Decidable True)
  | integer n => inferInstanceAs (Decidable (0 ≤ n.toInt))
  | string _ _ => inferInstanceAs (Decidable True)
  | boolean _ => inferInstanceAs (Decidable (afterDot = false))
  | null => inferInstanceAs (Decidable (afterDot = false))
  | identifier name => inferInstanceAs (Decidable
    (isIdentifier name ∧ (afterDot = true ∨ name ∉ keywords ∧ g.isOperator name = false)))
  | operator symbol => inferInstanceAs (Decidable (g.isOperator symbol ∧ symbol ≠ "" ∧
      (isWord symbol = false ∨ isIdentifier symbol ∧ symbol ∉ keywords ∧ afterDot = false)))

def AllWritable (g : Grammar) : Bool → List Lexeme → Prop
  | _, [] => True
  | afterDot, l :: rest => l.Writable g afterDot ∧ AllWritable g (l = .punctuation .dot) rest

def decidableAllWritable (g : Grammar) : (afterDot : Bool) → (ls : List Lexeme) →
    Decidable (AllWritable g afterDot ls)
  | _, [] => inferInstanceAs (Decidable True)
  | afterDot, l :: rest =>
    have := decidableAllWritable g (l = .punctuation .dot) rest
    inferInstanceAs (Decidable (l.Writable g afterDot ∧ _))

instance (g : Grammar) (afterDot : Bool) (ls : List Lexeme) :
    Decidable (AllWritable g afterDot ls) := decidableAllWritable g afterDot ls

/-- Some tokens, with single spaces between them. -/
def print (ls : List Lexeme) : String := " ".intercalate (ls.map text)

/-- The tokens as they are read from where they are written. An operator is unary where an operand
is expected: at the beginning, or after a token that expects one. -/
def tokens : Bool → Nat → List Lexeme → List Token
  | _, _, [] => []
  | expectOperand, position, l :: rest =>
    ⟨l.kind expectOperand, l.text, position⟩ ::
      tokens (l.kind expectOperand).expectsOperand (position + l.text.length + 1) rest

end Lexeme

/-! ### Grammars that keep tokens apart -/

/-- A symbol that cannot be taken for a part of another token. -/
structure SeparableSymbol (s : String) : Prop where
  blankFree : ∀ c ∈ s.toList, isWhiteSpace c = false
  quoteFree : ∀ q : Quote, q.char ∉ s.toList.head?
  noPunctuation : ∀ p : Punctuation, s ≠ String.ofList [p.char]

/-- The operator that an edit registers. -/
def Edit.operator? : Edit → Option String
  | binary symbol _ | unary symbol _ => some symbol
  | _ => none

namespace Grammar

/-- No operator can be taken for a part of another token. -/
def Separable (g : Grammar) : Prop := ∀ s, g.isOperator s → SeparableSymbol s

lemma Separable.blankFree {g : Grammar} (hg : g.Separable) : g.BlankFree :=
  fun s hs => (hg s hs).blankFree

/-- An operator of an edited grammar was there before, or the edit has registered it. -/
lemma isOperator_of_edit {g : Grammar} {e : Edit} {s : String} (h : (g.edit e).isOperator s) :
    g.isOperator s ∨ s ∈ e.operator? := by
  simp only [isOperator, edit, binary_editWith, unary_editWith, Dict.contains, Bool.or_eq_true]
    at h ⊢
  cases e with
  | binary symbol op =>
    simp only [Dict.get?_insert, Edit.operator?, Option.mem_some_iff] at h ⊢
    grind
  | unary symbol rule =>
    simp only [Dict.get?_insert, Edit.operator?, Option.mem_some_iff] at h ⊢
    grind
  | removeOperator symbol =>
    simp only [Dict.get?_erase] at h
    grind
  | _ => exact .inl h

/-- Edits that register no other symbols keep a grammar separable. -/
lemma Separable.editAll {edits : List Edit} :
    ∀ {g : Grammar}, g.Separable → (∀ s ∈ edits.filterMap Edit.operator?, SeparableSymbol s) →
      (g.editAll edits).Separable := by
  induction edits with
  | nil => exact fun hg _ => hg
  | cons e rest ih =>
    intro g hg new
    refine ih (fun s hs => ?_) fun s hs => ?_
    · rcases isOperator_of_edit hs with before | registered
      · exact hg s before
      · exact new s (List.mem_filterMap.2 ⟨e, List.mem_cons_self, registered⟩)
    · obtain ⟨e', he', registered⟩ := List.mem_filterMap.1 hs
      exact new s (List.mem_filterMap.2 ⟨e', List.mem_cons_of_mem e he', registered⟩)

/-- The standard operators cannot be taken for parts of other tokens. -/
lemma separable_standard : standard.Separable := by
  refine Separable.editAll (fun s hs => ?_) fun s hs => ?_
  · cases hs
  · constructor
    · rw [forall_isWhiteSpace_eq_false_iff]
      revert s
      decide +kernel
    · intro q
      revert s
      cases q <;> decide +kernel
    · intro p
      revert s
      cases p <;> decide +kernel

end Grammar

/-! ### Characters -/

def whiteSpaceCodes : List Nat := whiteSpaceRanges.flatMap fun r => List.range' r.1 (r.2 + 1 - r.1)

lemma mem_whiteSpaceCodes {c : Char} (h : isWhiteSpace c) : c.toNat ∈ whiteSpaceCodes := by
  obtain ⟨r, hr, low, high⟩ := CodeRanges.exists_of_contains h
  refine List.mem_flatMap.2 ⟨r, hr, List.mem_range'_1.2 ⟨low, ?_⟩⟩
  omega

/-- No character of a name is white space. -/
lemma isWhiteSpace_eq_false_of_isIdentifierChar {c : Char} (h : isIdentifierChar c) :
    isWhiteSpace c = false := by
  -- There are few code points of white space, so the tables can be asked for each of them.
  have noWord : ∀ code ∈ whiteSpaceCodes, alphabeticRanges.contains code = false ∧
      numericRanges.contains code = false ∧ code ≠ '_'.toNat ∧ code ≠ '$'.toNat := by
    decide +kernel
  by_contra blank
  have blank : isWhiteSpace c = true := by simpa using blank
  obtain ⟨letter, digit, underscore, dollar⟩ := noWord _ (mem_whiteSpaceCodes blank)
  have underscore : c ≠ '_' := fun eq => underscore (congrArg Char.toNat eq)
  have dollar : c ≠ '$' := fun eq => dollar (congrArg Char.toNat eq)
  simp [isIdentifierChar, isAlphabetic, isNumeric, letter, digit, underscore, dollar] at h

/-! ### Texts that are one token -/

/-- The first token of a text is all of it. -/
def IsToken (g : Grammar) (expectOperand afterDot : Bool) (text : String) (kind : Token.Kind) :
    Prop :=
  ∃ c rest, text.toList = c :: rest ∧ isWhiteSpace c = false ∧
    Scans g expectOperand afterDot c rest kind text.length

section

variable {g : Grammar} {expectOperand afterDot : Bool}

/-- No symbol stands at the beginning of a word. -/
lemma Grammar.matchSymbol_eq_none_of_word {cs : List Char} (h : ∀ c ∈ cs, isIdentifierChar c) :
    g.matchSymbol cs = none := by
  refine Grammar.matchSymbol_eq_none_iff.2 fun s stands => ?_
  have word : isWord s = true := List.all_eq_true.2 fun c hc => h c (stands.begins.subset hc)
  rw [stands.notWord] at word
  cases word

/-- No operator is read in place of a punctuation character. -/
lemma isToken_punctuation (hg : g.Separable) (p : Punctuation) :
    IsToken g expectOperand afterDot (String.ofList [p.char]) (.punctuation p) := by
  have noSymbol : g.matchSymbol [p.char] = none := by
    refine Grammar.matchSymbol_eq_none_iff.2 fun s stands => ?_
    rcases List.prefix_cons_iff.1 stands.begins with empty | ⟨rest, all, none⟩
    · exact stands.nonempty (String.toList_inj.1 empty)
    · rw [List.prefix_nil.1 none] at all
      exact (hg s stands.registered).noPunctuation p (by rw [← all, String.ofList_toList])
  refine ⟨p.char, [], String.toList_ofList, ?_, ?_⟩
  · cases p <;> decide
  · rw [String.length_ofList]
    exact .punctuation noSymbol p.ofChar?_char

/-! #### Numbers -/

/-- The digits of a number are read as the number. -/
lemma digitsValue_toDigits (n : Nat) : digitsValue (Nat.toDigits 10 n) = n := by
  have step : (fun n (d : Char) => n * 10 + (d.toNat - 48))
      = fun n d => 10 * n + (d.toNat - '0'.toNat) := by
    funext n d
    rw [Nat.mul_comm]
    rfl
  rw [digitsValue, step]
  exact Nat.ofDigitChars_toDigits (by decide) (by decide)

lemma scanNumber_of_digits {cs : List Char} (h : ∀ c ∈ cs, c.isDigit) :
    scanNumber cs = (wholeNumber cs, cs.length) := by
  rw [scanNumber, List.takeWhile_eq_self_iff.2 h, List.dropWhile_eq_nil_iff.2 h]
  rfl

/-- The text of a machine integer is one token. -/
lemma isToken_integer {n : Int64} (h : 0 ≤ n.toInt) :
    IsToken g expectOperand afterDot (toString n.toInt) (.literal (.integer n)) := by
  have text : (toString n.toInt).toList = Nat.toDigits 10 n.toInt.toNat := by
    rw [Int.toString_eq_repr, Int.repr_eq_if, if_pos h, Nat.toList_repr]
  have digits : ∀ c ∈ Nat.toDigits 10 n.toInt.toNat, c.isDigit := fun c hc =>
    Nat.isDigit_of_mem_toDigits (by decide) (by decide) hc
  have value : wholeNumber (Nat.toDigits 10 n.toInt.toNat) = .integer n := by
    rw [wholeNumber, digitsValue_toDigits, Int.toNat_of_nonneg h, integer?_toInt]
  have noSymbol := g.matchSymbol_eq_none_of_word fun c hc =>
    isIdentifierChar_of_isDigit (digits c hc)
  have number := scanNumber_of_digits digits
  obtain ⟨c, rest, begins⟩ := List.exists_cons_of_ne_nil (Nat.toDigits_ne_nil (n := n.toInt.toNat)
    (b := 10))
  have digit : c.isDigit := digits c (begins ▸ List.mem_cons_self)
  refine ⟨c, rest, text.trans begins, ?_, ?_⟩
  · exact isWhiteSpace_eq_false_of_isIdentifierChar (isIdentifierChar_of_isDigit digit)
  · rw [← String.length_toList, text]
    rw [value, begins] at number
    rw [begins] at noSymbol ⊢
    have scans : Scans g expectOperand afterDot c rest _ _ := .number noSymbol digit
    rwa [number] at scans

/-! #### Quoted texts -/

lemma unescape?_of_quote {q : Quote} {c : Char} (h : c = q.char ∨ c = '\\') :
    unescape? c = some c := by
  rcases h with rfl | rfl
  · cases q <;> rfl
  · rfl

lemma scanQuoted_cons {quote c : Char} (noQuote : c ≠ quote) (noEscape : c ≠ '\\')
    (cs : List Char) : scanQuoted quote (c :: cs) = (scanQuoted quote cs).push c 1 := by
  cases cs <;> simp [scanQuoted, noQuote, noEscape, Quoted.push]

lemma scanQuoted_escape {quote e d : Char} (h : quote ≠ '\\') (unescaped : unescape? e = some d)
    (cs : List Char) :
    scanQuoted quote ('\\' :: e :: cs) = (scanQuoted quote cs).push d 2 := by
  simp [scanQuoted, h.symm, unescaped]

/-- A quoted text is read back, escapes and all. -/
lemma scanQuoted_flatMap_escape (q : Quote) (cs : List Char) :
    scanQuoted q.char (cs.flatMap q.escape ++ [q.char])
      = .closed cs (cs.flatMap q.escape ++ [q.char]).length := by
  have noEscape : q.char ≠ '\\' := by cases q <;> decide
  induction cs with
  | nil => simp [scanQuoted]
  | cons c cs ih =>
    rw [List.flatMap_cons, Quote.escape]
    split
    · rename_i special
      have scanned := scanQuoted_escape noEscape (unescape?_of_quote special)
        (cs.flatMap q.escape ++ [q.char])
      rw [ih] at scanned
      exact scanned
    · rename_i plain
      obtain ⟨noQuote, noBackslash⟩ := not_or.1 plain
      have scanned := scanQuoted_cons noQuote noBackslash (cs.flatMap q.escape ++ [q.char])
      rw [ih] at scanned
      exact scanned

/-- A quoted text is one token. -/
lemma isToken_quote (hg : g.Separable) (q : Quote) (text : String) :
    IsToken g expectOperand afterDot (q.quote text) (.literal (.string text)) := by
  have noSymbol : g.matchSymbol (q.quote text).toList = none := by
    refine Grammar.matchSymbol_eq_none_iff.2 fun s stands => ?_
    rw [Quote.quote, String.toList_ofList] at stands
    cases begins : s.toList with
    | nil => exact stands.nonempty (String.toList_inj.1 begins)
    | cons c rest =>
      have first : c = q.char := by
        have := stands.begins
        rw [begins] at this
        exact (List.cons_prefix_cons.1 this).1
      refine (hg s stands.registered).quoteFree q ?_
      rw [begins, first]
      rfl
  refine ⟨q.char, text.toList.flatMap q.escape ++ [q.char], String.toList_ofList, ?_, ?_⟩
  · cases q <;> decide
  · have closed := scanQuoted_flatMap_escape q text.toList
    rw [Quote.quote, String.toList_ofList] at noSymbol
    have scans : Scans g expectOperand afterDot _ _ _ _ :=
      .quoted noSymbol (by cases q <;> decide) closed
    rw [String.ofList_toList] at scans
    rw [Quote.quote, String.length_ofList]
    exact scans

/-! #### Words and symbols -/

/-- A name is one token. -/
lemma isToken_word {word : String} (h : isIdentifier word) :
    IsToken g expectOperand afterDot word (wordKind g expectOperand afterDot word) := by
  obtain ⟨start, all⟩ := (Bool.and_eq_true _ _).mp h
  have chars : ∀ c ∈ word.toList, isIdentifierChar c := List.all_eq_true.1 all
  have noSymbol := g.matchSymbol_eq_none_of_word chars
  have taken := List.takeWhile_eq_self_iff.2 chars
  cases begins : word.toList with
  | nil =>
    rw [begins] at start
    cases start
  | cons c rest =>
    rw [begins] at start noSymbol taken chars
    refine ⟨c, rest, begins, ?_, ?_⟩
    · exact isWhiteSpace_eq_false_of_isIdentifierChar (chars c List.mem_cons_self)
    · have scans : Scans g expectOperand afterDot c rest _ _ := .word noSymbol start
      rw [taken, ← begins, String.ofList_toList] at scans
      rwa [← String.length_toList]

lemma wordKind_of_notMem_keywords {word : String} (h : word ∉ keywords) :
    wordKind g expectOperand false word
      = if g.isOperator word then operatorKind expectOperand word else .identifier word := by
  simp only [keywords, List.mem_cons, List.not_mem_nil, or_false, not_or] at h
  unfold wordKind
  grind

/-- A symbol is one token: no longer one stands there. -/
lemma isToken_symbol (hg : g.BlankFree) {symbol : String} (registered : g.isOperator symbol)
    (nonempty : symbol ≠ "") (notWord : isWord symbol = false) :
    IsToken g expectOperand afterDot symbol (operatorKind expectOperand symbol) := by
  have found : g.matchSymbol symbol.toList = some symbol :=
    Grammar.matchSymbol_eq_some_iff.2 ⟨⟨registered, nonempty, notWord, List.prefix_rfl⟩,
      fun t ht => by simpa [String.length_toList] using ht.begins.length_le⟩
  cases begins : symbol.toList with
  | nil => exact absurd (String.toList_inj.1 begins) nonempty
  | cons c rest =>
    have first : c ∈ symbol.toList := begins ▸ List.mem_cons_self
    rw [begins] at found
    exact ⟨c, rest, begins, hg symbol registered c first, .symbol found⟩

/-- What can be written where it stands is read as one token. -/
lemma Lexeme.Writable.isToken (hg : g.Separable) {l : Lexeme} (h : l.Writable g afterDot) :
    IsToken g expectOperand afterDot l.text (l.kind expectOperand) := by
  cases l with
  | punctuation p => exact isToken_punctuation hg p
  | integer n => exact isToken_integer h
  | string q text => exact isToken_quote hg q text
  | boolean b =>
    obtain rfl : afterDot = false := h
    cases b with
    | true => exact isToken_word (by decide)
    | false => exact isToken_word (by decide)
  | null =>
    obtain rfl : afterDot = false := h
    exact isToken_word (by decide)
  | identifier name =>
    obtain ⟨identifier, place⟩ := h
    have kind : wordKind g expectOperand afterDot name = .identifier name := by
      cases afterDot with
      | true => rfl
      | false =>
        obtain absurd | ⟨noKeyword, noOperator⟩ := place
        · cases absurd
        · rw [wordKind_of_notMem_keywords noKeyword, noOperator]
          rfl
    have token : IsToken g expectOperand afterDot name _ := isToken_word identifier
    rwa [kind] at token
  | operator symbol =>
    obtain ⟨registered, nonempty, notWord | ⟨identifier, noKeyword, rfl⟩⟩ := h
    · exact isToken_symbol hg.blankFree registered nonempty notWord
    · have token : IsToken g expectOperand false symbol _ := isToken_word identifier
      rwa [wordKind_of_notMem_keywords noKeyword, if_pos registered] at token

/-- A text that is one token is read as this token. -/
lemma IsToken.reads {text : String} {kind : Token.Kind}
    (h : IsToken g expectOperand afterDot text kind) (position : Nat) :
    Lexer.Reads g ⟨text.toList, position, expectOperand, afterDot⟩ [⟨kind, text, position⟩] := by
  obtain ⟨c, rest, begins, noBlank, scans⟩ := h
  have skipped : (⟨text.toList, position, expectOperand, afterDot⟩ : Lexer).skipBlanks
      = ⟨text.toList, position, expectOperand, afterDot⟩ := by
    simp [Lexer.skipBlanks, begins, noBlank]
  have length : (c :: rest).length = text.length := by rw [← begins, String.length_toList]
  have reads := Lexer.Reads.step ((congrArg Lexer.rest skipped).trans begins) scans
    (.stop (by simp [Lexer.skipBlanks, Lexer.advance, Lexer.afterKind, begins, noBlank, ← length]))
  rwa [skipped, ← length, List.take_length, ← begins, String.ofList_toList] at reads

end

/-! ### Texts of several tokens -/

namespace Lexeme

variable {g : Grammar}

lemma isPunctuation_kind (expectOperand : Bool) (l : Lexeme) (p : Punctuation) :
    (l.kind expectOperand).isPunctuation p = decide (l = .punctuation p) := by
  cases l with
  | punctuation q => simp [kind, Token.Kind.isPunctuation, eq_comm (a := p)]
  | _ => simp [kind, Token.Kind.isPunctuation, operatorKind]

lemma print_cons_cons (l l' : Lexeme) (rest : List Lexeme) :
    (print (l :: l' :: rest)).toList = l.text.toList ++ ' ' :: (print (l' :: rest)).toList := by
  simp [print, String.intercalate_cons_cons]

/-- Tokens that are printed are read back, from any state that they can be written in. -/
lemma run_print (hg : g.Separable) (ls : List Lexeme) :
    ∀ {expectOperand afterDot : Bool} {position : Nat}, AllWritable g afterDot ls →
      (⟨(print ls).toList, position, expectOperand, afterDot⟩ : Lexer).run g
        = (tokens expectOperand position ls, none) := by
  induction ls with
  | nil => exact fun _ => Lexer.run_of_blank rfl
  | cons l rest ih =>
    intro expectOperand afterDot position ⟨first, others⟩
    have token : IsToken g expectOperand afterDot l.text _ := first.isToken hg
    have reads := token.reads position
    -- The first token is read before the space as if it stood alone.
    cases rest with
    | nil =>
      rw [print, List.map_singleton, String.intercalate_singleton, reads.run_eq]
      rfl
    | cons l' rest =>
      have left : (((⟨l.text.toList, position, expectOperand, afterDot⟩ : Lexer).behind
          (print (l' :: rest)).toList).afterTokens [⟨l.kind expectOperand, l.text, position⟩])
          = ⟨(print (l' :: rest)).toList, position + l.text.length + 1,
            (l.kind expectOperand).expectsOperand, l = .punctuation .dot⟩ := by
        rw [← isPunctuation_kind expectOperand, ← String.length_toList]
        rfl
      have whole := reads.run_extend hg.blankFree (print (l' :: rest)).toList
      rw [left, ih others] at whole
      rw [print_cons_cons]
      exact whole

/-- Some tokens, written with single spaces between them, are read as these tokens, with their texts
at their places, and the end. -/
theorem tokenize_print (hg : g.Separable) (ls : List Lexeme) (h : AllWritable g false ls)
    (offset : Nat) :
    tokenize g (print ls) offset
      = .ok (tokens true offset ls ++ [⟨.endOfInput, "", offset + (print ls).length⟩]) := by
  have read : tokensAfter g [] (print ls) offset = (tokens true offset ls, none) := by
    rw [tokensAfter_eq]
    exact run_print hg ls h
  rw [tokenize, read]

/-- The greatest machine integer, a symbol in both roles, and a word that is a name behind a dot and
an operator elsewhere. -/
theorem tokenize_print_standard :
    let ls : List Lexeme := [.integer 9223372036854775807, .operator "/", .operator "-",
      .identifier "a", .punctuation .dot, .identifier "in", .operator "in", .string .single "it's",
      .punctuation .dot, .operator "//", .null]
    let text := "9223372036854775807 / - a . in in 'it\\'s' . // null"
    Grammar.standard.Separable ∧ AllWritable .standard false ls ∧ print ls = text ∧
      tokens true 0 ls = [⟨.literal (.integer 9223372036854775807), "9223372036854775807", 0⟩,
        ⟨.operator .binary "/", "/", 20⟩, ⟨.operator .unary "-", "-", 22⟩,
        ⟨.identifier "a", "a", 24⟩, ⟨.punctuation .dot, ".", 26⟩, ⟨.identifier "in", "in", 28⟩,
        ⟨.operator .binary "in", "in", 31⟩, ⟨.literal (.string "it's"), "'it\\'s'", 34⟩,
        ⟨.punctuation .dot, ".", 42⟩, ⟨.operator .binary "//", "//", 44⟩,
        ⟨.literal .null, "null", 47⟩] ∧
      tokenize .standard text 0 = .ok (tokens true 0 ls ++ [⟨.endOfInput, "", 51⟩]) := by
  intro ls text
  have writable : AllWritable .standard false ls := by decide +kernel
  have printed : print ls = text := by decide +kernel
  have length : text.length = 51 := by decide +kernel
  have read := tokenize_print Grammar.separable_standard ls writable 0
  rw [printed, length, Nat.zero_add] at read
  refine ⟨Grammar.separable_standard, writable, printed, ?_, read⟩
  cbv

end Lexeme

end Sift
