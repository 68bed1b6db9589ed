import Mathlib.Data.List.TakeWhile
import Sift.Proofs.Grammar.Matching
import Sift.Proofs.Token.Reading

/-!
# Reading in pieces

A space ends every token, if no operator has white space in it. So what has been read from a text
stays the same where a space and another text follow, and the lexer goes on behind the space as it
would at the beginning of the other text: what it remembers can be told from the last token.
-/

namespace Sift

/-- No operator has white space in it. -/
def Grammar.BlankFree (g : Grammar) : Prop :=
  ∀ s, g.isOperator s → ∀ c ∈ s.toList, isWhiteSpace c = false

lemma forall_isWhiteSpace_eq_false_iff {cs : List Char} :
    (∀ c ∈ cs, isWhiteSpace c = false) ↔ cs.any isWhiteSpace = false := by
  simp

lemma Grammar.blankFree_iff {g : Grammar} :
    g.BlankFree ↔ ∀ s ∈ g.symbols, s.toList.any isWhiteSpace = false :=
  forall_congr' fun _ => imp_congr isOperator_iff forall_isWhiteSpace_eq_false_iff

/-! ### Texts before other texts -/

lemma isIdentifierChar_of_isDigit {c : Char} (h : c.isDigit) : isIdentifierChar c := by
  simp [isIdentifierChar, isNumeric_of_isDigit h]

/-- No word and no number goes on with the text: it is empty, or its first character is neither part
of a name nor a point. -/
def Stops (more : List Char) : Prop := ∀ c ∈ more.head?, isIdentifierChar c = false ∧ c ≠ '.'

lemma stops_nil : Stops [] := by simp [Stops]

lemma stops_space (more : List Char) : Stops (' ' :: more) := by
  rintro _ ⟨⟩
  decide

lemma Stops.not_isDigit {more : List Char} (h : Stops more) :
    ∀ c ∈ more.head?, c.isDigit = false := by
  intro c hc
  by_contra digit
  have word := isIdentifierChar_of_isDigit (by simpa using digit)
  rw [(h c hc).1] at word
  cases word

section

variable {p : Char → Bool} {cs more : List Char} (h : ∀ c ∈ more.head?, p c = false)

include h

/-- What is taken from the front is the same with more text that does not go on with it. -/
lemma takeWhile_append_of_head : (cs ++ more).takeWhile p = cs.takeWhile p := by
  have none : more.takeWhile p = [] := by
    cases more with
    | nil => rfl
    | cons c more => exact List.takeWhile_cons_of_neg (by simp [h c rfl])
  rw [List.takeWhile_append, none, List.append_nil]
  split
  · rename_i all
    exact ((List.takeWhile_prefix p).eq_of_length all).symm
  · rfl

lemma dropWhile_append_of_head : (cs ++ more).dropWhile p = cs.dropWhile p ++ more := by
  have all : more.dropWhile p = more := by
    cases more with
    | nil => rfl
    | cons c more => exact List.dropWhile_cons_of_neg (by simp [h c rfl])
  rw [List.dropWhile_append, all]
  split
  · rename_i none
    rw [List.isEmpty_iff.1 none, List.nil_append]
  · rfl

end

/-- What has no space in it begins a text and a space if it begins the text. -/
lemma prefix_append_space_iff {s cs : List Char} (h : ' ' ∉ s) (more : List Char) :
    s <+: cs ++ ' ' :: more ↔ s <+: cs := by
  refine ⟨fun long => ?_, fun short => short.trans (List.prefix_append _ _)⟩
  rcases List.prefix_or_prefix_of_prefix long (List.prefix_append _ _) with short | ⟨rest, rfl⟩
  · exact short
  · cases rest with
    | nil => simp
    | cons c rest =>
      have space : c = ' ' := by
        have := (List.prefix_append_right_inj cs).1 long
        exact (List.cons_prefix_cons.1 this).1
      simp [space] at h

lemma Quoted.of_push_eq_closed {q : Quoted} {c : Char} {taken length : Nat} {text : List Char}
    (h : q.push c taken = .closed text length) :
    ∃ text' length', q = .closed text' length' ∧ text = c :: text' ∧ length = length' + taken := by
  cases q with
  | closed text' length' =>
    cases h
    exact ⟨text', length', rfl, rfl, rfl⟩
  | invalidEscape => cases h
  | unterminated => cases h

/-- Nothing is read behind the closing quote. -/
lemma scanQuoted_append {quote : Char} {cs text : List Char} {length : Nat}
    (h : scanQuoted quote cs = .closed text length) (more : List Char) :
    scanQuoted quote (cs ++ more) = .closed text length := by
  fun_induction scanQuoted quote cs generalizing text length with
  | case1 => cases h
  | case2 =>
    rw [← h]
    cases more <;> simp [scanQuoted]
  | case3 => cases h
  | case4 e rest =>
    rw [← h]
    simp [scanQuoted]
  | case5 e rest d unescaped unquoted ih =>
    obtain ⟨text', length', closed, rfl, rfl⟩ := Quoted.of_push_eq_closed h
    simp [scanQuoted, unquoted, unescaped, ih closed, Quoted.push]
  | case6 => cases h
  | case7 c e rest unquoted plain ih =>
    obtain ⟨text', length', closed, rfl, rfl⟩ := Quoted.of_push_eq_closed h
    have := ih closed
    rw [List.cons_append] at this
    simp [scanQuoted, unquoted, plain, this, Quoted.push]

section

variable {more : List Char} (h : Stops more) (cs : List Char)

include h

lemma fractionDigits_append : fractionDigits (cs ++ more) = fractionDigits cs := by
  cases cs with
  | nil =>
    cases more with
    | nil => rfl
    | cons c more => simp [fractionDigits, (h c rfl).2]
  | cons c rest =>
    by_cases point : c = '.'
    · subst point
      exact takeWhile_append_of_head h.not_isDigit
    · simp [fractionDigits, point]

/-- A number is read alike with more text that does not go on with it. -/
lemma scanNumber_append : scanNumber (cs ++ more) = scanNumber cs := by
  rw [scanNumber, scanNumber, takeWhile_append_of_head h.not_isDigit,
    dropWhile_append_of_head h.not_isDigit, fractionDigits_append h]

end

/-- A token that has been read is also read before a text that it does not go on with, if no symbol
does. -/
lemma Scans.append {g : Grammar} {expectOperand afterDot : Bool} {c : Char}
    {rest more : List Char} {kind : Token.Kind} {length : Nat}
    (symbols : g.matchSymbol (c :: (rest ++ more)) = g.matchSymbol (c :: rest)) (stops : Stops more)
    (h : Scans g expectOperand afterDot c rest kind length) :
    Scans g expectOperand afterDot c (rest ++ more) kind length := by
  cases h with
  | symbol found => exact .symbol (symbols.trans found)
  | quoted noSymbol quote closed =>
    exact .quoted (symbols.trans noSymbol) quote (scanQuoted_append closed _)
  | number noSymbol digit =>
    rw [← scanNumber_append stops (c :: rest)]
    exact .number (symbols.trans noSymbol) digit
  | word noSymbol start =>
    have taken : (c :: rest ++ more).takeWhile isIdentifierChar = _ :=
      takeWhile_append_of_head fun d hd => (stops d hd).1
    rw [← taken]
    exact .word (symbols.trans noSymbol) start
  | punctuation noSymbol char => exact .punctuation (symbols.trans noSymbol) char

namespace Grammar.BlankFree

variable {g : Grammar} (hg : g.BlankFree)

include hg

/-- Operators without white space do not reach over a space. -/
lemma stands_append_space_iff {cs : List Char} {s : String} (more : List Char) :
    g.Stands (cs ++ ' ' :: more) s ↔ g.Stands cs s := by
  have begins : g.isOperator s → (s.toList <+: cs ++ ' ' :: more ↔ s.toList <+: cs) := by
    intro registered
    have noSpace : ' ' ∉ s.toList := fun space => by
      have blank : isWhiteSpace ' ' = true := by decide
      rw [hg s registered ' ' space] at blank
      cases blank
    exact prefix_append_space_iff noSpace more
  constructor
  · rintro ⟨registered, nonempty, notWord, long⟩
    exact ⟨registered, nonempty, notWord, (begins registered).1 long⟩
  · rintro ⟨registered, nonempty, notWord, short⟩
    exact ⟨registered, nonempty, notWord, (begins registered).2 short⟩

lemma matchSymbol_append_space (cs more : List Char) :
    g.matchSymbol (cs ++ ' ' :: more) = g.matchSymbol cs := by
  refine Option.ext fun s => ?_
  simp only [matchSymbol_eq_some_iff, hg.stands_append_space_iff more]

end Grammar.BlankFree

namespace Lexer

variable {g : Grammar} {lx lx' : Lexer}

/-! ### The lexer before a space -/

lemma afterTokens_cons (lx : Lexer) (t : Token) (tokens : List Token) :
    lx.afterTokens (t :: tokens) = (lx.afterKind t.kind).afterTokens tokens := by
  rw [afterTokens, afterTokens, List.getLast?_cons]
  cases tokens.getLast? <;> rfl

lemma afterTokens_append (lx : Lexer) (tokens tokens' : List Token) :
    lx.afterTokens (tokens ++ tokens') = (lx.afterTokens tokens).afterTokens tokens' := by
  induction tokens generalizing lx with
  | nil => rfl
  | cons t tokens ih => rw [List.cons_append, afterTokens_cons, afterTokens_cons, ih]

/-- Blanks make no difference. -/
lemma run_congr (h : lx.skipBlanks = lx'.skipBlanks) : lx.run g = lx'.run g := by
  have same : lx.next g = lx'.next g := by rw [next, next, h]
  rw [run_eq, run_eq, same]

def extend (lx : Lexer) (more : List Char) : Lexer := { lx with rest := lx.rest ++ more }

/-- The lexer at the beginning of another text, one character behind its own. -/
def behind (lx : Lexer) (more : List Char) : Lexer :=
  { lx with rest := more, position := lx.position + lx.rest.length + 1 }

lemma afterTokens_extend (lx : Lexer) (more : List Char) (before : List Token) :
    (lx.extend more).afterTokens before = (lx.afterTokens before).extend more := by
  rw [afterTokens, afterTokens]
  cases before.getLast? <;> rfl

lemma afterTokens_behind (lx : Lexer) (more : List Char) (before : List Token) :
    (lx.behind more).afterTokens before = (lx.afterTokens before).behind more := by
  rw [afterTokens, afterTokens]
  cases before.getLast? <;> rfl

/-- Behind nothing but white space the next text is read. -/
lemma skipBlanks_extend_of_blank (blank : lx.skipBlanks.rest = []) (more : List Char) :
    (lx.extend (' ' :: more)).skipBlanks = (lx.behind more).skipBlanks := by
  have all := List.dropWhile_eq_nil_iff.1 blank
  have space : isWhiteSpace ' ' = true := by decide
  simp only [skipBlanks, extend, behind, List.dropWhile_append_of_pos all,
    List.takeWhile_append_of_pos all, List.dropWhile_cons_of_pos space,
    List.takeWhile_cons_of_pos space, List.length_append, List.length_cons, mk.injEq]
  refine ⟨trivial, ?_, trivial, trivial⟩
  omega

/-- Before a token white space is skipped alike with more text. -/
lemma skipBlanks_extend_of_cons {c : Char} {rest : List Char}
    (begins : lx.skipBlanks.rest = c :: rest) (more : List Char) :
    (lx.extend more).skipBlanks = lx.skipBlanks.extend more := by
  have begins : lx.rest.dropWhile isWhiteSpace = c :: rest := begins
  have some : lx.rest.takeWhile isWhiteSpace ≠ lx.rest := by
    intro all
    have := List.takeWhile_append_dropWhile (p := isWhiteSpace) (l := lx.rest)
    rw [begins, all] at this
    simp at this
  have short : (lx.rest.takeWhile isWhiteSpace).length ≠ lx.rest.length := fun all =>
    some ((List.takeWhile_prefix isWhiteSpace).eq_of_length all)
  simp [skipBlanks, extend, List.dropWhile_append, List.takeWhile_append, begins, short]

/-- Behind a space the lexer goes on as at the beginning of another text. -/
lemma Reads.run_extend (hg : g.BlankFree) {tokens : List Token} (h : lx.Reads g tokens)
    (more : List Char) : (lx.extend (' ' :: more)).run g
      = (tokens ++ (((lx.behind more).afterTokens tokens).run g).1,
        (((lx.behind more).afterTokens tokens).run g).2) := by
  induction h with
  | stop blank => exact run_congr (skipBlanks_extend_of_blank blank more)
  | @step lx c rest kind length tokens begins scans _ ih =>
    have skipped := skipBlanks_extend_of_cons begins (' ' :: more)
    have begins' : (lx.extend (' ' :: more)).skipBlanks.rest = c :: (rest ++ ' ' :: more) := by
      rw [skipped]
      exact congrArg (· ++ ' ' :: more) begins
    have symbols : g.matchSymbol (c :: (rest ++ ' ' :: more)) = g.matchSymbol (c :: rest) :=
      hg.matchSymbol_append_space (c :: rest) more
    have taken : (c :: (rest ++ ' ' :: more)).take length = (c :: rest).take length :=
      List.take_append_of_le_length scans.le_length
    have left : ((lx.extend (' ' :: more)).skipBlanks.advance length).afterKind kind
        = ((lx.skipBlanks.advance length).afterKind kind).extend (' ' :: more) := by
      rw [skipped]
      simp only [extend, advance, afterKind, begins,
        List.drop_append_of_le_length scans.le_length]
    have after : (((lx.skipBlanks.advance length).afterKind kind).behind more)
        = (lx.behind more).afterKind kind := by
      have length_rest := length_takeWhile_add_length_dropWhile isWhiteSpace lx.rest
      have length_left := scans.le_length
      have begins : lx.rest.dropWhile isWhiteSpace = c :: rest := begins
      rw [begins] at length_rest
      simp only [behind, afterKind, advance, skipBlanks, begins, List.length_drop, mk.injEq]
      refine ⟨trivial, ?_, trivial, trivial⟩
      omega
    rw [run_of_scans begins' (scans.append symbols (stops_space more)), left, ih, taken, after,
      skipped, afterTokens_cons]
    rfl

end Lexer

/-- A text that has been read, a space and another text are read one after the other. -/
lemma tokensAfter_append_space {g : Grammar} (hg : g.BlankFree) {before read : List Token}
    {a : String} {offset : Nat} (h : tokensAfter g before a offset = (read, none)) (b : String) :
    tokensAfter g before (a ++ " " ++ b) offset
      = tokensAfter g read b (offset + a.length + 1) := by
  obtain ⟨new, rfl, reads⟩ := tokensAfter_eq_none_iff.1 h
  have whole : (Lexer.ofSource (a ++ " " ++ b) offset).afterTokens before
      = ((Lexer.ofSource a offset).afterTokens before).extend (' ' :: b.toList) := by
    rw [← Lexer.afterTokens_extend]
    simp [Lexer.ofSource, Lexer.extend]
  have piece : (((Lexer.ofSource a offset).afterTokens before).behind b.toList).afterTokens new
      = (Lexer.ofSource b (offset + a.length + 1)).afterTokens (before ++ new) := by
    rw [← Lexer.afterTokens_behind, Lexer.afterTokens_append]
    simp [Lexer.ofSource, Lexer.behind, String.length_toList]
  rw [tokensAfter_eq, tokensAfter_eq, whole, reads.run_extend hg, piece, List.append_assoc]

end Sift
