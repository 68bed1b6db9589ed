import Mathlib.Data.List.TakeDrop
import Sift.Proofs.Token.Printing

/-!
# Walking over a text

`Lexer.next` takes tokens off a text. The walker of this module leaves its text as it is and moves a
cursor over it, character by character. A number is first collected and then read by conversions
that may refuse it, and the text of a token is cut out of the whole text between the two places of
the cursor, which fails if there is no such part. Yet the walker gives what the lexer gives and
stops where it stops (`Walker.next_eq`): no number is refused, and no cut fails.
-/

namespace Sift

/-- The next token is what stands behind the white space, or a failure there. -/
lemma Lexer.next_of_cons {g : Grammar} {lx : Lexer} {c : Char} {rest : List Char}
    (h : lx.skipBlanks.rest = c :: rest) :
    lx.next g =
      match scan g lx.expectOperand lx.afterDot lx.skipBlanks.position c rest with
      | (.error e, count) => (.error e, lx.skipBlanks.advance count)
      | (.ok kind, count) =>
        (.ok ⟨kind, String.ofList ((c :: rest).take count), lx.skipBlanks.position⟩,
          (lx.skipBlanks.advance count).afterKind kind) := by
  simp only [next]
  split
  · simp_all
  · rename_i eq
    cases h.symm.trans eq
    have modes : scan g lx.skipBlanks.expectOperand lx.skipBlanks.afterDot
        = scan g lx.expectOperand lx.afterDot := rfl
    rw [h, modes]
    rcases scan g lx.expectOperand lx.afterDot lx.skipBlanks.position c rest with ⟨_ | _, _⟩ <;>
      rfl

/-! ### Numerals -/

lemma not_sign_of_isDigit {c : Char} (h : c.isDigit) : c ≠ '-' ∧ c ≠ '+' := by
  constructor <;> rintro rfl <;> cases h

/-- Digits spell their value. -/
lemma signedDigits?_of_isDigit {cs : List Char} (nonempty : cs ≠ []) (h : ∀ c ∈ cs, c.isDigit) :
    signedDigits? cs = some (digitsValue cs : Int) := by
  have noOther : cs.any (!·.isDigit) = false := by simpa using h
  obtain ⟨c, rest, rfl⟩ := List.exists_cons_of_ne_nil nonempty
  obtain ⟨noMinus, noPlus⟩ := not_sign_of_isDigit (h c List.mem_cons_self)
  -- The text does not begin with a sign, so all of it has to be digits.
  unfold signedDigits?
  split
  rename_i sign
  split at sign
  · rename_i eq
    exact absurd (List.cons.inj eq).1 noMinus
  · rename_i eq
    exact absurd (List.cons.inj eq).1 noPlus
  · cases sign
    simp [noOther]

/-- Digits, with digits behind a point if there is one, spell a float. -/
lemma Binary64.ofText?_of_isDigit {whole tail fraction : List Char} (nonempty : whole ≠ [])
    (h : ∀ c ∈ whole, c.isDigit) (hfraction : ∀ c ∈ fraction, c.isDigit)
    (htail : tail = [] ∧ fraction = [] ∨ tail = '.' :: fraction) :
    ofText? (String.ofList (whole ++ tail))
      = some (ofDecimal false (digitsValue (whole ++ fraction)) (-fraction.length)) := by
  have stop : ∀ c ∈ tail.head?, c.isDigit = false := by
    rcases htail with ⟨rfl, -⟩ | rfl <;> simp
  have spanWhole : (whole ++ tail).span Char.isDigit = (whole, tail) := by
    rw [List.span_eq_takeWhile_dropWhile, takeWhile_append_of_head stop,
      dropWhile_append_of_head stop, List.takeWhile_eq_self_iff.2 h,
      List.dropWhile_eq_nil_iff.2 h, List.nil_append]
  have taken := List.takeWhile_eq_self_iff.2 hfraction
  have left := List.dropWhile_eq_nil_iff.2 hfraction
  obtain ⟨c, rest, begins⟩ := List.exists_cons_of_ne_nil nonempty
  have digit : c.isDigit := h c (begins ▸ List.mem_cons_self)
  have noWord (word : String) (letter : word.toList.head?.any Char.isDigit = false) :
      String.ofList (whole ++ tail) ≠ word := by
    rintro rfl
    simp [begins, digit] at letter
  -- The text begins with a digit: it has no sign and is neither of the words that spell a float.
  unfold ofText?
  rw [String.toList_ofList]
  split
  rename_i sign
  split at sign
  · rename_i eq
    rw [begins] at eq
    exact absurd (List.cons.inj eq).1 (not_sign_of_isDigit digit).1
  cases sign
  split
  · rename_i eq
    exact absurd eq (noWord _ rfl)
  · rename_i eq
    exact absurd eq (noWord _ rfl)
  · rw [spanWhole]
    rcases htail with ⟨rfl, rfl⟩ | rfl
    · simp [nonempty]
    · simp [taken, left, nonempty]

/-! ### The walker -/

/-- A text with a cursor, and the position of its first character in a larger text. -/
structure Walker where
  chars : List Char
  cursor : Nat
  offset : Nat
  /-- Whether an operator that comes next stands before its operand. -/
  expectOperand : Bool := true
  /-- Whether the last token was a dot. -/
  afterDot : Bool := false

namespace Walker

/-- Why a walker has no token. -/
inductive Failure where
  | lex (e : LexError)
  /-- A text that was collected as a number and is none, with the position of its beginning. -/
  | invalidNumber (text : String) (position : Nat)
  /-- A cut that reaches beyond the text. -/
  | outOfRange

/-- The state that a token leaves behind. -/
def afterKind (w : Walker) (kind : Token.Kind) : Walker :=
  { w with expectOperand := kind.expectsOperand, afterDot := kind.isPunctuation .dot }

def forgetDot (w : Walker) : Walker := { w with afterDot := false }

/-- The beginning of a text, after tokens that have been read before. -/
def ofSource (source : String) (offset : Nat) (before : List Token) : Walker :=
  let w : Walker := { chars := source.toList, cursor := 0, offset }
  match before.getLast? with
  | some last => w.afterKind last.kind
  | none => w

/-! ### The cursor -/

def current? (w : Walker) : Option Char := w.chars[w.cursor]?

def peek? (w : Walker) (count : Nat) : Option Char := w.chars[w.cursor + count]?

def step (w : Walker) (count : Nat) : Walker := { w with cursor := w.cursor + count }

def rest (w : Walker) : List Char := w.chars.drop w.cursor

def position (w : Walker) : Nat := w.offset + w.cursor

variable {w : Walker} {c : Char}

lemma cursor_lt (h : w.current? = some c) : w.cursor < w.chars.length :=
  (List.getElem?_eq_some_iff.1 h).1

/-- Behind a character less is left. -/
lemma left_step_lt (h : w.current? = some c) (count : Nat) :
    (w.step (count + 1)).chars.length - (w.step (count + 1)).cursor
      < w.chars.length - w.cursor := by
  have := cursor_lt h
  simp only [step]
  omega

/-! ### Readers -/

/-- Collect characters of a class. -/
def readWhile (p : Char → Bool) (w : Walker) : List Char × Walker :=
  match _h : w.current? with
  | some c =>
    if p c then
      let (read, after) := readWhile p (w.step 1)
      (c :: read, after)
    else ([], w)
  | none => ([], w)
termination_by w.chars.length - w.cursor
decreasing_by exact left_step_lt _h 0

def skipBlanks (w : Walker) : Walker := (w.readWhile isWhiteSpace).2

/-- Collect a quoted text up to its closing quote, whose opening one has the position `start`. -/
def readQuoted (quote : Char) (start : Nat) (read : String) (w : Walker) :
    Except Failure String × Walker :=
  match _h : w.current? with
  | none => (.error (.lex (.unterminatedString start)), w)
  | some c =>
    if c = quote then (.ok read, w.step 1)
    else if c = '\\' then
      match (w.step 1).current? with
      | none => (.error (.lex (.unterminatedString start)), w.step 1)
      | some e =>
        match unescape? e with
        | some d => readQuoted quote start (read.push d) (w.step 2)
        | none => (.error (.lex (.invalidEscape e (w.step 1).position)), w.step 1)
    else readQuoted quote start (read.push c) (w.step 1)
termination_by w.chars.length - w.cursor
decreasing_by
  · exact left_step_lt _h 1
  · exact left_step_lt _h 0

def readString (quote : Char) (w : Walker) : Except Failure String × Walker :=
  readQuoted quote w.position "" (w.step 1)

/-- Collect digits, and a point if there was none and a digit follows it. Also whether there was a
point. -/
def readDigits (point : Bool) (w : Walker) : List Char × Bool × Walker :=
  match _h : w.current? with
  | some c =>
    if c.isDigit then
      let (read, point, after) := readDigits point (w.step 1)
      (c :: read, point, after)
    else if c = '.' ∧ point = false ∧ (w.peek? 1).any Char.isDigit then
      let (read, point, after) := readDigits true (w.step 1)
      (c :: read, point, after)
    else ([], point, w)
  | none => ([], point, w)
termination_by w.chars.length - w.cursor
decreasing_by
  · exact left_step_lt _h 0
  · exact left_step_lt _h 0

/-- The number that a collected text spells. Without a point it is a float only if it is too large
for a machine integer. -/
def parseNumber (point : Bool) (text : List Char) (position : Nat) : Except Failure Value :=
  let float : Except Failure Value := match Binary64.ofText? (String.ofList text) with
    | some x => .ok (.float x)
    | none => .error (.invalidNumber (String.ofList text) position)
  if point then float
  else match (signedDigits? text).bind integer? with
    | some n => .ok (.integer n)
    | none => float

def readNumber (w : Walker) : Except Failure Value × Walker :=
  let (text, point, after) := w.readDigits false
  (parseNumber point text w.position, after)

/-- Read what stands under the cursor, whose character is known. -/
def readKind (g : Grammar) (afterDot : Bool) (c : Char) (w : Walker) :
    Except Failure Token.Kind × Walker :=
  match g.matchSymbol w.rest with
  | some symbol => (.ok (operatorKind w.expectOperand symbol), w.step symbol.length)
  | none =>
    if c = '"' ∨ c = '\'' then
      let (text, after) := w.readString c
      (text.map fun s => .literal (.string s), after)
    else if c.isDigit then
      let (value, after) := w.readNumber
      (value.map .literal, after)
    else if isIdentifierStart c then
      let (word, after) := w.readWhile isIdentifierChar
      (.ok (wordKind g w.expectOperand afterDot (String.ofList word)), after)
    else
      match Punctuation.ofChar? c with
      | some p => (.ok (.punctuation p), w.step 1)
      | none => (.error (.lex (.invalidToken c w.position)), w.step 1)

/-- The part of a text between two places, if the text has it. -/
def cut? (cs : List Char) (start stop : Nat) : Option (List Char) :=
  if start ≤ stop ∧ stop ≤ cs.length then some ((cs.drop start).take (stop - start)) else none

/-- The next token, and the walker behind it. A failure leaves the walker where it has come to. -/
def next (g : Grammar) (w : Walker) : Except Failure Token × Walker :=
  let w := w.skipBlanks
  match w.current? with
  | none => (.ok ⟨.endOfInput, "", w.position⟩, w.forgetDot)
  | some c =>
    match w.forgetDot.readKind g w.afterDot c with
    | (.error e, after) => (.error e, after)
    | (.ok kind, after) =>
      match cut? w.chars w.cursor after.cursor with
      | none => (.error .outOfRange, after)
      | some raw => (.ok ⟨kind, String.ofList raw, w.position⟩, after.afterKind kind)

/-! ### What is left of the text -/

@[simp] lemma step_step (w : Walker) (m n : Nat) : (w.step m).step n = w.step (m + n) := by
  simp only [step, Nat.add_assoc]

@[simp] lemma rest_step (w : Walker) (n : Nat) : (w.step n).rest = w.rest.drop n := by
  simp only [rest, step, List.drop_drop]

@[simp] lemma position_step (w : Walker) (n : Nat) : (w.step n).position = w.position + n :=
  (Nat.add_assoc _ _ _).symm

lemma current?_eq (w : Walker) : w.current? = w.rest.head? := List.head?_drop.symm

lemma peek?_eq (w : Walker) (n : Nat) : w.peek? n = (w.rest.drop n).head? := by
  rw [← rest_step, ← current?_eq]
  rfl

lemma rest_eq_cons (h : w.current? = some c) : w.rest = c :: w.rest.drop 1 := by
  rw [current?_eq] at h
  cases rest : w.rest with
  | nil => simp [rest] at h
  | cons d cs => simp_all

lemma rest_eq_nil (h : w.current? = none) : w.rest = [] := by
  rwa [current?_eq, List.head?_eq_none_iff] at h

/-! ### What the readers read -/

/-- Collecting characters of a class moves on behind them. -/
lemma readWhile_eq (p : Char → Bool) (w : Walker) :
    w.readWhile p = (w.rest.takeWhile p, w.step (w.rest.takeWhile p).length) := by
  fun_induction readWhile p w with
  | case1 w c h hp read after eq ih =>
    obtain ⟨rfl, rfl⟩ := Prod.mk.inj (eq.symm.trans ih)
    rw [rest_eq_cons h, List.takeWhile_cons_of_pos hp]
    simp [Nat.add_comm]
  | case2 w c h hp =>
    rw [rest_eq_cons h, List.takeWhile_cons_of_neg hp]
    rfl
  | case3 w h =>
    rw [rest_eq_nil h]
    rfl

/-- What a walker has read of a quoted text, whose opening quote has the position `start`, behind
what it had read before. -/
def ofQuoted (start : Nat) (read : String) (w : Walker) : Quoted → Except Failure String × Walker
  | .closed text length => (.ok (read ++ String.ofList text), w.step length)
  | .invalidEscape escape length =>
    (.error (.lex (.invalidEscape escape (w.position + length))), w.step length)
  | .unterminated length => (.error (.lex (.unterminatedString start)), w.step length)

/-- A character may be counted before or after it is collected. -/
lemma ofQuoted_push (start : Nat) (read : String) (w : Walker) (c : Char) (taken : Nat)
    (q : Quoted) :
    ofQuoted start read w (q.push c taken) = ofQuoted start (read.push c) (w.step taken) q := by
  cases q with
  | closed text length =>
    have pushed : read ++ String.ofList (c :: text) = read.push c ++ String.ofList text := by
      rw [← String.toList_inj]
      simp
    simp only [Quoted.push, ofQuoted, pushed, step_step, Nat.add_comm taken]
  | invalidEscape escape length =>
    simp only [Quoted.push, ofQuoted, position_step, step_step, Nat.add_comm taken, Nat.add_assoc]
  | unterminated length => simp only [Quoted.push, ofQuoted, step_step, Nat.add_comm taken]

/-- Collecting a quoted text does what reading it from the text does. The induction follows the
walk. -/
lemma readQuoted_eq (quote : Char) (start : Nat) (read : String) (w : Walker) :
    w.readQuoted quote start read = ofQuoted start read w (scanQuoted quote w.rest) := by
  fun_induction readQuoted quote start read w with
  | case1 read w h =>
    rw [rest_eq_nil h]
    rfl
  | case2 read w h =>
    rw [rest_eq_cons h]
    cases w.rest.drop 1 <;> simp [scanQuoted, ofQuoted]
  | case3 read w hbehind h notQuote =>
    have behind := rest_eq_nil hbehind
    rw [rest_step] at behind
    rw [rest_eq_cons h, behind]
    simp [scanQuoted, notQuote, ofQuoted]
  | case4 read w e hbehind d unescaped h notQuote ih =>
    have behind := rest_eq_cons hbehind
    rw [rest_step, List.drop_drop] at behind
    rw [ih, rest_eq_cons h, behind, scanQuoted_escape (Ne.symm notQuote) unescaped, ofQuoted_push,
      rest_step]
  | case5 read w e hbehind notEscape h notQuote =>
    have behind := rest_eq_cons hbehind
    rw [rest_step] at behind
    rw [rest_eq_cons h, behind]
    simp [scanQuoted, notQuote, notEscape, ofQuoted]
  | case6 read w c h notQuote plain ih =>
    rw [ih, rest_eq_cons h, scanQuoted_cons notQuote plain, ofQuoted_push, rest_step]

/-! #### Numbers -/

/-- The text of the number at the beginning of a text, where there may have been a point already.
Also whether there is a point in all. -/
def numberText (point : Bool) (cs : List Char) : List Char × Bool :=
  let whole := cs.takeWhile Char.isDigit
  if point then (whole, true)
  else match fractionDigits (cs.dropWhile Char.isDigit) with
    | [] => (whole, false)
    | fraction => (whole ++ '.' :: fraction, true)

lemma numberText_true (cs : List Char) : numberText true cs = (cs.takeWhile Char.isDigit, true) :=
  rfl

lemma numberText_nil (point : Bool) : numberText point [] = ([], point) := by cases point <;> rfl

lemma numberText_digit (point : Bool) (digit : c.isDigit) (cs : List Char) :
    numberText point (c :: cs)
      = (c :: (numberText point cs).1, (numberText point cs).2) := by
  simp only [numberText, List.takeWhile_cons_of_pos digit, List.dropWhile_cons_of_pos digit]
  cases point with
  | true => rfl
  | false => cases fractionDigits (cs.dropWhile Char.isDigit) <;> rfl

lemma numberText_point {cs : List Char} (digit : cs.head?.any Char.isDigit) :
    numberText false ('.' :: cs) = ('.' :: (numberText true cs).1, true) := by
  cases cs with
  | nil => cases digit
  | cons d cs =>
    have digit : d.isDigit := digit
    simp [numberText, fractionDigits, digit]

lemma numberText_stop {point : Bool} {cs : List Char} (noDigit : ¬ c.isDigit)
    (noPoint : ¬ (c = '.' ∧ point = false ∧ cs.head?.any Char.isDigit)) :
    numberText point (c :: cs) = ([], point) := by
  have fraction (hpoint : point = false) : fractionDigits (c :: cs) = [] := by
    by_cases dot : c = '.'
    · subst dot
      cases cs with
      | nil => rfl
      | cons d cs =>
        exact List.takeWhile_cons_of_neg fun digit => noPoint ⟨rfl, hpoint, digit⟩
    · simp [fractionDigits, dot]
  simp only [numberText, List.takeWhile_cons_of_neg noDigit, List.dropWhile_cons_of_neg noDigit]
  cases point with
  | true => rfl
  | false => simp [fraction rfl]

/-- Collecting digits and a point does what cutting them off the text does. The induction follows
the walk. -/
lemma readDigits_eq (point : Bool) (w : Walker) : w.readDigits point
    = ((numberText point w.rest).1, (numberText point w.rest).2,
      w.step (numberText point w.rest).1.length) := by
  fun_induction readDigits point w with
  | case1 point w c h digit read point' after eq ih =>
    obtain ⟨rfl, rest⟩ := Prod.mk.inj (eq.symm.trans ih)
    obtain ⟨rfl, rfl⟩ := Prod.mk.inj rest
    rw [rest_eq_cons h, numberText_digit point digit]
    simp [Nat.add_comm]
  | case2 point w c h noDigit isPoint read point' after eq ih =>
    obtain ⟨rfl, rfl, digit⟩ := isPoint
    obtain ⟨rfl, rest⟩ := Prod.mk.inj (eq.symm.trans ih)
    obtain ⟨rfl, rfl⟩ := Prod.mk.inj rest
    rw [peek?_eq] at digit
    rw [rest_eq_cons h, numberText_point digit]
    simp [numberText_true, Nat.add_comm]
  | case3 point w c h noDigit noPoint =>
    rw [peek?_eq] at noPoint
    rw [rest_eq_cons h, numberText_stop noDigit noPoint]
    rfl
  | case4 point w h =>
    rw [rest_eq_nil h, numberText_nil]
    rfl

/-- The digits of a fraction are digits. -/
lemma isDigit_of_mem_fractionDigits (cs : List Char) : ∀ d ∈ fractionDigits cs, d.isDigit := by
  intro d hd
  unfold fractionDigits at hd
  split at hd
  · exact List.mem_takeWhile_imp hd
  · cases hd

/-- Digits are not refused. -/
lemma parseNumber_whole {whole : List Char} (nonempty : whole ≠ [])
    (digits : ∀ d ∈ whole, d.isDigit) (position : Nat) :
    parseNumber false whole position = .ok (wholeNumber whole) := by
  have noFraction : ∀ d ∈ ([] : List Char), d.isDigit := by simp
  have float := Binary64.ofText?_of_isDigit nonempty digits noFraction (.inl ⟨rfl, rfl⟩)
  rw [List.append_nil] at float
  simp only [parseNumber, wholeNumber, signedDigits?_of_isDigit nonempty digits, Option.bind_some,
    float]
  cases integer? (digitsValue whole) <;> rfl

/-- Digits with a point between them are not refused. -/
lemma parseNumber_fraction {whole fraction : List Char} (nonempty : whole ≠ [])
    (digits : ∀ d ∈ whole, d.isDigit) (behind : ∀ d ∈ fraction, d.isDigit) (position : Nat) :
    parseNumber true (whole ++ '.' :: fraction) position
      = .ok (.float (.ofDecimal false (digitsValue (whole ++ fraction)) (-fraction.length))) := by
  simp only [parseNumber, Binary64.ofText?_of_isDigit nonempty digits behind (.inr rfl)]
  rfl

/-- No text that is collected as a number is refused. -/
lemma readNumber_eq (digit : c.isDigit) {cs : List Char} (h : w.rest = c :: cs) :
    w.readNumber = (.ok (scanNumber (c :: cs)).1, w.step (scanNumber (c :: cs)).2) := by
  have nonempty : (c :: cs).takeWhile Char.isDigit ≠ [] := by simp [digit]
  have digits : ∀ d ∈ (c :: cs).takeWhile Char.isDigit, d.isDigit := fun d hd =>
    List.mem_takeWhile_imp hd
  have behind := isDigit_of_mem_fractionDigits ((c :: cs).dropWhile Char.isDigit)
  rw [readNumber, readDigits_eq, h]
  cases fraction : fractionDigits ((c :: cs).dropWhile Char.isDigit) with
  | nil => simp [numberText, scanNumber, fraction, parseNumber_whole nonempty digits]
  | cons d more =>
    rw [fraction] at behind
    simp [numberText, scanNumber, fraction, parseNumber_fraction nonempty digits behind,
      Nat.add_assoc, Nat.add_comm 1]

/-! ### The walker and the lexer -/

/-- The lexer that has the rest of the text before it. -/
def toLexer (w : Walker) : Lexer := ⟨w.rest, w.position, w.expectOperand, w.afterDot⟩

lemma readString_eq {cs : List Char} (h : w.rest = c :: cs) :
    w.readString c = ofQuoted w.position "" (w.step 1) (scanQuoted c cs) := by
  rw [readString, readQuoted_eq, rest_step, h, List.drop_one, List.tail_cons]

/-- A quoted text is the token at its opening quote, if no operator symbol begins there. -/
lemma readString_eq_scan {g : Grammar} (expectOperand afterDot : Bool) {cs : List Char}
    (h : w.rest = c :: cs) (quote : c = '"' ∨ c = '\'')
    (noSymbol : g.matchSymbol (c :: cs) = none) :
    ((w.readString c).1.map fun s => Token.Kind.literal (.string s), (w.readString c).2)
      = ((scan g expectOperand afterDot w.position c cs).1.mapError .lex,
        w.step (scan g expectOperand afterDot w.position c cs).2) := by
  simp only [scan, noSymbol, if_pos quote, readString_eq h]
  cases scanQuoted c cs <;> simp [ofQuoted, Except.map, Except.mapError, Nat.add_comm]

/-- The walker reads what the lexer reads. -/
lemma readKind_eq (g : Grammar) (afterDot : Bool) {cs : List Char} (h : w.rest = c :: cs) :
    w.readKind g afterDot c
      = ((scan g w.expectOperand afterDot w.position c cs).1.mapError .lex,
        w.step (scan g w.expectOperand afterDot w.position c cs).2) := by
  rw [readKind, h]
  cases found : g.matchSymbol (c :: cs) with
  | some symbol =>
    simp only [scan, found]
    rfl
  | none =>
    by_cases quote : c = '"' ∨ c = '\''
    · simp only [if_pos quote]
      exact readString_eq_scan _ _ h quote found
    · simp only [scan, found, readWhile_eq, h, if_neg quote]
      by_cases digit : c.isDigit
      · simp only [if_pos digit, readNumber_eq digit h]
        rfl
      · by_cases start : isIdentifierStart c
        · simp only [if_neg digit, if_pos start]
          rfl
        · simp only [if_neg digit, if_neg start]
          cases Punctuation.ofChar? c <;> rfl

lemma skipBlanks_eq (w : Walker) :
    w.skipBlanks = w.step (w.rest.takeWhile isWhiteSpace).length := by
  rw [skipBlanks, readWhile_eq]

@[simp] lemma chars_skipBlanks (w : Walker) : w.skipBlanks.chars = w.chars := by
  rw [skipBlanks_eq, step]

@[simp] lemma expectOperand_skipBlanks (w : Walker) :
    w.skipBlanks.expectOperand = w.expectOperand := by
  rw [skipBlanks_eq, step]

@[simp] lemma afterDot_skipBlanks (w : Walker) : w.skipBlanks.afterDot = w.afterDot := by
  rw [skipBlanks_eq, step]

lemma rest_skipBlanks (w : Walker) : w.skipBlanks.rest = w.rest.dropWhile isWhiteSpace := by
  have parts : w.rest = w.rest.takeWhile isWhiteSpace ++ w.rest.dropWhile isWhiteSpace :=
    List.takeWhile_append_dropWhile.symm
  rw [skipBlanks_eq, rest_step]
  conv_lhs =>
    arg 2
    rw [parts]
  exact List.drop_left

lemma toLexer_skipBlanks (w : Walker) : w.skipBlanks.toLexer = w.toLexer.skipBlanks := by
  rw [toLexer, rest_skipBlanks, skipBlanks_eq, position_step]
  rfl

/-- What has been walked over can be cut out. -/
lemma cut?_step (w : Walker) {count : Nat} (pos : 1 ≤ count) (h : count ≤ w.rest.length) :
    cut? w.chars w.cursor (w.step count).cursor = some (w.rest.take count) := by
  rw [rest, List.length_drop] at h
  have inside : w.cursor ≤ w.cursor + count ∧ w.cursor + count ≤ w.chars.length := by omega
  rw [cut?, step, if_pos inside, Nat.add_sub_cancel_left]
  rfl

lemma next_of_nil (g : Grammar) (h : w.skipBlanks.rest = []) :
    w.next g = (.ok ⟨.endOfInput, "", w.skipBlanks.position⟩, w.skipBlanks.forgetDot) := by
  have none : w.skipBlanks.current? = none := by rw [current?_eq, h, List.head?_nil]
  simp only [next]
  split
  · rfl
  · simp_all

/-- What stands behind the white space is read, and its text cut out. -/
lemma next_of_cons (g : Grammar) {cs : List Char} (h : w.skipBlanks.rest = c :: cs) :
    w.next g =
      match scan g w.expectOperand w.afterDot w.skipBlanks.position c cs with
      | (.error e, count) => (.error (.lex e), (w.skipBlanks.step count).forgetDot)
      | (.ok kind, count) =>
        (.ok ⟨kind, String.ofList ((c :: cs).take count), w.skipBlanks.position⟩,
          (w.skipBlanks.step count).afterKind kind) := by
  have begins : w.skipBlanks.current? = some c := by rw [current?_eq, h, List.head?_cons]
  have pos := one_le_scan g w.expectOperand w.afterDot w.skipBlanks.position c cs
  have le := scan_le_length g w.expectOperand w.afterDot w.skipBlanks.position c cs
  have scanned : w.skipBlanks.forgetDot.readKind g w.afterDot c
      = ((scan g w.expectOperand w.afterDot w.skipBlanks.position c cs).1.mapError .lex,
        (w.skipBlanks.step
          (scan g w.expectOperand w.afterDot w.skipBlanks.position c cs).2).forgetDot) := by
    rw [← w.expectOperand_skipBlanks]
    exact readKind_eq g w.afterDot h
  simp only [next]
  split
  · simp_all
  · rename_i d begins'
    cases begins.symm.trans begins'
    rw [afterDot_skipBlanks, scanned]
    generalize scan g w.expectOperand w.afterDot w.skipBlanks.position c cs = result at pos le
    obtain ⟨e | kind, count⟩ := result
    · rfl
    · have cut := cut?_step w.skipBlanks pos (h ▸ le)
      rw [h] at cut
      simp only [Except.mapError]
      split
      · rename_i none
        cases none.symm.trans cut
      · rename_i raw some
        cases some.symm.trans cut
        rfl

lemma toLexer_forgetDot (w : Walker) (count : Nat) :
    (w.step count).forgetDot.toLexer = w.toLexer.advance count := by
  rw [Lexer.advance, toLexer, toLexer, ← rest_step, ← position_step]
  rfl

lemma toLexer_afterKind (w : Walker) (count : Nat) (kind : Token.Kind) :
    ((w.step count).afterKind kind).toLexer = (w.toLexer.advance count).afterKind kind := by
  rw [← toLexer_forgetDot]
  rfl

/-- The walker reads what the lexer reads from the rest of the text, and stops where it stops. -/
lemma next_eq (g : Grammar) (w : Walker) :
    (w.next g).1 = (w.toLexer.next g).1.mapError .lex ∧
      (w.next g).2.toLexer = (w.toLexer.next g).2 ∧
      (w.next g).2.chars = w.chars := by
  have blanks := w.toLexer_skipBlanks
  have position : w.toLexer.skipBlanks.position = w.skipBlanks.position := by rw [← blanks]; rfl
  cases h : w.skipBlanks.rest with
  | nil =>
    have blank : w.toLexer.skipBlanks.rest = [] := blanks ▸ h
    rw [next_of_nil g h, Lexer.next_of_blank blank, ← blanks]
    exact ⟨rfl, rfl, w.chars_skipBlanks⟩
  | cons c cs =>
    have begins : w.toLexer.skipBlanks.rest = c :: cs := blanks ▸ h
    rw [next_of_cons g h, Lexer.next_of_cons begins, position, ← blanks]
    have modes : scan g w.toLexer.expectOperand w.toLexer.afterDot
        = scan g w.expectOperand w.afterDot := rfl
    rw [modes]
    rcases scan g w.expectOperand w.afterDot w.skipBlanks.position c cs with ⟨e | kind, count⟩
    · exact ⟨rfl, toLexer_forgetDot _ _, w.chars_skipBlanks⟩
    · exact ⟨rfl, toLexer_afterKind _ _ _, w.chars_skipBlanks⟩

end Walker

end Sift
