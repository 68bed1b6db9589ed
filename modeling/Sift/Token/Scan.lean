import Sift.Grammar.Basic
import Sift.Number.Numeral
import Sift.Token.Basic

/-!
# Reading one token

What stands at the beginning of a text: an operator symbol, a quoted text, a number, a word, or a
punctuation character. A scan tells how many characters it has taken, also where it fails; it takes
at least one (`one_le_scan`) and no more than there are (`scan_le_length`).
-/

namespace Sift

/-- Why a text cannot be split into tokens. -/
inductive LexError where
  | invalidToken (token : Char) (position : Nat)
  /-- A text without its closing quote, with the position of the opening one. -/
  | unterminatedString (position : Nat)
  /-- A backslash before a character that needs none, with the position of that character. -/
  | invalidEscape (escape : Char) (position : Nat)
deriving DecidableEq, Inhabited

def LexError.message : LexError → String
  | invalidToken token position =>
    "invalid expression token \x60" ++ token.toString ++ "\x60 at position " ++ toString position
  | unterminatedString position =>
    "unterminated string starting at position " ++ toString position
  | invalidEscape escape position =>
    "invalid escape sequence \x60\\" ++ escape.toString ++ "\x60 at position " ++ toString position

/-! ### Quoted texts -/

/-- A quoted text, with the number of characters after the opening quote that were taken. -/
inductive Quoted where
  | closed (text : List Char) (length : Nat)
  | invalidEscape (escape : Char) (length : Nat)
  | unterminated (length : Nat)
deriving DecidableEq, Inhabited

namespace Quoted

def length : Quoted → Nat
  | closed _ length | invalidEscape _ length | unterminated length => length

/-- Put a character of the text, written with `taken` characters, in front. -/
def push (c : Char) (taken : Nat) : Quoted → Quoted
  | closed text length => closed (c :: text) (length + taken)
  | invalidEscape escape length => invalidEscape escape (length + taken)
  | unterminated length => unterminated (length + taken)

@[simp] theorem length_closed (text : List Char) (n : Nat) : (closed text n).length = n := rfl

@[simp] theorem length_invalidEscape (c : Char) (n : Nat) : (invalidEscape c n).length = n := rfl

@[simp] theorem length_unterminated (n : Nat) : (unterminated n).length = n := rfl

@[simp] theorem length_push (c : Char) (taken : Nat) (q : Quoted) :
    (q.push c taken).length = q.length + taken := by
  cases q <;> rfl

end Quoted

def unescape? : Char → Option Char
  | 'n' => some '\n'
  | 't' => some '\t'
  | 'r' => some '\r'
  | '"' => some '"'
  | '\'' => some '\''
  | '\\' => some '\\'
  | _ => none

/-- Read a quoted text after its opening quote. -/
def scanQuoted (quote : Char) : List Char → Quoted
  | [] => .unterminated 0
  | [c] => if c = quote then .closed [] 1 else .unterminated 1
  | c :: e :: rest =>
    if c = quote then .closed [] 1
    else if c = '\\' then
      match unescape? e with
      | some d => (scanQuoted quote rest).push d 2
      | none => .invalidEscape e 1
    else (scanQuoted quote (e :: rest)).push c 1

/-- A quoted text takes no more characters than there are. -/
theorem scanQuoted_length_le (quote : Char) (cs : List Char) :
    (scanQuoted quote cs).length ≤ cs.length := by
  fun_induction scanQuoted quote cs <;>
    simp only [Quoted.length_closed, Quoted.length_invalidEscape, Quoted.length_unterminated,
      Quoted.length_push, List.length_cons, List.length_nil] at * <;>
    omega

/-! ### Numbers and words -/

/-- The digits after a point, if there is one with digits after it. -/
def fractionDigits : List Char → List Char
  | '.' :: rest => rest.takeWhile Char.isDigit
  | _ => []

/-- The value of a run of digits, a float if no integer is large enough. -/
def wholeNumber (digits : List Char) : Value :=
  match integer? (digitsValue digits) with
  | some n => .integer n
  | none => .float (.ofDecimal false (digitsValue digits) 0)

/-- Read a number and count its characters. A point belongs to it only before another digit. -/
def scanNumber (cs : List Char) : Value × Nat :=
  let whole := cs.takeWhile Char.isDigit
  match fractionDigits (cs.dropWhile Char.isDigit) with
  | [] => (wholeNumber whole, whole.length)
  | fraction =>
    (.float (.ofDecimal false (digitsValue (whole ++ fraction)) (-fraction.length)),
      whole.length + 1 + fraction.length)

/-- What an operator symbol is where it stands. -/
def operatorKind (expectOperand : Bool) (symbol : String) : Token.Kind :=
  .operator (if expectOperand then .unary else .binary) symbol

/-- What a word is where it stands. After a dot it is always a name. -/
def wordKind (g : Grammar) (expectOperand afterDot : Bool) (word : String) : Token.Kind :=
  if afterDot then .identifier word
  else match word with
    | "true" => .literal (.boolean true)
    | "false" => .literal (.boolean false)
    | "null" => .literal .null
    | word => if g.isOperator word then operatorKind expectOperand word else .identifier word

/-! ### Tokens -/

/-- Read the token at the beginning of a text and count its characters. -/
def scan (g : Grammar) (expectOperand afterDot : Bool) (position : Nat) (c : Char)
    (rest : List Char) : Except LexError Token.Kind × Nat :=
  match g.matchSymbol (c :: rest) with
  | some symbol => (.ok (operatorKind expectOperand symbol), symbol.length)
  | none =>
    if c = '"' ∨ c = '\'' then
      match scanQuoted c rest with
      | .closed text length => (.ok (.literal (.string (String.ofList text))), length + 1)
      | .invalidEscape escape length =>
        (.error (.invalidEscape escape (position + 1 + length)), length + 1)
      | .unterminated length => (.error (.unterminatedString position), length + 1)
    else if c.isDigit then
      let (value, length) := scanNumber (c :: rest)
      (.ok (.literal value), length)
    else if isIdentifierStart c then
      let word := (c :: rest).takeWhile isIdentifierChar
      (.ok (wordKind g expectOperand afterDot (String.ofList word)), word.length)
    else
      match Punctuation.ofChar? c with
      | some p => (.ok (.punctuation p), 1)
      | none => (.error (.invalidToken c position), 1)

theorem length_pos_of_isSymbolic {s : String} (h : isSymbolic s) : 1 ≤ s.length := by
  have nonempty : s.length ≠ 0 := mt String.length_eq_zero_iff.1 (isSymbolic_iff.1 h).1
  omega

theorem length_takeWhile_add_length_dropWhile {α : Type} (p : α → Bool) (l : List α) :
    (l.takeWhile p).length + (l.dropWhile p).length = l.length := by
  rw [← List.length_append, List.takeWhile_append_dropWhile]

theorem length_takeWhile_le {α : Type} (p : α → Bool) (l : List α) :
    (l.takeWhile p).length ≤ l.length := by
  have := length_takeWhile_add_length_dropWhile p l
  omega

/-- Digits after a point come after the point. -/
theorem length_fractionDigits_lt {cs : List Char} (h : fractionDigits cs ≠ []) :
    (fractionDigits cs).length < cs.length := by
  unfold fractionDigits at h ⊢
  split at h
  · exact Nat.lt_succ_of_le (length_takeWhile_le _ _)
  · exact absurd rfl h

theorem one_le_scanNumber {c : Char} (h : c.isDigit) (rest : List Char) :
    1 ≤ (scanNumber (c :: rest)).2 := by
  have : 1 ≤ ((c :: rest).takeWhile Char.isDigit).length := by simp [h]
  unfold scanNumber
  split
  · exact this
  · exact Nat.le_trans this (by simp only; omega)

theorem scanNumber_le_length (cs : List Char) : (scanNumber cs).2 ≤ cs.length := by
  have whole := length_takeWhile_add_length_dropWhile Char.isDigit cs
  unfold scanNumber
  split
  · simp only
    omega
  · rename_i nonempty
    have := length_fractionDigits_lt fun eq => nonempty eq
    simp only
    omega

variable (g : Grammar) (expectOperand afterDot : Bool) (position : Nat) (c : Char)
  (rest : List Char)

/-- Every token takes a character. -/
theorem one_le_scan : 1 ≤ (scan g expectOperand afterDot position c rest).2 := by
  unfold scan
  split
  · rename_i h
    exact length_pos_of_isSymbolic (Grammar.of_matchSymbol h).2.2
  · split
    · split <;> simp
    · split
      · rename_i h
        exact one_le_scanNumber h rest
      · split
        · rename_i h
          simp [isIdentifierChar_of_start h]
        · split <;> simp

/-- No token takes more characters than there are. -/
theorem scan_le_length :
    (scan g expectOperand afterDot position c rest).2 ≤ (c :: rest).length := by
  unfold scan
  split
  · rename_i h
    rw [← String.length_toList]
    exact (Grammar.of_matchSymbol h).2.1.length_le
  · split
    · have := scanQuoted_length_le c rest
      split <;> simp_all [Quoted.length]
    · split
      · exact scanNumber_le_length (c :: rest)
      · split
        · exact length_takeWhile_le _ _
        · split <;> simp

end Sift
