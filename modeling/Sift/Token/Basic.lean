import Sift.Value.Text

/-!
# Tokens

A token is a literal, a name, an operator in its role, or a punctuation character, together with the
text and the place it was read from.
-/

namespace Sift

/-- The characters that structure an expression. -/
inductive Punctuation where
  | openParen
  | closeParen
  | openBracket
  | closeBracket
  | openBrace
  | closeBrace
  | comma
  | colon
  | dot
  | pipe
  | question
deriving DecidableEq, Inhabited

namespace Punctuation

def char : Punctuation → Char
  | openParen => '('
  | closeParen => ')'
  | openBracket => '['
  | closeBracket => ']'
  | openBrace => '\x7b'
  | closeBrace => '\x7d'
  | comma => ','
  | colon => ':'
  | dot => '.'
  | pipe => '|'
  | question => '?'

def ofChar? : Char → Option Punctuation
  | '(' => some openParen
  | ')' => some closeParen
  | '[' => some openBracket
  | ']' => some closeBracket
  | '\x7b' => some openBrace
  | '\x7d' => some closeBrace
  | ',' => some comma
  | ':' => some colon
  | '.' => some dot
  | '|' => some pipe
  | '?' => some question
  | _ => none

/-- Every punctuation character is read as what it is written for. -/
@[simp] theorem ofChar?_char (p : Punctuation) : ofChar? p.char = some p := by
  cases p <;> rfl

theorem char_of_ofChar? {c : Char} {p : Punctuation} (h : ofChar? c = some p) : p.char = c := by
  unfold ofChar? at h
  split at h <;> first | (obtain rfl := Option.some.inj h; rfl) | simp at h

/-- Whether an operand may begin after the character. -/
def expectsOperand : Punctuation → Bool
  | openParen | openBracket | openBrace | comma | colon | question | pipe => true
  | closeParen | closeBracket | closeBrace | dot => false

end Punctuation

/-- The place of an operator: before its only operand, or between two. -/
inductive Role where
  | unary
  | binary
deriving DecidableEq, Inhabited

/-- What a token is. -/
inductive Token.Kind where
  | literal (value : Value)
  | identifier (name : String)
  | operator (role : Role) (symbol : String)
  | punctuation (p : Punctuation)
  | endOfInput

namespace Token.Kind

instance : Inhabited Kind := ⟨endOfInput⟩

/-- Whether an operator after the token stands before its operand. -/
def expectsOperand : Kind → Bool
  | operator _ _ => true
  | punctuation p => p.expectsOperand
  | _ => false

def isPunctuation (p : Punctuation) : Kind → Bool
  | punctuation q => p = q
  | _ => false

def isEnd : Kind → Bool
  | endOfInput => true
  | _ => false

def describe : Kind → String
  | literal _ => "literal"
  | identifier _ => "identifier"
  | operator .binary _ => "binary operator"
  | operator .unary _ => "unary operator"
  | punctuation p => String.ofList ['\x60', p.char, '\x60']
  | endOfInput => "end of expression"

end Token.Kind

/-- A token with its text and the position of its first character. Spliced values and the end have
an empty text. -/
structure Token where
  kind : Token.Kind
  raw : String
  position : Nat
deriving Inhabited

namespace Token

/-- The text that stands for the token in messages. -/
def describe (t : Token) : String :=
  match t.kind with
  | .endOfInput => "end of expression"
  | .literal v => if t.raw = "" then v.asString else t.raw
  | _ => t.raw

def is (t : Token) (p : Punctuation) : Bool := t.kind.isPunctuation p

end Token

end Sift
