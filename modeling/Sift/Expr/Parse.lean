import Sift.Expr.Basic
import Sift.Token.Basic

/-!
# Steps of parsing

A parser takes tokens off the front of a list. A step that fails leaves the tokens that it has not
taken, so that reading can go on behind a mistake.
-/

namespace Sift

/-- What may come next where something else has been found. -/
inductive Expectation where
  | operand
  | binaryOperator
  | identifier
  | objectKey
  | endOfExpression
  | punctuation (p : Punctuation)
deriving DecidableEq, Inhabited

def Expectation.describe : Expectation → String
  | operand => "operand"
  | binaryOperator => "binary operator"
  | identifier => "identifier"
  | objectKey => "object key"
  | endOfExpression => "end of expression"
  | punctuation p => (Token.Kind.punctuation p).describe

/-- Why tokens are no expression. -/
inductive ParseError where
  | unexpectedToken (found : String) (expected : Expectation) (position : Nat)
  | unexpectedEnd (expected : Expectation)
  /-- A relative identifier where there is no filter around it. -/
  | relativeOutsideFilter (name : String)
  | tooDeep (position : Nat)
deriving DecidableEq, Inhabited

def ParseError.message : ParseError → String
  | unexpectedToken found expected position =>
    "token \x60" ++ found ++ "\x60 unexpected at position " ++ toString position ++ ", expected "
      ++ expected.describe
  | unexpectedEnd expected => "unexpected end of expression, expected " ++ expected.describe
  | relativeOutsideFilter name =>
    "relative identifier \x60." ++ name ++ "\x60 used outside of a filter"
  | tooDeep position => "expression nested too deeply at position " ++ toString position

/-- The tokens left, and the position where they end. -/
structure Cursor where
  rest : List Token
  stop : Nat
deriving Inhabited

def Cursor.ofTokens (tokens : List Token) : Cursor where
  rest := tokens
  stop := match tokens.getLast? with
    | some t => t.position + t.raw.length
    | none => 0

/-- The next token, which is the end where there is none. -/
def Cursor.current (c : Cursor) : Token := c.rest.headD ⟨.endOfInput, "", c.stop⟩

/-- A step of parsing. -/
abbrev Parse := EStateM ParseError Cursor

namespace Parse

variable {α : Type}

/-- The next token. -/
def current : Parse Token := return (← get).current

/-- The kind of the token after the next one. -/
def peek : Parse Token.Kind := return (← get).rest[1]?.elim .endOfInput Token.kind

def advance : Parse Unit := modify fun c => { c with rest := c.rest.drop 1 }

/-- Fail at the next token. -/
def unexpected (expected : Expectation) : Parse α := do
  let token ← current
  if token.kind.isEnd then throw (.unexpectedEnd expected)
  else throw (.unexpectedToken token.describe expected token.position)

/-- Fail at the next token, as nothing may be nested deeper. -/
def tooDeep : Parse α := do throw (.tooDeep (← current).position)

def isAt (p : Punctuation) : Parse Bool := return (← current).is p

def expect (p : Punctuation) : Parse Unit := do
  if ← isAt p then advance else unexpected (.punctuation p)

def expectIdentifier : Parse String := do
  match (← current).kind with
  | .identifier name =>
    advance
    return name
  | _ => unexpected .identifier

/-- Take the key of an entry of an object, a name or a text. -/
def expectKey : Parse String := do
  match (← current).kind with
  | .identifier key | .literal (.string key) =>
    advance
    return key
  | _ => unexpected .objectKey

/-- Items up to the closing character, with commas between them and perhaps one after the last.
Every item takes a token, so a bound on the tokens left is a bound on the items. -/
def itemsWithin (item : Parse α) (closing : Punctuation) : Nat → Parse (List α)
  | 0 => unexpected (.punctuation closing)
  | bound + 1 => do
    if ← isAt closing then
      advance
      return []
    else
      let x ← item
      unless ← isAt closing do expect .comma
      return x :: (← itemsWithin item closing bound)

/-- Items up to the closing character, with commas between them and perhaps one after the last. -/
def items (item : Parse α) (closing : Punctuation) : Parse (List α) := do
  itemsWithin item closing ((← get).rest.length + 1)

end Parse

end Sift
