import Sift.Expr.Parse
import Sift.Grammar.Basic

/-!
# Parsing expressions

From loose to tight, an expression is a conditional, a chain of binary operators by their
precedence, a unary operator, a chain of postfix steps, or a primary. Binary operators of equal
precedence group to the left.

Nesting is bounded. What may be read with a given number of levels left is a `Level`, and every
level is made from the one below it: a group, a list item, the operand of a unary operator and each
further fold or postfix step are read one level down, and at the lowest level they are an error.
-/

namespace Sift

def maxNesting : Nat := 64

/-- What can be read with some number of levels left. -/
structure Level where
  /-- A whole expression, which is one level of nesting. -/
  expression : Parse Expr
  /-- An operand with its unary operators and postfix steps. -/
  operand : Parse Expr
  /-- The binary operators after what has been read, down to a least precedence. -/
  folds : Int → Expr → Parse Expr
  /-- The postfix steps after what has been read. -/
  steps : Expr → Parse Expr

namespace Level

/-- A chain of binary operators of at least the given precedence. -/
def chain (level : Level) (least : Int) : Parse Expr := do level.folds least (← level.operand)

/-- The least precedence, which admits every operator. -/
def anyPrecedence : Int := Int32.minValue.toInt

/-- An expression without the nesting that it adds. -/
def conditional (level : Level) : Parse Expr := do
  let test ← level.chain anyPrecedence
  if ← Parse.isAt .question then
    Parse.advance
    if ← Parse.isAt .colon then
      Parse.advance
      return .fallback test (← level.expression)
    else
      let consequent ← level.expression
      Parse.expect .colon
      return .conditional test consequent (← level.expression)
  else return test

def entry (expression : Parse Expr) : Parse (String × Expr) := do
  let key ← Parse.expectKey
  Parse.expect .colon
  return (key, ← expression)

/-- A literal, a name, a call, a group, an array or an object. -/
def primary (expression : Parse Expr) : Parse Expr := do
  match (← Parse.current).kind with
  | .literal value =>
    Parse.advance
    return .literal value
  | .identifier name =>
    Parse.advance
    if ← Parse.isAt .openParen then
      Parse.advance
      return .call name (← Parse.items expression .closeParen)
    else return .identifier name
  | .punctuation .dot =>
    match ← Parse.peek with
    | .identifier name =>
      Parse.advance
      Parse.advance
      return .relative name
    | _ => Parse.unexpected .operand
  | .punctuation .openParen =>
    Parse.advance
    let e ← expression
    Parse.expect .closeParen
    return e
  | .punctuation .openBracket =>
    Parse.advance
    return .array (← Parse.items expression .closeBracket)
  | .punctuation .openBrace =>
    Parse.advance
    return .object (← Parse.items (entry expression) .closeBrace)
  | _ => Parse.unexpected .operand

section

variable (g : Grammar) (below : Option Level)

def descend : Parse Level :=
  match below with
  | some level => pure level
  | none => Parse.tooDeep

/-- A whole expression. -/
def expressionAbove : Parse Expr := do (← descend below).conditional

/-- The postfix steps after what has been read. -/
def stepsAbove (subject : Expr) : Parse Expr := do
  match (← Parse.current).kind with
  | .punctuation .dot =>
    let level ← descend below
    Parse.advance
    let property ← Parse.expectIdentifier
    level.steps (.member subject property subject.isRelativePath)
  | .punctuation .openBracket =>
    let level ← descend below
    Parse.advance
    let predicate ← level.expression
    Parse.expect .closeBracket
    level.steps (.filter subject predicate predicate.referencesRelative)
  | .punctuation .pipe =>
    let level ← descend below
    Parse.advance
    let name ← Parse.expectIdentifier
    if ← Parse.isAt .openParen then
      Parse.advance
      let arguments ← Parse.items level.expression .closeParen
      level.steps (.transform name subject arguments)
    else level.steps (.transform name subject [])
  | _ => return subject

/-- An operand with its unary operators and postfix steps. -/
def operandAbove : Parse Expr := do
  match (← Parse.current).kind with
  | .operator .unary symbol =>
    if g.unary.contains symbol then
      Parse.advance
      return .unary symbol (← (← descend below).operand)
    else Parse.unexpected .operand
  | _ => stepsAbove below (← primary (expressionAbove below))

/-- The binary operators after what has been read, down to a least precedence. The right operand of
an operator takes those that bind tighter than the operator itself. -/
def foldsAbove (least : Int) (left : Expr) : Parse Expr := do
  match (← Parse.current).kind with
  | .operator .binary symbol =>
    match g.binary.get? symbol with
    | none => Parse.unexpected .binaryOperator
    | some op =>
      let precedence := op.precedence.toInt
      if precedence < least then return left
      else
        let level ← descend below
        Parse.advance
        let right ← level.chain (precedence + 1)
        level.folds least (.binary symbol left right)
  | _ => return left

/-- The level above another one, or the lowest. -/
def above : Level where
  expression := expressionAbove below
  operand := operandAbove g below
  folds := foldsAbove g below
  steps := stepsAbove below

end

/-- The level with the given number of levels below it. -/
def ofDepth (g : Grammar) : Nat → Level
  | 0 => above g none
  | n + 1 => above g (some (ofDepth g n))

end Level

/-- Read an expression off the front of the tokens. -/
def parseExpression (g : Grammar) : Parse Expr := (Level.ofDepth g maxNesting).expression

/-- The expression that tokens spell, with nothing left but the end, and without relative
identifiers outside of filters. -/
def parseAll (g : Grammar) : Parse Expr := do
  let e ← parseExpression g
  unless (← Parse.current).kind.isEnd do Parse.unexpected .endOfExpression
  match e.freeRelative? with
  | some name => throw (.relativeOutsideFilter name)
  | none => return e

def parse (g : Grammar) (tokens : List Token) : Except ParseError Expr :=
  match (parseAll g).run (Cursor.ofTokens tokens) with
  | .ok e _ => .ok e
  | .error e _ => .error e

end Sift
