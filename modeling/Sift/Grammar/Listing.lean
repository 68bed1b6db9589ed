import Sift.Grammar.Basic

/-!
# Grammars in words

`Grammar.describe` lists a grammar for a reader, `Grammar.inspect` shows its tables on one line.
-/

namespace Sift

def padRight (width : Nat) (s : String) : String :=
  s ++ String.ofList (List.replicate (width - s.length) ' ')

def padLeft (width : Nat) (s : String) : String :=
  String.ofList (List.replicate (width - s.length) ' ') ++ s

def BinaryOperator.inspect (op : BinaryOperator) : String :=
  "BinaryOp \x7b precedence: " ++ toString op.precedence.toInt ++ ", lazy: "
    ++ (if op.isLazy then "true" else "false") ++ " \x7d"

namespace Grammar

variable (g : Grammar)

def bracketed (parts : List String) : String := "[" ++ ", ".intercalate parts ++ "]"

/-- The tables of the grammar on one line. -/
def inspect : String :=
  let operators := g.binaryOperators.map fun (symbol, op) =>
    "(" ++ quoteInspected symbol ++ ", " ++ op.inspect ++ ")"
  "Grammar \x7b binary_ops: " ++ bracketed operators
    ++ ", unary_ops: " ++ bracketed (g.unarySymbols.map quoteInspected)
    ++ ", functions: " ++ bracketed (g.functionNames.map quoteInspected)
    ++ ", transforms: " ++ bracketed (g.transformNames.map quoteInspected) ++ " \x7d"

/-- A titled list of names, with a word for none. -/
def titled (title : String) (names : List String) : String :=
  let lines := if names.isEmpty then ["  (none)\n"] else names.map fun name => "  " ++ name ++ "\n"
  "\n" ++ title ++ "\n\n" ++ String.join lines

/-- The operators, functions and transforms of the grammar, a line each. -/
def describe : String :=
  let operators := g.binaryOperators.map fun (symbol, op) =>
    "  " ++ padRight 6 symbol ++ " " ++ padLeft 5 (toString op.precedence.toInt)
      ++ (if op.isLazy then "  short-circuit" else "") ++ "\n"
  let unary := g.unarySymbols.map fun symbol => "  " ++ symbol ++ "\n"
  "BINARY OPERATORS (tightest first)\n\n" ++ String.join operators
    ++ "\nUNARY OPERATORS\n\n" ++ String.join unary
    ++ titled "FUNCTIONS" g.functionNames
    ++ titled "TRANSFORMS" g.transformNames

end Grammar

end Sift
