import Sift.Evaluation.Outcome
import Sift.Expr.Parser
import Sift.Token.Lexer

/-!
# Templates

An expression is put together from pieces of source text and spliced values. A value becomes one
literal token, whatever text it holds, and takes no room in the count of positions.
-/

namespace Sift

/-- A piece of an expression. -/
inductive Fragment where
  | source (text : String)
  | value (v : Value)

/-- The text of a piece, values being written as JSON. -/
def Fragment.text : Fragment → String
  | source text => text
  | value v => v.jsonText

/-- Any failure of reading or evaluating an expression. -/
inductive Error where
  | lex (e : LexError)
  | parse (e : ParseError)
  | eval (e : EvalError)
deriving DecidableEq, Inhabited

def Error.message : Error → String
  | lex e => e.message
  | parse e => e.message
  | eval e => e.message

namespace Template

/-- The tokens of pieces after tokens that have been read before, and the end, which follows the
last character of the source texts. -/
def tokens (g : Grammar) (before : List Token) (offset : Nat) :
    List Fragment → Except LexError (List Token)
  | [] => .ok (before ++ [⟨.endOfInput, "", offset⟩])
  | .source text :: rest =>
    match tokensAfter g before text offset with
    | (read, none) => tokens g read (offset + text.length) rest
    | (_, some e) => .error e
  | .value v :: rest => tokens g (before ++ [⟨.literal v, "", offset⟩]) offset rest

/-- The expression that pieces spell. -/
def compile (g : Grammar) (fragments : List Fragment) : Except Error Expr := do
  let read ← (tokens g [] 0 fragments).mapError .lex
  (parse g read).mapError .parse

end Template

end Sift
