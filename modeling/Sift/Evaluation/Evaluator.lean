import Sift.Grammar.Basic
import Sift.Value.Lookup

/-!
# Evaluation

An expression is evaluated against a context and a grammar, operands from left to right and nothing
twice. Inside the predicate of a filter there is a frame, the element that the filter is looking at.
-/

namespace Sift

/-- What a name may stand for and does not. -/
inductive Missing where
  | operator (symbol : String)
  | function (name : String)
  | transform (name : String)
  /-- A property of an element where there is no element. -/
  | element (name : String)
deriving DecidableEq, Inhabited

/-- What evaluation comes to where a name stands for nothing. -/
def Missing.outcome : Missing → Outcome
  | operator symbol => .error (.unknownOperator symbol)
  | function name => .error (.unknownFunction name)
  | transform name => .error (.unknownTransform name)
  | element _ => .ok .null

/-- What an expression is evaluated against, and how to go on where a name stands for nothing. -/
structure Environment where
  grammar : Grammar
  context : Value
  missing : Missing → Process Value := fun m => .done m.outcome

/-- Keep, drop or index a collection, by a predicate that does not look at the elements. -/
def Value.select (subject key : Value) : Value :=
  match key with
  | .boolean true => subject
  | .boolean false => .null
  | key => subject.index key

namespace Expr

mutual
/-- The evaluation of an expression. -/
def eval (env : Environment) (frame : Option Value) : Expr → Process Value
  | literal value => pure value
  | identifier name => pure (env.context.property name)
  | relative name =>
    match frame with
    | some element => pure (element.property name)
    | none => env.missing (.element name)
  | member owner property _ => do
    return (← owner.eval env frame).property property
  | filter subject predicate marked => do
    let subject ← subject.eval env frame
    if marked then
      let test (element : Value) : Process Bool := do
        return (← predicate.eval env (some element)).isTruthy
      return .array (← Process.filter test subject.elements)
    else return subject.select (← predicate.eval env frame)
  | array items => do return .array (← evalAll env frame items)
  | object entries => do return .ofEntries (← evalEntries env frame entries)
  | unary symbol operand =>
    match env.grammar.unary.get? symbol with
    | none => env.missing (.operator symbol)
    | some rule => do
      let v ← operand.eval env frame
      Process.invoke (.unary symbol) [v] (rule v)
  | binary symbol left right =>
    match env.grammar.binary.get? symbol with
    | none => env.missing (.operator symbol)
    | some op =>
      match op.rule with
      | .eager apply => do
        let v ← left.eval env frame
        let w ← right.eval env frame
        Process.invoke (.binary symbol) [v, w] (apply v w)
      | .lazy plan => (plan left right).run fun
        | .left => left.eval env frame
        | .right => right.eval env frame
  | conditional test consequent alternate => do
    let v ← test.eval env frame
    if v.isTruthy then consequent.eval env frame else alternate.eval env frame
  | fallback test alternate => do
    let v ← test.eval env frame
    if v.isTruthy then pure v else alternate.eval env frame
  | call name arguments =>
    match env.grammar.functions.get? name with
    | none => env.missing (.function name)
    | some rule => do
      let vs ← evalAll env frame arguments
      Process.invoke (.function name) vs (rule vs)
  | transform name subject arguments =>
    match env.grammar.transforms.get? name with
    | none => env.missing (.transform name)
    | some rule => do
      let v ← subject.eval env frame
      let vs ← evalAll env frame arguments
      Process.invoke (.transform name) (v :: vs) (rule v vs)

def evalAll (env : Environment) (frame : Option Value) : List Expr → Process (List Value)
  | [] => pure []
  | e :: rest => do
    let v ← e.eval env frame
    return v :: (← evalAll env frame rest)

def evalEntries (env : Environment) (frame : Option Value) :
    List (String × Expr) → Process (List (String × Value))
  | [] => pure []
  | (k, e) :: rest => do
    let v ← e.eval env frame
    return (k, v) :: (← evalEntries env frame rest)
end

/-- The evaluation of a whole expression, outside of all filters. -/
def evaluate (g : Grammar) (context : Value) (e : Expr) : Process Value :=
  e.eval { grammar := g, context } none

end Expr

end Sift
