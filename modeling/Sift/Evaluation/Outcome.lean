import Sift.Value.Text

/-!
# Outcomes

What an evaluation comes to, and what a callable answers: at once or after it has been polled a
number of times.
-/

namespace Sift

/-- Why an evaluation fails. -/
inductive EvalError where
  | typeError (message : String)
  | divisionByZero
  | unknownFunction (name : String)
  | unknownTransform (name : String)
  /-- An operator that was removed after the expression had been read. -/
  | unknownOperator (symbol : String)
  /-- A failure of a callable, with its own message. -/
  | callback (message : String)
  /-- A callable that does not answer at once where waiting is not possible. -/
  | wouldBlock
deriving DecidableEq, Inhabited

namespace EvalError

/-- The error in words. -/
def message : EvalError → String
  | typeError message => "type error: " ++ message
  | divisionByZero => "division by zero"
  | unknownFunction name => "function \x60" ++ name ++ "\x60 is not defined"
  | unknownTransform name => "transform \x60" ++ name ++ "\x60 is not defined"
  | unknownOperator symbol => "operator \x60" ++ symbol ++ "\x60 is not defined"
  | callback message => message
  | wouldBlock => "evaluation is waiting on an asynchronous result; use the async entry point"

def inspect : EvalError → String
  | typeError message => "TypeError(" ++ quoteInspected message ++ ")"
  | divisionByZero => "DivisionByZero"
  | unknownFunction name => "UnknownFunction(" ++ quoteInspected name ++ ")"
  | unknownTransform name => "UnknownTransform(" ++ quoteInspected name ++ ")"
  | unknownOperator symbol => "UnknownOperator(" ++ quoteInspected symbol ++ ")"
  | callback message => "Callback(" ++ quoteInspected message ++ ")"
  | wouldBlock => "WouldBlock"

end EvalError

/-- A value or the reason why there is none. -/
abbrev Outcome := Except EvalError Value

def Outcome.inspect : Outcome → String
  | .ok v => "Ok(" ++ v.inspect ++ ")"
  | .error e => "Err(" ++ e.inspect ++ ")"

/-- An outcome that is there or that takes some polls to come. -/
inductive Deferred where
  | ready (outcome : Outcome)
  | pending (polls : Nat) (outcome : Outcome)

namespace Deferred

def outcome : Deferred → Outcome
  | ready outcome | pending _ outcome => outcome

/-- How often a poll finds nothing. -/
def polls : Deferred → Nat
  | ready _ => 0
  | pending polls _ => polls

def inspect : Deferred → String
  | ready outcome => "Ready(" ++ outcome.inspect ++ ")"
  | pending _ _ => "Pending(..)"

end Deferred

/-- The answer of a callable, with the notes that it makes in the log. -/
structure Reply where
  deferred : Deferred
  notes : List String := []

namespace Reply

/-- An answer at once. -/
def now (outcome : Outcome) : Reply := ⟨.ready outcome, []⟩

def value (v : Value) : Reply := now (.ok v)

def error (e : EvalError) : Reply := now (.error e)

end Reply

end Sift
