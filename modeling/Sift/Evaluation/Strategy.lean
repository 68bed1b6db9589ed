import Sift.Evaluation.Process

/-!
# Strategies

An operator that takes its operands unevaluated says what to evaluate next, for as long as it does
not know its outcome. It may evaluate an operand any number of times, or never, and it may go on
after an operand has failed.
-/

namespace Sift

/-- One of two operands. -/
inductive Side where
  | left
  | right
deriving DecidableEq, Inhabited

/-- What to do with unevaluated operands. -/
inductive Strategy where
  | finish (outcome : Outcome)
  /-- Evaluate an operand and go on with what it comes to. -/
  | demand (side : Side) (next : Outcome → Strategy)
  | pause (next : Strategy)

namespace Strategy

/-- Evaluate an operand and go on with its value. A failure is the outcome. -/
def require (side : Side) (next : Value → Strategy) : Strategy :=
  demand side fun
    | .ok v => next v
    | .error e => finish (.error e)

/-- Follow the strategy. -/
def run (operand : Side → Process Value) : Strategy → Process Value
  | finish outcome => .done outcome
  | demand side next => (operand side).andThen fun outcome => (next outcome).run operand
  | pause next => .pause (next.run operand)

end Strategy

end Sift
