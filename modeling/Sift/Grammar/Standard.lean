import Sift.Grammar.Basic
import Sift.Number.Decimal
import Sift.Value.Arithmetic

/-!
# The standard grammar

The operators that every language starts with: arithmetic, comparison, membership and logic. There
are no functions and transforms. Integers and floats meet as decimals, which are those of 96 bits.
-/

namespace Sift

/-- An operator that answers at once. -/
def BinaryOperator.immediate (precedence : Int32) (f : Value → Value → Outcome) : BinaryOperator :=
  ⟨precedence, .eager fun v w => .now (f v w)⟩

/-- Go on to the right operand if the left one passes a test, else be content with it. -/
def Strategy.rightIf (test : Value → Bool) : Strategy :=
  .require .left fun v => if test v then .demand .right .finish else .finish (.ok v)

namespace Grammar

/-- The standard operators, with the decimals that they compute with. -/
def standardEdits (D : Decimals) : List Edit :=
  let eager symbol precedence f : Edit := .binary symbol (.immediate precedence f)
  let test symbol precedence (f : Value → Value → Bool) : Edit :=
    eager symbol precedence fun v w => .ok (.boolean (f v w))
  let order symbol f : Edit := eager symbol 20 (Value.compareBy symbol f)
  let lazy symbol precedence (s : Strategy) : Edit :=
    .binary symbol ⟨precedence, .lazy fun _ _ => s⟩
  [eager "+" 30 (Value.add D),
    eager "-" 30 (Arithmetic.subtraction D).apply,
    eager "*" 40 (Arithmetic.multiplication D).apply,
    eager "/" 40 (Value.divideBy (.division D)),
    eager "//" 40 (Value.floorDivide D),
    eager "%" 40 (Value.divideBy (.remainder D)),
    eager "^" 50 (Arithmetic.power D).apply,
    test "==" 20 Value.looseEq,
    test "!=" 20 fun v w => !v.looseEq w,
    order "<" Ordering.isLT,
    order "<=" Ordering.isLE,
    order ">" Ordering.isGT,
    order ">=" Ordering.isGE,
    test "in" 20 fun v w => w.contains v,
    lazy "&&" 10 (.rightIf Value.isTruthy),
    lazy "||" 10 (.rightIf fun v => !v.isTruthy),
    .unary "!" fun v => .value (.boolean !v.isTruthy),
    .unary "-" fun v => .now v.negate]

def standardWith (D : Decimals) : Grammar := empty.editAll (standardEdits D)

/-- The grammar of the standard operators. -/
def standard : Grammar := standardWith .standard

end Grammar

end Sift
