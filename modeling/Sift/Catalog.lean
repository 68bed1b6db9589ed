import Sift.Expr.Outline
import Sift.Grammar.Basic
import Sift.Value.Lookup
import Sift.Value.Order

/-!
# A catalog of callables

Small operators, functions and transforms with which grammars can be tried out: they show what they
are given, fail on demand, answer late, or note in the log that they were called.
-/

namespace Sift.Catalog

/-- The integer view of a value, zero where there is none. -/
def int (v : Value) : Int64 := v.asInteger?.getD 0

/-- An argument, null where it is missing. -/
def argument (arguments : List Value) (position : Nat) : Value := arguments.getD position .null

/-- A text in capital letters, as far as they are ASCII. -/
def upper (s : String) : String := s.map Char.toUpper

/-- A text in small letters, as far as they are ASCII. -/
def lower (s : String) : String := s.map Char.toLower

/-- A value after a number of polls. -/
def late (polls : Nat) (v : Value) : Reply := ⟨.pending polls (.ok v), []⟩

/-- The polls that a value asks for, at most twenty. -/
def pollsOf (v : Value) : Nat := min (int v).toInt.toNat 20

/-- A failure with a message of its own. -/
def failure (message : String) : Reply := .error (.callback message)

/-- An order as a number. -/
def orderValue : Option Ordering → Value
  | some .lt => .integer (-1)
  | some .eq => .integer 0
  | some .gt => .integer 1
  | none => .null

def logged (v : Value) : Reply := ⟨.ready (.ok v), [v.asString]⟩

/-- Binary operators on evaluated operands. -/
def binary? : String → Option (Value → Value → Reply)
  | "pair" => some fun v w => .value (.array [v, w])
  | "concat" => some fun v w => .value (.string (v.asString ++ w.asString))
  | "sub" => some fun v w => .value (.integer (int v - int w))
  | "dsum" => some fun v w => .value (.integer (2 * int v + 2 * int w))
  | "ieq" => some fun v w => .value (.boolean (lower v.asString == lower w.asString))
  | "starts" => some fun v w =>
    .value (.boolean (w.asString.toList.isPrefixOf v.asString.toList))
  | "fail" => some fun v w => failure (v.asString ++ "!" ++ w.asString)
  | "type_error" => some fun _ _ => .error (.typeError "custom")
  | "later" => some fun v w => late 1 (.array [v, w])
  | _ => none

/-- Binary operators on unevaluated operands. -/
def lazy? : String → Option (Expr → Expr → Strategy)
  | "positive" => some fun _ _ => .require .left fun v =>
    match v.asFloat? with
    | some x =>
      if (Binary64.zero false).compare? x = some .lt then .finish (.ok v)
      else .demand .right .finish
    | none => .demand .right .finish
  | "coalesce" => some fun _ _ => .require .left fun v =>
    match v with
    | .null => .demand .right .finish
    | v => .finish (.ok v)
  | "swap" => some fun _ _ =>
    .require .right fun w => .require .left fun v => .finish (.ok (.array [v, w]))
  | "twice" => some fun _ _ =>
    .require .left fun v => .require .left fun w => .finish (.ok (.array [v, w]))
  | "rescue" => some fun _ _ => .demand .left fun
    | .ok v => .finish (.ok v)
    | .error _ => .demand .right .finish
  | "quote" => some fun left right => .finish (.ok (.array [left.outline, right.outline]))
  | "none" => some fun _ _ => .finish (.ok .null)
  | _ => none

def unary? : String → Option UnaryRule
  | "id" => some .value
  | "type" => some fun v => .value (.string v.typeName)
  | "len" => some fun v => .value (.integer (Int64.ofNat v.asString.length))
  | "floor" => some fun v => .value (v.asFloat?.elim .null fun x => .integer x.floor.toInteger)
  | "wrap" => some fun v => .value (.array [v])
  | "fail" => some fun v => failure ("unary " ++ v.asString)
  | "later" => some (late 1)
  | _ => none

def functions : List (String × FunctionRule) :=
  [("args", fun vs => .value (.array vs)),
    ("at", fun vs => .value ((argument vs 0).index (argument vs 1))),
    ("cmp", fun vs => .value (orderValue ((argument vs 0).compare? (argument vs 1)))),
    ("eq", fun vs => .value (.boolean ((argument vs 0).looseEq (argument vs 1)))),
    ("fail", fun vs => failure (if vs.isEmpty then "oops" else (argument vs 0).asString)),
    ("float", fun vs => .value ((argument vs 0).asFloat?.elim .null .float)),
    ("inf", fun _ => .value (.float (.infinite false))),
    ("int", fun vs => .value ((argument vs 0).asInteger?.elim .null .integer)),
    ("later", fun vs => late (pollsOf (argument vs 0)) (argument vs 1)),
    ("len", fun vs => .value (.integer (Int64.ofNat vs.length))),
    ("log", fun vs => logged (argument vs 0)),
    ("nan", fun _ => .value (.float .nan)),
    ("prop", fun vs => .value ((argument vs 0).property (argument vs 1).asString)),
    ("str", fun vs => .value (.string (argument vs 0).asString)),
    ("sum", fun vs => .value (.integer (vs.foldl (fun n v => n + int v) 0))),
    ("truthy", fun vs => .value (.boolean (argument vs 0).isTruthy)),
    ("type", fun vs => .value (.string (argument vs 0).typeName))]

def transforms : List (String × TransformRule) :=
  [("at", fun v vs => .value (v.index (argument vs 0))),
    ("fail", fun v _ => failure (v.asString ++ "|fail")),
    ("inc", fun v _ => .value (.integer (int v + 1))),
    ("later", fun v vs => late (pollsOf (argument vs 0)) v),
    ("log", fun v _ => logged v),
    ("prop", fun v vs => .value (v.property (argument vs 0).asString)),
    ("str", fun v _ => .value (.string v.asString)),
    ("toCase", fun v vs =>
      match (argument vs 0).property "case" with
      | .string "upper" => .value (.string (upper v.asString))
      | _ => .value (.string (lower v.asString))),
    ("type", fun v _ => .value (.string v.typeName)),
    ("upper", fun v _ => .value (.string (upper v.asString))),
    ("wrap", fun v vs => .value (.array (v :: vs)))]

def function? (name : String) : Option FunctionRule := functions.lookup name

def transform? (name : String) : Option TransformRule := transforms.lookup name

/-- The edits that register every function and transform under its own name. -/
def registration : List Edit := [.functions functions, .transforms transforms]

end Sift.Catalog
