import Sift.Engine.Store
import Sift.Json.Reader

/-!
# Checking expressions

An expression is read, and unless only its syntax is checked, evaluated against a JSON document. A
mistake in the expression comes before one in the document.
-/

namespace Sift

/-- Why a check fails. -/
inductive CheckError where
  | expression (e : Error)
  | invalidJson
  | noInput
deriving DecidableEq, Inhabited

def CheckError.message : CheckError → String
  | expression e => e.message
  | invalidJson => "invalid JSON"
  | noInput => "no input provided; use --input or pipe JSON to stdin"

/-- What a check has found. -/
inductive CheckResult where
  | syntaxValid
  | output (json : Json)

/-- Check an expression with the grammar of an engine. Also the calls made. -/
def check (g : Grammar) (source : String) (input : Option String) (syntaxOnly : Bool) :
    List Call × Except CheckError CheckResult :=
  let (cell, store) := Store.empty.newCell g
  let (id, store) := store.newExpression { fragments := [.source source], cell }
  match store.compile id with
  | (.error e, _) => ([], .error (.expression e))
  | (.ok _, store) =>
    if syntaxOnly then ([], .ok .syntaxValid)
    else match input with
      | none => ([], .error .noInput)
      | some text =>
        match Json.read? text with
        | none => ([], .error .invalidJson)
        | some document =>
          let (made, result, _) := store.evaluate (.expression id) document.toValue
          (made, (result.map fun v => .output (.ofValue v)).mapError .expression)

end Sift
