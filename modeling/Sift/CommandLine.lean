import Sift.Check
import Sift.Grammar.Listing
import Sift.Grammar.Standard
import Sift.Json.Writer

/-!
# The command line

`eval` evaluates an expression, `check` checks one, and `operators` lists the standard operators.
The JSON document comes from an option or from the standard input. What cannot be understood is
refused before anything is read or evaluated.
-/

namespace Sift

/-- The options of `eval` and `check`. -/
structure Options where
  expression : Option String := none
  input : Option String := none
  pretty : Bool := false
  syntaxOnly : Bool := false
deriving Inhabited

/-- What the arguments ask for. -/
inductive Invocation where
  | eval (expression : String) (input : Option String) (pretty : Bool)
  | check (expression : String) (input : Option String) (pretty syntaxOnly : Bool)
  | operators
  | help
  | version
deriving Inhabited

/-- Why arguments are not read to their end: they are wrong, or ask for help. -/
inductive Refusal where
  | usage
  | help
deriving DecidableEq, Inhabited

namespace Options

/-- Set the document. It can be set once. -/
def setInput (o : Options) (text : String) : Except Refusal Options :=
  if o.input.isSome then .error .usage else .ok { o with input := some text }

def setExpression (o : Options) (text : String) : Except Refusal Options :=
  if o.expression.isSome then .error .usage else .ok { o with expression := some text }

def setPretty (o : Options) : Except Refusal Options :=
  if o.pretty then .error .usage else .ok { o with pretty := true }

def setSyntaxOnly (o : Options) : Except Refusal Options :=
  if o.syntaxOnly then .error .usage else .ok { o with syntaxOnly := true }

/-- Read letters after a dash. The flag says that the value of the last one is still to come. -/
def readLetters (o : Options) : List Char → Except Refusal (Options × Bool)
  | [] => .ok (o, false)
  | 'p' :: rest => do readLetters (← o.setPretty) rest
  | ['i'] => .ok (o, true)
  | 'i' :: '=' :: text => do return (← o.setInput (String.ofList text), false)
  | 'i' :: text => do return (← o.setInput (String.ofList text), false)
  | 'h' :: _ => .error .help
  | _ => .error .usage

/-- Read a word after two dashes. The flag says that its value is still to come. -/
def readWord (checking : Bool) (o : Options) (word : List Char) : Except Refusal (Options × Bool) :=
  let (name, rest) := word.span (· != '=')
  match String.ofList name, rest with
  | "input", [] => .ok (o, true)
  | "input", _ :: text => do return (← o.setInput (String.ofList text), false)
  | "pretty", [] => do return (← o.setPretty, false)
  | "syntax-only", [] => if checking then do return (← o.setSyntaxOnly, false) else .error .usage
  | "help", [] => .error .help
  | _, _ => .error .usage

/-- Read one argument. The flag says that a value is still to come. -/
def readArgument (checking : Bool) (o : Options) (argument : String) :
    Except Refusal (Options × Bool) :=
  match argument.toList with
  | '-' :: '-' :: word => o.readWord checking word
  | '-' :: c :: letters => o.readLetters (c :: letters)
  | _ => do return (← o.setExpression argument, false)

/-- Whether an argument can be the value of an option, not an option itself. -/
def isValue (argument : String) : Bool := argument == "-" || argument.toList.head? != some '-'

/-- Read arguments. Nothing after two lone dashes is an option. -/
def readAll (checking : Bool) (o : Options) : List String → Except Refusal Options
  | [] => .ok o
  | "--" :: rest => rest.foldlM setExpression o
  | argument :: rest => do
    let (o, valueToCome) ← o.readArgument checking argument
    if valueToCome then
      match rest with
      | value :: rest =>
        if isValue value then readAll checking (← o.setInput value) rest else .error .usage
      | [] => .error .usage
    else readAll checking o rest

end Options

namespace Invocation

/-- Whether an argument asks for help. Nothing after the letter is read. -/
def asksHelp (argument : String) : Bool :=
  argument == "--help" || ['-', 'h'].isPrefixOf argument.toList

/-- Whether an argument asks for the version. Nothing after the letter is read. -/
def asksVersion (argument : String) : Bool :=
  argument == "--version" || ['-', 'V'].isPrefixOf argument.toList

/-- The command of a name with its arguments. -/
def ofCommand : String → List String → Except Refusal Invocation
  | "eval", arguments => do
    let o ← Options.readAll false {} arguments
    match o.expression with
    | some e => return eval e o.input o.pretty
    | none => .error .usage
  | "check", arguments => do
    let o ← Options.readAll true {} arguments
    match o.expression with
    | some e => return check e o.input o.pretty o.syntaxOnly
    | none => .error .usage
  | "operators", [] | "operators", ["--"] => .ok operators
  | "operators", argument :: _ => .error (if asksHelp argument then .help else .usage)
  | "help", [] => .error .help
  | "help", [command] =>
    if ["eval", "check", "operators", "help"].contains command then .error .help else .error .usage
  | _, _ => .error .usage

/-- What arguments ask for, if they can be understood. -/
def ofArguments? (arguments : List String) : Option Invocation :=
  match arguments with
  | [] => none
  | command :: rest =>
    if asksHelp command then some help
    else if asksVersion command then some version
    else
      match ofCommand command rest with
      | .ok i => some i
      | .error .help => some help
      | .error .usage => none

def readsInput : Invocation → Bool
  | eval _ none _ | check _ none _ _ => true
  | _ => false

end Invocation

/-- How a run of the program ends. -/
inductive Ending where
  | success (output : String)
  | failure (e : CheckError)
  /-- The arguments cannot be understood. -/
  | usage

namespace CommandLine

def usageText : String :=
  "Usage: sage eval EXPRESSION [-i JSON] [-p]\n"
    ++ "       sage check EXPRESSION [-i JSON] [-p] [--syntax-only]\n"
    ++ "       sage operators\n"

def versionText : String := "sage 0.1.0\n"

/-- A check, its result being printed. -/
def runCheck (expression input : String) (pretty syntaxOnly : Bool) : Ending :=
  match (check .standard expression (some input) syntaxOnly).2 with
  | .ok .syntaxValid => .success "Syntax is valid\n"
  | .ok (.output json) => .success ((if pretty then json.pretty 0 else json.compact) ++ "\n")
  | .error e => .failure e

/-- Do what is asked for, with the text of the standard input. -/
def perform (stdin : String) : Invocation → Ending
  | .eval expression input pretty => runCheck expression (input.getD stdin) pretty false
  | .check expression input pretty syntaxOnly =>
    runCheck expression (input.getD stdin) pretty syntaxOnly
  | .operators => .success Grammar.standard.describe
  | .help => .success usageText
  | .version => .success versionText

/-- A run of the program. -/
def run (arguments : List String) (stdin : String) : Ending :=
  match Invocation.ofArguments? arguments with
  | some i => perform stdin i
  | none => .usage

end CommandLine

end Sift
