import Sift.Engine.Store
import Sift.Grammar.Listing
import Sift.Grammar.Standard

/-!
# Sessions

A session gives names to engines, saved grammars, expressions and tasks, and carries out one command
after the other. A command answers, and leaves behind the notes of the callables that it called.
-/

namespace Sift

/-- Where the grammar of a new engine comes from. -/
inductive Origin where
  | standard
  | empty
  /-- The grammar at hand, copied. -/
  | copy
  /-- The cell at hand, shared. -/
  | clone
deriving DecidableEq, Inhabited

/-- A step inside a change of a grammar: an edit, or an evaluation, which still sees the grammar
from before the change. -/
inductive Change where
  | edit (e : Edit)
  | eval (source : String)

/-- What a session can be told to do. -/
inductive Command where
  | engine (name : String) (origin : Origin)
  | configure (changes : List Change)
  | snapshot (name : String)
  | list
  | describe
  | inspect
  | matchSymbol (source : String)
  | isOperator (source : String)
  | lookup (name : String)
  /-- Name an expression, if it can be read. -/
  | compile (id : String) (fragments : List Fragment)
  /-- Name an expression that is read at its first use. -/
  | create (id : String) (source : String)
  | source (id : String)
  | tree (id : String)
  | run (id : String)
  | eval (source : String)
  | startSource (task : String) (source : String)
  | startExpression (task : String) (id : String)
  | poll (task : String)
  | call (name : String) (arguments : List Value)
  | apply (name : String) (subject : Value) (arguments : List Value)

/-- A command and what it is about: an engine, perhaps a saved grammar in place of its current one,
and a context. -/
structure Instruction where
  command : Command
  engine : String
  snapshot : Option String
  context : Value

/-- What a grammar holds under a name. -/
structure Findings where
  binary : Option BinaryOperator
  unary : Bool
  function : Bool
  transform : Bool

/-- The answer to a command. -/
inductive Answer where
  | done
  | pending
  /-- An unknown expression, task, function or transform. -/
  | missing
  | value (v : Value)
  | tree (e : Expr)
  | text (s : String)
  | noText
  | flag (b : Bool)
  | grammar (g : Grammar)
  | findings (f : Findings)
  | outcomes (results : List (Except Error Value))
  | failure (e : Error)

def Answer.ofResult : Except Error Value → Answer
  | .ok v => value v
  | .error e => failure e

/-- Names for the parts of a store. -/
structure Session where
  store : Store
  engines : Dict Nat
  snapshots : Dict Grammar
  expressions : Dict Nat
  tasks : Dict Task

namespace Session

/-- The name of the engine that a session starts with. -/
def firstEngine : String := ""

/-- A session with one engine. -/
def start (g : Grammar) : Session :=
  let (cell, store) := Store.empty.newCell g
  { store
    engines := Dict.empty.insert firstEngine cell
    snapshots := .empty
    expressions := .empty
    tasks := .empty }

def cell? (s : Session) (engine : String) : Option Nat := s.engines.get? engine

/-- The changes of a grammar, of which the evaluations all see the grammar from before. Also the
calls made. -/
def configure (s : Session) (cell : Nat) (context : Value) (changes : List Change) :
    List Call × List (Except Error Value) × Session :=
  let results := changes.filterMap fun
    | .edit _ => none
    | .eval source => some (s.store.evaluate (.source cell source) context)
  let edits := changes.filterMap fun
    | .edit e => some e
    | .eval _ => none
  let store := s.store.configure cell fun g => g.editAll edits
  (results.flatMap (·.1), results.map (·.2.1), { s with store })

/-- Carry out an instruction that knows its cell and its grammar. -/
def perform (s : Session) (cell : Nat) (g : Grammar) (context : Value) :
    Command → List String × Answer × Session
  | .engine name origin =>
    let (cell, store) := match origin with
      | .standard => s.store.newCell .standard
      | .empty => s.store.newCell .empty
      | .copy => s.store.newCell g
      | .clone => (cell, s.store)
    ([], .done, { s with store, engines := s.engines.insert name cell })
  | .configure changes =>
    let (made, results, s) := s.configure cell context changes
    (notesOf made, .outcomes results, s)
  | .snapshot name =>
    ([], .done, { s with snapshots := s.snapshots.insert name (s.store.grammar cell) })
  | .list => ([], .grammar g, s)
  | .describe => ([], .text g.describe, s)
  | .inspect => ([], .text g.inspect, s)
  | .matchSymbol source => ([], (g.matchSymbol source.toList).elim .noText .text, s)
  | .isOperator source => ([], .flag (g.isOperator source), s)
  | .lookup name =>
    let current := s.store.grammar cell
    ([], .findings
      { binary := g.binary.get? name
        unary := g.unary.contains name
        function := current.functions.contains name
        transform := current.transforms.contains name }, s)
  | .compile id fragments =>
    match Template.compile (s.store.grammar cell) fragments with
    | .ok tree =>
      let (n, store) := s.store.newExpression { fragments, cell, tree := some tree }
      ([], .tree tree, { s with store, expressions := s.expressions.insert id n })
    | .error e => ([], .failure e, s)
  | .create id source =>
    let (n, store) := s.store.newExpression { fragments := [.source source], cell }
    ([], .done, { s with store, expressions := s.expressions.insert id n })
  | .source id =>
    match s.expressions.get? id with
    | some n => ([], .text (s.store.expression n).source, s)
    | none => ([], .missing, s)
  | .tree id =>
    match s.expressions.get? id with
    | some n =>
      let (tree, store) := s.store.compile n
      match tree with
      | .ok tree => ([], .tree tree, { s with store })
      | .error e => ([], .failure e, { s with store })
    | none => ([], .missing, s)
  | .run id =>
    match s.expressions.get? id with
    | some n =>
      let (made, result, store) := s.store.evaluate (.expression n) context
      (notesOf made, .ofResult result, { s with store })
    | none => ([], .missing, s)
  | .eval source =>
    let (made, result, store) := s.store.evaluate (.source cell source) context
    (notesOf made, .ofResult result, { s with store })
  | .startSource task source =>
    ([], .done, { s with tasks := s.tasks.insert task (.waiting (.source cell source) context) })
  | .startExpression task id =>
    match s.expressions.get? id with
    | some n =>
      ([], .done, { s with tasks := s.tasks.insert task (.waiting (.expression n) context) })
    | none => ([], .missing, s)
  | .poll name =>
    match s.tasks.get? name with
    | some task =>
      let (made, progress, store) := s.store.poll task
      match progress with
      | .pending task =>
        (notesOf made, .pending, { s with store, tasks := s.tasks.insert name task })
      | .finished result =>
        (notesOf made, .ofResult result, { s with store, tasks := s.tasks.erase name })
    | none => ([], .missing, s)
  | .call name arguments =>
    match (s.store.grammar cell).functions.get? name with
    | some rule =>
      let reply := rule arguments
      (reply.notes, .text reply.deferred.inspect, s)
    | none => ([], .missing, s)
  | .apply name subject arguments =>
    match (s.store.grammar cell).transforms.get? name with
    | some rule =>
      let reply := rule subject arguments
      (reply.notes, .text reply.deferred.inspect, s)
    | none => ([], .missing, s)

/-- Carry out an instruction. Also the notes made. -/
def step (s : Session) (i : Instruction) : List String × Answer × Session :=
  match s.cell? i.engine with
  | none => ([], .missing, s)
  | some cell =>
    let grammar? := match i.snapshot with
      | some name => s.snapshots.get? name
      | none => some (s.store.grammar cell)
    match grammar? with
    | some g => s.perform cell g i.context i.command
    | none => ([], .missing, s)

/-- Carry out instructions one after the other. Also the notes and the answer of each. -/
def run (s : Session) : List Instruction → List (List String × Answer) × Session
  | [] => ([], s)
  | i :: rest =>
    let (notes, answer, s) := s.step i
    let (answers, s) := s.run rest
    ((notes, answer) :: answers, s)

end Session

end Sift
