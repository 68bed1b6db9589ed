import Sift.Evaluation.Evaluator
import Sift.Template

/-!
# Engines and their expressions

An engine is a cell that holds the current grammar. Engines may share a cell, and an expression
belongs to the cell of the engine that made it. An expression is read once, at its first use, and
its tree is kept; every evaluation takes the grammar that is current when it begins and keeps it to
its end.

An evaluation that is to be waited for is a task. Nothing happens before its first poll, which is
when it begins.
-/

namespace Sift

/-- An expression of a cell. -/
structure Expression where
  fragments : List Fragment
  cell : Nat
  /-- The tree, once the expression has been read. -/
  tree : Option Expr := none

def Expression.source (e : Expression) : String := String.join (e.fragments.map Fragment.text)

/-- The grammars of all cells, and all expressions. -/
structure Store where
  cells : List Grammar
  expressions : List Expression

/-- What is to be evaluated: a text, read with the grammar of a cell, or an expression. -/
inductive Request where
  | source (cell : Nat) (text : String)
  | expression (id : Nat)

/-- An evaluation to be waited for. -/
inductive Task where
  | waiting (request : Request) (context : Value)
  | running (rest : Process Value)

/-- What a poll of a task finds. -/
inductive Progress where
  | pending (task : Task)
  | finished (result : Except Error Value)

namespace Store

def empty : Store := ⟨[], []⟩

instance : Inhabited Store := ⟨empty⟩

/-! ### Cells -/

/-- The current grammar of a cell. -/
def grammar (s : Store) (cell : Nat) : Grammar := s.cells.getD cell .empty

def newCell (s : Store) (g : Grammar) : Nat × Store :=
  (s.cells.length, { s with cells := s.cells ++ [g] })

def configure (s : Store) (cell : Nat) (change : Grammar → Grammar) : Store :=
  { s with cells := s.cells.modify cell change }

/-! ### Expressions -/

def expression (s : Store) (id : Nat) : Expression := s.expressions.getD id ⟨[], 0, none⟩

def newExpression (s : Store) (e : Expression) : Nat × Store :=
  (s.expressions.length, { s with expressions := s.expressions ++ [e] })

/-- The tree of an expression, which is kept from the first time on that reading succeeds. -/
def compile (s : Store) (id : Nat) : Except Error Expr × Store :=
  let e := s.expression id
  match e.tree with
  | some tree => (.ok tree, s)
  | none =>
    match Template.compile (s.grammar e.cell) e.fragments with
    | .ok tree =>
      (.ok tree, { s with expressions := s.expressions.set id { e with tree := some tree } })
    | .error error => (.error error, s)

/-! ### Evaluations -/

/-- Begin an evaluation, with the grammar that is current. -/
def begin (s : Store) (request : Request) (context : Value) :
    Except Error (Process Value) × Store :=
  match request with
  | .source cell text =>
    ((Template.compile (s.grammar cell) [.source text]).map fun tree =>
      tree.evaluate (s.grammar cell) context, s)
  | .expression id =>
    let (tree, s) := s.compile id
    (tree.map fun tree => tree.evaluate (s.grammar (s.expression id).cell) context, s)

/-- Evaluate without waiting. Also the calls made. -/
def evaluate (s : Store) (request : Request) (context : Value) :
    List Call × Except Error Value × Store :=
  match s.begin request context with
  | (.ok p, s) =>
    let (made, result) := p.now
    (made, result.mapError .eval, s)
  | (.error e, s) => ([], .error e, s)

def pollProcess (p : Process Value) : List Call × Progress :=
  match p.poll with
  | (made, .pending rest) => (made, .pending (.running rest))
  | (made, .ready result) => (made, .finished (result.mapError .eval))

/-- Poll a task, which begins at the first poll. Also the calls made. -/
def poll (s : Store) : Task → List Call × Progress × Store
  | .waiting request context =>
    match s.begin request context with
    | (.ok p, s) =>
      let (made, progress) := pollProcess p
      (made, progress, s)
    | (.error e, s) => ([], .finished (.error e), s)
  | .running rest =>
    let (made, progress) := pollProcess rest
    (made, progress, s)

end Store

end Sift
