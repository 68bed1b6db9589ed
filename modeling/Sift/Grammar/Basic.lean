import Sift.Evaluation.Strategy
import Sift.Expr.Basic
import Sift.Grammar.Symbols

/-!
# Grammars

A grammar names the operators, functions and transforms of the language. The lexer asks it for
operator symbols, the parser for precedences, and the evaluator for what a name stands for. Names
are unique in each of the four tables, and an edit of a name replaces what it stood for.
-/

namespace Sift

/-- What a binary operator does with its operands. -/
inductive BinaryRule where
  /-- Both are evaluated, the left one first. -/
  | eager (apply : Value → Value → Reply)
  /-- They are evaluated as the operator asks for it. -/
  | lazy (plan : Expr → Expr → Strategy)

/-- A binary operator. Those of higher precedence bind tighter. -/
structure BinaryOperator where
  precedence : Int32
  rule : BinaryRule

/-- Whether the operator takes its operands unevaluated. -/
def BinaryOperator.isLazy (op : BinaryOperator) : Bool :=
  match op.rule with
  | .eager _ => false
  | .lazy _ => true

/-- What a unary operator does with its operand. -/
abbrev UnaryRule := Value → Reply

/-- What a function does with its arguments. -/
abbrev FunctionRule := List Value → Reply

/-- What a transform does with its subject and its arguments. -/
abbrev TransformRule := Value → List Value → Reply

/-- The operators, functions and transforms of a language. -/
structure Grammar where
  binary : Dict BinaryOperator
  unary : Dict UnaryRule
  functions : Dict FunctionRule
  transforms : Dict TransformRule
  /-- The operators prepared for the lexer. -/
  table : SymbolTable
  table_symbols : table.symbols = symbolsInOrder (binary.keys ++ unary.keys)

/-- A change of a grammar. -/
inductive Edit where
  | binary (symbol : String) (op : BinaryOperator)
  | unary (symbol : String) (rule : UnaryRule)
  | function (name : String) (rule : FunctionRule)
  | transform (name : String) (rule : TransformRule)
  | functions (entries : List (String × FunctionRule))
  | transforms (entries : List (String × TransformRule))
  /-- Forget an operator, in both of its roles. -/
  | removeOperator (symbol : String)

namespace Grammar

def empty : Grammar := ⟨.empty, .empty, .empty, .empty, .empty, rfl⟩

instance : Inhabited Grammar := ⟨empty⟩

/-- The grammar with other operators, for which the table is made anew. -/
def withOperators (build : MatcherBuilder) (g : Grammar) (binary : Dict BinaryOperator)
    (unary : Dict UnaryRule) : Grammar where
  binary := binary
  unary := unary
  functions := g.functions
  transforms := g.transforms
  table := .ofOperators build (binary.keys ++ unary.keys)
  table_symbols := rfl

/-- The grammar after a change, given a way to make matchers. -/
def editWith (build : MatcherBuilder) (g : Grammar) : Edit → Grammar
  | .binary symbol op => g.withOperators build (g.binary.insert symbol op) g.unary
  | .unary symbol rule => g.withOperators build g.binary (g.unary.insert symbol rule)
  | .function name rule => { g with functions := g.functions.insert name rule }
  | .transform name rule => { g with transforms := g.transforms.insert name rule }
  | .functions entries => { g with functions := g.functions.insertAll entries }
  | .transforms entries => { g with transforms := g.transforms.insertAll entries }
  | .removeOperator symbol =>
    g.withOperators build (g.binary.erase symbol) (g.unary.erase symbol)

def editAllWith (build : MatcherBuilder) (g : Grammar) (edits : List Edit) : Grammar :=
  edits.foldl (editWith build) g

/-- The grammar after a change. -/
def edit (g : Grammar) (e : Edit) : Grammar := g.editWith .oneByOne e

def editAll (g : Grammar) (edits : List Edit) : Grammar := g.editAllWith .oneByOne edits

theorem binary_editWith (build : MatcherBuilder) (g : Grammar) (e : Edit) :
    (g.editWith build e).binary = match e with
      | .binary symbol op => g.binary.insert symbol op
      | .removeOperator symbol => g.binary.erase symbol
      | _ => g.binary := by
  cases e <;> rfl

theorem unary_editWith (build : MatcherBuilder) (g : Grammar) (e : Edit) :
    (g.editWith build e).unary = match e with
      | .unary symbol rule => g.unary.insert symbol rule
      | .removeOperator symbol => g.unary.erase symbol
      | _ => g.unary := by
  cases e <;> rfl

/-! ### Operator symbols -/

/-- Whether a text is a symbol of the grammar, in either role. -/
def isOperator (g : Grammar) (symbol : String) : Bool :=
  g.binary.contains symbol || g.unary.contains symbol

/-- The symbols of the grammar, those of both roles twice. -/
def symbols (g : Grammar) : List String := g.binary.keys ++ g.unary.keys

/-- The longest symbol at the beginning of a text, of those that are not spelled as words. -/
def matchSymbol (g : Grammar) (cs : List Char) : Option String := g.table.find? cs

/-- The table has exactly the symbols of the grammar that are not words. -/
theorem mem_table_symbols {g : Grammar} {s : String} :
    s ∈ g.table.symbols ↔ s ∈ g.symbols ∧ isSymbolic s := by
  rw [g.table_symbols, mem_symbolsInOrder, symbols]

/-- What is found at the beginning of a text is a symbol there that is no word. -/
theorem of_matchSymbol {g : Grammar} {cs : List Char} {s : String}
    (h : g.matchSymbol cs = some s) :
    s ∈ g.symbols ∧ s.toList <+: cs ∧ isSymbolic s := by
  rw [matchSymbol, SymbolTable.find?_eq] at h
  obtain ⟨listed, stands⟩ := mem_of_firstPrefix? h
  obtain ⟨registered, symbolic⟩ := mem_table_symbols.1 listed
  exact ⟨registered, stands, symbolic⟩

/-! ### Listings -/

/-- The binary operators by descending precedence, those of equal precedence by their symbols. -/
def binaryOperators (g : Grammar) : List (String × BinaryOperator) :=
  g.binary.entries.mergeSort fun a b => b.2.precedence ≤ a.2.precedence

def unarySymbols (g : Grammar) : List String := g.unary.keys

def functionNames (g : Grammar) : List String := g.functions.keys

def transformNames (g : Grammar) : List String := g.transforms.keys

end Grammar

end Sift
