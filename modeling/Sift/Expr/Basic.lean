import Sift.Value.Basic

/-!
# Expressions

Trees that only carry data: operators, functions and transforms are named, and looked up when a tree
is evaluated. A relative identifier reads from the element that a filter is looking at.
-/

namespace Sift

/-- An expression. -/
inductive Expr where
  /-- A value written out or spliced in. -/
  | literal (value : Value)
  /-- A property of the context. -/
  | identifier (name : String)
  /-- A property of the element under the filter. -/
  | relative (name : String)
  /-- A property of an object, marked if the path starts at a relative identifier. -/
  | member (object : Expr) (property : String) (relative : Bool)
  /-- The elements of the subject that satisfy the predicate, if the predicate is marked as reading
  them; else the element under the value of the predicate. -/
  | filter (subject predicate : Expr) (relative : Bool)
  | array (items : List Expr)
  /-- Entries in source order. -/
  | object (entries : List (String × Expr))
  | unary (symbol : String) (operand : Expr)
  | binary (symbol : String) (left right : Expr)
  | conditional (test consequent alternate : Expr)
  /-- The test itself where it is truthy, else the alternate. -/
  | fallback (test alternate : Expr)
  | call (name : String) (arguments : List Expr)
  | transform (name : String) (subject : Expr) (arguments : List Expr)

namespace Expr

instance : Inhabited Expr := ⟨literal .null⟩

/-- Whether the expression is a relative identifier or a path that is marked as starting at one. -/
def isRelativePath : Expr → Bool
  | relative _ => true
  | member _ _ marked => marked
  | _ => false

mutual
/-- The first relative identifier, in source order, that reads the element under the filter around
the expression. Those inside a predicate read the elements of their own filter. -/
def freeRelative? : Expr → Option String
  | literal _ | identifier _ => none
  | relative name => some name
  | member owner _ _ => owner.freeRelative?
  | filter subject _ _ => subject.freeRelative?
  | array items => freeRelativeAny? items
  | object entries => freeRelativeEntries? entries
  | unary _ operand => operand.freeRelative?
  | binary _ left right => left.freeRelative?.or right.freeRelative?
  | conditional test consequent alternate =>
    (test.freeRelative?.or consequent.freeRelative?).or alternate.freeRelative?
  | fallback test alternate => test.freeRelative?.or alternate.freeRelative?
  | call _ arguments => freeRelativeAny? arguments
  | transform _ subject arguments => subject.freeRelative?.or (freeRelativeAny? arguments)

def freeRelativeAny? : List Expr → Option String
  | [] => none
  | e :: rest => e.freeRelative?.or (freeRelativeAny? rest)

def freeRelativeEntries? : List (String × Expr) → Option String
  | [] => none
  | (_, e) :: rest => e.freeRelative?.or (freeRelativeEntries? rest)
end

/-- Whether the expression reads the element under the filter around it. -/
def referencesRelative (e : Expr) : Bool := e.freeRelative?.isSome

end Expr

end Sift
