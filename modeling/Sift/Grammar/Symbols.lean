import Sift.Text.CharClass

/-!
# Tables of operator symbols

A symbol that is not spelled as a word is found wherever it stands at the beginning of a text. A
table keeps these symbols in the order in which they are tried, longer ones first, with a matcher
for them if one could be made. Its answer does not depend on the matcher (`SymbolTable.find?_eq`).
-/

namespace Sift

/-! ### Matchers -/

/-- The first of some texts that stands at the beginning of another one. -/
def firstPrefix? (texts : List String) (cs : List Char) : Option String :=
  texts.find? fun s => s.toList.isPrefixOf cs

/-- What is found is one of the texts, and stands at the beginning. -/
theorem mem_of_firstPrefix? {texts : List String} {cs : List Char} {s : String}
    (h : firstPrefix? texts cs = some s) : s ∈ texts ∧ s.toList <+: cs := by
  unfold firstPrefix? at h
  have stands := List.find?_some h
  exact ⟨List.mem_of_find?_eq_some h, List.isPrefixOf_iff_prefix.1 stands⟩

/-- A prepared search for one of some alternatives at the beginning of a text. Where several of them
stand there, the first one is found. -/
structure Matcher (alternatives : List String) where
  find? : List Char → Option String
  find?_eq : ∀ cs, find? cs = firstPrefix? alternatives cs

/-- A way to prepare searches. It may give up, as where there are too many alternatives. -/
abbrev MatcherBuilder := (alternatives : List String) → Option (Matcher alternatives)

/-- Try the alternatives one by one. -/
def MatcherBuilder.oneByOne : MatcherBuilder :=
  fun alternatives => some ⟨firstPrefix? alternatives, fun _ => rfl⟩

/-! ### The order of symbols -/

/-- Whether a symbol is tried before another one: longer symbols come first, and those of equal
length ascend. -/
def triedBefore (s t : String) : Bool :=
  t.utf8ByteSize < s.utf8ByteSize || (s.utf8ByteSize = t.utf8ByteSize && s < t)

/-- Put a symbol in its place, unless it is there already. -/
def insertSymbol (s : String) : List String → List String
  | [] => [s]
  | t :: rest =>
    if s = t then t :: rest
    else if triedBefore s t then s :: t :: rest
    else t :: insertSymbol s rest

/-- Whether an operator is found by its symbol wherever it stands, and not as a word. -/
def isSymbolic (s : String) : Bool := !s.isEmpty && !isWord s

/-- The operators that are found by their symbols, each once, in the order in which they are
tried. -/
def symbolsInOrder (operators : List String) : List String :=
  (operators.filter isSymbolic).foldr insertSymbol []

@[simp] theorem mem_insertSymbol {s t : String} {symbols : List String} :
    t ∈ insertSymbol s symbols ↔ t = s ∨ t ∈ symbols := by
  induction symbols with
  | nil => simp [insertSymbol]
  | cons u rest ih =>
    simp only [insertSymbol]
    split
    · simp_all
    · split
      · simp
      · simp only [List.mem_cons, ih]
        grind

theorem isSymbolic_iff {s : String} : isSymbolic s ↔ s ≠ "" ∧ isWord s = false := by
  simp [isSymbolic]

/-- No symbolic operator is lost when the operators are put in order, and none is added. -/
@[simp] theorem mem_symbolsInOrder {operators : List String} {s : String} :
    s ∈ symbolsInOrder operators ↔ s ∈ operators ∧ isSymbolic s := by
  rw [← List.mem_filter, symbolsInOrder]
  induction operators.filter isSymbolic with
  | nil => simp
  | cons t rest ih => rw [List.foldr_cons, mem_insertSymbol, ih, List.mem_cons]

/-! ### Tables -/

/-- Symbols in the order in which they are tried, and a matcher for them if there is one. -/
structure SymbolTable where
  symbols : List String
  matcher : Option (Matcher symbols)

namespace SymbolTable

def empty : SymbolTable := ⟨[], none⟩

/-- The table of some operators. -/
def ofOperators (build : MatcherBuilder) (operators : List String) : SymbolTable where
  symbols := symbolsInOrder operators
  matcher := if (symbolsInOrder operators).isEmpty then none else build (symbolsInOrder operators)

/-- The symbol at the beginning of a text, by the matcher, or else by trying the symbols. -/
def find? (table : SymbolTable) (cs : List Char) : Option String :=
  match table.matcher with
  | some matcher => matcher.find? cs
  | none => firstPrefix? table.symbols cs

/-- The matcher is only faster than trying the symbols: it finds the same one. -/
theorem find?_eq (table : SymbolTable) (cs : List Char) :
    table.find? cs = firstPrefix? table.symbols cs := by
  unfold find?
  split
  · rename_i matcher _
    exact matcher.find?_eq cs
  · rfl

end SymbolTable

end Sift
