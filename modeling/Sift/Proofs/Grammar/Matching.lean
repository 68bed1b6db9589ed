import Mathlib.Tactic.Lemma
import Sift.Grammar.Standard

/-!
# The longest symbol

The table of a grammar holds its symbols in an order in which the first one that stands at the
beginning of a text is also the longest one there. So what is found depends on the operators that
are registered, and neither on the edits that registered them nor on the matchers that were made
(`Grammar.matchSymbol_editAllWith`).
-/

namespace Sift

/-! ### Texts at the beginning of one text -/

/-- Of two texts at the beginning of a third one, the one with more bytes has more characters. -/
lemma length_le_of_utf8ByteSize_le {s t : String} {cs : List Char} (hs : s.toList <+: cs)
    (ht : t.toList <+: cs) (h : t.utf8ByteSize ≤ s.utf8ByteSize) : t.length ≤ s.length := by
  rcases List.prefix_or_prefix_of_prefix ht hs with shorter | ⟨rest, longer⟩
  · rw [← String.length_toList, ← String.length_toList]
    exact shorter.length_le
  · have split : t = s ++ String.ofList rest := by
      rw [← String.toList_inj, String.toList_append, String.toList_ofList, longer]
    have empty : (String.ofList rest).utf8ByteSize = 0 := by
      rw [split, String.utf8ByteSize_append] at h
      omega
    have same : t = s := by
      rw [split, String.utf8ByteSize_eq_zero_iff.1 empty, String.append_empty]
    exact Nat.le_of_eq (congrArg String.length same)

/-- Texts of one length at the beginning of a third one are equal. -/
lemma eq_of_length_le {s t : String} {cs : List Char} (hs : s.toList <+: cs) (ht : t.toList <+: cs)
    (hst : s.length ≤ t.length) (hts : t.length ≤ s.length) : s = t := by
  have same : s.toList.length = t.toList.length := by
    rw [String.length_toList, String.length_toList]
    omega
  rcases List.prefix_or_prefix_of_prefix hs ht with h | h
  · exact String.toList_inj.1 (h.eq_of_length same)
  · exact (String.toList_inj.1 (h.eq_of_length same.symm)).symm

/-! ### The order of symbols -/

/-- Symbols with more bytes come first. -/
def LongestFirst (symbols : List String) : Prop :=
  symbols.Pairwise fun s t => t.utf8ByteSize ≤ s.utf8ByteSize

lemma utf8ByteSize_le_of_triedBefore {s t : String} (h : triedBefore s t = true) :
    t.utf8ByteSize ≤ s.utf8ByteSize := by
  simp only [triedBefore, Bool.or_eq_true, Bool.and_eq_true, decide_eq_true_eq] at h
  omega

lemma utf8ByteSize_le_of_not_triedBefore {s t : String} (h : ¬ triedBefore s t = true) :
    s.utf8ByteSize ≤ t.utf8ByteSize := by
  simp only [triedBefore, Bool.or_eq_true, Bool.and_eq_true, decide_eq_true_eq, not_or] at h
  omega

/-- Longer symbols stay in front when one is put in its place. -/
lemma LongestFirst.insertSymbol {symbols : List String} (h : LongestFirst symbols) (s : String) :
    LongestFirst (insertSymbol s symbols) := by
  induction symbols with
  | nil => exact List.pairwise_singleton _ _
  | cons t rest ih =>
    obtain ⟨ht, hrest⟩ := List.pairwise_cons.1 h
    rw [Sift.insertSymbol]
    split
    · exact h
    · split
      · rename_i before
        have hst := utf8ByteSize_le_of_triedBefore before
        refine List.pairwise_cons.2 ⟨fun u hu => ?_, h⟩
        rcases List.mem_cons.1 hu with rfl | hu
        · exact hst
        · exact Nat.le_trans (ht u hu) hst
      · rename_i after
        refine List.pairwise_cons.2 ⟨fun u hu => ?_, ih hrest⟩
        rcases mem_insertSymbol.1 hu with rfl | hu
        · exact utf8ByteSize_le_of_not_triedBefore after
        · exact ht u hu

/-- Longer symbols are tried first. -/
lemma longestFirst_symbolsInOrder (operators : List String) :
    LongestFirst (symbolsInOrder operators) := by
  rw [symbolsInOrder]
  induction operators.filter isSymbolic with
  | nil => exact List.Pairwise.nil
  | cons s rest ih => exact ih.insertSymbol s

/-- Where longer texts come first, the first one that stands somewhere is a longest one there. -/
lemma LongestFirst.length_le {symbols : List String} (h : LongestFirst symbols) {cs : List Char}
    {s t : String} (found : firstPrefix? symbols cs = some s) (ht : t ∈ symbols)
    (stands : t.toList <+: cs) : t.length ≤ s.length := by
  have hs := (mem_of_firstPrefix? found).2
  rw [firstPrefix?, List.find?_eq_some_iff_append] at found
  obtain ⟨-, before, after, rfl, fails⟩ := found
  -- What was tried before does not stand there, and what comes later has no more bytes.
  rcases List.mem_append.1 ht with earlier | later
  · have := fails t earlier
    rw [List.isPrefixOf_iff_prefix.2 stands] at this
    cases this
  · rcases List.mem_cons.1 later with rfl | later
    · exact Nat.le_refl _
    · have ordered := (List.pairwise_cons.1 (List.pairwise_append.1 h).2.1).1 t later
      exact length_le_of_utf8ByteSize_le hs stands ordered

namespace Grammar

/-! ### The operators of an edited grammar -/

/-- An operator, in either role, that stands at the beginning of a text and is not spelled entirely
with identifier characters. -/
structure Stands (g : Grammar) (cs : List Char) (s : String) : Prop where
  registered : g.isOperator s
  nonempty : s ≠ ""
  notWord : isWord s = false
  begins : s.toList <+: cs

lemma isOperator_iff {g : Grammar} {s : String} : g.isOperator s ↔ s ∈ g.symbols := by
  rw [isOperator, Bool.or_eq_true, symbols, List.mem_append]
  exact or_congr Dict.contains_iff Dict.contains_iff

/-- A symbol stands at the beginning of a text if it is in the table and begins the text. -/
lemma stands_iff {g : Grammar} {cs : List Char} {s : String} :
    g.Stands cs s ↔ s ∈ g.table.symbols ∧ s.toList <+: cs := by
  rw [mem_table_symbols, isSymbolic_iff, ← isOperator_iff]
  constructor
  · rintro ⟨registered, nonempty, notWord, begins⟩
    exact ⟨⟨registered, nonempty, notWord⟩, begins⟩
  · rintro ⟨⟨registered, nonempty, notWord⟩, begins⟩
    exact ⟨registered, nonempty, notWord, begins⟩

lemma matchSymbol_eq_none_iff {g : Grammar} {cs : List Char} :
    g.matchSymbol cs = none ↔ ∀ s, ¬ g.Stands cs s := by
  rw [matchSymbol, SymbolTable.find?_eq, firstPrefix?, List.find?_eq_none]
  refine forall_congr' fun s => ?_
  rw [stands_iff, List.isPrefixOf_iff_prefix, not_and]

/-- The symbol found is the longest one that stands at the beginning. -/
lemma matchSymbol_eq_some_iff {g : Grammar} {cs : List Char} {s : String} :
    g.matchSymbol cs = some s ↔ g.Stands cs s ∧ ∀ t, g.Stands cs t → t.length ≤ s.length := by
  have longest : ∀ {s}, g.matchSymbol cs = some s →
      g.Stands cs s ∧ ∀ t, g.Stands cs t → t.length ≤ s.length := by
    intro s found
    rw [matchSymbol, SymbolTable.find?_eq] at found
    refine ⟨stands_iff.2 (mem_of_firstPrefix? found), fun t ht => ?_⟩
    obtain ⟨listed, begins⟩ := stands_iff.1 ht
    have ordered : LongestFirst g.table.symbols :=
      g.table_symbols ▸ longestFirst_symbolsInOrder _
    exact ordered.length_le found listed begins
  refine ⟨longest, ?_⟩
  rintro ⟨stands, le⟩
  cases found : g.matchSymbol cs with
  | none => exact absurd stands (matchSymbol_eq_none_iff.1 found s)
  | some t =>
    obtain ⟨ht, least⟩ := longest found
    exact congrArg some (eq_of_length_le ht.begins stands.begins (le t ht) (least s stands))

/-- What is found depends on the operators only. -/
lemma matchSymbol_congr {g g' : Grammar} (binary : g.binary = g'.binary)
    (unary : g.unary = g'.unary) (cs : List Char) : g.matchSymbol cs = g'.matchSymbol cs := by
  rw [matchSymbol, matchSymbol, SymbolTable.find?_eq, SymbolTable.find?_eq, g.table_symbols,
    g'.table_symbols, binary, unary]

/-- The operators after some edits do not depend on the matchers that are made on the way. -/
lemma operators_editAllWith (build build' : MatcherBuilder) (edits : List Edit) :
    ∀ {g g' : Grammar}, g.binary = g'.binary → g.unary = g'.unary →
      (g.editAllWith build edits).binary = (g'.editAllWith build' edits).binary ∧
        (g.editAllWith build edits).unary = (g'.editAllWith build' edits).unary := by
  induction edits with
  | nil => exact fun binary unary => ⟨binary, unary⟩
  | cons e rest ih =>
    intro g g' binary unary
    refine ih ?_ ?_
    · rw [binary_editWith, binary_editWith, binary]
    · rw [unary_editWith, unary_editWith, unary]

/-- After any edits of any grammar, as of the empty or the standard one, and whatever matchers can
be made, the operator found at the beginning of a text is the longest one there that is not spelled
as a word, and there is none where none stands. It is the one that is found without matchers. -/
theorem matchSymbol_editAllWith (build : MatcherBuilder) (start : Grammar) (edits : List Edit)
    (cs : List Char) :
    let g := start.editAllWith build edits
    (∀ s, g.matchSymbol cs = some s ↔
        g.Stands cs s ∧ ∀ t, g.Stands cs t → t.length ≤ s.length) ∧
      (g.matchSymbol cs = none ↔ ∀ s, ¬ g.Stands cs s) ∧
      g.matchSymbol cs = (start.editAllWith (fun _ => none) edits).matchSymbol cs := by
  intro g
  obtain ⟨binary, unary⟩ := operators_editAllWith build (fun _ => none) edits (g := start) rfl rfl
  exact ⟨fun s => matchSymbol_eq_some_iff, matchSymbol_eq_none_iff,
    matchSymbol_congr binary unary cs⟩

end Grammar

end Sift
