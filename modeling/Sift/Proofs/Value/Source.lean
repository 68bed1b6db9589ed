import Sift.Grammar.Standard
import Sift.Proofs.Token.Adjoining

/-!
# Values as expressions

Values without floats can be written out as expressions: `Value.source` puts texts between double
quotes, items between brackets and entries between braces, with no blanks anywhere. Such a text is
read as the tokens that `Value.kinds` lists (`Value.spellsOperand_source`). The entries of an object
may be listed in any order (`Value.Rearranges`).
-/

namespace Sift

open Token (Kind)

/-! ### Values and their texts -/

namespace Value

mutual
/-- The value as it is written in an expression, with the entries of objects as they are listed. -/
def source : Value → String
  | string s => Quote.double.quote s
  | array items => "[" ++ ",".intercalate (sourceAll items) ++ "]"
  | object entries => "\x7b" ++ ",".intercalate (sourceEntries entries) ++ "\x7d"
  | v => v.asString

def sourceAll : List Value → List String
  | [] => []
  | v :: rest => v.source :: sourceAll rest

def sourceEntries : List (String × Value) → List String
  | [] => []
  | (k, v) :: rest => (Quote.double.quote k ++ ":" ++ v.source) :: sourceEntries rest
end

mutual
/-- There is no float in the value, and not the least integer. -/
def Plain : Value → Prop
  | integer n => n ≠ Int64.minValue
  | float _ => False
  | array items => PlainAll items
  | object entries => PlainEntries entries
  | _ => True

def PlainAll : List Value → Prop
  | [] => True
  | v :: rest => v.Plain ∧ PlainAll rest

def PlainEntries : List (String × Value) → Prop
  | [] => True
  | (_, v) :: rest => v.Plain ∧ PlainEntries rest
end

mutual
/-- The number of arrays and objects around the innermost part of the value. -/
def depth : Value → Nat
  | array items => depthAll items
  | object entries => depthEntries entries
  | _ => 0

def depthAll : List Value → Nat
  | [] => 0
  | v :: rest => max (v.depth + 1) (depthAll rest)

def depthEntries : List (String × Value) → Nat
  | [] => 0
  | (_, v) :: rest => max (v.depth + 1) (depthEntries rest)
end

mutual
/-- The first value is the second one, with the entries of its objects in any order. -/
def Rearranges : Value → Value → Prop
  | array items, w => ∃ items', w = array items' ∧ RearrangesAll items items'
  | object entries, w => ∃ order entries', w = object entries' ∧ order.Perm entries' ∧
    RearrangesEntries entries order
  | v, w => v = w

def RearrangesAll : List Value → List Value → Prop
  | [], ws => ws = []
  | v :: rest, ws => ∃ w rest', ws = w :: rest' ∧ v.Rearranges w ∧ RearrangesAll rest rest'

def RearrangesEntries : List (String × Value) → List (String × Value) → Prop
  | [], fs => fs = []
  | (k, v) :: rest, fs => ∃ w rest', fs = (k, w) :: rest' ∧ v.Rearranges w ∧
    RearrangesEntries rest rest'
end

/-! ### Lists of values -/

lemma plainEntries_iff {es : List (String × Value)} : PlainEntries es ↔ ∀ e ∈ es, e.2.Plain := by
  induction es with
  | nil => simp [PlainEntries]
  | cons e rest ih => rw [PlainEntries, ih, List.forall_mem_cons]

lemma canonicalEntries_iff {es : List (String × Value)} :
    CanonicalEntries es ↔ ∀ e ∈ es, e.2.Canonical := by
  induction es with
  | nil => simp [CanonicalEntries]
  | cons e rest ih => rw [CanonicalEntries, ih, List.forall_mem_cons]

lemma depthEntries_le_iff {es : List (String × Value)} {d : Nat} :
    depthEntries es ≤ d ↔ ∀ e ∈ es, e.2.depth + 1 ≤ d := by
  induction es with
  | nil => simp [depthEntries]
  | cons e rest ih =>
    obtain ⟨k, v⟩ := e
    rw [depthEntries, Nat.max_le, ih, List.forall_mem_cons]

mutual
lemma Rearranges.refl : ∀ v : Value, v.Rearranges v
  | array items => ⟨items, rfl, RearrangesAll.refl items⟩
  | object entries => ⟨entries, entries, rfl, .refl entries, RearrangesEntries.refl entries⟩
  | null | boolean _ | integer _ | float _ | string _ => rfl

lemma RearrangesAll.refl : ∀ vs : List Value, RearrangesAll vs vs
  | [] => rfl
  | v :: vs => ⟨v, vs, rfl, .refl v, RearrangesAll.refl vs⟩

lemma RearrangesEntries.refl : ∀ es : List (String × Value), RearrangesEntries es es
  | [] => rfl
  | (_, v) :: es => ⟨v, es, rfl, .refl v, RearrangesEntries.refl es⟩
end

mutual
/-- A plain value is written as a plain one, and nested no deeper. -/
lemma Rearranges.bounds : ∀ {w v : Value}, w.Rearranges v →
    (v.Plain → w.Plain) ∧ ∀ d, v.depth ≤ d → w.depth ≤ d
  | array items, _, h => by
    obtain ⟨items', rfl, h⟩ := h
    exact RearrangesAll.bounds h
  | object entries, _, h => by
    obtain ⟨order, entries', rfl, perm, h⟩ := h
    obtain ⟨plain, shallow⟩ := RearrangesEntries.bounds h
    refine ⟨fun hv => plain (plainEntries_iff.2 fun e he => ?_),
      fun d hv => shallow d (depthEntries_le_iff.2 fun e he => ?_)⟩
    · exact plainEntries_iff.1 hv e (perm.mem_iff.1 he)
    · exact depthEntries_le_iff.1 hv e (perm.mem_iff.1 he)
  | null, _, h | boolean _, _, h | integer _, _, h | float _, _, h | string _, _, h => by
    obtain rfl := h
    exact ⟨id, fun _ => id⟩

lemma RearrangesAll.bounds : ∀ {ws vs : List Value}, RearrangesAll ws vs →
    (PlainAll vs → PlainAll ws) ∧ ∀ d, depthAll vs ≤ d → depthAll ws ≤ d
  | [], _, h => by
    obtain rfl := h
    exact ⟨id, fun _ => id⟩
  | w :: ws, _, h => by
    obtain ⟨v, vs, rfl, first, rest⟩ := h
    obtain ⟨plain, shallow⟩ := first.bounds
    obtain ⟨plainRest, shallowRest⟩ := RearrangesAll.bounds rest
    refine ⟨fun h => ⟨plain h.1, plainRest h.2⟩, fun d h => ?_⟩
    have := shallow v.depth (Nat.le_refl _)
    have := shallowRest (depthAll vs) (Nat.le_refl _)
    rw [depthAll] at h ⊢
    omega

lemma RearrangesEntries.bounds : ∀ {es fs : List (String × Value)}, RearrangesEntries es fs →
    (PlainEntries fs → PlainEntries es) ∧ ∀ d, depthEntries fs ≤ d → depthEntries es ≤ d
  | [], _, h => by
    obtain rfl := h
    exact ⟨id, fun _ => id⟩
  | (k, w) :: es, _, h => by
    obtain ⟨v, fs, rfl, first, rest⟩ := h
    obtain ⟨plain, shallow⟩ := first.bounds
    obtain ⟨plainRest, shallowRest⟩ := RearrangesEntries.bounds rest
    refine ⟨fun h => ⟨plain h.1, plainRest h.2⟩, fun d h => ?_⟩
    have := shallow v.depth (Nat.le_refl _)
    have := shallowRest (depthEntries fs) (Nat.le_refl _)
    rw [depthEntries] at h ⊢
    omega
end

/-! ### Tokens -/

mutual
/-- The kinds of the tokens of a value that is written out. -/
def kinds : Value → List Kind
  | integer n =>
    if n.toInt < 0 then [.operator .unary "-", .literal (.integer (-n))] else [.literal (integer n)]
  | array items =>
    .punctuation .openBracket :: (Parse.separated (kindsAll items) ++ [.punctuation .closeBracket])
  | object entries =>
    .punctuation .openBrace :: (Parse.separated (kindsEntries entries) ++
      [.punctuation .closeBrace])
  | v => [.literal v]

def kindsAll : List Value → List (List Kind)
  | [] => []
  | v :: rest => v.kinds :: kindsAll rest

def kindsEntries : List (String × Value) → List (List Kind)
  | [] => []
  | (k, v) :: rest =>
    (.literal (.string k) :: .punctuation .colon :: v.kinds) :: kindsEntries rest
end

end Value

namespace Grammar

/-- The first characters of the standard symbols. -/
def standardHeads : List Char := ['!', '%', '&', '*', '+', '-', '/', '<', '=', '>', '^', '|']

/-- The standard symbols begin with a few characters only. -/
lemma head_of_mem_standard :
    ∀ s ∈ standard.table.symbols, s.toList.head? ∈ standardHeads.map some := by
  decide +kernel

lemma eq_minus_of_mem_standard :
    ∀ s ∈ standard.table.symbols, s.toList.head? = some '-' → s = "-" := by
  decide +kernel

/-- A symbol that stands in front of a character begins with it. -/
lemma Stands.head?_eq {g : Grammar} {c : Char} {rest : List Char} {s : String}
    (h : g.Stands (c :: rest) s) : s.toList.head? = some c := by
  cases begins : s.toList with
  | nil => exact absurd (String.toList_inj.1 begins) h.nonempty
  | cons d cs =>
    have first := h.begins
    rw [begins, List.cons_prefix_cons] at first
    rw [List.head?_cons, first.1]

/-- No standard operator begins with another character. -/
lemma matchSymbol_standard_eq_none {c : Char} (h : c ∉ standardHeads) (rest : List Char) :
    standard.matchSymbol (c :: rest) = none := by
  refine matchSymbol_eq_none_iff.2 fun s stands => h ?_
  have head := head_of_mem_standard s (stands_iff.1 stands).1
  rw [stands.head?_eq] at head
  obtain ⟨d, hd, same⟩ := List.mem_map.1 head
  exact Option.some.inj same ▸ hd

lemma matchSymbol_standard_minus (rest : List Char) :
    standard.matchSymbol ('-' :: rest) = some "-" := by
  refine matchSymbol_eq_some_iff.2 ⟨stands_iff.2 ⟨by decide +kernel, ⟨rest, rfl⟩⟩, fun t ht => ?_⟩
  rw [eq_minus_of_mem_standard t (stands_iff.1 ht).1 ht.head?_eq]

end Grammar

namespace Value

open Lexer (Spells SpellsOperand Reserved)

lemma reserved_standard {p : Punctuation} (h : p.char ∉ Grammar.standardHeads) :
    Reserved .standard p :=
  Grammar.matchSymbol_standard_eq_none h

/-- A literal that is one token and begins with no symbol. -/
lemma spellsOperand_literal {text : String} {v : Value}
    (token : IsToken .standard true false text (.literal v))
    (noSymbol : text.toList.head?.all (· ∉ Grammar.standardHeads) = true) :
    SpellsOperand .standard text [.literal v] := by
  intro more ks' stops h
  obtain ⟨c, rest, begins, -⟩ := id token
  rw [begins, List.head?_cons, Option.all_some, decide_eq_true_iff] at noSymbol
  refine Lexer.spells_token token ?_ stops rfl h
  rw [begins, List.cons_append, Grammar.matchSymbol_standard_eq_none noSymbol,
    Grammar.matchSymbol_standard_eq_none noSymbol]

/-- A quoted text is an operand. -/
lemma spellsOperand_quote (text : String) :
    SpellsOperand .standard (Quote.double.quote text) [.literal (string text)] := by
  refine spellsOperand_literal (isToken_quote Grammar.separable_standard .double text) ?_
  rw [Quote.quote, String.toList_ofList]
  rfl

lemma spellsOperand_natural {n : Int64} (h : 0 ≤ n.toInt) :
    SpellsOperand .standard (toString n.toInt) [.literal (integer n)] := by
  refine spellsOperand_literal (isToken_integer h) ((Option.all_eq_true _ _).2 fun c hc => ?_)
  rw [Int.toString_eq_repr, Int.repr_eq_if, if_pos h, Nat.toList_repr] at hc
  have digit : c.isDigit := Nat.isDigit_of_mem_toDigits (by decide) (by decide)
    (List.mem_of_mem_head? hc)
  have noDigit : Grammar.standardHeads.all (fun c => !c.isDigit) = true := by decide
  refine decide_eq_true fun head => ?_
  have := List.all_eq_true.1 noDigit c head
  rw [digit] at this
  cases this

/-- An integer is an operand, perhaps behind a minus sign. -/
lemma spellsOperand_integer {n : Int64} (h : n ≠ Int64.minValue) :
    SpellsOperand .standard (toString n.toInt) (integer n).kinds := by
  rw [kinds]
  split
  · rename_i negative
    intro more ks' stops hmore
    have opposite : (-n).toInt = -n.toInt := toInt_neg_of_ne_minValue h
    have text : toString n.toInt = "-" ++ toString (-n).toInt := by
      rw [opposite, Int.toString_eq_repr, Int.toString_eq_repr, Int.repr_eq_if, Int.repr_eq_if,
        if_neg (by omega), if_pos (by omega)]
    -- Where an operand is expected, the sign is an operator of its own.
    have digits := spellsOperand_natural (n := -n) (by omega) stops hmore
    rw [text, String.toList_append, List.append_assoc]
    exact Lexer.spells_scans (by decide)
      (.symbol (Grammar.matchSymbol_standard_minus _)) rfl digits
  · rename_i natural
    exact spellsOperand_natural (by omega)

/-- A key, a colon and a value. -/
lemma spellsOperand_entry {key text : String} {ks : List Kind}
    (h : SpellsOperand .standard text ks) :
    SpellsOperand .standard (Quote.double.quote key ++ ":" ++ text)
      (.literal (.string key) :: .punctuation .colon :: ks) := by
  intro more ks' stops hmore
  have colon : Reserved .standard .colon := reserved_standard (by decide)
  have value : Spells .standard false (Punctuation.colon.char :: (text.toList ++ more)) _ :=
    Lexer.spells_punctuation (colon _) (by simp) (h stops hmore)
  have whole := spellsOperand_quote key (Lexer.stops_punctuation (by simp) _) value
  rw [String.toList_append, String.toList_append, List.append_assoc, List.append_assoc]
  exact whole

mutual
/-- A plain value that is written out is read as its tokens. -/
lemma spellsOperand_source : ∀ {v : Value}, v.Plain → SpellsOperand .standard v.source v.kinds
  | null, _ => spellsOperand_literal (isToken_word (by decide)) (by decide)
  | boolean true, _ => spellsOperand_literal (isToken_word (by decide)) (by decide)
  | boolean false, _ => spellsOperand_literal (isToken_word (by decide)) (by decide)
  | integer n, h => spellsOperand_integer h
  | float _, h => h.elim
  | string s, _ => spellsOperand_quote s
  | array items, h => by
    rw [source, kinds]
    refine Lexer.spellsOperand_items (reserved_standard (by decide)) (reserved_standard (by decide))
      (reserved_standard (by decide)) rfl rfl (by simp) (spellsOperand_sourceAll h) ?_
    rw [String.toList_append, String.toList_append]
    rfl
  | object entries, h => by
    rw [source, kinds]
    refine Lexer.spellsOperand_items (reserved_standard (by decide)) (reserved_standard (by decide))
      (reserved_standard (by decide)) rfl rfl (by simp) (spellsOperand_sourceEntries h) ?_
    rw [String.toList_append, String.toList_append]
    rfl

lemma spellsOperand_sourceAll : ∀ {vs : List Value}, PlainAll vs →
    List.Forall₂ (SpellsOperand .standard) (sourceAll vs) (kindsAll vs)
  | [], _ => .nil
  | _ :: _, h => .cons (spellsOperand_source h.1) (spellsOperand_sourceAll h.2)

lemma spellsOperand_sourceEntries : ∀ {es : List (String × Value)}, PlainEntries es →
    List.Forall₂ (SpellsOperand .standard) (sourceEntries es) (kindsEntries es)
  | [], _ => .nil
  | (_, _) :: _, h =>
    .cons (spellsOperand_entry (spellsOperand_source h.1)) (spellsOperand_sourceEntries h.2)
end

end Value

end Sift
