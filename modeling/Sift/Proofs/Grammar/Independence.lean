import Sift.Proofs.Grammar.Listing
import Sift.Proofs.Grammar.Matching

/-!
# Edits of different names

An edit is about an operator symbol, in both of its roles, or about the name of a function or a
transform; a batch is about one name after the other. What a grammar holds under a name depends only
on what it held there before and on the edits about that name, in their order. So edits about
different names may be done in any order (`Grammar.editAllWith_eq_of_about`).
-/

namespace Sift

/-! ### What edits are about -/

/-- What an edit is about. -/
inductive Subject where
  | operator (symbol : String)
  | function (name : String)
  | transform (name : String)
deriving DecidableEq, Inhabited

namespace Edit

/-- The edits of single names that an edit stands for, each with what it is about. -/
def parts : Edit → List (Subject × Edit)
  | binary symbol op => [(.operator symbol, binary symbol op)]
  | unary symbol rule => [(.operator symbol, unary symbol rule)]
  | function name rule => [(.function name, function name rule)]
  | transform name rule => [(.transform name, transform name rule)]
  | functions entries => entries.map fun e => (.function e.1, function e.1 e.2)
  | transforms entries => entries.map fun e => (.transform e.1, transform e.1 e.2)
  | removeOperator symbol => [(.operator symbol, removeOperator symbol)]

/-- The edits about one subject, in their order. -/
def about (subject : Subject) (edits : List Edit) : List Edit :=
  ((edits.flatMap parts).filter (·.1 = subject)).map Prod.snd

def ofOperator : Edit → Bool
  | binary .. | unary .. | removeOperator _ => true
  | _ => false

/-- An edit of a single name. -/
inductive Single : Subject → Edit → Prop
  | binary (symbol : String) (op : BinaryOperator) : Single (.operator symbol) (binary symbol op)
  | unary (symbol : String) (rule : UnaryRule) : Single (.operator symbol) (unary symbol rule)
  | function (name : String) (rule : FunctionRule) : Single (.function name) (function name rule)
  | transform (name : String) (rule : TransformRule) :
    Single (.transform name) (transform name rule)
  | removeOperator (symbol : String) : Single (.operator symbol) (removeOperator symbol)

/-- A part of an edit is about one name only. -/
lemma single_of_mem_parts {e : Edit} {p : Subject × Edit} (h : p ∈ e.parts) : Single p.1 p.2 := by
  cases e with
  | functions entries =>
    obtain ⟨entry, -, rfl⟩ := List.mem_map.1 h
    exact .function entry.1 entry.2
  | transforms entries =>
    obtain ⟨entry, -, rfl⟩ := List.mem_map.1 h
    exact .transform entry.1 entry.2
  | _ =>
    obtain rfl := List.mem_singleton.1 h
    constructor

/-- An edit changes the operators if one of its parts is about an operator. -/
lemma ofOperator_iff {e : Edit} :
    e.ofOperator ↔ ∃ p ∈ e.parts, ∃ symbol, p.1 = .operator symbol := by
  cases e with
  | functions entries | transforms entries =>
    simp only [ofOperator, Bool.false_eq_true, false_iff]
    rintro ⟨p, hp, symbol, same⟩
    obtain ⟨entry, -, rfl⟩ := List.mem_map.1 hp
    cases same
  | _ => simp [parts, ofOperator]

/-- There are no edits about what none of them is about. -/
lemma about_eq_nil_iff {subject : Subject} {edits : List Edit} :
    about subject edits = [] ↔ ∀ e ∈ edits, ∀ p ∈ e.parts, p.1 ≠ subject := by
  simp only [about, List.map_eq_nil_iff, List.filter_eq_nil_iff, List.mem_flatMap,
    decide_eq_true_eq]
  exact ⟨fun h e he p hp => h p ⟨e, he, hp⟩, fun h p ⟨e, he, hp⟩ => h e he p hp⟩

/-- No operator is changed if and only if there is no edit about one. -/
lemma any_ofOperator_eq_false_iff {edits : List Edit} :
    edits.any ofOperator = false ↔ ∀ symbol, about (.operator symbol) edits = [] := by
  simp only [List.any_eq_false, about_eq_nil_iff, ofOperator_iff]
  constructor
  · intro h symbol e he p hp same
    exact h e he ⟨p, hp, symbol, same⟩
  · rintro h e he ⟨p, hp, symbol, same⟩
    exact h symbol e he p hp same

end Edit

namespace Grammar

open Edit (about)

/-! ### What a grammar holds under a name -/

/-- Two grammars hold the same under a name. -/
def SameAt (g g' : Grammar) : Subject → Prop
  | .operator symbol =>
    g.binary.get? symbol = g'.binary.get? symbol ∧ g.unary.get? symbol = g'.unary.get? symbol
  | .function name => g.functions.get? name = g'.functions.get? name
  | .transform name => g.transforms.get? name = g'.transforms.get? name

variable {build build' : MatcherBuilder} {g g' : Grammar} {subject : Subject}

/-- A batch is one edit after the other. -/
lemma editAllWith_parts (build : MatcherBuilder) (g : Grammar) (e : Edit) :
    g.editAllWith build (e.parts.map Prod.snd) = g.editWith build e := by
  cases e with
  | functions entries =>
    suffices h : ∀ g : Grammar, g.editAllWith build ((Edit.functions entries).parts.map Prod.snd)
        = { g with functions := g.functions.insertAll entries } from h g
    induction entries with
    | nil => exact fun g => rfl
    | cons e rest ih => exact fun g => ih (g.editWith build (.function e.1 e.2))
  | transforms entries =>
    suffices h : ∀ g : Grammar, g.editAllWith build ((Edit.transforms entries).parts.map Prod.snd)
        = { g with transforms := g.transforms.insertAll entries } from h g
    induction entries with
    | nil => exact fun g => rfl
    | cons e rest ih => exact fun g => ih (g.editWith build (.transform e.1 e.2))
  | _ => rfl

/-- Edits may be taken apart. -/
lemma editAllWith_flatMap_parts (build : MatcherBuilder) (g : Grammar) (edits : List Edit) :
    g.editAllWith build ((edits.flatMap Edit.parts).map Prod.snd) = g.editAllWith build edits := by
  induction edits generalizing g with
  | nil => rfl
  | cons e rest ih =>
    rw [List.flatMap_cons, List.map_append, editAllWith, List.foldl_append, ← editAllWith,
      ← editAllWith, editAllWith_parts, ih]
    rfl

/-- An edit does the same where the same is held. -/
lemma SameAt.editWith (h : g.SameAt g' subject) {e : Edit} (single : Edit.Single subject e) :
    (g.editWith build e).SameAt (g'.editWith build' e) subject := by
  cases single with
  | _ => simp_all [SameAt, Grammar.editWith, withOperators]

/-- An edit leaves what is held elsewhere. -/
lemma sameAt_editWith {e : Edit} {other : Subject} (single : Edit.Single other e)
    (ne : other ≠ subject) : (g.editWith build e).SameAt g subject := by
  cases single with
  | _ => cases subject <;> simp_all [SameAt, Grammar.editWith, withOperators]

lemma SameAt.trans {g'' : Grammar} (h : g.SameAt g' subject) (h' : g'.SameAt g'' subject) :
    g.SameAt g'' subject := by
  cases subject with
  | operator symbol => exact ⟨h.1.trans h'.1, h.2.trans h'.2⟩
  | function name | transform name => exact Eq.trans h h'

lemma SameAt.symm (h : g.SameAt g' subject) : g'.SameAt g subject := by
  cases subject with
  | operator symbol => exact ⟨h.1.symm, h.2.symm⟩
  | function name | transform name => exact Eq.symm h

/-- Only the edits about a subject matter for what is held there. -/
lemma sameAt_editAllWith_about (h : g.SameAt g' subject) (edits : List Edit) :
    (g.editAllWith build edits).SameAt (g'.editAllWith build' (about subject edits)) subject := by
  rw [← editAllWith_flatMap_parts, about]
  have singles : ∀ p ∈ edits.flatMap Edit.parts, Edit.Single p.1 p.2 := by
    intro p hp
    obtain ⟨e, -, hp⟩ := List.mem_flatMap.1 hp
    exact Edit.single_of_mem_parts hp
  generalize edits.flatMap Edit.parts = parts at singles
  induction parts generalizing g g' with
  | nil => exact h
  | cons p rest ih =>
    rw [List.forall_mem_cons] at singles
    by_cases same : p.1 = subject
    · rw [List.filter_cons_of_pos (by simpa using same)]
      exact ih (h.editWith (same ▸ singles.1)) singles.2
    · rw [List.filter_cons_of_neg (by simpa using same)]
      exact ih ((sameAt_editWith singles.1 same).trans h) singles.2

/-- What no edit is about stays as it is. -/
lemma sameAt_editAllWith (edits : List Edit) (h : about subject edits = []) :
    (g.editAllWith build edits).SameAt g subject := by
  have refl : g.SameAt g subject := by
    cases subject with
    | operator symbol => exact ⟨rfl, rfl⟩
    | function name | transform name => exact rfl
  have same : (g.editAllWith build edits).SameAt
      (g.editAllWith build (about subject edits)) subject :=
    sameAt_editAllWith_about refl edits
  rwa [h] at same

/-! ### The table of the lexer -/

/-- The table is the one that is made for the operators of the grammar. -/
def Prepared (build : MatcherBuilder) (g : Grammar) : Prop :=
  g.table = .ofOperators build g.symbols

lemma prepared_editWith {e : Edit} (h : e.ofOperator) : Prepared build (g.editWith build e) := by
  cases e with
  | binary symbol op | unary symbol rule | removeOperator symbol => exact rfl
  | _ => cases h

lemma table_editWith {e : Edit} (h : e.ofOperator = false) :
    (g.editWith build e).table = g.table ∧ (g.editWith build e).symbols = g.symbols := by
  cases e with
  | binary symbol op | unary symbol rule | removeOperator symbol => cases h
  | _ => exact ⟨rfl, rfl⟩

/-- The table belongs to the operators after all edits if it did before them. -/
lemma Prepared.editAllWith (h : Prepared build g) (edits : List Edit) :
    Prepared build (g.editAllWith build edits) := by
  induction edits generalizing g with
  | nil => exact h
  | cons e rest ih =>
    refine ih ?_
    cases he : e.ofOperator with
    | true => exact prepared_editWith he
    | false =>
      obtain ⟨table, symbols⟩ := @table_editWith build g e he
      rw [Prepared, table, symbols]
      exact h

/-- The table is made anew once an operator is changed, and stays as it is otherwise. -/
lemma table_editAllWith (build : MatcherBuilder) (g : Grammar) (edits : List Edit) :
    (g.editAllWith build edits).table = if edits.any Edit.ofOperator then
      .ofOperators build (g.editAllWith build edits).symbols else g.table := by
  induction edits generalizing g with
  | nil => rfl
  | cons e rest ih =>
    cases he : e.ofOperator with
    | true =>
      rw [List.any_cons, he, Bool.true_or, if_pos rfl]
      exact (prepared_editWith he).editAllWith rest
    | false =>
      rw [List.any_cons, he, Bool.false_or]
      exact (ih (g.editWith build e)).trans (by rw [(table_editWith he).1]; rfl)

/-! ### Edits in any order -/

/-- Grammars with the same table are equal if they hold the same under all names. -/
lemma eq_of_sameAt (h : ∀ subject, g.SameAt g' subject) (table : g.table = g'.table) : g = g' := by
  have binary : g.binary = g'.binary := Dict.ext_get? fun symbol => (h (.operator symbol)).1
  have unary : g.unary = g'.unary := Dict.ext_get? fun symbol => (h (.operator symbol)).2
  have functions : g.functions = g'.functions := Dict.ext_get? fun name => h (.function name)
  have transforms : g.transforms = g'.transforms := Dict.ext_get? fun name => h (.transform name)
  cases g
  cases g'
  simp_all

/-- Two lists of edits that are the same about each operator symbol, about each function and about
each transform lead from any grammar to one and the same grammar, table of the lexer included. So
nothing that is looked up, matched, listed, described, read or evaluated tells them apart. Its
listings are complete and in order, in whatever order its tables are walked through. -/
theorem editAllWith_eq_of_about (build : MatcherBuilder) (start : Grammar)
    {edits edits' : List Edit} (h : ∀ subject, about subject edits = about subject edits') :
    let g := start.editAllWith build edits
    g = start.editAllWith build edits' ∧ g.Listed := by
  intro g
  have same (subject : Subject) : g.SameAt (start.editAllWith build edits') subject := by
    have refl : start.SameAt start subject := @sameAt_editAllWith build _ _ [] rfl
    have there : (start.editAllWith build edits').SameAt
        (start.editAllWith build (about subject edits')) subject :=
      sameAt_editAllWith_about refl edits'
    rw [← h subject] at there
    exact (sameAt_editAllWith_about refl edits).trans there.symm
  have unchanged : edits.any Edit.ofOperator = false ↔ edits'.any Edit.ofOperator = false := by
    simp only [Edit.any_ofOperator_eq_false_iff, h]
  have changed : edits.any Edit.ofOperator = edits'.any Edit.ofOperator := by
    cases hany : edits.any Edit.ofOperator with
    | false => exact (unchanged.1 hany).symm
    | true => exact (Bool.not_eq_false _ ▸ mt unchanged.2 (by simp [hany])).symm
  refine ⟨eq_of_sameAt same ?_, g.listed⟩
  rw [table_editAllWith, table_editAllWith, changed]
  have binary : g.binary = _ := Dict.ext_get? fun symbol => (same (.operator symbol)).1
  have unary : g.unary = _ := Dict.ext_get? fun symbol => (same (.operator symbol)).2
  rw [symbols, symbols, binary, unary]

def someEdits : List Edit :=
  [.binary "<>" (.immediate 25 (Value.add .standard)), .functions [("f", fun _ => .value .null),
      ("g", fun _ => .value .null), ("f", fun vs => .value (.array vs))],
    .removeOperator "-", .binary "-" (.immediate 25 (Value.add .standard))]

/-- The same edits in another order and without the batch. -/
def shuffledEdits : List Edit :=
  [.function "f" fun _ => .value .null, .removeOperator "-",
    .function "f" fun vs => .value (.array vs), .binary "-" (.immediate 25 (Value.add .standard)),
    .binary "<>" (.immediate 25 (Value.add .standard)), .function "g" fun _ => .value .null]

/-- The order is the same for each name. -/
lemma about_shuffledEdits (subject : Subject) :
    about subject someEdits = about subject shuffledEdits := by
  by_cases first : subject ∈ [.operator "<>", .operator "-", .function "f", .function "g"]
  · simp only [List.mem_cons, List.not_mem_nil, or_false] at first
    rcases first with rfl | rfl | rfl | rfl <;> rfl
  · simp only [List.mem_cons, List.not_mem_nil, or_false, not_or, eq_comm (a := subject)] at first
    simp [about, someEdits, shuffledEdits, Edit.parts, first]

/-- Edits of different names in another order make the same grammar. -/
theorem editAllWith_shuffledEdits :
    (∀ subject, about subject someEdits = about subject shuffledEdits) ∧
      standard.editAllWith .oneByOne someEdits = standard.editAllWith .oneByOne shuffledEdits :=
  ⟨about_shuffledEdits, (editAllWith_eq_of_about .oneByOne standard about_shuffledEdits).1⟩

end Grammar

end Sift
