import Mathlib.Tactic.Lemma
import Sift.Grammar.Standard

/-!
# Listings

A listing of a grammar shows each name once and in a fixed order. It depends on what the names stand
for, and not on the order in which the tables are walked through: the names may be collected in any
order before they are sorted, and so may the symbols for the lexer (`Grammar.listed`).
-/

namespace Sift

variable {α : Type}

/-! ### Names in ascending order -/

namespace Dict

variable (d : Dict α)

lemma keys_ascend : d.keys.Pairwise (· < ·) := d.sorted.keys_ascend

lemma mem_entries_iff {key : String} {v : α} : (key, v) ∈ d.entries ↔ d.get? key = some v :=
  (Entries.get?_eq_some_iff d.sorted.keys_nodup).symm

/-- A key stands for one thing. -/
lemma eq_of_mem_entries {e f : String × α} (he : e ∈ d.entries) (hf : f ∈ d.entries)
    (h : e.1 = f.1) : e = f := by
  obtain ⟨key, v⟩ := e
  obtain ⟨key', w⟩ := f
  obtain rfl : key = key' := h
  rw [mem_entries_iff] at he hf
  rw [Option.some.inj (he.symm.trans hf)]

/-- The keys may be collected in any order before they are sorted. -/
lemma mergeSort_keys {keys : List String} (h : keys.Perm d.keys) :
    keys.mergeSort (· ≤ ·) = d.keys := by
  have trans (s t u : String) (hst : decide (s ≤ t) = true) (htu : decide (t ≤ u) = true) :
      decide (s ≤ u) = true := by
    rw [decide_eq_true_iff] at *
    exact String.le_trans hst htu
  have total (s t : String) : (decide (s ≤ t) || decide (t ≤ s)) = true := by
    simpa using String.le_total s t
  have sorted : (keys.mergeSort (· ≤ ·)).Pairwise (· ≤ ·) :=
    (List.pairwise_mergeSort trans total keys).imp of_decide_eq_true
  exact List.Perm.eq_of_pairwise (fun s t _ _ => String.le_antisymm) sorted
    (d.keys_ascend.imp Std.le_of_lt) ((List.mergeSort_perm keys _).trans h)

/-- A list shows the keys of a table, each once and in ascending order. It is what sorting them
gives, in whatever order they are collected. -/
structure ListedBy (names : List String) : Prop where
  mem : ∀ name, name ∈ names ↔ d.contains name
  ascends : names.Pairwise (· < ·)
  sort : ∀ keys : List String, keys.Perm d.keys → keys.mergeSort (· ≤ ·) = names

/-- A map is listed by its keys. -/
lemma listedBy_keys : d.ListedBy d.keys where
  mem _ := contains_iff.symm
  ascends := d.keys_ascend
  sort _ := d.mergeSort_keys

end Dict

/-! ### Binary operators -/

/-- Whether a binary operator is listed before another one: those that bind tighter come first, and
those that bind alike ascend. -/
def ListedBefore (a b : String × BinaryOperator) : Prop :=
  b.2.precedence < a.2.precedence ∨ a.2.precedence = b.2.precedence ∧ a.1 < b.1

def tighterFirst (a b : String × BinaryOperator) : Bool :=
  b.2.precedence < a.2.precedence || (a.2.precedence = b.2.precedence && a.1 ≤ b.1)

lemma tighterFirst_iff {a b : String × BinaryOperator} : tighterFirst a b ↔
    b.2.precedence < a.2.precedence ∨ a.2.precedence = b.2.precedence ∧ a.1 ≤ b.1 := by
  simp [tighterFirst]

lemma ListedBefore.tighterFirst {a b : String × BinaryOperator} (h : ListedBefore a b) :
    tighterFirst a b := tighterFirst_iff.2 (h.imp_right fun h => ⟨h.1, Std.le_of_lt h.2⟩)

/-- The order of the listing is transitive. -/
lemma tighterFirst_trans {a b c : String × BinaryOperator} (hab : tighterFirst a b)
    (hbc : tighterFirst b c) : tighterFirst a c := by
  rw [tighterFirst_iff] at hab hbc ⊢
  rcases hab with tighter | ⟨same, le⟩
  · rcases hbc with tighter' | ⟨same', -⟩
    · exact .inl (Int32.lt_trans tighter' tighter)
    · exact .inl (same' ▸ tighter)
  · rcases hbc with tighter' | ⟨same', le'⟩
    · exact .inl (same ▸ tighter')
    · exact .inr ⟨same.trans same', String.le_trans le le'⟩

lemma tighterFirst_total (a b : String × BinaryOperator) :
    (tighterFirst a b || tighterFirst b a) = true := by
  rw [Bool.or_eq_true, tighterFirst_iff, tighterFirst_iff]
  rcases Std.lt_trichotomy a.2.precedence b.2.precedence with looser | same | tighter
  · exact .inr (.inl looser)
  · rcases String.le_total a.1 b.1 with le | le
    · exact .inl (.inr ⟨same, le⟩)
    · exact .inr (.inr ⟨same.symm, le⟩)
  · exact .inl (.inl tighter)

/-- The order of the listing leaves no operators in either order. -/
lemma eq_of_tighterFirst {a b : String × BinaryOperator} (hab : tighterFirst a b)
    (hba : tighterFirst b a) : a.1 = b.1 := by
  rw [tighterFirst_iff] at hab hba
  rcases hab with tighter | ⟨same, le⟩ <;> rcases hba with tighter' | ⟨same', le'⟩
  · exact absurd tighter' (Int32.lt_asymm tighter)
  · exact absurd (same' ▸ tighter) Int32.lt_irrefl
  · exact absurd (same ▸ tighter') Int32.lt_irrefl
  · exact String.le_antisymm le le'

lemma precedence_trans (a b c : String × BinaryOperator)
    (hab : decide (b.2.precedence ≤ a.2.precedence) = true)
    (hbc : decide (c.2.precedence ≤ b.2.precedence) = true) :
    decide (c.2.precedence ≤ a.2.precedence) = true := by
  rw [decide_eq_true_iff] at *
  exact Int32.le_trans hbc hab

lemma precedence_total (a b : String × BinaryOperator) :
    (decide (b.2.precedence ≤ a.2.precedence) || decide (a.2.precedence ≤ b.2.precedence))
      = true := by
  simpa using Int32.le_total b.2.precedence a.2.precedence

namespace Grammar

variable (g : Grammar)

/-- All binary operators are listed, each once. -/
lemma binaryOperators_perm : g.binaryOperators.Perm g.binary.entries := List.mergeSort_perm _ _

/-- The binary operators of one precedence are listed as they stand in the table. -/
lemma filter_binaryOperators (precedence : Int32) :
    g.binaryOperators.filter (fun e => e.2.precedence = precedence)
      = g.binary.entries.filter fun e => e.2.precedence = precedence := by
  have ties : (g.binary.entries.filter fun e => e.2.precedence = precedence).Pairwise
      fun a b => decide (b.2.precedence ≤ a.2.precedence) = true := by
    refine List.pairwise_of_forall_mem_list fun a ha b hb => ?_
    simp only [List.mem_filter, decide_eq_true_eq] at ha hb
    simp [ha.2, hb.2]
  have kept : List.Sublist (g.binary.entries.filter fun e => e.2.precedence = precedence)
      g.binaryOperators :=
    List.sublist_mergeSort precedence_trans precedence_total ties List.filter_sublist
  have kept' := kept.filter fun e => decide (e.2.precedence = precedence)
  rw [List.filter_filter] at kept'
  simp only [Bool.and_self] at kept'
  exact (kept'.eq_of_length (g.binaryOperators_perm.filter _).length_eq.symm).symm

/-- The binary operators are listed by descending precedence and then by ascending symbol. -/
lemma binaryOperators_pairwise : g.binaryOperators.Pairwise ListedBefore := by
  have descends : g.binaryOperators.Pairwise
      fun a b => decide (b.2.precedence ≤ a.2.precedence) = true :=
    List.pairwise_mergeSort precedence_trans precedence_total _
  rw [List.pairwise_iff_forall_sublist] at descends ⊢
  intro a b hab
  have le : b.2.precedence ≤ a.2.precedence := by simpa using descends hab
  by_cases same : b.2.precedence = a.2.precedence
  · -- Both are in the part of the listing with this precedence, which is a part of the table.
    have tied := hab.filter fun e => decide (e.2.precedence = a.2.precedence)
    rw [filter_binaryOperators] at tied
    simp only [List.filter_cons, same, decide_true, if_true, List.filter_nil] at tied
    have ascends := List.pairwise_iff_forall_sublist.1 g.binary.sorted
      (tied.trans List.filter_sublist)
    exact .inr ⟨same.symm, ascends⟩
  · exact .inl (Int32.lt_of_le_of_ne le same)

lemma mem_binaryOperators_iff {symbol : String} {op : BinaryOperator} :
    (symbol, op) ∈ g.binaryOperators ↔ g.binary.get? symbol = some op :=
  g.binaryOperators_perm.mem_iff.trans g.binary.mem_entries_iff

/-- The binary operators may be collected in any order before they are sorted. -/
lemma mergeSort_binary {entries : List (String × BinaryOperator)}
    (h : entries.Perm g.binary.entries) : entries.mergeSort tighterFirst = g.binaryOperators := by
  have perm := (List.mergeSort_perm entries tighterFirst).trans h
  have sorted : (entries.mergeSort tighterFirst).Pairwise fun a b => tighterFirst a b :=
    @List.pairwise_mergeSort _ tighterFirst (fun _ _ _ => tighterFirst_trans) tighterFirst_total _
  have listed : g.binaryOperators.Pairwise fun a b => tighterFirst a b :=
    g.binaryOperators_pairwise.imp ListedBefore.tighterFirst
  refine List.Perm.eq_of_pairwise (fun a b ha hb hab hba => ?_) sorted listed
    (perm.trans g.binaryOperators_perm.symm)
  exact g.binary.eq_of_mem_entries (perm.mem_iff.1 ha) (g.binaryOperators_perm.mem_iff.1 hb)
    (eq_of_tighterFirst hab hba)

end Grammar

/-! ### Symbols for the lexer -/

lemma triedBefore_iff {s t : String} : triedBefore s t ↔
    t.utf8ByteSize < s.utf8ByteSize ∨ s.utf8ByteSize = t.utf8ByteSize ∧ s < t := by
  simp [triedBefore]

/-- The order in which symbols are tried is transitive. -/
lemma triedBefore_trans {s t u : String} (hst : triedBefore s t) (htu : triedBefore t u) :
    triedBefore s u := by
  rw [triedBefore_iff] at hst htu ⊢
  rcases hst with longer | ⟨same, lt⟩
  · exact .inl (by omega)
  · rcases htu with longer' | ⟨same', lt'⟩
    · exact .inl (by omega)
    · exact .inr ⟨same.trans same', String.lt_trans lt lt'⟩

lemma not_triedBefore_self (s : String) : ¬ triedBefore s s := by
  rw [triedBefore_iff]
  rintro (longer | ⟨-, lt⟩)
  · exact Nat.lt_irrefl _ longer
  · exact String.lt_irrefl s lt

/-- Different symbols are tried in one order only. -/
lemma triedBefore_of_ne {s t : String} (ne : s ≠ t) (h : ¬ triedBefore s t) : triedBefore t s := by
  rw [triedBefore_iff, not_or, not_and] at h
  rw [triedBefore_iff]
  rcases Nat.lt_trichotomy s.utf8ByteSize t.utf8ByteSize with shorter | same | longer
  · exact .inl shorter
  · exact .inr ⟨same.symm, Std.lt_of_le_of_ne (String.not_lt.1 (h.2 same)) ne.symm⟩
  · exact absurd longer h.1

/-- Symbols stay in order when one is put in its place. -/
lemma pairwise_insertSymbol {symbols : List String}
    (h : symbols.Pairwise fun s t => triedBefore s t) (s : String) :
    (insertSymbol s symbols).Pairwise fun s t => triedBefore s t := by
  induction symbols with
  | nil => exact List.pairwise_singleton _ _
  | cons t rest ih =>
    obtain ⟨ht, hrest⟩ := List.pairwise_cons.1 h
    rw [insertSymbol]
    split
    · exact h
    · rename_i ne
      split
      · rename_i before
        refine List.pairwise_cons.2 ⟨fun u hu => ?_, h⟩
        rcases List.mem_cons.1 hu with rfl | hu
        · exact before
        · exact triedBefore_trans before (ht u hu)
      · rename_i after
        refine List.pairwise_cons.2 ⟨fun u hu => ?_, ih hrest⟩
        rcases mem_insertSymbol.1 hu with rfl | hu
        · exact triedBefore_of_ne ne after
        · exact ht u hu

/-- Each symbol is tried before those that come later. -/
lemma pairwise_symbolsInOrder (operators : List String) :
    (symbolsInOrder operators).Pairwise fun s t => triedBefore s t := by
  rw [symbolsInOrder]
  induction operators.filter isSymbolic with
  | nil => exact List.Pairwise.nil
  | cons s rest ih => exact pairwise_insertSymbol ih s

/-- The symbols may be collected in any order, and any number of times. -/
lemma symbolsInOrder_congr {operators operators' : List String}
    (h : ∀ s, s ∈ operators ↔ s ∈ operators') :
    symbolsInOrder operators = symbolsInOrder operators' := by
  have ordered := pairwise_symbolsInOrder operators
  have ordered' := pairwise_symbolsInOrder operators'
  have nodup {symbols : List String} (h : symbols.Pairwise fun s t => triedBefore s t) :
      symbols.Nodup := by
    refine h.imp fun {s t} before => ?_
    rintro rfl
    exact not_triedBefore_self s before
  refine List.Perm.eq_of_pairwise (fun s t _ _ hst hts => ?_) ordered ordered' ?_
  · exact absurd (triedBefore_trans hst hts) (not_triedBefore_self s)
  · refine (List.perm_ext_iff_of_nodup (nodup ordered) (nodup ordered')).2 fun s => ?_
    rw [mem_symbolsInOrder, mem_symbolsInOrder, h]

/-! ### Grammars -/

namespace Grammar

/-- The listings of a grammar are complete and in order, and do not depend on the order in which its
tables are walked through. -/
structure Listed (g : Grammar) : Prop where
  mem_binary : ∀ symbol op, (symbol, op) ∈ g.binaryOperators ↔ g.binary.get? symbol = some op
  binary : g.binaryOperators.Pairwise ListedBefore
  sort_binary : ∀ entries : List (String × BinaryOperator), entries.Perm g.binary.entries →
    entries.mergeSort tighterFirst = g.binaryOperators
  unary : g.unary.ListedBy g.unarySymbols
  functions : g.functions.ListedBy g.functionNames
  transforms : g.transforms.ListedBy g.transformNames
  sort_symbols : ∀ keys : List String, keys.Perm g.symbols →
    symbolsInOrder keys = g.table.symbols

/-- All five listings have the operators, functions and transforms in their order. -/
theorem listed (g : Grammar) : g.Listed where
  mem_binary _ _ := g.mem_binaryOperators_iff
  binary := g.binaryOperators_pairwise
  sort_binary _ := g.mergeSort_binary
  unary := g.unary.listedBy_keys
  functions := g.functions.listedBy_keys
  transforms := g.transforms.listedBy_keys
  sort_symbols _ perm := (symbolsInOrder_congr fun _ => perm.mem_iff).trans g.table_symbols.symm

end Grammar

end Sift
