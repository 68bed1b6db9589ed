import Sift.Grammar.Standard
import Sift.Proofs.Expr.Everywhere
import Sift.Proofs.Expr.Height
import Sift.Proofs.Parse.Reads

/-!
# Spelling expressions out

`Expr.kinds` spells an expression with parentheses around everything that an operator, a postfix
step or a conditional is applied to. A spelling of this form uses up two levels of nesting for each
level of the tree, and is read back as the expression it came from (`Expr.parse_kinds`).
-/

namespace Sift

open Token (Kind)

namespace Expr

open Parse (separated)

def grouped (ks : List Kind) : List Kind :=
  .punctuation .openParen :: (ks ++ [.punctuation .closeParen])

section

variable (bare : Bool)

mutual
/-- The kinds of the tokens that spell an expression. A transform without arguments may be spelled
without parentheses behind its name. -/
def kinds : Expr → List Kind
  | literal v => [.literal v]
  | identifier name => [.identifier name]
  | relative name => [.punctuation .dot, .identifier name]
  | member owner name _ => grouped owner.kinds ++ [.punctuation .dot, .identifier name]
  | filter subject predicate _ => grouped subject.kinds ++
    .punctuation .openBracket :: (predicate.kinds ++ [.punctuation .closeBracket])
  | array items =>
    .punctuation .openBracket :: (separated (kindsAll items) ++ [.punctuation .closeBracket])
  | object entries =>
    .punctuation .openBrace :: (separated (kindsEntries entries) ++ [.punctuation .closeBrace])
  | unary symbol operand => .operator .unary symbol :: grouped operand.kinds
  | binary symbol left right =>
    grouped left.kinds ++ .operator .binary symbol :: grouped right.kinds
  | conditional test consequent alternate => grouped test.kinds ++
    .punctuation .question :: (consequent.kinds ++ .punctuation .colon :: alternate.kinds)
  | fallback test alternate => grouped test.kinds ++
    .punctuation .question :: .punctuation .colon :: alternate.kinds
  | call name arguments => .identifier name :: grouped (separated (kindsAll arguments))
  | transform name subject arguments =>
    grouped subject.kinds ++ .punctuation .pipe :: .identifier name ::
      if bare && arguments.isEmpty then [] else grouped (separated (kindsAll arguments))

def kindsAll : List Expr → List (List Kind)
  | [] => []
  | e :: rest => e.kinds :: kindsAll rest

def kindsEntries : List (String × Expr) → List (List Kind)
  | [] => []
  | (key, e) :: rest =>
    (.literal (.string key) :: .punctuation .colon :: e.kinds) :: kindsEntries rest
end

end

variable {bare : Bool}

lemma kindsAll_eq_map (es : List Expr) : kindsAll bare es = es.map (kinds bare) := by
  induction es with
  | nil => rfl
  | cons e es ih => rw [kindsAll, ih, List.map_cons]

lemma kindsEntries_eq_map (es : List (String × Expr)) : kindsEntries bare es
    = es.map fun e => .literal (.string e.1) :: .punctuation .colon :: e.2.kinds bare := by
  induction es with
  | nil => rfl
  | cons e es ih => rw [kindsEntries, ih, List.map_cons]

/-- Every spelling has a token. -/
lemma kinds_ne_nil (e : Expr) : e.kinds bare ≠ [] := by
  cases e <;> simp [kinds, grouped]

/-- A spelling begins with a token that ends nothing. -/
lemma closes_first_kinds (e : Expr) : (Kind.first (e.kinds bare)).closes = false := by
  cases e <;> simp [kinds, grouped, Kind.closes]

end Expr

namespace Level

open Parse
open Sift.Expr

variable {g : Grammar} {bare : Bool} {n : Nat} {ks : List Kind}

/-! ### Spellings -/

/-- The expression is read off tokens of some kinds wherever there are enough levels left. -/
structure Spelled (g : Grammar) (room : Nat) (e : Expr) (ks : List Kind) : Prop where
  nonempty : ks ≠ []
  /-- The first token ends nothing. -/
  opens : (Kind.first ks).closes = false
  read : ∀ {n : Nat} {rest : List Kind}, room ≤ n → (Kind.first rest).closes = true →
    Reads False (ofDepth g n).expression (ks ++ rest) e rest

/-- An entry of an object with its spelling. -/
def SpelledEntry (g : Grammar) (room : Nat) (entry : String × Expr) (ks : List Kind) : Prop :=
  ∃ value, ks = .literal (.string entry.1) :: .punctuation .colon :: value ∧
    Spelled g room entry.2 value

namespace Spelled

variable {room : Nat} {e : Expr}

/-- There may be more room than needed. -/
lemma mono {room' : Nat} (h : Spelled g room e ks) (le : room ≤ room') : Spelled g room' e ks :=
  ⟨h.nonempty, h.opens, fun enough => h.read (Nat.le_trans le enough)⟩

lemma readsItem (h : Spelled g room e ks) (enough : room ≤ n) {closing : Punctuation}
    (hclosing : (Kind.punctuation closing).closes = true) :
    ReadsItem False (ofDepth g n).expression closing e ks := by
  refine ⟨Kind.isPunctuation_eq_false h.opens hclosing, h.nonempty, fun rest hrest => ?_⟩
  refine h.read enough ?_
  rcases hrest with hrest | hrest
  · rw [hrest]
    rfl
  · rwa [hrest]

/-- What is read as a conditional is read as an expression, one level up. -/
lemma of_conditional (nonempty : ks ≠ []) (opens : (Kind.first ks).closes = false)
    (h : ∀ {n : Nat} {rest : List Kind}, room ≤ n → (Kind.first rest).closes = true →
      Reads False (ofDepth g n).conditional (ks ++ rest) e rest) :
    Spelled g (room + 1) e ks :=
  ⟨nonempty, opens, fun enough closes =>
    reads_expression (by omega) fun m hm => h (by omega) closes⟩

/-- What is read as an operand is read as an expression. -/
lemma of_operand (nonempty : ks ≠ []) (opens : (Kind.first ks).closes = false)
    (h : ∀ {n : Nat} {rest : List Kind}, room ≤ n → (Kind.first rest).continuesChain = false →
      Reads False (ofDepth g n).operand (ks ++ rest) e rest) : Spelled g (room + 1) e ks := by
  refine of_conditional nonempty opens fun {n rest} enough closes => ?_
  have stop := Kind.continuesChain_of_closes closes
  exact reads_conditional_stop closes ((h enough stop).bind (reads_folds_end stop _ e))

/-- What is read as a primary is read as an expression. -/
lemma of_primary (nonempty : ks ≠ []) (opens : (Kind.first ks).closes = false)
    (notUnary : ∀ symbol, Kind.first ks ≠ .operator .unary symbol)
    (h : ∀ {n : Nat} {rest : List Kind}, room ≤ n → (Kind.first rest).continuesOperand = false →
      Reads False (primary (ofDepth g n).expression) (ks ++ rest) e rest) :
    Spelled g (room + 1) e ks := by
  refine of_operand nonempty opens fun {n rest} enough stop => ?_
  have stop := Kind.continuesOperand_eq_false stop
  refine reads_operand (fun symbol => ?_) (h enough stop) (reads_steps_stop stop e)
  rw [first_append nonempty]
  exact notUnary symbol

lemma literal (v : Value) : Spelled g 1 (.literal v) [.literal v] :=
  of_primary (by simp) rfl (by simp) fun _ _ => reads_literal v

/-- Lists are read back if their items are. -/
lemma items {es : List Expr} {spellings : List (List Kind)}
    (h : List.Forall₂ (Spelled g room) es spellings) (enough : room ≤ n) {closing : Punctuation}
    (hclosing : (Kind.punctuation closing).closes = true) (hcomma : closing ≠ .comma) :
    Reads False (Parse.items (ofDepth g n).expression closing)
      (separated spellings ++ .punctuation closing :: ks) es ks :=
  reads_items (h.imp fun _ _ he => he.readsItem enough hclosing) hcomma

lemma entries {es : List (String × Expr)} {spellings : List (List Kind)}
    (h : List.Forall₂ (SpelledEntry g room) es spellings) (enough : room ≤ n) :
    Reads False (Parse.items (entry (ofDepth g n).expression) .closeBrace)
      (separated spellings ++ .punctuation .closeBrace :: ks) es ks := by
  refine reads_items (h.imp fun entry ks hentry => ?_) (by simp)
  obtain ⟨value, rfl, hvalue⟩ := hentry
  refine ⟨rfl, by simp, fun rest hrest => reads_entry (hvalue.read enough ?_)⟩
  obtain hrest | hrest := hrest <;> rw [hrest] <;> rfl

/-- An array is read back one level above its items. -/
lemma array {es : List Expr} {spellings : List (List Kind)}
    (h : List.Forall₂ (Spelled g room) es spellings) :
    Spelled g (room + 1) (.array es)
      (.punctuation .openBracket :: (separated spellings ++ [.punctuation .closeBracket])) := by
  refine of_primary (by simp) rfl (by simp) fun {n rest} enough _ => ?_
  rw [List.cons_append, List.append_assoc]
  exact reads_array (items h enough rfl (by simp))

/-- An object is read back one level above its entries. -/
lemma object {es : List (String × Expr)} {spellings : List (List Kind)}
    (h : List.Forall₂ (SpelledEntry g room) es spellings) :
    Spelled g (room + 1) (.object es)
      (.punctuation .openBrace :: (separated spellings ++ [.punctuation .closeBrace])) := by
  refine of_primary (by simp) rfl (by simp) fun {n rest} enough _ => ?_
  rw [List.cons_append, List.append_assoc]
  exact reads_object (entries h enough)

end Spelled

/-- The expression is read back from its spelling wherever there are two levels left for each level
of the tree, and one more. -/
abbrev Readable (g : Grammar) (bare : Bool) (e : Expr) : Prop :=
  Spelled g (2 * e.height + 1) e (e.kinds bare)

namespace Readable

section

variable {e : Expr} (h : Readable g bare e)

include h

/-- In parentheses the expression is an operand, with whatever steps follow. -/
lemma grouped_steps {ks' : List Kind} {e' : Expr} (room : 2 * e.height < n)
    (steps : Reads False ((ofDepth g n).steps e) ks e' ks') :
    Reads False (ofDepth g n).operand (grouped (e.kinds bare) ++ ks) e' ks' := by
  rw [grouped, List.cons_append, List.append_assoc]
  exact reads_operand (by simp) (reads_group (h.read room rfl)) steps

/-- In parentheses every expression is an operand. -/
lemma grouped_operand (room : 2 * e.height < n) (stop : (Kind.first ks).continuesOperand = false) :
    Reads False (ofDepth g n).operand (grouped (e.kinds bare) ++ ks) e ks :=
  h.grouped_steps room (reads_steps_stop stop e)

lemma grouped_chain (room : 2 * e.height < n) (stop : (Kind.first ks).continuesChain = false)
    (least : Int) :
    Reads False ((ofDepth g n).chain least) (grouped (e.kinds bare) ++ ks) e ks :=
  (h.grouped_operand room (Kind.continuesOperand_eq_false stop)).bind (reads_folds_end stop least e)

end

/-! ### Items -/

/-- Spellings of parts have the room of the highest one. -/
lemma spelledAll {es : List Expr} (h : ∀ e ∈ es, Readable g bare e) :
    List.Forall₂ (Spelled g (2 * pathWeightAll 1 es - 1)) es (kindsAll bare es) := by
  rw [kindsAll_eq_map, List.forall₂_map_right_iff, List.forall₂_same]
  intro e he
  have hheight := pathWeightAll_le_iff.1 (Nat.le_refl (pathWeightAll 1 es)) e he
  rw [← Expr.height] at hheight
  exact (h e he).mono (by omega)

lemma spelledEntries {es : List (String × Expr)} (h : ∀ e ∈ es, Readable g bare e.2) :
    List.Forall₂ (SpelledEntry g (2 * pathWeightEntries 1 es - 1)) es (kindsEntries bare es) := by
  rw [kindsEntries_eq_map, List.forall₂_map_right_iff, List.forall₂_same]
  intro e he
  have hheight := pathWeightEntries_le_iff.1 (Nat.le_refl (pathWeightEntries 1 es)) e he
  rw [← Expr.height] at hheight
  exact ⟨_, rfl, (h e he).mono (by omega)⟩

lemma array {es : List Expr} (h : ∀ e ∈ es, Readable g bare e) : Readable g bare (.array es) := by
  rw [Readable, height_array, kinds]
  exact (Spelled.array (spelledAll h)).mono (by omega)

lemma object {es : List (String × Expr)} (h : ∀ e ∈ es, Readable g bare e.2) :
    Readable g bare (.object es) := by
  rw [Readable, height_object, kinds]
  exact (Spelled.object (spelledEntries h)).mono (by omega)

/-! ### Operands -/

lemma literal (v : Value) : Readable g bare (.literal v) := Spelled.literal v

lemma identifier (name : String) : Readable g bare (.identifier name) :=
  .of_primary (kinds_ne_nil _) (closes_first_kinds _) (by simp [kinds]) fun _ stop =>
    reads_identifier (Kind.isPunctuation_openParen stop)

lemma relative (name : String) : Readable g bare (.relative name) :=
  .of_primary (kinds_ne_nil _) (closes_first_kinds _) (by simp [kinds]) fun _ _ =>
    reads_relative name

lemma call {es : List Expr} (h : ∀ e ∈ es, Readable g bare e) (name : String) :
    Readable g bare (.call name es) := by
  refine .of_primary (kinds_ne_nil _) (closes_first_kinds _) (by simp [kinds]) fun room _ => ?_
  rw [height_call] at room
  rw [kinds, grouped, List.cons_append, List.cons_append, List.append_assoc]
  exact reads_call (Spelled.items (spelledAll h) (by omega) rfl (by simp))

section

variable {e : Expr} (h : Readable g bare e)

include h

lemma unary {symbol : String} (registered : g.unary.contains symbol = true) :
    Readable g bare (.unary symbol e) := by
  refine .of_operand (kinds_ne_nil _) (closes_first_kinds _) fun {n ks} room stop => ?_
  rw [height_unary] at room
  rw [kinds, List.cons_append]
  apply reads_operand_unary registered (by omega)
  intro m hm
  exact h.grouped_operand (by omega) (Kind.continuesOperand_eq_false stop)

lemma member (name : String) : Readable g bare (.member e name e.isRelativePath) := by
  refine .of_operand (kinds_ne_nil _) (closes_first_kinds _) fun {n ks} room stop => ?_
  rw [height_member] at room
  rw [kinds, List.append_assoc]
  refine h.grouped_steps (by omega) (reads_steps_member (by omega) fun m hm => ?_)
  exact reads_steps_stop (Kind.continuesOperand_eq_false stop) _

lemma filter {predicate : Expr} (hpredicate : Readable g bare predicate) :
    Readable g bare (.filter e predicate predicate.referencesRelative) := by
  refine .of_operand (kinds_ne_nil _) (closes_first_kinds _) fun {n ks} room stop => ?_
  rw [height_filter] at room
  rw [kinds, List.append_assoc, List.cons_append, List.append_assoc]
  have hread : ∀ m, n = m + 1 → Reads False (ofDepth g m).expression
      (predicate.kinds bare ++ .punctuation .closeBracket :: ks) predicate
      (.punctuation .closeBracket :: ks) := fun m hm => hpredicate.read (by omega) rfl
  refine h.grouped_steps (by omega) (reads_steps_filter (by omega) fun m hm => ⟨hread m hm, ?_⟩)
  exact reads_steps_stop (Kind.continuesOperand_eq_false stop) _

/-- A transform without arguments has two spellings. -/
lemma transform {es : List Expr} (hes : ∀ e ∈ es, Readable g bare e) (name : String) :
    Readable g bare (.transform name e es) := by
  refine .of_operand (kinds_ne_nil _) (closes_first_kinds _) fun {n ks} room stop => ?_
  have stop := Kind.continuesOperand_eq_false stop
  rw [height_transform] at room
  rw [kinds, List.append_assoc]
  refine h.grouped_steps (by omega) ?_
  split
  · rename_i none
    obtain rfl : es = [] := by simpa using (Bool.and_eq_true_iff.1 none).2
    apply reads_steps_transform (by omega) (Kind.isPunctuation_openParen stop)
    intro m hm
    exact reads_steps_stop stop _
  · rw [grouped, List.cons_append, List.cons_append, List.cons_append, List.append_assoc]
    refine reads_steps_transform_items (by omega) fun m hm => ⟨?_, reads_steps_stop stop _⟩
    exact Spelled.items (spelledAll hes) (by omega) rfl (by simp)

/-! ### Binary operators and conditionals -/

/-- Both operands stand in parentheses, so that the precedence of the operator does not matter. -/
lemma binary {right : Expr} (hright : Readable g bare right) {symbol : String}
    (registered : g.binary.contains symbol = true) :
    Readable g bare (.binary symbol e right) := by
  refine .of_conditional (kinds_ne_nil _) (closes_first_kinds _) fun {n ks} room closes => ?_
  have stop := Kind.continuesChain_of_closes closes
  obtain ⟨op, hop⟩ := Option.isSome_iff_exists.1 registered
  rw [height_binary] at room
  rw [kinds, List.append_assoc, List.cons_append]
  refine reads_conditional_stop closes ((h.grouped_operand (by omega) rfl).bind ?_)
  have hread : ∀ m, n = m + 1 → Reads False ((ofDepth g m).chain (op.precedence.toInt + 1))
      (grouped (right.kinds bare) ++ ks) right ks := fun m hm =>
    hright.grouped_chain (by omega) stop _
  have tight : anyPrecedence ≤ op.precedence.toInt := op.precedence.minValue_le_toInt
  refine reads_folds_fold hop tight (by omega) fun m hm => ⟨hread m hm, ?_⟩
  exact reads_folds_end stop _ _

lemma fallback {alternate : Expr} (halternate : Readable g bare alternate) :
    Readable g bare (.fallback e alternate) := by
  refine .of_conditional (kinds_ne_nil _) (closes_first_kinds _) fun {n ks} room closes => ?_
  rw [height_fallback] at room
  rw [kinds, List.append_assoc]
  refine reads_fallback (h.grouped_chain (by omega) rfl _) ?_
  exact halternate.read (by omega) closes

lemma conditional {consequent alternate : Expr} (hconsequent : Readable g bare consequent)
    (halternate : Readable g bare alternate) :
    Readable g bare (.conditional e consequent alternate) := by
  refine .of_conditional (kinds_ne_nil _) (closes_first_kinds _) fun {n ks} room closes => ?_
  rw [height_conditional] at room
  rw [kinds, List.append_assoc, List.cons_append, List.append_assoc]
  refine reads_conditional (h.grouped_chain (by omega) rfl _) ?_
    (hconsequent.read (by omega) rfl) (halternate.read (by omega) closes)
  rw [first_append consequent.kinds_ne_nil]
  exact Kind.isPunctuation_eq_false consequent.closes_first_kinds rfl

end

end Readable

mutual
/-- Every expression with the right marks and known operators is read back. -/
theorem readable : ∀ e : Expr, e.Everywhere (Registered g) → e.Everywhere Marked →
    Readable g bare e
  | .literal v, _, _ => .literal v
  | .identifier name, _, _ => .identifier name
  | .relative name, _, _ => .relative name
  | .member owner name _, known, marked => by
    obtain rfl := marked.1
    exact .member (readable owner known.2 marked.2) name
  | .filter subject predicate _, known, marked => by
    obtain rfl := marked.1
    exact .filter (readable subject known.2.1 marked.2.1) (readable predicate known.2.2 marked.2.2)
  | .array items, known, marked => .array (readableAll items known.2 marked.2)
  | .object entries, known, marked => .object (readableEntries entries known.2 marked.2)
  | .unary _ operand, known, marked => .unary (readable operand known.2 marked.2) known.1
  | .binary _ left right, known, marked =>
    .binary (readable left known.2.1 marked.2.1) (readable right known.2.2 marked.2.2) known.1
  | .conditional test consequent alternate, known, marked =>
    .conditional (readable test known.2.1 marked.2.1)
      (readable consequent known.2.2.1 marked.2.2.1)
      (readable alternate known.2.2.2 marked.2.2.2)
  | .fallback test alternate, known, marked =>
    .fallback (readable test known.2.1 marked.2.1) (readable alternate known.2.2 marked.2.2)
  | .call name arguments, known, marked => .call (readableAll arguments known.2 marked.2) name
  | .transform name subject arguments, known, marked =>
    .transform (readable subject known.2.1 marked.2.1)
      (readableAll arguments known.2.2 marked.2.2) name

lemma readableAll : ∀ es : List Expr, EverywhereAll (Registered g) es → EverywhereAll Marked es →
    ∀ e ∈ es, Readable g bare e
  | [], _, _ => List.forall_mem_nil _
  | e :: es, known, marked =>
    List.forall_mem_cons.2 ⟨readable e known.1 marked.1, readableAll es known.2 marked.2⟩

lemma readableEntries : ∀ es : List (String × Expr), EverywhereEntries (Registered g) es →
    EverywhereEntries Marked es → ∀ e ∈ es, Readable g bare e.2
  | [], _, _ => List.forall_mem_nil _
  | (_, e) :: es, known, marked =>
    List.forall_mem_cons.2 ⟨readable e known.1 marked.1, readableEntries es known.2 marked.2⟩
end

end Level

/-! ### Whole expressions -/

/-- An expression that is not too high is parsed from its spelling. -/
theorem Expr.parse_kinds {g : Grammar} (bare : Bool) {e : Expr}
    (registered : e.Everywhere (Registered g)) (marked : e.Everywhere Marked)
    (closed : e.freeRelative? = none) (low : e.height ≤ 31) {tokens : List Token}
    (htokens : tokens.map Token.kind = e.kinds bare ∨
      tokens.map Token.kind = e.kinds bare ++ [.endOfInput]) :
    parse g tokens = .ok e := by
  have hreads : ∀ rest, (Kind.first rest).closes = true →
      Parse.Reads False (parseExpression g) (e.kinds bare ++ rest) e rest := fun rest hrest =>
    (Level.readable e registered marked).read (by rw [maxNesting]; omega) hrest
  exact (parse_of_reads hreads closed htokens).resolve_right And.left

/-- A filter with a minus sign in its predicate is read back from its spelling with all parentheses.
-/
theorem Expr.parse_kinds_filter :
    parse .standard ([.punctuation .openParen, .identifier "users", .punctuation .closeParen,
        .punctuation .openBracket, .punctuation .openParen, .punctuation .dot, .identifier "age",
        .punctuation .closeParen, .operator .binary ">", .punctuation .openParen,
        .operator .unary "-", .punctuation .openParen, .literal .null, .punctuation .closeParen,
        .punctuation .closeParen, .punctuation .closeBracket].map Token.ofKind)
      = .ok (.filter (.identifier "users")
        (.binary ">" (.relative "age") (.unary "-" (.literal .null))) true) := by
  have registered : Everywhere (Registered .standard) (.filter (.identifier "users")
      (.binary ">" (.relative "age") (.unary "-" (.literal .null))) true) := by
    simp only [Everywhere, Registered, and_true, true_and]
    decide
  have marked : Everywhere Marked (.filter (.identifier "users")
      (.binary ">" (.relative "age") (.unary "-" (.literal .null))) true) := by
    simp only [Everywhere, Marked, and_true]
    decide
  exact parse_kinds true registered marked rfl (by decide) (.inl rfl)

end Sift
