import Sift.Proofs.Evaluation.Congruence
import Sift.Proofs.Grammar.Independence

/-!
# What evaluation depends on

An expression is evaluated by looking names up: properties in the context, operators, functions and
transforms in the grammar. Two environments in which the names of an expression stand for the same
make it the same process in every frame, so the calls, the pauses and the result are the same too.
-/

namespace Sift

/-- What an expression looks up in its environment. -/
inductive Name where
  /-- A property of the context. -/
  | property (name : String)
  /-- An operator, a function or a transform of the grammar. -/
  | callee (callee : Callee)
deriving DecidableEq, Inhabited

/-- The subject of the edits that can change what is called. -/
def Callee.subject : Callee → Subject
  | unary symbol | binary symbol => .operator symbol
  | function name => .function name
  | transform name => .transform name

namespace Name

/-- A name stands for the same in both environments. -/
def Agree (env env' : Environment) : Name → Prop
  | property name => env.context.property name = env'.context.property name
  | callee (.unary symbol) => env.grammar.unary.get? symbol = env'.grammar.unary.get? symbol
  | callee (.binary symbol) => env.grammar.binary.get? symbol = env'.grammar.binary.get? symbol
  | callee (.function name) => env.grammar.functions.get? name = env'.grammar.functions.get? name
  | callee (.transform name) =>
    env.grammar.transforms.get? name = env'.grammar.transforms.get? name

end Name

namespace Expr

mutual
/-- The names that an expression looks up, in source order. The properties of elements are not
among them. -/
def names : Expr → List Name
  | literal _ | relative _ => []
  | identifier name => [.property name]
  | member owner _ _ => owner.names
  | filter subject predicate _ => subject.names ++ predicate.names
  | array items => namesAll items
  | object entries => namesEntries entries
  | unary symbol operand => .callee (.unary symbol) :: operand.names
  | binary symbol left right => .callee (.binary symbol) :: (left.names ++ right.names)
  | conditional test consequent alternate =>
    test.names ++ (consequent.names ++ alternate.names)
  | fallback test alternate => test.names ++ alternate.names
  | call name arguments => .callee (.function name) :: namesAll arguments
  | transform name subject arguments =>
    .callee (.transform name) :: (subject.names ++ namesAll arguments)

def namesAll : List Expr → List Name
  | [] => []
  | e :: rest => e.names ++ namesAll rest

def namesEntries : List (String × Expr) → List Name
  | [] => []
  | (_, e) :: rest => e.names ++ namesEntries rest
end

section

variable {P : Expr → Prop} {Q : Name → Prop}

mutual
/-- What holds of an expression because of its names holds everywhere in it. -/
lemma everywhere_of_names (root : ∀ e : Expr, (∀ n ∈ e.names, Q n) → P e) :
    ∀ e : Expr, (∀ n ∈ e.names, Q n) → e.Everywhere P
  | literal _, h | identifier _, h | relative _, h => root _ h
  | member owner _ _, h => ⟨root _ h, everywhere_of_names root owner h⟩
  | filter subject predicate _, h =>
    have parts := List.forall_mem_append.1 h
    ⟨root _ h, everywhere_of_names root subject parts.1, everywhere_of_names root predicate parts.2⟩
  | array items, h => ⟨root _ h, everywhereAll_of_names root items h⟩
  | object entries, h => ⟨root _ h, everywhereEntries_of_names root entries h⟩
  | unary _ operand, h =>
    ⟨root _ h, everywhere_of_names root operand (List.forall_mem_cons.1 h).2⟩
  | binary _ left right, h =>
    have parts := List.forall_mem_append.1 (List.forall_mem_cons.1 h).2
    ⟨root _ h, everywhere_of_names root left parts.1, everywhere_of_names root right parts.2⟩
  | conditional test consequent alternate, h =>
    have parts := List.forall_mem_append.1 h
    have branches := List.forall_mem_append.1 parts.2
    ⟨root _ h, everywhere_of_names root test parts.1,
      everywhere_of_names root consequent branches.1, everywhere_of_names root alternate branches.2⟩
  | fallback test alternate, h =>
    have parts := List.forall_mem_append.1 h
    ⟨root _ h, everywhere_of_names root test parts.1, everywhere_of_names root alternate parts.2⟩
  | call _ arguments, h =>
    ⟨root _ h, everywhereAll_of_names root arguments (List.forall_mem_cons.1 h).2⟩
  | transform _ subject arguments, h =>
    have parts := List.forall_mem_append.1 (List.forall_mem_cons.1 h).2
    ⟨root _ h, everywhere_of_names root subject parts.1,
      everywhereAll_of_names root arguments parts.2⟩

lemma everywhereAll_of_names (root : ∀ e : Expr, (∀ n ∈ e.names, Q n) → P e) :
    ∀ es : List Expr, (∀ n ∈ namesAll es, Q n) → EverywhereAll P es
  | [], _ => trivial
  | e :: rest, h =>
    have parts := List.forall_mem_append.1 h
    ⟨everywhere_of_names root e parts.1, everywhereAll_of_names root rest parts.2⟩

lemma everywhereEntries_of_names (root : ∀ e : Expr, (∀ n ∈ e.names, Q n) → P e) :
    ∀ es : List (String × Expr), (∀ n ∈ namesEntries es, Q n) → EverywhereEntries P es
  | [], _ => trivial
  | (_, e) :: rest, h =>
    have parts := List.forall_mem_append.1 h
    ⟨everywhere_of_names root e parts.1, everywhereEntries_of_names root rest parts.2⟩
end

end

/-! ### Agreement on the names -/

variable {env env' : Environment}

/-- Environments that agree on the names of an expression agree at its root. -/
lemma agree_of_names (missing : env.missing = env'.missing) (e : Expr)
    (h : ∀ n ∈ e.names, n.Agree env env') : e.Agree Process.Same env env' := by
  cases e with
  | identifier name => exact h _ (List.mem_singleton.2 rfl)
  | unary symbol operand =>
    have same : env.grammar.unary.get? symbol = _ := h _ List.mem_cons_self
    rw [Agree, same, missing]
    exact .refl (fun _ _ _ => rfl) fun _ => rfl
  | binary symbol left right =>
    have same : env.grammar.binary.get? symbol = _ := h _ List.mem_cons_self
    rw [Agree, same, missing]
    exact .refl (fun op _ => .refl symbol left right op.rule) fun _ => rfl
  | call name arguments =>
    have same : env.grammar.functions.get? name = _ := h _ List.mem_cons_self
    rw [Agree, same, missing]
    exact .refl (fun _ _ _ => rfl) fun _ => rfl
  | transform name subject arguments =>
    have same : env.grammar.transforms.get? name = _ := h _ List.mem_cons_self
    rw [Agree, same, missing]
    exact .refl (fun _ _ _ _ => rfl) fun _ => rfl
  | _ => trivial

/-- Environments that agree on the names of an expression evaluate it alike. -/
lemma eval_eq_of_agree (missing : env.missing = env'.missing) (e : Expr)
    (h : ∀ n ∈ e.names, n.Agree env env') (frame : Option Value) :
    e.eval env frame = e.eval env' frame := by
  refine eval_related Process.compositional_same e
    (everywhere_of_names (agree_of_names missing) e h) (.inl fun name => ?_)
  cases frame with
  | none =>
    rw [eval, eval, missing]
  | some element => rw [eval, eval]

end Expr

/-- Grammars that hold the same under a name look it up alike. -/
lemma Name.agree_of_sameAt {g g' : Grammar} {c : Callee} (h : g.SameAt g' c.subject)
    (context context' : Value) :
    (callee c).Agree { grammar := g, context } { grammar := g', context := context' } := by
  cases c with
  | unary symbol => exact h.2
  | binary symbol => exact h.1
  | function name | transform name => exact h

namespace Expr

/-- Evaluation depends only on what the names in the expression stand for: two grammars and two
contexts that agree on them give one and the same process, in every frame. So do edits about other
names and changes of other parts of the context. -/
theorem eval_eq_of_names (e : Expr) (frame : Option Value) :
    (∀ g g' context context',
      (∀ n ∈ e.names, n.Agree { grammar := g, context } { grammar := g', context := context' }) →
      e.eval { grammar := g, context } frame
        = e.eval { grammar := g', context := context' } frame) ∧
    ∀ build g edits context context',
      (∀ c, .callee c ∈ e.names → Edit.about c.subject edits = []) →
      (∀ name, .property name ∈ e.names → context.property name = context'.property name) →
      e.eval { grammar := g, context } frame
        = e.eval { grammar := g.editAllWith build edits, context := context' } frame := by
  constructor
  · intro g g' context context' h
    refine eval_eq_of_agree ?_ e h frame
    rfl
  · intro build g edits context context' unedited unchanged
    refine eval_eq_of_agree ?_ e (fun n hn => ?_) frame
    · rfl
    · cases n with
      | property name => exact unchanged name hn
      | callee c =>
        exact Name.agree_of_sameAt (Grammar.sameAt_editAllWith edits (unedited c hn)).symm _ _

def namedThings : Expr :=
  .filter (.identifier "things") (.binary "&&" (.relative "on")
    (.binary "==" (.relative "name") (.identifier "user"))) true

/-- An operator and a property that are not looked up make no difference, nor do edits of other
names. -/
theorem eval_namedThings_eq :
    let g := Grammar.standard
    let g' := g.edit (.removeOperator "+")
    let things := Value.array [.object [("name", .string "key"), ("on", .boolean true)]]
    let context := Value.object [("things", things), ("user", .string "key")]
    let context' := Value.object [("name", .null), ("things", things), ("user", .string "key")]
    ((∀ n ∈ namedThings.names,
        n.Agree { grammar := g, context } { grammar := g', context := context' }) ∧
      namedThings.eval { grammar := g, context } none
        = namedThings.eval { grammar := g', context := context' } none) ∧
    (∀ c, .callee c ∈ namedThings.names → Edit.about c.subject Grammar.someEdits = []) ∧
      (∀ name, .property name ∈ namedThings.names →
        context.property name = context'.property name) ∧
      namedThings.eval { grammar := g, context } none
        = namedThings.eval
          { grammar := g.editAllWith .oneByOne Grammar.someEdits, context := context' } none := by
  intro g g' things context context'
  have names : namedThings.names = [.property "things", .callee (.binary "&&"),
      .callee (.binary "=="), .property "user"] := rfl
  have agree : ∀ n ∈ namedThings.names,
      n.Agree { grammar := g, context } { grammar := g', context := context' } := by
    simp only [names, List.forall_mem_cons, Name.Agree, g', Grammar.edit, Grammar.binary_editWith]
    exact ⟨rfl, by simp, by simp, rfl, by simp⟩
  have unedited : ∀ c, .callee c ∈ namedThings.names →
      Edit.about c.subject Grammar.someEdits = [] := by
    intro c hc
    have hc : c = .binary "&&" ∨ c = .binary "==" := by simpa [names] using hc
    rcases hc with rfl | rfl <;> rfl
  have unchanged : ∀ name, .property name ∈ namedThings.names →
      context.property name = context'.property name := by
    intro name hname
    have hname : name = "things" ∨ name = "user" := by simpa [names] using hname
    rcases hname with rfl | rfl <;> rfl
  exact ⟨⟨agree, (eval_eq_of_names namedThings none).1 _ _ _ _ agree⟩, unedited, unchanged,
    (eval_eq_of_names namedThings none).2 _ _ _ _ _ unedited unchanged⟩

end Expr

end Sift
