import Sift.Grammar.Standard
import Sift.Proofs.Evaluation.Related
import Sift.Proofs.Parse.Marks
import Sift.Proofs.Template.Splicing

/-!
# When evaluations are equal

Evaluations are processes, so equal evaluations make the same calls in the same order, wait for them
in the same way and have the same result. An expression that does not reference its element is
evaluated alike in all frames. An expression that has been read never comes to an operator that its
grammar does not know, nor to a relative identifier without an element: what is put in place of them
makes no difference.
-/

namespace Sift

/-! ### Equality as a relation between processes -/

abbrev Process.Same (α : Type) (p p' : Process α) : Prop := p = p'

lemma Process.compositional_same : Process.Compositional Process.Same where
  pure _ := rfl
  bind := by
    rintro α β p _ f f' rfl hf
    rw [funext hf]

lemma BinaryRule.Agree.refl (symbol : String) (left right : Expr) (rule : BinaryRule) :
    BinaryRule.Agree Process.Same symbol left right rule rule := by
  cases rule with
  | eager f => exact .eager fun _ _ => rfl
  | lazy plan =>
    refine .lazy fun operand operand' same => ?_
    obtain rfl : operand = operand' := funext same
    rfl

namespace Expr

/-- The root names something that the grammar does not know. -/
inductive Unknown (g : Grammar) : Expr → Missing → Prop
  | unary {symbol : String} (operand : Expr) (h : g.unary.get? symbol = none) :
    Unknown g (unary symbol operand) (.operator symbol)
  | binary {symbol : String} (left right : Expr) (h : g.binary.get? symbol = none) :
    Unknown g (binary symbol left right) (.operator symbol)
  | call {name : String} (arguments : List Expr) (h : g.functions.get? name = none) :
    Unknown g (call name arguments) (.function name)
  | transform {name : String} (subject : Expr) (arguments : List Expr)
    (h : g.transforms.get? name = none) :
    Unknown g (transform name subject arguments) (.transform name)

/-- Environments that go on alike where names are unknown agree everywhere. -/
lemma agree_of_unknown (g : Grammar) (context : Value) {missing missing' : Missing → Process Value}
    {e : Expr} (same : ∀ m, e.Unknown g m → missing m = missing' m) :
    e.Agree Process.Same ⟨g, context, missing⟩ ⟨g, context, missing'⟩ := by
  cases e with
  | identifier name => rfl
  | unary symbol operand => exact .refl (fun _ _ _ => rfl) fun h => same _ (.unary operand h)
  | binary symbol left right =>
    exact .refl (fun op _ => .refl symbol left right op.rule) fun h => same _ (.binary left right h)
  | call name arguments => exact .refl (fun _ _ _ => rfl) fun h => same _ (.call arguments h)
  | transform name subject arguments =>
    exact .refl (fun _ _ _ _ => rfl) fun h => same _ (.transform subject arguments h)
  | _ => trivial

/-- The operators of a regular expression are known. -/
lemma Regular.not_unknown_operator {g : Grammar} {e : Expr} (h : e.Regular g) (symbol : String) :
    ¬ e.Unknown g (.operator symbol) := by
  intro unknown
  have registered := h.registered
  cases unknown with
  | unary operand unknown =>
    rw [Registered, Dict.contains, unknown] at registered
    cases registered
  | binary left right unknown =>
    rw [Registered, Dict.contains, unknown] at registered
    cases registered

lemma referencesRelative_eq_false_iff {e : Expr} :
    e.referencesRelative = false ↔ e.freeRelative? = none := by
  simp [referencesRelative]

/-! ### Frames -/

/-- The filters of parsed expressions are marked, and an expression with marked filters that does
not reference its element is evaluated alike in all frames. -/
theorem eval_eq_of_referencesRelative :
    (∀ g tokens e, parse g tokens = .ok e → e.Everywhere FilterMarked) ∧
    ∀ e : Expr, e.Everywhere FilterMarked → e.referencesRelative = false →
      ∀ env frame frame', e.eval env frame = e.eval env frame' := by
  constructor
  · intro g tokens e h
    exact (regular_of_parse h).mono fun _ regular => regular.marked.filterMarked
  · intro e marked static env frame frame'
    have agree : ∀ e : Expr, e.Agree Process.Same env env :=
      fun e => agree_of_unknown env.grammar env.context fun _ _ => rfl
    exact eval_related Process.compositional_same e (everywhere_of_forall agree e)
      (.inr ⟨referencesRelative_eq_false_iff.1 static, marked⟩)

/-- A predicate that looks for the first of some things whose name is the name of a user. It is
static, although there is a filter in it that is not. -/
def nestedPredicate : Expr :=
  .filter (.filter (.identifier "things") (.binary "==" (.relative "name") (.identifier "user"))
    true) (.literal (.integer 0)) false

/-- A static predicate with a filter in it comes to the same for every element. -/
theorem eval_nestedPredicate_eq :
    nestedPredicate.Everywhere FilterMarked ∧ nestedPredicate.referencesRelative = false ∧
      nestedPredicate.eval { grammar := .standard, context := .null } none
        = nestedPredicate.eval { grammar := .standard, context := .null }
          (some (.object [("name", .string "key")])) := by
  have marked : nestedPredicate.Everywhere FilterMarked := by
    simp only [nestedPredicate, Everywhere, FilterMarked, and_true]
    exact ⟨rfl, rfl⟩
  exact ⟨marked, rfl, eval_eq_of_referencesRelative.2 nestedPredicate marked rfl _ _ _⟩

end Expr

/-! ### Operators and elements -/

namespace Template

variable {g : Grammar} {fragments : List Fragment} {e : Expr}

/-- What is read from pieces has been parsed from their tokens. -/
lemma exists_parse_of_compile (h : compile g fragments = .ok e) :
    ∃ read, parse g read = .ok e := by
  cases hread : tokens g [] 0 fragments with
  | error error =>
    rw [compile_of_error hread] at h
    cases h
  | ok read =>
    rw [compile_of_ok hread] at h
    refine ⟨read, ?_⟩
    cases hparse : parse g read with
    | error error =>
      rw [hparse] at h
      cases h
    | ok e' =>
      rw [hparse] at h
      obtain rfl := Except.ok.inj h
      rfl

/-- An expression that has been read comes to no operator that its grammar does not know, and to no
relative identifier without an element: whatever is put in place of them, be it a failure, a value,
calls or pauses, the evaluation is the same. -/
theorem eval_eq_of_compile (h : compile g fragments = .ok e) (context : Value)
    {missing missing' : Missing → Process Value}
    (functions : ∀ name, missing (.function name) = missing' (.function name))
    (transforms : ∀ name, missing (.transform name) = missing' (.transform name)) :
    e.eval ⟨g, context, missing⟩ none = e.eval ⟨g, context, missing'⟩ none := by
  obtain ⟨read, hparse⟩ := exists_parse_of_compile h
  have regular := regular_of_parse hparse
  refine Expr.eval_related Process.compositional_same e (regular.mono fun part hpart => ?_)
    (.inr ⟨freeRelative?_of_parse hparse, regular.mono fun _ hpart => hpart.marked.filterMarked⟩)
  refine Expr.agree_of_unknown g context fun m unknown => ?_
  cases m with
  | operator symbol => exact absurd unknown (hpart.not_unknown_operator symbol)
  | function name => exact functions name
  | transform name => exact transforms name
  | element name => cases unknown

def comparing : Grammar :=
  Grammar.empty.edit (.binary ">" (.immediate 20 (Value.compareBy ">" Ordering.isGT)))

/-- Some values, filtered by one of their properties. -/
def filterTemplate : List Fragment :=
  [.value (.array [.null]), .source "[.a>", .value (.integer 0), .source "]"]

/-- Of a filter that is read from pieces, no evaluation asks for an unknown operator or for an
element outside of the filter. -/
theorem eval_eq_of_compile_filterTemplate : ∃ e,
    compile comparing filterTemplate = .ok e ∧ ∀ p : Process Value,
      e.eval ⟨comparing, .null, fun m => .done m.outcome⟩ none
        = e.eval ⟨comparing, .null, fun | .operator _ | .element _ => p | m => .done m.outcome⟩
          none := by
  have bracket : comparing.matchSymbol "[.a>".toList = none := by decide +kernel
  have dot : comparing.matchSymbol ".a>".toList = none := by decide +kernel
  have name : comparing.matchSymbol "a>".toList = none := by decide +kernel
  have symbol : comparing.matchSymbol ">".toList = some ">" := by decide +kernel
  have bracket' : comparing.matchSymbol "]".toList = none := by decide +kernel
  have comparison : Lexer.Reads comparing ⟨"a>".toList, 2, false, true⟩
      [⟨.identifier "a", "a", 2⟩, ⟨.operator .binary ">", ">", 3⟩] :=
    .step rfl (.word name (by decide)) (.step rfl (.symbol symbol) (.stop rfl))
  have opened : tokensAfter comparing [⟨.literal (.array [.null]), "", 0⟩] "[.a>" 0 =
      ([⟨.literal (.array [.null]), "", 0⟩, ⟨.punctuation .openBracket, "[", 0⟩,
        ⟨.punctuation .dot, ".", 1⟩, ⟨.identifier "a", "a", 2⟩,
        ⟨.operator .binary ">", ">", 3⟩], none) :=
    tokensAfter_eq_none_iff.2 ⟨_, rfl, .step rfl (.punctuation bracket rfl)
      (.step rfl (.punctuation dot rfl) comparison)⟩
  have closed : ∀ before : List Token,
      tokensAfter comparing (before ++ [⟨.literal (.integer 0), "", 4⟩]) "]" 4
        = (before ++ [⟨.literal (.integer 0), "", 4⟩] ++ [⟨.punctuation .closeBracket, "]", 4⟩],
          none) := by
    intro before
    refine tokensAfter_eq_none_iff.2 ⟨_, rfl, ?_⟩
    rw [Lexer.afterTokens, List.getLast?_concat]
    exact .step rfl (.punctuation bracket' rfl) (.stop rfl)
  have htokens : tokens comparing [] 0 filterTemplate = .ok
      [⟨.literal (.array [.null]), "", 0⟩, ⟨.punctuation .openBracket, "[", 0⟩,
        ⟨.punctuation .dot, ".", 1⟩, ⟨.identifier "a", "a", 2⟩, ⟨.operator .binary ">", ">", 3⟩,
        ⟨.literal (.integer 0), "", 4⟩, ⟨.punctuation .closeBracket, "]", 4⟩,
        ⟨.endOfInput, "", 5⟩] := by
    have length : 0 + "[.a>".length = 4 := rfl
    simp only [filterTemplate, tokens, List.nil_append, opened, length, closed]
    rfl
  have compiles : compile comparing filterTemplate = .ok (.filter (.literal (.array [.null]))
      (.binary ">" (.relative "a") (.literal (.integer 0))) true) := by
    rw [compile_of_ok htokens]
    rfl
  exact ⟨_, compiles, fun p => eval_eq_of_compile compiles .null (fun _ => rfl) fun _ => rfl⟩

end Template

end Sift
