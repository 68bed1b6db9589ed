import Mathlib.Data.List.Forall2
import Sift.Proofs.Parse.Alike
import Sift.Proofs.Token.Reading
import Sift.Template

/-!
# Splicing is safe

A template whose values are replaced by others fails as before, or spells the same expression with
the other values in the slots. A slot may be the key of an entry of an object, so texts are to be
replaced by texts and other values by other values; nothing else is asked of them.
-/

namespace Sift

variable {g : Grammar} {slots : List Slot}

/-! ### Tokens of source texts -/

namespace Token.Alike

variable {ts ts' : List Token}

lemma refl (ts : List Token) : Token.Alike [] ts ts := by
  induction ts with
  | nil => exact .nil
  | cons t ts ih => exact .same t (fun _ => rfl) ih

/-- Tokens without an end can be followed by others. -/
lemma append {slots' : List Slot} {us us' : List Token} (h : Token.Alike slots ts ts')
    (noEnd : ∀ t ∈ ts, t.kind.isEnd = false) (more : Token.Alike slots' us us') :
    Token.Alike (slots ++ slots') (ts ++ us) (ts' ++ us') := by
  induction h with
  | nil => exact more
  | same t last rest ih =>
    refine .same t (fun atEnd => ?_) (ih fun u hu => noEnd u (by simp [hu]))
    rw [noEnd t (by simp)] at atEnd
    cases atEnd
  | slot position text rest ih => exact .slot position text (ih fun u hu => noEnd u (by simp [hu]))

/-- A lexer goes on in the same way behind alike tokens: behind a value it expects no operand. -/
lemma afterTokens_eq (h : Token.Alike slots ts ts') (lx : Lexer) :
    lx.afterTokens ts = lx.afterTokens ts' := by
  have hafter : ∀ ts, lx.afterTokens ts
      = (ts.getLast?.map fun t => lx.afterKind t.kind).getD lx := by
    intro ts
    rw [Lexer.afterTokens]
    cases ts.getLast? <;> rfl
  rw [hafter, hafter, h.map_getLast? fun _ _ _ => rfl]

end Token.Alike

/-! ### Pieces -/

/-- Pieces of the same template: the same text, or two values that are texts both or neither. -/
inductive Fragment.Alike : Fragment → Fragment → Prop
  | source (text : String) : Alike (source text) (source text)
  | value {v v' : Value} (text : v.isString = v'.isString) : Alike (value v) (value v')

/-- The errors are the same, but that each may quote its value of a slot. -/
inductive Error.Alike (slots : List Slot) : Error → Error → Prop
  | same (e : Error) : Alike slots e e
  | parse {e e' : ParseError} (h : ParseError.Alike slots e e') : Alike slots (parse e) (parse e')

namespace Template

def values : List Fragment → List Value
  | [] => []
  | .source _ :: rest => values rest
  | .value v :: rest => v :: values rest

/-- The pairs of values that are spliced in at the same place. -/
def splices (fragments fragments' : List Fragment) : List Slot :=
  (values fragments).zip (values fragments')

/-- The first piece is read, then those behind it. -/
lemma tokens_source (before : List Token) (offset : Nat) (text : String)
    (rest : List Fragment) : tokens g before offset (.source text :: rest)
      = match ((Lexer.ofSource text offset).afterTokens before).run g with
        | (read, none) => tokens g (before ++ read) (offset + text.length) rest
        | (_, some e) => .error e := by
  rw [tokens, tokensAfter]
  generalize ((Lexer.ofSource text offset).afterTokens before).run g = result
  obtain ⟨read, _ | e⟩ := result <;> rfl

/-- Alike pieces behind alike tokens make alike tokens, or none of them do. -/
lemma tokens_alike {before before' : List Token} (h : Token.Alike slots before before')
    (noEnd : ∀ t ∈ before, t.kind.isEnd = false) {fs fs' : List Fragment}
    (hfs : List.Forall₂ Fragment.Alike fs fs') (offset : Nat) :
    (∃ ts ts', tokens g before offset fs = .ok ts ∧ tokens g before' offset fs' = .ok ts' ∧
      Token.Alike (slots ++ splices fs fs') ts ts') ∨
    ∃ e, tokens g before offset fs = .error e ∧ tokens g before' offset fs' = .error e := by
  induction hfs generalizing before before' slots offset with
  | nil => exact .inl ⟨_, _, rfl, rfl, h.append noEnd (.refl _)⟩
  | cons head tail ih =>
    cases head with
    | source text =>
      rw [tokens_source, tokens_source, ← h.afterTokens_eq]
      have hread : ∀ t ∈ (((Lexer.ofSource text offset).afterTokens before).run g).1,
          t.kind.isEnd = false :=
        Lexer.isEnd_of_mem_run _
      revert hread
      generalize ((Lexer.ofSource text offset).afterTokens before).run g = result
      obtain ⟨read, _ | e⟩ := result
      · intro hread
        have hmore := h.append noEnd (.refl read)
        rw [List.append_nil] at hmore
        refine ih hmore (fun t ht => ?_) (offset + text.length)
        exact (List.mem_append.1 ht).elim (noEnd t) (hread t)
      · exact fun _ => .inr ⟨e, rfl, rfl⟩
    | @value v v' text =>
      have hmore := h.append noEnd (.slot offset text .nil)
      have hopen : ∀ t ∈ before ++ [⟨.literal v, "", offset⟩], t.kind.isEnd = false := by
        intro t ht
        rcases List.mem_append.1 ht with ht | ht
        · exact noEnd t ht
        · rw [List.mem_singleton.1 ht]
          rfl
      have hrest := ih hmore hopen offset
      rw [List.append_assoc] at hrest
      exact hrest

lemma compile_of_error {fs : List Fragment} {e : LexError} (h : tokens g [] 0 fs = .error e) :
    compile g fs = .error (.lex e) := by
  rw [compile, h]
  rfl

/-- Pieces whose tokens are read are parsed. -/
lemma compile_of_ok {fs : List Fragment} {ts : List Token} (h : tokens g [] 0 fs = .ok ts) :
    compile g fs = (parse g ts).mapError .parse := by
  rw [compile, h]
  rfl

/-- Replacing the values of a template changes nothing but the slots: either both templates fail,
with errors that differ at most in the value that they quote, or both compile, to expressions that
differ only in the slots. -/
theorem compile_alike (g : Grammar) {fs fs' : List Fragment}
    (h : List.Forall₂ Fragment.Alike fs fs') :
    (∃ e e', compile g fs = .ok e ∧ compile g fs' = .ok e' ∧ Expr.Alike (splices fs fs') e e') ∨
    (∃ e e', compile g fs = .error e ∧ compile g fs' = .error e' ∧
      Error.Alike (splices fs fs') e e') := by
  obtain ⟨ts, ts', hts, hts', hall⟩ | ⟨e, he, he'⟩ :=
    tokens_alike (g := g) .nil (List.forall_mem_nil _) h 0
  · rw [compile_of_ok hts, compile_of_ok hts']
    rcases parse_alike hall g with ⟨e, e', he, he', halike⟩ | ⟨e, e', he, he', halike⟩
    · rw [he, he']
      exact .inl ⟨e, e', rfl, rfl, halike⟩
    · rw [he, he']
      exact .inr ⟨_, _, rfl, rfl, .parse halike⟩
  · exact .inr ⟨_, _, compile_of_error he, compile_of_error he', .same _⟩

/-- An object with one entry, whose key and value are spliced in. -/
def entryTemplate (key : String) (v : Value) : List Fragment :=
  [.source "\x7b", .value (.string key), .source ":", .value v, .source "\x7d"]

/-- A key and a value with braces and quotes in them are slots like others. -/
theorem compile_alike_entry : ∃ e e',
    compile .empty (entryTemplate "x" .null) = .ok e ∧
    compile .empty (entryTemplate "\x7d, \"" (.boolean true)) = .ok e' ∧
    Expr.Alike [(.string "x", .string "\x7d, \""), (.null, .boolean true)] e e' := by
  have pieces : List.Forall₂ Fragment.Alike (entryTemplate "x" .null)
      (entryTemplate "\x7d, \"" (.boolean true)) :=
    .cons (.source _) (.cons (.value rfl) (.cons (.source _) (.cons (.value rfl)
      (.cons (.source _) .nil))))
  have compiles : compile .empty (entryTemplate "x" .null)
      = .ok (.object [("x", .literal .null)]) := by
    have htokens : tokens .empty [] 0 (entryTemplate "x" .null) = .ok
        [⟨.punctuation .openBrace, "\x7b", 0⟩, ⟨.literal (.string "x"), "", 1⟩,
          ⟨.punctuation .colon, ":", 1⟩, ⟨.literal .null, "", 2⟩,
          ⟨.punctuation .closeBrace, "\x7d", 2⟩, ⟨.endOfInput, "", 3⟩] := by
      cbv
    rw [compile_of_ok htokens]
    rfl
  refine (compile_alike .empty pieces).resolve_right ?_
  rintro ⟨e, e', he, -⟩
  rw [compiles] at he
  cases he

end Template

end Sift
