import Sift.Proofs.Expr.Alike
import Sift.Proofs.Parse.Steps

/-!
# Parsing tokens that differ in spliced values

Two token lists are alike if they are the same but for slots, where each has a spliced literal; a
slot holds a text in both or in none. `Parse.Alike ahead R p p'` relates two steps: begun at tokens
that are alike, both fail in the same way, or both succeed, take the same slots, and have results
related by `R`. Every production keeps this relation, so a spliced value never decides how its
surroundings are read.
-/

namespace Sift

open Token (Kind)

def Value.isString : Value → Bool
  | .string _ => true
  | _ => false

/-! ### Tokens, cursors and errors -/

/-- The tokens are the same but for the slots. There are no slots behind an end. -/
inductive Token.Alike : List Slot → List Token → List Token → Prop
  | nil : Alike [] [] []
  | same {slots : List Slot} {ts ts' : List Token} (t : Token)
    (last : t.kind.isEnd = true → slots = []) (rest : Alike slots ts ts') :
    Alike slots (t :: ts) (t :: ts')
  | slot {slots : List Slot} {ts ts' : List Token} {v v' : Value} (position : Nat)
    (text : v.isString = v'.isString) (rest : Alike slots ts ts') :
    Alike ((v, v') :: slots) (⟨.literal v, "", position⟩ :: ts) (⟨.literal v', "", position⟩ :: ts')

/-- Slots change no number of tokens. -/
lemma Token.Alike.length_eq {slots : List Slot} {ts ts' : List Token} (h : Alike slots ts ts') :
    ts.length = ts'.length := by
  induction h with
  | nil => rfl
  | same t last rest ih => rw [List.length_cons, List.length_cons, ih]
  | slot position text rest ih => rw [List.length_cons, List.length_cons, ih]

/-- The tokens left are alike, and end at the same position. -/
structure Cursor.Alike (slots : List Slot) (c c' : Cursor) : Prop where
  rest : Token.Alike slots c.rest c'.rest
  stop : c.stop = c'.stop

/-- The errors are the same, but that each may quote its value of a slot. -/
inductive ParseError.Alike (slots : List Slot) : ParseError → ParseError → Prop
  | same (e : ParseError) : Alike slots e e
  | unexpectedToken {v v' : Value} (slot : (v, v') ∈ slots) (expected : Expectation)
    (position : Nat) : Alike slots (.unexpectedToken v.asString expected position)
      (.unexpectedToken v'.asString expected position)

lemma ParseError.Alike.mono {slots slots' : List Slot} {e e' : ParseError}
    (h : ParseError.Alike slots e e') (sub : slots ⊆ slots') : ParseError.Alike slots' e e' := by
  cases h with
  | same => exact .same e
  | unexpectedToken slot expected position => exact .unexpectedToken (sub slot) expected position

def Cursor.tail (c : Cursor) : Cursor := { c with rest := c.rest.drop 1 }

/-- What is known about the next tokens of two cursors. -/
inductive Ahead where
  | any
  /-- They are the same. -/
  | same
  /-- They are the values of a slot. -/
  | slot (v v' : Value) (position : Nat)

/-- The cursors are alike, with such next tokens. -/
def Ahead.Holds : Ahead → List Slot → Cursor → Cursor → Prop
  | any, slots, c, c' => c.Alike slots c'
  | same, slots, c, c' => c.Alike slots c' ∧ c.current = c'.current ∧ c.tail.Alike slots c'.tail
  | slot v v' position, slots, c, c' => c.Alike slots c' ∧
    c.current = ⟨.literal v, "", position⟩ ∧ c'.current = ⟨.literal v', "", position⟩ ∧
    ∃ rest, slots = (v, v') :: rest ∧ c.tail.Alike rest c'.tail

lemma Ahead.Holds.alike {ahead : Ahead} {slots : List Slot} {c c' : Cursor}
    (h : ahead.Holds slots c c') : c.Alike slots c' := by
  cases ahead with
  | any => exact h
  | same => exact h.1
  | slot v v' position => exact h.1

/-- The next tokens are the same, or the values of a slot. -/
lemma Cursor.Alike.next {slots : List Slot} {c c' : Cursor} (h : c.Alike slots c') :
    Ahead.same.Holds slots c c' ∨ ∃ v v' position, v.isString = v'.isString ∧
      (Ahead.slot v v' position).Holds slots c c' := by
  obtain ⟨ts, stop⟩ := c
  obtain ⟨ts', stop'⟩ := c'
  obtain ⟨hrest, rfl⟩ := h
  simp only at hrest
  cases hrest with
  | nil =>
    left
    exact ⟨⟨.nil, rfl⟩, rfl, .nil, rfl⟩
  | same t last rest =>
    left
    exact ⟨⟨.same t last rest, rfl⟩, rfl, rest, rfl⟩
  | slot position text rest =>
    right
    exact ⟨_, _, position, text, ⟨.slot position text rest, rfl⟩, rfl, rfl, _, rfl, rest, rfl⟩

lemma Cursor.Alike.position_eq {slots : List Slot} {c c' : Cursor} (h : c.Alike slots c') :
    c.current.position = c'.current.position := by
  rcases h.next with ⟨-, same, -⟩ | ⟨v, v', position, -, -, hc, hc', -⟩
  · rw [same]
  · rw [hc, hc']

/-! ### Steps -/

/-- The results are related and the steps have taken the same slots, or the errors are alike. -/
inductive Agree {α : Type} (R : List Slot → α → α → Prop) (slots : List Slot) :
    EStateM.Result ParseError Cursor α → EStateM.Result ParseError Cursor α → Prop
  | ok {used left : List Slot} {a a' : α} {c c' : Cursor} (parts : slots = used ++ left)
    (results : R used a a') (rest : c.Alike left c') : Agree R slots (.ok a c) (.ok a' c')
  | error {e e' : ParseError} {c c' : Cursor} (errors : ParseError.Alike slots e e') :
    Agree R slots (.error e c) (.error e' c')

/-- Two steps do the same up to the slots if the first ones do, and then the second ones with the
slots that are left. -/
lemma Agree.bind {α β : Type} {R : List Slot → α → α → Prop} {S : List Slot → β → β → Prop}
    {slots : List Slot} {x x' : Parse α} {f f' : α → Parse β} {c c' : Cursor}
    (hx : Agree R slots (x.run c) (x'.run c'))
    (hf : ∀ used left a a' d d', slots = used ++ left → R used a a' → d.Alike left d' →
      Agree (fun more => S (used ++ more)) left ((f a).run d) ((f' a').run d')) :
    Agree S slots ((x >>= f).run c) ((x' >>= f').run c') := by
  rw [EStateM.run_bind, EStateM.run_bind]
  revert hx
  generalize x.run c = r, x'.run c' = r'
  rintro (⟨parts, results, rest⟩ | ⟨errors⟩)
  · rename_i used left a a' d d'
    have hmore := hf used left a a' d d' parts results rest
    revert hmore
    simp only
    generalize (f a).run d = r, (f' a').run d' = r'
    rintro (⟨parts', results', rest'⟩ | ⟨errors⟩)
    · exact .ok (by rw [parts, parts', List.append_assoc]) results' rest'
    · exact .error (errors.mono (by rw [parts]; exact List.subset_append_right used left))
  · exact .error errors

/-- The same result without a slot. -/
def Unspliced {α : Type} (slots : List Slot) (a a' : α) : Prop := slots = [] ∧ a = a'

lemma unspliced {α : Type} (a : α) : Unspliced [] a a := ⟨rfl, rfl⟩

namespace Parse

variable {α β : Type} {ahead : Ahead} {R : List Slot → α → α → Prop} {S : List Slot → β → β → Prop}

/-- The steps do the same up to the slots, if the next tokens are as is said. -/
def Alike (ahead : Ahead) (R : List Slot → α → α → Prop) (p p' : Parse α) : Prop :=
  ∀ slots c c', ahead.Holds slots c c' → Agree R slots (p.run c) (p'.run c')

lemma alike_pure {a a' : α} (h : R [] a a') : Alike ahead R (pure a) (pure a') :=
  fun _ _ _ hahead => .ok rfl h hahead.alike

lemma Alike.of_any {p p' : Parse α} (h : Alike .any R p p') : Alike ahead R p p' :=
  fun slots c c' hahead => h slots c c' hahead.alike

lemma Alike.bind {x x' : Parse α} {f f' : α → Parse β} (hx : Alike ahead R x x')
    (hf : ∀ used a a', R used a a' → Alike .any (fun more => S (used ++ more)) (f a) (f' a')) :
    Alike ahead S (x >>= f) (x' >>= f') :=
  fun slots c c' hahead => (hx slots c c' hahead).bind fun used left a a' d d' _ results rest =>
    hf used a a' results left d d' rest

lemma Alike.bind_same {x : Parse α} {f f' : α → Parse β} (hx : Alike ahead Unspliced x x)
    (hf : ∀ a, Alike .any S (f a) (f' a)) : Alike ahead S (x >>= f) (x >>= f') := by
  apply hx.bind
  intro used a a'
  rintro ⟨rfl, rfl⟩
  exact hf a

/-- The next tokens are the same, or a slot. -/
lemma alike_current_bind {f f' : Token → Parse β}
    (same : ∀ t, Alike .same S (f t) (f' t))
    (slot : ∀ v v' position, v.isString = v'.isString →
      Alike (.slot v v' position) S (f ⟨.literal v, "", position⟩)
        (f' ⟨.literal v', "", position⟩)) :
    Alike .any S (current >>= f) (current >>= f') := by
  intro slots c c' h
  change Agree S slots ((f c.current).run c) ((f' c'.current).run c')
  rcases h.next with hsame | ⟨v, v', position, text, hslot⟩
  · rw [← hsame.2.1]
    exact same c.current slots c c' hsame
  · rw [hslot.2.1, hslot.2.2.1]
    exact slot v v' position text slots c c' hslot

lemma alike_throw (e : ParseError) : Alike ahead R (throw e) (throw e) :=
  fun _ _ _ _ => .error (.same e)

/-- The token in the way may be a value of a slot, which is then quoted. -/
lemma alike_unexpected (expected : Expectation) :
    Alike ahead R (unexpected expected) (unexpected expected) := by
  refine Alike.of_any (alike_current_bind (fun t => ?_) fun v v' position _ => ?_)
  · split
    · exact alike_throw _
    · exact alike_throw _
  · rintro slots c c' ⟨-, -, -, rest, rfl, -⟩
    exact .error (.unexpectedToken List.mem_cons_self expected position)

lemma alike_tooDeep_bind {f f' : α → Parse β} :
    Alike ahead S (tooDeep >>= f) (tooDeep >>= f') := by
  intro slots c c' h
  change Agree S slots (.error (.tooDeep c.current.position) c)
    (.error (.tooDeep c'.current.position) c')
  rw [h.alike.position_eq]
  exact .error (.same _)

lemma alike_advance_bind {p p' : Parse β} (h : Alike .any S p p') :
    Alike .same S (advance >>= fun _ => p) (advance >>= fun _ => p') :=
  fun slots c c' hahead => h slots c.tail c'.tail hahead.2.2

/-- Taking a slot uses it up. -/
lemma alike_advance_slot_bind {v v' : Value} {position : Nat} {p p' : Parse β}
    (h : Alike .any (fun more => S ((v, v') :: more)) p p') :
    Alike (.slot v v' position) S (advance >>= fun _ => p) (advance >>= fun _ => p') := by
  rintro slots c c' ⟨-, -, -, rest, rfl, hrest⟩
  have hresults := h rest c.tail c'.tail hrest
  change Agree S _ (p.run c.tail) (p'.run c'.tail)
  revert hresults
  generalize p.run c.tail = r, p'.run c'.tail = r'
  rintro (⟨parts, results, rest⟩ | ⟨errors⟩)
  · exact .ok (by rw [parts, List.cons_append]) results rest
  · exact .error (errors.mono (List.subset_cons_self _ _))

/-- A slot is no punctuation. -/
lemma alike_isAt_bind {p : Punctuation} {f f' : Bool → Parse β}
    (yes : Alike .same S (f true) (f' true)) (no : Alike .any S (f false) (f' false)) :
    Alike .any S (isAt p >>= f) (isAt p >>= f') := by
  have hbind : ∀ f : Bool → Parse β, isAt p >>= f = current >>= fun t => f (t.is p) := by
    intro f
    rw [isAt, bind_assoc]
    exact bind_congr fun t => pure_bind _ _
  rw [hbind, hbind]
  refine alike_current_bind (fun t => ?_) fun v v' position _ => no.of_any
  cases t.is p with
  | true => exact yes
  | false => exact no.of_any

lemma alike_expect (p : Punctuation) : Alike .any Unspliced (expect p) (expect p) :=
  alike_isAt_bind (alike_advance_bind (alike_pure (unspliced ()))) (alike_unexpected _)

lemma alike_expectIdentifier : Alike .any Unspliced expectIdentifier expectIdentifier := by
  refine alike_current_bind (fun t => ?_) fun v v' position _ => alike_unexpected _
  split
  · exact alike_advance_bind (alike_pure (unspliced _))
  · exact alike_unexpected _

/-- The kind looked at is the same, or that of a slot. -/
lemma alike_peek_bind {f f' : Kind → Parse β} (same : ∀ k, Alike .same S (f k) (f' k))
    (slot : ∀ v v', Alike .same S (f (.literal v)) (f' (.literal v'))) :
    Alike .same S (peek >>= f) (peek >>= f') := by
  have hpeek : ∀ c : Cursor, ∀ f : Kind → Parse β,
      (peek >>= f).run c = (f c.tail.current.kind).run c := by
    rintro ⟨_ | ⟨_, _ | ⟨_, _⟩⟩, stop⟩ f <;> rfl
  intro slots c c' h
  rw [hpeek, hpeek]
  rcases h.2.2.next with ⟨-, hnext, -⟩ | ⟨v, v', position, -, -, hc, hc', -⟩
  · rw [hnext]
    exact same _ slots c c' h
  · rw [hc, hc']
    exact slot v v' slots c c' h

/-- A slot with a text can be a key. -/
lemma alike_expectKey :
    Alike .any (fun used key key' => Unspliced used key key' ∨
      used = [(.string key, .string key')]) expectKey expectKey := by
  refine alike_current_bind (fun t => ?_) fun v v' position text => ?_
  · split
    · exact alike_advance_bind (alike_pure (.inl (unspliced _)))
    · exact alike_advance_bind (alike_pure (.inl (unspliced _)))
    · exact alike_unexpected _
  · cases v with
    | string key =>
      cases v' with
      | string key' => exact alike_advance_slot_bind (alike_pure (.inr rfl))
      | _ => cases text
    | _ =>
      cases v' with
      | string key' => cases text
      | _ => exact alike_unexpected _

/-! ### Lists of items -/

lemma alike_separator (closing : Punctuation) :
    Alike .any Unspliced (separator closing) (separator closing) :=
  alike_isAt_bind (alike_pure (unspliced ())) (alike_expect .comma)

/-- Items use up the slots from left to right. The induction is on the bound. -/
lemma alike_itemsWithin {item : Parse α} (h : Alike .any R item item) (closing : Punctuation)
    (bound : Nat) :
    Alike .any (Slot.All R) (itemsWithin item closing bound) (itemsWithin item closing bound) := by
  induction bound with
  | zero => exact alike_unexpected _
  | succ bound ih =>
    rw [itemsWithin_succ]
    refine alike_isAt_bind (alike_advance_bind (alike_pure .nil)) ?_
    refine h.bind fun used x x' hx => (alike_separator closing).bind_same fun _ => ?_
    refine ih.bind fun more xs xs' hxs => alike_pure ?_
    rw [List.append_nil]
    exact .cons hx hxs

lemma alike_items {item : Parse α} (h : Alike .any R item item) (closing : Punctuation) :
    Alike .any (Slot.All R) (items item closing) (items item closing) := by
  intro slots c c' hcursors
  have hlength : c.rest.length = c'.rest.length := hcursors.rest.length_eq
  change Agree _ slots ((itemsWithin item closing (c.rest.length + 1)).run c)
    ((itemsWithin item closing (c'.rest.length + 1)).run c')
  rw [hlength]
  exact alike_itemsWithin h closing _ slots c c' hcursors

end Parse

/-! ### Productions -/

namespace Level

open Parse

variable {g : Grammar} {expression : Parse Expr}

lemma alike_entry (h : Alike .any Expr.Alike expression expression) :
    Alike .any Expr.AlikeEntry (entry expression) (entry expression) := by
  refine alike_expectKey.bind fun used key key' hkey => (alike_expect .colon).bind_same fun _ => ?_
  refine h.bind fun more e e' he => alike_pure ?_
  rw [List.append_nil]
  rcases hkey with ⟨rfl, rfl⟩ | rfl
  · exact .name key he
  · exact .slot key key' he

lemma alike_relativeAfterDot : Alike .same Expr.Alike relativeAfterDot relativeAfterDot := by
  refine alike_peek_bind (fun k => ?_) fun v v' => alike_unexpected _
  split
  · refine alike_advance_bind (alike_expectIdentifier.bind_same fun name => ?_)
    exact alike_pure (.relative name)
  · exact alike_unexpected _

/-- What comes first in an operand does the same up to the slots if expressions do. -/
lemma alike_primary (h : Alike .any Expr.Alike expression expression) :
    Alike .any Expr.Alike (primary expression) (primary expression) := by
  refine alike_current_bind (fun t => ?_) fun v v' position _ =>
    alike_advance_slot_bind (alike_pure (.slot v v'))
  split
  · exact alike_advance_bind (alike_pure (.literal _))
  · refine alike_advance_bind (alike_isAt_bind (alike_advance_bind ?_) ?_)
    · refine (alike_items h .closeParen).bind fun used arguments arguments' hargs => alike_pure ?_
      rw [List.append_nil]
      exact .call _ hargs
    · exact alike_pure (.identifier _)
  · have hrelative := alike_relativeAfterDot
    rw [relativeAfterDot_eq] at hrelative
    exact hrelative
  · refine alike_advance_bind (h.bind fun used e e' he => ?_)
    refine (alike_expect .closeParen).bind_same fun _ => alike_pure ?_
    rw [List.append_nil]
    exact he
  · apply alike_advance_bind
    refine (alike_items h .closeBracket).bind fun used items items' hitems => alike_pure ?_
    rw [List.append_nil]
    exact .array hitems
  · apply alike_advance_bind
    refine (alike_items (alike_entry h) .closeBrace).bind fun used es es' hes => alike_pure ?_
    rw [List.append_nil]
    exact .object hes
  · exact alike_unexpected _

/-- What can be read at a level does not depend on spliced values. -/
structure Parametric (level : Level) : Prop where
  expression : Alike .any Expr.Alike level.expression level.expression
  operand : Alike .any Expr.Alike level.operand level.operand
  folds : ∀ (least : Int) {slots : List Slot} {e e' : Expr}, Expr.Alike slots e e' →
    Alike .any (fun more => Expr.Alike (slots ++ more)) (level.folds least e) (level.folds least e')
  steps : ∀ {slots : List Slot} {e e' : Expr}, Expr.Alike slots e e' →
    Alike .any (fun more => Expr.Alike (slots ++ more)) (level.steps e) (level.steps e')

lemma Parametric.chain {level : Level} (h : level.Parametric) (least : Int) :
    Alike .any Expr.Alike (level.chain least) (level.chain least) :=
  h.operand.bind fun _ _ _ he => h.folds least he

/-- A conditional does the same up to the slots if its parts do. -/
lemma Parametric.conditional {level : Level} (h : level.Parametric) :
    Alike .any Expr.Alike level.conditional level.conditional := by
  apply (h.chain anyPrecedence).bind
  intro s test test' htest
  refine alike_isAt_bind (alike_advance_bind (alike_isAt_bind (alike_advance_bind ?_) ?_)) ?_
  · refine h.expression.bind fun t b b' hb => alike_pure ?_
    rw [List.append_nil]
    exact .fallback htest hb
  · refine h.expression.bind fun t a a' ha => (alike_expect .colon).bind_same fun _ => ?_
    refine h.expression.bind fun u b b' hb => alike_pure ?_
    rw [List.append_nil, ← List.append_assoc]
    exact .conditional htest ha hb
  · refine alike_pure ?_
    rw [List.append_nil]
    exact htest

section

variable {below : Option Level} (h : ∀ level, below = some level → level.Parametric)
  {slots : List Slot} {e e' : Expr}

lemma alike_descend_bind {α : Type} {R : List Slot → α → α → Prop} {ahead : Ahead}
    {f f' : Level → Parse α}
    (hf : ∀ level, below = some level → Alike ahead R (f level) (f' level)) :
    Alike ahead R (descend below >>= f) (descend below >>= f') := by
  cases below with
  | none => exact alike_tooDeep_bind
  | some level => exact hf level rfl

include h

lemma alike_expressionAbove :
    Alike .any Expr.Alike (expressionAbove below) (expressionAbove below) :=
  alike_descend_bind fun level hlevel => (h level hlevel).conditional

/-- Postfix steps do the same up to the slots, behind what has used some of them. -/
lemma alike_stepsAbove (he : Expr.Alike slots e e') :
    Alike .any (fun more => Expr.Alike (slots ++ more)) (stepsAbove below e)
      (stepsAbove below e') := by
  have hstop : Expr.Alike (slots ++ []) e e' := by rwa [List.append_nil]
  refine alike_current_bind (fun t => ?_) fun v v' position _ => alike_pure hstop
  generalize t.kind = kind
  cases kind with
  | punctuation p =>
    cases p with
    | dot =>
      refine alike_descend_bind fun level hlevel => alike_advance_bind ?_
      apply alike_expectIdentifier.bind_same
      intro name
      rw [he.isRelativePath_eq]
      exact (h level hlevel).steps (.member he name _)
    | openBracket =>
      refine alike_descend_bind fun level hlevel => alike_advance_bind ?_
      apply (h level hlevel).expression.bind
      intro more p p' hp
      apply (alike_expect .closeBracket).bind_same
      intro _
      rw [hp.referencesRelative_eq]
      simpa only [List.append_assoc] using (h level hlevel).steps (.filter he hp _)
    | pipe =>
      refine alike_descend_bind fun level hlevel => alike_advance_bind ?_
      apply alike_expectIdentifier.bind_same
      intro name
      refine alike_isAt_bind (alike_advance_bind ?_) ?_
      · apply (alike_items (h level hlevel).expression .closeParen).bind
        intro more as as' has
        simpa only [List.append_assoc] using (h level hlevel).steps (.transform name he has)
      · have bare := (h level hlevel).steps (.transform name he .nil)
        simp only [List.append_nil] at bare
        exact bare
    | _ => exact alike_pure hstop
  | _ => exact alike_pure hstop

lemma alike_operandAbove :
    Alike .any Expr.Alike (operandAbove g below) (operandAbove g below) := by
  have hoperand : Alike .any Expr.Alike (primary (expressionAbove below) >>= stepsAbove below)
      (primary (expressionAbove below) >>= stepsAbove below) :=
    (alike_primary (alike_expressionAbove h)).bind fun _ _ _ he => alike_stepsAbove h he
  refine alike_current_bind (fun t => ?_) fun v v' position _ => hoperand.of_any
  split
  · split
    · refine alike_advance_bind (alike_descend_bind fun level hlevel => ?_)
      refine (h level hlevel).operand.bind fun used e e' he => alike_pure ?_
      rw [List.append_nil]
      exact .unary _ he
    · exact alike_unexpected _
  · exact hoperand.of_any

/-- Binary operators do the same up to the slots, behind what has used some of them. -/
lemma alike_foldsAbove (least : Int) (he : Expr.Alike slots e e') :
    Alike .any (fun more => Expr.Alike (slots ++ more)) (foldsAbove g below least e)
      (foldsAbove g below least e') := by
  have hstop : Expr.Alike (slots ++ []) e e' := by rwa [List.append_nil]
  refine alike_current_bind (fun t => ?_) fun v v' position _ => alike_pure hstop
  generalize t.kind = kind
  cases kind with
  | operator role symbol =>
    cases role with
    | binary =>
      simp only
      cases g.binary.get? symbol with
      | none => exact alike_unexpected _
      | some op =>
        simp only
        split
        · exact alike_pure hstop
        · refine alike_descend_bind fun level hlevel => alike_advance_bind ?_
          apply ((h level hlevel).chain _).bind
          intro more right right' hright
          simpa only [List.append_assoc] using
            (h level hlevel).folds least (.binary symbol he hright)
    | unary => exact alike_pure hstop
  | _ => exact alike_pure hstop

/-- What is read above a level does not depend on spliced values either. -/
lemma Parametric.above : (Level.above g below).Parametric :=
  ⟨alike_expressionAbove h, alike_operandAbove h, fun least _ _ _ he => alike_foldsAbove h least he,
    alike_stepsAbove h⟩

end

/-- Every level does the same up to the slots. -/
theorem parametric_ofDepth (g : Grammar) (n : Nat) : (ofDepth g n).Parametric := by
  induction n with
  | zero => exact .above fun level hlevel => by cases hlevel
  | succ n ih =>
    refine .above ?_
    intro level hlevel
    obtain rfl := Option.some.inj hlevel
    exact ih

end Level

/-! ### Whole expressions -/

open Parse

variable {slots : List Slot}

/-- No slots are left at the end. -/
lemma Cursor.Alike.eq_nil_of_isEnd {c c' : Cursor} (h : c.Alike slots c')
    (atEnd : c.current.kind.isEnd = true) : slots = [] := by
  obtain ⟨ts, stop⟩ := c
  obtain ⟨ts', stop'⟩ := c'
  obtain ⟨hrest, -⟩ := h
  simp only at hrest
  cases hrest with
  | nil => rfl
  | same t last rest => exact last atEnd
  | slot position text rest => cases atEnd

lemma agree_endOfTokens {c c' : Cursor} (h : c.Alike slots c') :
    Agree (fun _ (_ _ : Unit) => slots = []) slots (endOfTokens.run c) (endOfTokens.run c') := by
  have hunexpected : Parse.Alike .any (fun _ (_ _ : Unit) => slots = [])
    (unexpected .endOfExpression) (unexpected .endOfExpression) := alike_unexpected _
  change Agree _ slots
    ((if c.current.kind.isEnd then return () else unexpected .endOfExpression : Parse Unit).run c)
    ((if c'.current.kind.isEnd then return () else unexpected .endOfExpression : Parse Unit).run c')
  rcases h.next with ⟨-, same, -⟩ | ⟨v, v', position, -, -, hc, hc', -⟩
  · rw [← same]
    split
    · rename_i atEnd
      exact .ok (List.nil_append slots).symm (h.eq_nil_of_isEnd atEnd) h
    · exact hunexpected slots c c' h
  · rw [hc, hc']
    exact hunexpected slots c c' h

/-- What tells nothing of the values of slots is the same of the last tokens. -/
lemma Token.Alike.map_getLast? {α : Type} {f : Token → α}
    (hf : ∀ v v' position, f ⟨.literal v, "", position⟩ = f ⟨.literal v', "", position⟩)
    {ts ts' : List Token} (h : Token.Alike slots ts ts') :
    ts.getLast?.map f = ts'.getLast?.map f := by
  have hcons : ∀ (t : Token) (ts : List Token),
      (t :: ts).getLast?.map f = some ((ts.getLast?.map f).getD (f t)) := by
    intro t ts
    rw [List.getLast?_cons, Option.map_some, Option.getD_map]
  induction h with
  | nil => rfl
  | same t last rest ih => rw [hcons, hcons, ih]
  | slot position text rest ih => rw [hcons, hcons, ih, hf]

/-- A parser begins alike with tokens that are alike. -/
lemma Token.Alike.ofTokens {tokens tokens' : List Token} (h : Token.Alike slots tokens tokens') :
    (Cursor.ofTokens tokens).Alike slots (Cursor.ofTokens tokens') := by
  refine ⟨h, ?_⟩
  have hstop : ∀ ts, (Cursor.ofTokens ts).stop
      = (ts.getLast?.map fun t => t.position + t.raw.length).getD 0 := by
    intro ts
    rw [Cursor.ofTokens]
    cases ts.getLast? <;> rfl
  rw [hstop, hstop, h.map_getLast? fun _ _ _ => rfl]

/-- Alike tokens fail alike, or are parsed as expressions that are the same but for the slots, all
of which they have. -/
theorem parse_alike {tokens tokens' : List Token} (h : Token.Alike slots tokens tokens')
    (g : Grammar) :
    (∃ e e', parse g tokens = .ok e ∧ parse g tokens' = .ok e' ∧ Expr.Alike slots e e') ∨
    (∃ e e', parse g tokens = .error e ∧ parse g tokens' = .error e' ∧
      ParseError.Alike slots e e') := by
  have hall : Agree (fun _ => Expr.Alike slots) slots ((parseAll g).run (.ofTokens tokens))
      ((parseAll g).run (.ofTokens tokens')) := by
    rw [parseAll_eq]
    have hexpression := (Level.parametric_ofDepth g maxNesting).expression slots _ _ h.ofTokens
    apply hexpression.bind
    intro used left e e' _ _ parts he hrest
    apply (agree_endOfTokens hrest).bind
    intro more rest _ _ c c' parts' hleft hrest'
    rw [hleft, List.append_nil] at parts
    subst parts
    rw [checkScope, checkScope, he.freeRelative?_eq]
    split
    · exact .error (.same _)
    · exact .ok (List.nil_append rest).symm he hrest'
  rw [parse, parse]
  revert hall
  generalize (parseAll g).run (.ofTokens tokens) = r, (parseAll g).run (.ofTokens tokens') = r'
  rintro (⟨-, he, -⟩ | ⟨errors⟩)
  · exact .inl ⟨_, _, rfl, rfl, he⟩
  · exact .inr ⟨_, _, rfl, rfl, errors⟩

end Sift
