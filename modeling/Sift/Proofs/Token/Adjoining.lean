import Sift.Proofs.Parse.Reads
import Sift.Proofs.Token.Printing

/-!
# Reading tokens without blanks between them

A token ends where the next one begins, if a text follows that it does not go on with. What stands
between brackets, with commas in between, is read item by item: each item is a text that is read
alike before whatever may follow an operand.
-/

namespace Sift

open Token (Kind)

namespace Lexer

variable {g : Grammar} {expectOperand : Bool} {ks : List Kind}

/-- The characters are read as tokens of some kinds, wherever they stand in a text. -/
def Spells (g : Grammar) (expectOperand : Bool) (cs : List Char) (ks : List Kind) : Prop :=
  ∀ position, ∃ tokens, tokens.map Token.kind = ks ∧
    Reads g ⟨cs, position, expectOperand, false⟩ tokens

lemma spells_nil : Spells g expectOperand [] [] := fun _ => ⟨[], rfl, .stop rfl⟩

/-- One token, and what is read behind it. -/
lemma spells_scans {c : Char} {rest : List Char} {kind : Kind} {length : Nat}
    (noBlank : isWhiteSpace c = false) (scans : Scans g expectOperand false c rest kind length)
    (notDot : kind.isPunctuation .dot = false)
    (h : Spells g kind.expectsOperand ((c :: rest).drop length) ks) :
    Spells g expectOperand (c :: rest) (kind :: ks) := by
  intro position
  have skipped : (⟨c :: rest, position, expectOperand, false⟩ : Lexer).skipBlanks
      = ⟨c :: rest, position, expectOperand, false⟩ := by
    simp [skipBlanks, noBlank]
  obtain ⟨tokens, rfl, reads⟩ := h (position + length)
  rw [← notDot] at reads
  refine ⟨_ :: tokens, rfl, .step (congrArg Lexer.rest skipped) scans ?_⟩
  rw [skipped]
  exact reads

/-- A token that is not a symbol, before a text that it does not go on with. -/
lemma spells_token {text : String} {kind : Kind} {more : List Char}
    (token : IsToken g expectOperand false text kind)
    (symbols : g.matchSymbol (text.toList ++ more) = g.matchSymbol text.toList)
    (stops : Stops more) (notDot : kind.isPunctuation .dot = false)
    (h : Spells g kind.expectsOperand more ks) :
    Spells g expectOperand (text.toList ++ more) (kind :: ks) := by
  obtain ⟨c, rest, begins, noBlank, scans⟩ := token
  have length : text.length = (c :: rest).length := by rw [← begins, String.length_toList]
  have left : (c :: (rest ++ more)).drop text.length = more := by
    rw [length]
    exact List.drop_left
  rw [begins] at symbols
  rw [begins, List.cons_append]
  exact spells_scans noBlank (scans.append symbols stops) notDot (left.symm ▸ h)

/-- A punctuation character, before any text. -/
lemma spells_punctuation {p : Punctuation} {more : List Char}
    (noSymbol : g.matchSymbol (p.char :: more) = none) (notDot : p ≠ .dot)
    (h : Spells g p.expectsOperand more ks) :
    Spells g expectOperand (p.char :: more) (.punctuation p :: ks) := by
  have noBlank : isWhiteSpace p.char = false := by cases p <;> decide
  have scans : Scans g expectOperand false p.char more _ _ := .punctuation noSymbol p.ofChar?_char
  exact spells_scans noBlank scans (decide_eq_false notDot.symm) h

/-! ### Operands and lists of them -/

/-- Where an operand is expected, the text is read as tokens of some kinds, before all that may
follow an operand. -/
def SpellsOperand (g : Grammar) (text : String) (ks : List Kind) : Prop :=
  ∀ {more : List Char} {ks' : List Kind}, Stops more → Spells g false more ks' →
    Spells g true (text.toList ++ more) (ks ++ ks')

def Reserved (g : Grammar) (p : Punctuation) : Prop := ∀ more, g.matchSymbol (p.char :: more) = none

lemma stops_punctuation {p : Punctuation} (notDot : p ≠ .dot) (more : List Char) :
    Stops (p.char :: more) := by
  rintro _ ⟨⟩
  cases p <;> first | decide | exact absurd rfl notDot

/-- Texts that are read as operands are read as the items of a list. -/
lemma spells_items {closing : Punctuation} (comma : Reserved g .comma)
    (reserved : Reserved g closing) (hclosing : closing.expectsOperand = false)
    (notDot : closing ≠ .dot) {texts : List String} {spellings : List (List Kind)}
    (h : List.Forall₂ (SpellsOperand g) texts spellings) {more : List Char}
    (hmore : Spells g false more ks) :
    Spells g true ((",".intercalate texts).toList ++ closing.char :: more)
      (Parse.separated spellings ++ .punctuation closing :: ks) := by
  have close (expectOperand : Bool) :
      Spells g expectOperand (closing.char :: more) (.punctuation closing :: ks) :=
    spells_punctuation (reserved more) notDot (hclosing ▸ hmore)
  induction h with
  | nil => exact close true
  | @cons text ks' texts spellings htext htexts ih =>
    cases htexts with
    | nil =>
      rw [String.intercalate_singleton]
      exact htext (stops_punctuation notDot more) (close false)
    | @cons text' ks'' texts spellings htext' htexts =>
      -- The comma ends the first item, and an operand is expected behind it.
      have separator : Spells g false (Punctuation.comma.char :: _) _ :=
        spells_punctuation (comma _) (by simp) ih
      have whole := htext (stops_punctuation (by simp) _) separator
      rw [String.intercalate_cons_cons, String.toList_append, String.toList_append]
      simp only [Parse.separated, List.append_assoc, List.cons_append]
      exact whole

/-- Items between two characters are an operand. -/
lemma spellsOperand_items {opening closing : Punctuation} (comma : Reserved g .comma)
    (hopen : Reserved g opening) (hclose : Reserved g closing)
    (opens : opening.expectsOperand = true) (closes : closing.expectsOperand = false)
    (notDot : closing ≠ .dot) {texts : List String} {spellings : List (List Kind)}
    (h : List.Forall₂ (SpellsOperand g) texts spellings) {text : String} (htext : text.toList
      = opening.char :: ((",".intercalate texts).toList ++ [closing.char])) :
    SpellsOperand g text
      (.punctuation opening :: (Parse.separated spellings ++ [.punctuation closing])) := by
  intro more ks' _ hmore
  have items := spells_items comma hclose closes notDot h hmore
  rw [htext, List.cons_append, List.cons_append, List.append_assoc, List.append_assoc]
  refine spells_punctuation (hopen _) (fun dot => ?_) (opens.symm ▸ items)
  rw [dot] at opens
  cases opens

end Lexer

end Sift
