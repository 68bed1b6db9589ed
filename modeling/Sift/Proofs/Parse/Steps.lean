import Mathlib.Tactic.Lemma
import Sift.Expr.Parser

/-!
# Steps of parsing as sequences

Equations that write a step as a sequence of simpler ones, without the jumps that a condition in the
middle of a sequence leaves behind.
-/

namespace Sift

lemma Token.Kind.of_isPunctuation {kind : Kind} {p : Punctuation}
    (h : kind.isPunctuation p = true) : kind = .punctuation p := by
  cases kind with
  | punctuation q => rw [of_decide_eq_true h]
  | _ => cases h

/-- Where there is a token left, it is the first of those that are left. -/
lemma Cursor.rest_eq_cons {c : Cursor} (h : c.current.kind.isEnd = false) :
    c.rest = c.current :: c.rest.drop 1 := by
  obtain ⟨rest, stop⟩ := c
  cases rest with
  | nil => cases h
  | cons t rest => rfl

lemma Cursor.map_kind_rest {c : Cursor} (h : c.current.kind.isEnd = false) :
    c.rest.map Token.kind = c.current.kind :: (c.rest.drop 1).map Token.kind :=
  congrArg (List.map Token.kind) (rest_eq_cons h)

namespace Parse

variable {α β : Type}

/-- A result of two steps is a result of the second one behind a result of the first one. -/
lemma run_bind_eq_ok {x : Parse α} {f : α → Parse β} {c c'' : Cursor} {b : β} :
    (x >>= f).run c = .ok b c'' ↔ ∃ a c', x.run c = .ok a c' ∧ (f a).run c' = .ok b c'' := by
  rw [EStateM.run_bind]
  cases x.run c with
  | error e d => simp
  | ok a d =>
    constructor
    · intro h
      exact ⟨a, d, rfl, h⟩
    · rintro ⟨_, _, ⟨⟩, h⟩
      exact h

def separator (closing : Punctuation) : Parse Unit := do
  if ← isAt closing then return () else expect .comma

/-- Items end at the closing character, or one more is read. -/
lemma itemsWithin_succ (item : Parse α) (closing : Punctuation) (bound : Nat) :
    itemsWithin item closing (bound + 1) = do
      if ← isAt closing then
        advance
        return []
      else
        let x ← item
        separator closing
        return x :: (← itemsWithin item closing bound) := by
  simp only [itemsWithin, separator, bind_assoc]
  apply bind_congr
  intro closed
  split
  · rfl
  · refine bind_congr fun x => bind_congr fun atEnd => ?_
    split <;> simp

end Parse

namespace Level

/-- A relative identifier behind its dot: the name that has been looked at is taken. -/
def relativeAfterDot : Parse Expr := do
  match ← Parse.peek with
  | .identifier _ =>
    Parse.advance
    return .relative (← Parse.expectIdentifier)
  | _ => Parse.unexpected .operand

lemma relativeAfterDot_eq : relativeAfterDot = (do
    match ← Parse.peek with
    | .identifier name =>
      Parse.advance
      Parse.advance
      return .relative name
    | _ => Parse.unexpected .operand) := by
  funext c
  obtain ⟨rest, stop⟩ := c
  rcases rest with _ | ⟨first, _ | ⟨⟨kind, raw, position⟩, rest⟩⟩
  · rfl
  · rfl
  · cases kind <;> rfl

@[simp] lemma descend_some (level : Level) : descend (some level) = pure level := rfl

end Level

/-- The last check of an expression whose tokens have all been read. -/
def checkScope (e : Expr) : Parse Expr :=
  match e.freeRelative? with
  | some name => throw (.relativeOutsideFilter name)
  | none => pure e

def endOfTokens : Parse Unit := do
  if (← Parse.current).kind.isEnd then return () else Parse.unexpected .endOfExpression

/-- A whole expression, the end, and the check. -/
lemma parseAll_eq (g : Grammar) :
    parseAll g = parseExpression g >>= fun e => endOfTokens >>= fun _ => checkScope e := by
  simp only [parseAll, endOfTokens, checkScope, bind_assoc]
  refine bind_congr fun e => bind_congr fun token => ?_
  split <;> rfl

end Sift
