import Mathlib.Tactic.Lemma
import Sift.Expr.Basic

/-!
# Expressions that differ in spliced values

A slot is a place in an expression that holds one value or another. `Expr.Alike slots e e'` says
that two expressions are the same but for the slots, which are listed in source order: each of them
is a literal, or the key of an entry of an object.
-/

namespace Sift

abbrev Slot := Value × Value

/-- Lists whose items are related one by one, with the slots of all items. -/
inductive Slot.All {α : Type} (R : List Slot → α → α → Prop) : List Slot → List α → List α → Prop
  | nil : All R [] [] []
  | cons {slots slots' : List Slot} {x x' : α} {xs xs' : List α} (head : R slots x x')
    (tail : All R slots' xs xs') : All R (slots ++ slots') (x :: xs) (x' :: xs')

namespace Expr

mutual
/-- The expressions are the same but for the slots, which are listed in source order. -/
inductive Alike : List Slot → Expr → Expr → Prop
  | literal (v : Value) : Alike [] (literal v) (literal v)
  | slot (v v' : Value) : Alike [(v, v')] (literal v) (literal v')
  | identifier (name : String) : Alike [] (identifier name) (identifier name)
  | relative (name : String) : Alike [] (relative name) (relative name)
  | member {s : List Slot} {e e' : Expr} (owner : Alike s e e') (name : String) (marked : Bool) :
    Alike s (member e name marked) (member e' name marked)
  | filter {s t : List Slot} {e e' p p' : Expr} (subject : Alike s e e') (predicate : Alike t p p')
    (marked : Bool) : Alike (s ++ t) (filter e p marked) (filter e' p' marked)
  | array {s : List Slot} {xs xs' : List Expr} (items : Slot.All Alike s xs xs') :
    Alike s (array xs) (array xs')
  | object {s : List Slot} {xs xs' : List (String × Expr)}
    (entries : Slot.All AlikeEntry s xs xs') : Alike s (object xs) (object xs')
  | unary {s : List Slot} {e e' : Expr} (symbol : String) (operand : Alike s e e') :
    Alike s (unary symbol e) (unary symbol e')
  | binary {s t : List Slot} {a a' b b' : Expr} (symbol : String) (left : Alike s a a')
    (right : Alike t b b') : Alike (s ++ t) (binary symbol a b) (binary symbol a' b')
  | conditional {s t u : List Slot} {a a' b b' c c' : Expr} (test : Alike s a a')
    (consequent : Alike t b b') (alternate : Alike u c c') :
    Alike (s ++ t ++ u) (conditional a b c) (conditional a' b' c')
  | fallback {s t : List Slot} {a a' b b' : Expr} (test : Alike s a a') (alternate : Alike t b b') :
    Alike (s ++ t) (fallback a b) (fallback a' b')
  | call {s : List Slot} {xs xs' : List Expr} (name : String)
    (arguments : Slot.All Alike s xs xs') : Alike s (call name xs) (call name xs')
  | transform {s t : List Slot} {e e' : Expr} {xs xs' : List Expr} (name : String)
    (subject : Alike s e e') (arguments : Slot.All Alike t xs xs') :
    Alike (s ++ t) (transform name e xs) (transform name e' xs')

/-- The entries are the same but for the slots, of which the key may be one. -/
inductive AlikeEntry : List Slot → String × Expr → String × Expr → Prop
  | name {s : List Slot} {e e' : Expr} (key : String) (value : Alike s e e') :
    AlikeEntry s (key, e) (key, e')
  | slot {s : List Slot} {e e' : Expr} (key key' : String) (value : Alike s e e') :
    AlikeEntry ((.string key, .string key') :: s) (key, e) (key', e')
end

lemma Alike.isRelativePath_eq {slots : List Slot} {e e' : Expr} (h : Alike slots e e') :
    e.isRelativePath = e'.isRelativePath := by
  cases h <;> rfl

mutual
/-- Slots hold no relative identifiers. -/
lemma Alike.freeRelative?_eq {slots : List Slot} : ∀ {e e' : Expr}, Alike slots e e' →
    e.freeRelative? = e'.freeRelative?
  | .literal _, _, .literal _ | .literal _, _, .slot _ _ => rfl
  | .identifier _, _, .identifier _ | .relative _, _, .relative _ => rfl
  | .member _ _ _, _, .member h _ _ => h.freeRelative?_eq
  | .filter _ _ _, _, .filter h _ _ => h.freeRelative?_eq
  | .array _, _, .array h => freeRelativeAny?_eq h
  | .object _, _, .object h => freeRelativeEntries?_eq h
  | .unary _ _, _, .unary _ h => h.freeRelative?_eq
  | .binary _ _ _, _, .binary _ h₁ h₂ => by
    rw [freeRelative?, freeRelative?, h₁.freeRelative?_eq, h₂.freeRelative?_eq]
  | .conditional _ _ _, _, .conditional h₁ h₂ h₃ => by
    rw [freeRelative?, freeRelative?, h₁.freeRelative?_eq, h₂.freeRelative?_eq,
      h₃.freeRelative?_eq]
  | .fallback _ _, _, .fallback h₁ h₂ => by
    rw [freeRelative?, freeRelative?, h₁.freeRelative?_eq, h₂.freeRelative?_eq]
  | .call _ _, _, .call _ h => freeRelativeAny?_eq h
  | .transform _ _ _, _, .transform _ h₁ h₂ => by
    rw [freeRelative?, freeRelative?, h₁.freeRelative?_eq, freeRelativeAny?_eq h₂]

lemma freeRelativeAny?_eq {slots : List Slot} : ∀ {xs xs' : List Expr},
    Slot.All Alike slots xs xs' → freeRelativeAny? xs = freeRelativeAny? xs'
  | [], _, .nil => rfl
  | _ :: _, _, .cons h₁ h₂ => by
    rw [freeRelativeAny?, freeRelativeAny?, h₁.freeRelative?_eq, freeRelativeAny?_eq h₂]

lemma freeRelativeEntries?_eq {slots : List Slot} : ∀ {xs xs' : List (String × Expr)},
    Slot.All AlikeEntry slots xs xs' → freeRelativeEntries? xs = freeRelativeEntries? xs'
  | [], _, .nil => rfl
  | (_, _) :: _, _, .cons (.name _ h₁) h₂ | (_, _) :: _, _, .cons (.slot _ _ h₁) h₂ => by
    rw [freeRelativeEntries?, freeRelativeEntries?, h₁.freeRelative?_eq,
      freeRelativeEntries?_eq h₂]
end

/-- Values that are spliced in do not read elements. -/
lemma Alike.referencesRelative_eq {slots : List Slot} {e e' : Expr} (h : Alike slots e e') :
    e.referencesRelative = e'.referencesRelative := by
  rw [referencesRelative, referencesRelative, h.freeRelative?_eq]

end Expr

end Sift
