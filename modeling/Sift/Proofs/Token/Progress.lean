import Mathlib.Data.Nat.Find
import Sift.Proofs.Token.Walking

/-!
# Going on after failures

A walker may be asked for the next token again and again, also where it has just failed. Each call
that does not come to the end moves the cursor on, so there are no more of them than characters, and
from then on every call comes to the end. No call refuses a number or reaches beyond the text
(`Walker.calls_progress`).
-/

namespace Sift

/-- The lexer after a number of calls, whatever they have given. -/
def Lexer.after (g : Grammar) (lx : Lexer) : Nat → Lexer
  | 0 => lx
  | n + 1 => ((lx.after g n).next g).2

namespace Walker

def after (g : Grammar) (w : Walker) : Nat → Walker
  | 0 => w
  | n + 1 => ((w.after g n).next g).2

def IsEnd (result : Except Failure Token) : Prop := ∃ t, result = .ok t ∧ t.kind.isEnd = true

variable {g : Grammar} {w : Walker}

/-! ### One call -/

/-- A call comes to the end if only white space is left, and moves behind it. Otherwise it moves
behind at least one more character of the text. -/
lemma next_cases (g : Grammar) (w : Walker) :
    (w.skipBlanks.rest = [] ∧ IsEnd (w.next g).1 ∧ (w.next g).2 = w.skipBlanks.forgetDot) ∨
      ∃ count, 1 ≤ count ∧ count ≤ w.skipBlanks.rest.length ∧ ¬ IsEnd (w.next g).1 ∧
        (w.next g).2.cursor = w.skipBlanks.cursor + count := by
  cases h : w.skipBlanks.rest with
  | nil =>
    rw [next_of_nil g h]
    exact .inl ⟨rfl, ⟨_, rfl, rfl⟩, rfl⟩
  | cons c cs =>
    right
    have pos := one_le_scan g w.expectOperand w.afterDot w.skipBlanks.position c cs
    have le := scan_le_length g w.expectOperand w.afterDot w.skipBlanks.position c cs
    rw [next_of_cons g h]
    rcases scanned : scan g w.expectOperand w.afterDot w.skipBlanks.position c cs with
      ⟨e | kind, count⟩
    · rw [scanned] at pos le
      refine ⟨count, pos, le, ?_, rfl⟩
      rintro ⟨_, ⟨⟩, -⟩
    · rw [scanned] at pos le
      refine ⟨count, pos, le, ?_, rfl⟩
      rintro ⟨_, ⟨⟩, atEnd⟩
      rw [(scans_of_scan scanned).isEnd_eq] at atEnd
      cases atEnd

/-- The text stays. -/
lemma chars_next (g : Grammar) (w : Walker) : (w.next g).2.chars = w.chars := (w.next_eq g).2.2

lemma cursor_skipBlanks_bounds (h : w.cursor ≤ w.chars.length) :
    w.cursor ≤ w.skipBlanks.cursor ∧
      w.skipBlanks.cursor + w.skipBlanks.rest.length = w.chars.length := by
  have blanks := length_takeWhile_le isWhiteSpace w.rest
  rw [skipBlanks_eq, rest_step, List.length_drop]
  rw [rest, List.length_drop] at blanks ⊢
  simp only [step]
  omega

/-- A call keeps the cursor in the text. -/
lemma cursor_next_le (h : w.cursor ≤ w.chars.length) : (w.next g).2.cursor ≤ w.chars.length := by
  have bounds := cursor_skipBlanks_bounds h
  rcases next_cases g w with ⟨-, -, after⟩ | ⟨count, -, le, -, after⟩
  · rw [after]
    change w.skipBlanks.cursor ≤ _
    omega
  · omega

/-- A call that does not come to the end moves the cursor on. -/
lemma cursor_lt_next (h : w.cursor ≤ w.chars.length) (more : ¬ IsEnd (w.next g).1) :
    w.cursor < (w.next g).2.cursor := by
  have bounds := cursor_skipBlanks_bounds h
  rcases next_cases g w with ⟨-, atEnd, -⟩ | ⟨count, pos, -, -, after⟩
  · exact absurd atEnd more
  · omega

/-- There is nothing behind the end. -/
lemma IsEnd.next (h : IsEnd (w.next g).1) : IsEnd ((w.next g).2.next g).1 := by
  rcases next_cases g w with ⟨blank, -, after⟩ | ⟨count, -, -, more, -⟩
  · have blank : (w.next g).2.rest = [] := by
      rw [after]
      exact blank
    rw [next_of_nil g (by rw [rest_skipBlanks, blank, List.dropWhile_nil])]
    exact ⟨_, rfl, rfl⟩
  · exact absurd h more

/-! ### Any number of calls -/

lemma chars_after (g : Grammar) (w : Walker) (n : Nat) : (w.after g n).chars = w.chars := by
  induction n with
  | zero => rfl
  | succ n ih => rw [after, chars_next, ih]

/-- The cursor never leaves the text. -/
lemma cursor_after_le (h : w.cursor ≤ w.chars.length) (n : Nat) :
    (w.after g n).cursor ≤ w.chars.length := by
  induction n with
  | zero => exact h
  | succ n ih =>
    rw [← chars_after g w n] at ih ⊢
    exact cursor_next_le ih

/-- As long as no call comes to the end, the cursor is behind as many characters as there were
calls. -/
lemma le_cursor_after (h : w.cursor ≤ w.chars.length) {n : Nat}
    (more : ∀ m < n, ¬ IsEnd ((w.after g m).next g).1) : n ≤ (w.after g n).cursor := by
  induction n with
  | zero => exact Nat.zero_le _
  | succ n ih =>
    have before := ih fun m hm => more m (Nat.lt_succ_of_lt hm)
    have inside := cursor_after_le (g := g) h n
    rw [← chars_after g w n] at inside
    exact Nat.lt_of_le_of_lt before (cursor_lt_next inside (more n (Nat.lt_succ_self n)))

/-- Once the end has been reached, it is reached again. -/
lemma IsEnd.after {m : Nat} (h : IsEnd ((w.after g m).next g).1) {n : Nat} (le : m ≤ n) :
    IsEnd ((w.after g n).next g).1 := by
  induction le with
  | refl => exact h
  | step _ ih => exact ih.next

/-- The calls that come to the end are all but the first ones, of which there are no more than
characters. -/
lemma exists_isEnd_iff (h : w.cursor ≤ w.chars.length) :
    ∃ k ≤ w.chars.length, ∀ n, IsEnd ((w.after g n).next g).1 ↔ k ≤ n := by
  classical
  have ends : ∃ n ≤ w.chars.length, IsEnd ((w.after g n).next g).1 := by
    -- One call more than there are characters would move the cursor out of the text.
    by_contra none
    have more : ∀ m < w.chars.length + 1, ¬ IsEnd ((w.after g m).next g).1 := fun m hm atEnd =>
      none ⟨m, Nat.lt_succ_iff.1 hm, atEnd⟩
    have inside := cursor_after_le (g := g) h (w.chars.length + 1)
    have beyond := le_cursor_after h more
    omega
  obtain ⟨n, le, atEnd⟩ := ends
  have found : ∃ n, IsEnd ((w.after g n).next g).1 := ⟨n, atEnd⟩
  refine ⟨Nat.find found, Nat.le_trans (Nat.find_min' found atEnd) le, fun m => ?_⟩
  exact ⟨fun h => Nat.find_min' found h, fun le => (Nat.find_spec found).after le⟩

/-- The lexer keeps up with the walker. -/
lemma toLexer_after (g : Grammar) (w : Walker) (n : Nat) :
    (w.after g n).toLexer = w.toLexer.after g n := by
  induction n with
  | zero => rfl
  | succ n ih => rw [after, Lexer.after, (next_eq g _).2.1, ih]

/-! ### Calls from the beginning of a text -/

lemma cursor_ofSource (source : String) (offset : Nat) (before : List Token) :
    (ofSource source offset before).cursor = 0 := by
  rw [ofSource]
  cases before.getLast? <;> rfl

lemma chars_ofSource (source : String) (offset : Nat) (before : List Token) :
    (ofSource source offset before).chars = source.toList := by
  rw [ofSource]
  cases before.getLast? <;> rfl

lemma toLexer_ofSource (source : String) (offset : Nat) (before : List Token) :
    (ofSource source offset before).toLexer
      = (Lexer.ofSource source offset).afterTokens before := by
  rw [ofSource, Lexer.afterTokens]
  cases before.getLast? <;> rfl

/-- Whatever the calls of a walker have given, it is where the lexer is after as many calls, and the
cursor is in the text. The next call moves it on unless it comes to the end, and the call neither
refuses a number nor cuts beyond the text: it gives what the lexer gives. The calls that come to the
end are all but the first ones, of which there are no more than characters. -/
theorem calls_progress (g : Grammar) (source : String) (offset : Nat) (before : List Token) :
    let w := ofSource source offset before
    let lx := (Lexer.ofSource source offset).afterTokens before
    (∀ n, (w.after g n).toLexer = lx.after g n ∧ (w.after g n).cursor ≤ source.length ∧
      (IsEnd ((w.after g n).next g).1 ∨ (w.after g n).cursor < (w.after g (n + 1)).cursor) ∧
      (∀ text position, ((w.after g n).next g).1 ≠ .error (.invalidNumber text position)) ∧
      ((w.after g n).next g).1 ≠ .error .outOfRange ∧
      ((w.after g n).next g).1 = ((lx.after g n).next g).1.mapError .lex) ∧
    ∃ k ≤ source.length, ∀ n, IsEnd ((w.after g n).next g).1 ↔ k ≤ n := by
  intro w lx
  have chars : w.chars.length = source.length := by
    rw [chars_ofSource, String.length_toList]
  have start : w.cursor ≤ w.chars.length := by
    rw [cursor_ofSource]
    exact Nat.zero_le _
  refine ⟨fun n => ?_, chars ▸ exists_isEnd_iff start⟩
  have inside := cursor_after_le (g := g) start n
  have sameState : (w.after g n).toLexer = lx.after g n := by
    rw [toLexer_after, toLexer_ofSource]
  have same : ((w.after g n).next g).1 = ((lx.after g n).next g).1.mapError .lex := by
    rw [(next_eq g _).1, sameState]
  refine ⟨sameState, chars ▸ inside, ?_, ?_, ?_, same⟩
  · rw [← chars_after g w n] at inside
    exact or_iff_not_imp_left.2 (cursor_lt_next inside)
  · rw [same]
    rintro text position
    cases ((lx.after g n).next g).1 <;> rintro ⟨⟩
  · rw [same]
    cases ((lx.after g n).next g).1 <;> rintro ⟨⟩

end Walker

end Sift
