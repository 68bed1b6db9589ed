/-!
# Sets of code points

A property of characters is kept as the list of its maximal runs of code points, in ascending order.
-/

namespace Sift

/-- A set of code points as ascending, disjoint, closed intervals. -/
abbrev CodeRanges := List (Nat × Nat)

/-- Membership, by a search that ends at the first interval beyond `n`. -/
def CodeRanges.contains : CodeRanges → Nat → Bool
  | [], _ => false
  | (lo, hi) :: rest, n => lo ≤ n && (n ≤ hi || CodeRanges.contains rest n)

@[simp] theorem CodeRanges.contains_nil (n : Nat) : CodeRanges.contains [] n = false := rfl

@[simp] theorem CodeRanges.contains_cons (lo hi : Nat) (rest : CodeRanges) (n : Nat) :
    CodeRanges.contains ((lo, hi) :: rest) n = (lo ≤ n && (n ≤ hi || rest.contains n)) := rfl

/-- A code point found is in one of the intervals. -/
theorem CodeRanges.exists_of_contains {ranges : CodeRanges} {n : Nat} (h : ranges.contains n) :
    ∃ r ∈ ranges, r.1 ≤ n ∧ n ≤ r.2 := by
  induction ranges with
  | nil => simp at h
  | cons r rest ih =>
    obtain ⟨lo, hi⟩ := r
    simp only [contains_cons, Bool.and_eq_true, Bool.or_eq_true, decide_eq_true_eq] at h
    obtain ⟨hlo, hhi | hrest⟩ := h
    · exact ⟨(lo, hi), by simp, hlo, hhi⟩
    · obtain ⟨r, hr, hn⟩ := ih hrest
      exact ⟨r, by simp [hr], hn⟩

end Sift
