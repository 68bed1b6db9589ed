/-!
# Powers of two and ten

The powers that binary and decimal numbers are made of.
-/

namespace Sift

def twoTo (k : Nat) : Nat := Nat.pow 2 k

def tenTo (k : Nat) : Nat := Nat.pow 10 k

def decimalLength (n : Nat) : Nat := (Nat.toDigits 10 n).length

@[simp] theorem twoTo_zero : twoTo 0 = 1 := rfl

@[simp] theorem tenTo_zero : tenTo 0 = 1 := rfl

theorem twoTo_succ (k : Nat) : twoTo (k + 1) = twoTo k * 2 := rfl

theorem tenTo_succ (k : Nat) : tenTo (k + 1) = tenTo k * 10 := rfl

theorem twoTo_pos (k : Nat) : 0 < twoTo k := by
  induction k with
  | zero => decide
  | succ k ih => rw [twoTo_succ]; omega

theorem tenTo_pos (k : Nat) : 0 < tenTo k := by
  induction k with
  | zero => decide
  | succ k ih => rw [tenTo_succ]; omega

theorem twoTo_add (j k : Nat) : twoTo (j + k) = twoTo j * twoTo k := by
  induction k with
  | zero => simp
  | succ k ih => rw [← Nat.add_assoc, twoTo_succ, ih, twoTo_succ, Nat.mul_assoc]

theorem twoTo_dvd_twoTo {j k : Nat} (h : j ≤ k) : twoTo j ∣ twoTo k := by
  obtain ⟨i, rfl⟩ := Nat.le.dest h
  exact ⟨twoTo i, twoTo_add j i⟩

/-- The number of binary digits is bounded by `k` exactly where the number is. -/
theorem log2_lt_iff {n k : Nat} (h : n ≠ 0) : n.log2 < k ↔ n < twoTo k := Nat.log2_lt h

theorem log2_twoTo (k : Nat) : (twoTo k).log2 = k := Nat.log2_two_pow

end Sift
