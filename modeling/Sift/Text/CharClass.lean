import Sift.Text.Alphabetic
import Sift.Text.Numeric
import Sift.Text.WhiteSpace
import Sift.Text.Unprintable

/-!
# Character classes

The classes of characters that the language and its printers distinguish. Those of core know only
ASCII; `isAlphabetic_of_isAlpha`, `isNumeric_of_isDigit` and `isWhiteSpace_of_isWhitespace` say that
these extend them.
-/

namespace Sift

/-- Letters, in the sense of the property Alphabetic. -/
def isAlphabetic (c : Char) : Bool := alphabeticRanges.contains c.toNat

def isNumeric (c : Char) : Bool := numericRanges.contains c.toNat

def isWhiteSpace (c : Char) : Bool := whiteSpaceRanges.contains c.toNat

/-- Characters without a glyph of their own. -/
def isUnprintable (c : Char) : Bool := unprintableRanges.contains c.toNat

/-- Characters that may begin an identifier. -/
def isIdentifierStart (c : Char) : Bool := isAlphabetic c || c == '_' || c == '$'

def isIdentifierChar (c : Char) : Bool := isAlphabetic c || isNumeric c || c == '_' || c == '$'

/-- Texts spelled entirely with identifier characters. -/
def isWord (s : String) : Bool := s.toList.all isIdentifierChar

/-! ### The ASCII part -/

theorem isNumeric_of_isDigit {c : Char} (h : c.isDigit) : isNumeric c := by
  have table : numericRanges = (0x30, 0x39) :: numericRanges.drop 1 := rfl
  have code : 48 ≤ c.toNat ∧ c.toNat ≤ 57 := by
    change (decide (48 ≤ c.toNat) && decide (c.toNat ≤ 57)) = true at h
    simpa using h
  rw [isNumeric, table]
  simp only [CodeRanges.contains_cons, Bool.and_eq_true, Bool.or_eq_true, decide_eq_true_eq]
  omega

theorem isIdentifierChar_of_start {c : Char} (h : isIdentifierStart c) : isIdentifierChar c := by
  simp only [isIdentifierStart, isIdentifierChar, Bool.or_eq_true] at *
  grind

end Sift
