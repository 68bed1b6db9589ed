import Sift.Number.Shortest

/-!
# Writing numbers

A format of binary64 numbers decides where positional notation ends, how whole numbers are marked,
and how an exponent is signed. The digits are the shortest ones that read back as the number.
-/

namespace Sift

/-- A format of finite numbers. -/
structure FloatLayout where
  /-- The exponents of the leading digit for which all places are written out. -/
  positional : Int → Bool
  /-- Whether whole numbers in positional notation end in a point and a zero. -/
  keepPoint : Bool
  /-- Whether an exponent that is not negative has a sign. -/
  keepPlus : Bool
  ties : TieRule

namespace FloatLayout

variable (f : FloatLayout)

/-- All places written out. -/
def positionalText (digits : List Char) (exponent : Int) : List Char :=
  match exponent with
  | .ofNat zeros =>
    digits ++ List.replicate zeros '0' ++ if f.keepPoint then ['.', '0'] else []
  | .negSucc n =>
    let places := n + 1
    let padded := List.replicate (places + 1 - digits.length) '0' ++ digits
    padded.take (padded.length - places) ++ '.' :: padded.drop (padded.length - places)

/-- A leading digit with a fraction, and an exponent. -/
def scientificText (digits : List Char) (leading : Int) : List Char :=
  let fraction := match digits with
    | [] | [_] => digits
    | d :: rest => d :: '.' :: rest
  let sign := if leading < 0 then ['-'] else if f.keepPlus then ['+'] else []
  fraction ++ 'e' :: sign ++ Nat.toDigits 10 leading.natAbs

def magnitudeText (units : Nat) : List Char :=
  let d := shortestDigits f.ties units
  let digits := Nat.toDigits 10 d.coefficient
  let leading := d.exponent + digits.length - 1
  if f.positional leading then f.positionalText digits d.exponent
  else f.scientificText digits leading

def text : Binary64 → String
  | .nan => "NaN"
  | .infinite false => "inf"
  | .infinite true => "-inf"
  | .finite false units _ => String.ofList (f.magnitudeText units)
  | .finite true units _ => String.ofList ('-' :: f.magnitudeText units)

end FloatLayout

end Sift
