import Sift.Number.Binary64

/-!
# Numerals

The numbers that texts spell.
-/

namespace Sift

/-- The number of a run of decimal digits. -/
def digitsValue (digits : List Char) : Nat := digits.foldl (fun n d => n * 10 + (d.toNat - 48)) 0

/-- The integer of a run of digits, perhaps with a minus sign. -/
def signedDigits? (cs : List Char) : Option Int :=
  let (negative, digits) := match cs with
    | '-' :: rest => (true, rest)
    | '+' :: rest => (false, rest)
    | _ => (false, cs)
  if digits.isEmpty || digits.any (!·.isDigit) then none
  else some (if negative then -digitsValue digits else digitsValue digits)

/-- The float of a decimal text, rounded once. An exponent, a fraction and a sign may be missing,
and there are words for what is not finite. -/
def Binary64.ofText? (text : String) : Option Binary64 :=
  let (negative, cs) := match text.toList with
    | '-' :: rest => (true, rest)
    | cs => (false, cs)
  match String.ofList cs with
  | "inf" => some (infinite negative)
  | "NaN" => some nan
  | _ =>
    let (whole, cs) := cs.span Char.isDigit
    let (fraction, cs) := match cs with
      | '.' :: rest => rest.span Char.isDigit
      | _ => ([], cs)
    let decimal (exponent : Int) : Option Binary64 :=
      if whole.isEmpty && fraction.isEmpty then none
      else some (ofDecimal negative (digitsValue (whole ++ fraction)) (exponent - fraction.length))
    match cs with
    | [] => decimal 0
    | 'e' :: rest | 'E' :: rest => signedDigits? rest >>= decimal
    | _ => none

end Sift
