import Sift.Json.Basic
import Sift.Number.Numeral

/-!
# Reading JSON documents

The reader follows the JSON grammar and refuses documents nested beyond a given depth, numbers too
large for a float, and texts with half a surrogate pair. Every reading function takes the characters
left and gives what it has read with the characters after it.
-/

namespace Sift.Json

/-- White space between the tokens of a document. -/
def skipBlanks : List Char → List Char := List.dropWhile fun c =>
  c == ' ' || c == '\n' || c == '\t' || c == '\r'

/-! ### Numbers -/

/-- Append digits to a number as long as it stays below `2 ^ 64`. Also the number of digits left. -/
def appendDigits : Nat → List Char → Nat × Nat
  | n, [] => (n, 0)
  | n, d :: rest =>
    let next := n * 10 + (d.toNat - 48)
    if next < UInt64.size then appendDigits next rest else (n, rest.length + 1)

/-- Scale a float by a power of ten, with one rounding for each factor of at most `10 ^ 308`. -/
def scaleFloat? (x : Binary64) (exponent : Int) : Option Binary64 :=
  if exponent.natAbs ≤ 308 then
    let power := Binary64.ofDecimal false 1 exponent.natAbs
    let scaled := if 0 ≤ exponent then x.mul power else x.div power
    if scaled.isFinite then some scaled else none
  else if x.isZero then some x
  else if 0 ≤ exponent then none
  else scaleFloat? (x.div (.ofDecimal false 1 308)) (exponent + 308)
termination_by exponent.natAbs

/-- A float of its leading digits, as many as 64 bits hold, and a power of ten. -/
def floatOf? (negative : Bool) (significand : Nat) (exponent : Int) : Option Json := do
  let x ← scaleFloat? (.ofInt significand) exponent
  return ofFloat (if negative then x.neg else x)

/-- An integer of its digits. Zero with a minus sign and what is out of range are floats. -/
def integerOf (negative : Bool) (significand : Nat) : Json :=
  let n : Int := if negative then -significand else significand
  if h : JsonInteger n ∧ ¬ (negative ∧ n = 0) then integer n h.1
  else
    let x := Binary64.ofInt significand
    ofFloat (if negative then x.neg else x)

/-- The exponent of a number, if one follows. -/
def readExponent (cs : List Char) : Option (Option Int × List Char) :=
  match cs with
  | 'e' :: rest | 'E' :: rest =>
    let (negative, rest) := match rest with
      | '-' :: rest => (true, rest)
      | '+' :: rest => (false, rest)
      | rest => (false, rest)
    let (digits, rest) := rest.span Char.isDigit
    if digits.isEmpty then none
    else
      let n : Int := digitsValue digits
      some (some (if negative then -n else n), rest)
  | _ => some (none, cs)

def readFraction (cs : List Char) : Option (Option (List Char) × List Char) :=
  match cs with
  | '.' :: rest =>
    let (digits, rest) := rest.span Char.isDigit
    if digits.isEmpty then none else some (some digits, rest)
  | _ => some (none, cs)

def readNumber (cs : List Char) : Option (Json × List Char) := do
  let (negative, cs) := match cs with
    | '-' :: rest => (true, rest)
    | _ => (false, cs)
  let (whole, cs) := cs.span Char.isDigit
  match whole with
  | [] | '0' :: _ :: _ => none
  | _ =>
    let (fraction?, cs) ← readFraction cs
    let (exponent?, cs) ← readExponent cs
    let (significand, dropped) := appendDigits 0 whole
    if fraction?.isNone ∧ exponent?.isNone ∧ dropped = 0 then
      return (integerOf negative significand, cs)
    else
      let fraction := fraction?.getD []
      let (significand, ignored) := appendDigits significand fraction
      let exponent := exponent?.getD 0 + dropped - (fraction.length - ignored : Nat)
      return (← floatOf? negative significand exponent, cs)

/-! ### Texts -/

def hexValue? (c : Char) : Option Nat :=
  if c.isDigit then some (c.toNat - 48)
  else if 'a' ≤ c ∧ c ≤ 'f' then some (c.toNat - 87)
  else if 'A' ≤ c ∧ c ≤ 'F' then some (c.toNat - 55)
  else none

def readHex : List Char → Option (Nat × List Char)
  | a :: b :: c :: d :: rest => do
    return ((((← hexValue? a) * 16 + (← hexValue? b)) * 16 + (← hexValue? c)) * 16
      + (← hexValue? d), rest)
  | _ => none

/-- The character after `\u`, which takes two escapes beyond the basic plane. -/
def readUnicode (cs : List Char) : Option (Char × List Char) := do
  let (high, rest) ← readHex cs
  if 0xD800 ≤ high ∧ high < 0xDC00 then
    match rest with
    | '\\' :: 'u' :: rest =>
      let (low, rest) ← readHex rest
      if 0xDC00 ≤ low ∧ low < 0xE000 then
        return (Char.ofNat (0x10000 + (high - 0xD800) * 0x400 + (low - 0xDC00)), rest)
      else none
    | _ => none
  else if 0xDC00 ≤ high ∧ high < 0xE000 then none
  else return (Char.ofNat high, rest)

/-- The character after a backslash. -/
def readEscape : List Char → Option (Char × List Char)
  | '"' :: rest => some ('"', rest)
  | '\\' :: rest => some ('\\', rest)
  | '/' :: rest => some ('/', rest)
  | 'b' :: rest => some ('\x08', rest)
  | 'f' :: rest => some ('\x0c', rest)
  | 'n' :: rest => some ('\n', rest)
  | 'r' :: rest => some ('\r', rest)
  | 't' :: rest => some ('\t', rest)
  | 'u' :: rest => readUnicode rest
  | _ => none

/-- The rest of a text, up to its closing quote. Each round reads at least one character, so the
number of characters bounds the rounds; what has been read is kept in reverse. -/
def readText : Nat → List Char → List Char → Option (String × List Char)
  | 0, _, _ => none
  | rounds + 1, read, cs =>
    match cs with
    | [] => none
    | '"' :: rest => some (String.ofList read.reverse, rest)
    | '\\' :: rest => do
      let (c, rest) ← readEscape rest
      readText rounds (c :: read) rest
    | c :: rest => if c.toNat < 0x20 then none else readText rounds (c :: read) rest

def readString (cs : List Char) : Option (String × List Char) := readText (cs.length + 1) [] cs

/-! ### Documents -/

/-- The parts of a list after its first one, each after a comma, up to the closing bracket. Each
part takes at least its comma, so the number of characters bounds the parts. -/
def readMore {α : Type} (part : List Char → Option (α × List Char)) (closing : Char) :
    Nat → List α → List Char → Option (List α × List Char)
  | 0, _, _ => none
  | rounds + 1, read, cs =>
    match skipBlanks cs with
    | c :: rest =>
      if c = closing then some (read.reverse, rest)
      else if c = ',' then do
        let (x, rest) ← part rest
        readMore part closing rounds (x :: read) rest
      else none
    | [] => none

/-- The parts of a list with commas between them, after its opening bracket. -/
def readList {α : Type} (part : List Char → Option (α × List Char)) (closing : Char)
    (cs : List Char) : Option (List α × List Char) :=
  match skipBlanks cs with
  | [] => none
  | c :: rest =>
    if c = closing then some ([], rest)
    else do
      let (x, rest) ← part (c :: rest)
      readMore part closing (rest.length + 1) [x] rest

def readEntry (value : List Char → Option (Json × List Char)) (cs : List Char) :
    Option ((String × Json) × List Char) :=
  match skipBlanks cs with
  | '"' :: rest => do
    let (key, rest) ← readString rest
    match skipBlanks rest with
    | ':' :: rest => do
      let (j, rest) ← value rest
      return ((key, j), rest)
    | _ => none
  | _ => none

/-- A value nested at most `depth` deep, after any white space. -/
def readValue (depth : Nat) (cs : List Char) : Option (Json × List Char) :=
  match skipBlanks cs with
  | 'n' :: 'u' :: 'l' :: 'l' :: rest => some (null, rest)
  | 't' :: 'r' :: 'u' :: 'e' :: rest => some (boolean true, rest)
  | 'f' :: 'a' :: 'l' :: 's' :: 'e' :: rest => some (boolean false, rest)
  | '"' :: rest => do
    let (s, rest) ← readString rest
    return (string s, rest)
  | '[' :: rest =>
    match depth with
    | 0 => none
    | depth + 1 => do
      let (items, rest) ← readList (readValue depth) ']' rest
      return (array items, rest)
  | '\x7b' :: rest =>
    match depth with
    | 0 => none
    | depth + 1 => do
      let (entries, rest) ← readList (readEntry (readValue depth)) '\x7d' rest
      return (ofEntries entries, rest)
  | cs => readNumber cs

/-- How deep documents may be nested. -/
def maxDepth : Nat := 127

/-- A document nested at most `depth` deep, which is all that a text holds besides white space. -/
def readTo? (depth : Nat) (text : String) : Option Json := do
  let (j, rest) ← readValue depth text.toList
  if (skipBlanks rest).isEmpty then some j else none

def read? (text : String) : Option Json := readTo? maxDepth text

end Sift.Json
