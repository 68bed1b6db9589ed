import Sift.Token.Scan

/-!
# Splitting texts into tokens

A lexer stands somewhere in a text and remembers whether an operand may come next and whether the
last token was a dot. `Lexer.next` reads a token and may be asked again after a failure; `Lexer.run`
reads up to the end or the first failure.
-/

namespace Sift

/-- A place in a text. -/
structure Lexer where
  rest : List Char
  position : Nat
  /-- Whether an operator that comes next stands before its operand. -/
  expectOperand : Bool := true
  /-- Whether the last token was a dot. -/
  afterDot : Bool := false
deriving Inhabited

namespace Lexer

/-- The beginning of a text whose first character has the given position. -/
def ofSource (source : String) (offset : Nat) : Lexer where
  rest := source.toList
  position := offset

/-- The state that a token leaves behind. -/
def afterKind (lx : Lexer) (kind : Token.Kind) : Lexer :=
  { lx with expectOperand := kind.expectsOperand, afterDot := kind.isPunctuation .dot }

/-- The state that tokens already read leave behind. -/
def afterTokens (lx : Lexer) (before : List Token) : Lexer :=
  match before.getLast? with
  | some token => lx.afterKind token.kind
  | none => lx

def skipBlanks (lx : Lexer) : Lexer :=
  { lx with
    rest := lx.rest.dropWhile isWhiteSpace
    position := lx.position + (lx.rest.takeWhile isWhiteSpace).length }

def advance (lx : Lexer) (count : Nat) : Lexer :=
  { lx with rest := lx.rest.drop count, position := lx.position + count, afterDot := false }

/-- The next token, which is the end once nothing is left, and the state after it. A failure leaves
the lexer behind the characters that it has looked at. -/
def next (g : Grammar) (lx : Lexer) : Except LexError Token × Lexer :=
  let lx := lx.skipBlanks
  match lx.rest with
  | [] => (.ok ⟨.endOfInput, "", lx.position⟩, { lx with afterDot := false })
  | c :: rest =>
    let (result, length) := scan g lx.expectOperand lx.afterDot lx.position c rest
    match result with
    | .ok kind =>
      (.ok ⟨kind, String.ofList (lx.rest.take length), lx.position⟩,
        (lx.advance length).afterKind kind)
    | .error e => (.error e, lx.advance length)

/-- A token other than the end is taken off the text. -/
theorem length_next_lt {g : Grammar} {lx after : Lexer} {token : Token}
    (h : lx.next g = (.ok token, after)) (more : token.kind.isEnd = false) :
    after.rest.length < lx.rest.length := by
  unfold next at h
  have blanks : lx.skipBlanks.rest.length ≤ lx.rest.length := by
    have := length_takeWhile_add_length_dropWhile isWhiteSpace lx.rest
    simp only [skipBlanks]
    omega
  simp only at h
  split at h
  · simp only [Prod.mk.injEq, Except.ok.injEq] at h
    simp [← h.1, Token.Kind.isEnd] at more
  · rename_i c rest eq
    have pos := one_le_scan g lx.skipBlanks.expectOperand lx.skipBlanks.afterDot
      lx.skipBlanks.position c rest
    rw [eq, List.length_cons] at blanks
    split at h
    · simp only [Prod.mk.injEq] at h
      rw [← h.2]
      simp only [afterKind, advance, eq, List.length_drop, List.length_cons]
      omega
    · simp at h

/-- The tokens up to the end or the first failure. -/
def run (g : Grammar) (lx : Lexer) : List Token × Option LexError :=
  match _h : lx.next g with
  | (.error e, _) => ([], some e)
  | (.ok token, after) =>
    if _more : token.kind.isEnd then ([], none)
    else
      let (tokens, error) := run g after
      (token :: tokens, error)
termination_by lx.rest.length
decreasing_by exact length_next_lt _h (by simpa using _more)

end Lexer

/-- The tokens of a text after tokens that have been read before, up to the end or the first
failure. The first character of the text has the given position. -/
def tokensAfter (g : Grammar) (before : List Token) (source : String) (offset : Nat) :
    List Token × Option LexError :=
  let (tokens, error) := ((Lexer.ofSource source offset).afterTokens before).run g
  (before ++ tokens, error)

/-- The tokens of a text and its end. -/
def tokenize (g : Grammar) (source : String) (offset : Nat) : Except LexError (List Token) :=
  match tokensAfter g [] source offset with
  | (tokens, none) => .ok (tokens ++ [⟨.endOfInput, "", offset + source.length⟩])
  | (_, some e) => .error e

end Sift
