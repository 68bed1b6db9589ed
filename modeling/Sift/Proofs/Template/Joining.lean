import Sift.Proofs.Token.Pieces
import Sift.Proofs.Token.Tiling
import Sift.Template

/-!
# Templates and joined texts

A template of source texts is read one piece after the other, and so is the text in which the pieces
are joined by spaces, as long as each piece can be read on its own. Only the positions differ: those
in the template do not count the spaces.
-/

namespace Sift

/-! ### Positions -/

def Token.move (f : Nat → Nat) (t : Token) : Token := { t with position := f t.position }

def LexError.move (f : Nat → Nat) : LexError → LexError
  | invalidToken token position => invalidToken token (f position)
  | unterminatedString position => unterminatedString (f position)
  | invalidEscape escape position => invalidEscape escape (f position)

lemma Token.map_move_add {f : Nat → Nat} {o o' : Nat} {tokens : List Token}
    (h : ∀ t ∈ tokens, f (o + t.position) = o' + t.position) :
    (tokens.map (Token.move (o + ·))).map (Token.move f) = tokens.map (Token.move (o' + ·)) := by
  rw [List.map_map]
  refine List.map_congr_left fun t ht => ?_
  simp only [Function.comp_apply, Token.move, h t ht]

lemma LexError.move_add {f : Nat → Nat} {o o' : Nat} (h : ∀ i, f (o + i) = o' + i) (e : LexError) :
    (e.move (o + ·)).move f = e.move (o' + ·) := by
  cases e <;> simp only [LexError.move, h]

/-- What is read does not depend on where it stands, only the positions do. -/
lemma scan_add (g : Grammar) (expectOperand afterDot : Bool) (position k : Nat) (c : Char)
    (rest : List Char) : scan g expectOperand afterDot (k + position) c rest
      = ((scan g expectOperand afterDot position c rest).1.mapError (.move (k + ·)),
        (scan g expectOperand afterDot position c rest).2) := by
  rw [scan, scan]
  split
  · rfl
  · split
    · split
      · rfl
      · rename_i escape length _
        have place : k + position + 1 + length = k + (position + 1 + length) := by omega
        rw [place]
        rfl
      · rfl
    · split
      · rfl
      · split
        · rfl
        · split <;> rfl

namespace Lexer

variable {g : Grammar}

def later (k : Nat) (lx : Lexer) : Lexer := { lx with position := k + lx.position }

lemma skipBlanks_later (k : Nat) (lx : Lexer) :
    (lx.later k).skipBlanks = lx.skipBlanks.later k := by
  simp only [skipBlanks, later, mk.injEq]
  refine ⟨trivial, ?_, trivial, trivial⟩
  omega

lemma advance_later (k count : Nat) (lx : Lexer) :
    (lx.later k).advance count = (lx.advance count).later k := by
  simp only [advance, later, mk.injEq]
  refine ⟨trivial, ?_, trivial, trivial⟩
  omega

/-- The next token of a later text is the same one, later. -/
lemma next_later (k : Nat) (lx : Lexer) : (lx.later k).next g
    = (((lx.next g).1.map (.move (k + ·))).mapError (.move (k + ·)), (lx.next g).2.later k) := by
  rw [next, next, skipBlanks_later]
  generalize lx.skipBlanks = lx
  have rest_later : (lx.later k).rest = lx.rest := rfl
  cases begins : lx.rest with
  | nil =>
    simp only [rest_later, begins]
    rfl
  | cons c rest =>
    have scanned : scan g (lx.later k).expectOperand (lx.later k).afterDot (lx.later k).position c
        rest = _ := scan_add g lx.expectOperand lx.afterDot lx.position k c rest
    simp only [rest_later, begins, scanned, advance_later]
    rcases scan g lx.expectOperand lx.afterDot lx.position c rest with ⟨_ | kind, length⟩ <;> rfl

/-- A later text is read alike, later. -/
lemma run_later (k : Nat) (lx : Lexer) : (lx.later k).run g
    = ((lx.run g).1.map (.move (k + ·)), (lx.run g).2.map (.move (k + ·))) := by
  fun_induction Lexer.run g lx with
  | case1 lx e after hnext =>
    rw [run_eq, next_later, hnext]
    rfl
  | case2 lx token after hnext atEnd =>
    rw [run_eq, next_later, hnext]
    exact if_pos atEnd
  | case3 lx token after hnext more tokens error hrun ih =>
    rw [hrun] at ih
    rw [run_eq, next_later, hnext]
    refine (if_neg more).trans ?_
    rw [ih]
    rfl

lemma afterTokens_later (k : Nat) (lx : Lexer) (before : List Token) :
    (lx.later k).afterTokens before = (lx.afterTokens before).later k := by
  rw [afterTokens, afterTokens]
  cases before.getLast? <;> rfl

/-- What a lexer remembers does not depend on places. -/
lemma afterTokens_map_move (f : Nat → Nat) (lx : Lexer) (before : List Token) :
    lx.afterTokens (before.map (.move f)) = lx.afterTokens before := by
  rw [afterTokens, afterTokens, List.getLast?_map]
  cases before.getLast? <;> rfl

end Lexer

/-- What is read from a text, in its own positions. -/
def readAfter (g : Grammar) (before : List Token) (source : String) :
    List Token × Option LexError := ((Lexer.ofSource source 0).afterTokens before).run g

/-- The tokens of a text are those in its own positions, moved to where it begins. -/
lemma tokensAfter_eq_move (g : Grammar) (before : List Token) (source : String) (offset : Nat) :
    tokensAfter g before source offset
      = (before ++ (readAfter g before source).1.map (.move (offset + ·)),
        (readAfter g before source).2.map (.move (offset + ·))) := by
  have start : (Lexer.ofSource source offset).afterTokens before
      = ((Lexer.ofSource source 0).afterTokens before).later offset := by
    rw [← Lexer.afterTokens_later, Lexer.later, Lexer.ofSource, Lexer.ofSource]
    simp
  rw [tokensAfter_eq, start, Lexer.run_later]
  rfl

/-- What has been read before counts only by its kinds. -/
lemma readAfter_map_move (g : Grammar) (f : Nat → Nat) (before : List Token) (source : String) :
    readAfter g (before.map (.move f)) source = readAfter g before source := by
  rw [readAfter, readAfter, Lexer.afterTokens_map_move]

/-- The tokens of a text begin inside of it. -/
lemma position_lt_of_readAfter {g : Grammar} {before new : List Token} {source : String}
    (h : readAfter g before source = (new, none)) {t : Token} (ht : t ∈ new) :
    t.position < source.length := by
  have tiling := (Lexer.reads_of_run h).tiling
  have inside := tiling.position_lt ht
  rwa [Lexer.rest_afterTokens, Lexer.position_afterTokens, Lexer.ofSource, Nat.zero_add,
    String.length_toList] at inside

/-! ### Spaces between pieces -/

/-- The number of spaces before a position, where a space comes behind each of some texts, and then
another text. -/
def spacesBefore : List String → Nat → Nat
  | [], _ => 0
  | text :: rest, position =>
    if position ≤ text.length then 0
    else spacesBefore rest (position - (text.length + 1)) + 1

/-- The position in the texts without the spaces behind them. -/
def unspaced (texts : List String) (position : Nat) : Nat := position - spacesBefore texts position

/-- Positions are moved from `o` to `o'` in the first of some texts, and where they are followed by
spaces, which do not count, in the texts behind it. -/
def Unspaces (f : Nat → Nat) : Nat → Nat → List String → Prop
  | o, o', [] => ∀ i, f (o + i) = o' + i
  | o, o', text :: rest =>
    (∀ i < text.length, f (o + i) = o' + i) ∧
      Unspaces f (o + text.length + 1) (o' + text.length) rest

/-- Positions without the spaces move on piece by piece. -/
lemma unspaces_of_eq {f : Nat → Nat} {texts : List String} : ∀ {o o' : Nat},
    (∀ i, f (o + i) = o' + i - spacesBefore texts i) → Unspaces f o o' texts := by
  induction texts with
  | nil => exact fun h i => h i
  | cons text rest ih =>
    intro o o' h
    constructor
    · intro i hi
      rw [h, spacesBefore, if_pos (by omega), Nat.sub_zero]
    · refine ih fun i => ?_
      have split : o + text.length + 1 + i = o + (text.length + 1 + i) := by omega
      rw [split, h, spacesBefore, if_neg (by omega), Nat.add_sub_cancel_left]
      omega

namespace Template

variable {g : Grammar} {f : Nat → Nat}

/-- The first piece is read in its own positions, and the others behind it. -/
lemma tokens_source_eq (before : List Token) (offset : Nat) (text : String)
    (rest : List Fragment) : tokens g (before.map (.move f)) offset (.source text :: rest)
      = match readAfter g before text with
        | (new, none) => tokens g (before.map (.move f) ++ new.map (.move (offset + ·)))
            (offset + text.length) rest
        | (_, some e) => .error (e.move (offset + ·)) := by
  rw [tokens, tokensAfter_eq_move, readAfter_map_move]
  rcases readAfter g before text with ⟨new, _ | e⟩ <;> rfl

/-- Pieces that are read one by one give the tokens of the joined text, without the spaces. The
induction is on the pieces, with what has been read before. -/
lemma tokens_unspaced (hg : g.BlankFree) (last : String) {texts : List String} :
    ∀ (before : List Token) {o o' : Nat}, Unspaces f o o' texts →
      (∃ ts, tokens g (before.map (.move f)) o' (texts.map .source) = .ok ts) →
      tokens g (before.map (.move f)) o' ((texts ++ [last]).map .source)
        = match tokensAfter g before (" ".intercalate (texts ++ [last])) o with
          | (read, none) => .ok ((read ++ [(⟨.endOfInput, "",
              o + (" ".intercalate (texts ++ [last])).length⟩ : Token)]).map (.move f))
          | (_, some e) => .error (e.move f) := by
  induction texts with
  | nil =>
    intro before o o' h _
    have h : ∀ i, f (o + i) = o' + i := h
    rw [List.nil_append, String.intercalate_singleton, tokensAfter_eq_move]
    refine (tokens_source_eq before o' last []).trans ?_
    rcases readAfter g before last with ⟨new, _ | e⟩
    · simp only [tokens, Option.map_none, List.map_append, List.map_cons, List.map_nil,
        Token.map_move_add fun t _ => h t.position, Token.move, h]
    · simp only [Option.map_some, LexError.move_add h]
  | cons text rest ih =>
    intro before o o' h readable
    obtain ⟨first, others⟩ := h
    rw [List.map_cons, tokens_source_eq] at readable
    rw [List.cons_append, List.map_cons, tokens_source_eq]
    rcases read : readAfter g before text with ⟨new, _ | e⟩
    · rw [read] at readable
      have moved : before.map (Token.move f) ++ new.map (Token.move (o' + ·))
          = (before ++ new.map (Token.move (o + ·))).map (Token.move f) := by
        rw [List.map_append,
          Token.map_move_add fun t ht => first _ (position_lt_of_readAfter read ht)]
      have law : tokensAfter g before text o = (before ++ new.map (Token.move (o + ·)), none) := by
        rw [tokensAfter_eq_move, read]
        rfl
      obtain ⟨next, more, list⟩ := List.exists_cons_of_ne_nil (l := rest ++ [last]) (by simp)
      have joined : " ".intercalate (text :: (rest ++ [last]))
          = text ++ " " ++ " ".intercalate (rest ++ [last]) := by
        rw [list, String.intercalate_cons_cons]
      have length : o + (text ++ " " ++ " ".intercalate (rest ++ [last])).length
          = o + text.length + 1 + (" ".intercalate (rest ++ [last])).length := by
        rw [String.length_append, String.length_append]
        have space : " ".length = 1 := rfl
        omega
      simp only [moved] at readable ⊢
      rw [ih _ others readable, joined, tokensAfter_append_space hg law, length]
    · rw [read] at readable
      obtain ⟨ts, absurd⟩ := readable
      cases absurd

/-- A text that has been read, a space and another text are read as the other text is read behind
the first one. So a template of source texts, all but the last of which can be read, is read as the
text in which spaces join them, except that its positions do not count the spaces. -/
theorem tokens_joined (hg : g.BlankFree) :
    (∀ before read offset a b, tokensAfter g before a offset = (read, none) →
      tokensAfter g before (a ++ " " ++ b) offset
        = tokensAfter g read b (offset + a.length + 1)) ∧
    ∀ texts last, (∃ ts, tokens g [] 0 (texts.map .source) = .ok ts) →
      tokens g [] 0 ((texts ++ [last]).map .source)
        = ((tokenize g (" ".intercalate (texts ++ [last])) 0).map
            (List.map (Token.move (unspaced texts)))).mapError
            (LexError.move (unspaced texts)) := by
  constructor
  · exact fun before read offset a b h => tokensAfter_append_space hg h b
  · intro texts last readable
    have unspaces : Unspaces (unspaced texts) 0 0 texts :=
      unspaces_of_eq fun i => by rw [Nat.zero_add, unspaced]
    refine (tokens_unspaced hg last [] unspaces readable).trans ?_
    rw [tokenize]
    rcases tokensAfter g [] (" ".intercalate (texts ++ [last])) 0 with ⟨read, _ | e⟩ <;> rfl

/-- A grammar with an operator that begins with another one. -/
def stars : Grammar := Grammar.empty.editAll
  [.binary "*" ⟨0, .eager fun v _ => .value v⟩, .binary "**" ⟨0, .eager fun v _ => .value v⟩]

/-- A star at the end of a piece and one at the beginning of the next are two operators in the text
joined with a space, too. -/
theorem tokens_joined_stars :
    stars.BlankFree ∧
      tokensAfter stars [] "a *" 0
        = ([⟨.identifier "a", "a", 0⟩, ⟨.operator .binary "*", "*", 2⟩], none) ∧
      tokensAfter stars [] "a * * b" 0 = tokensAfter stars
        [⟨.identifier "a", "a", 0⟩, ⟨.operator .binary "*", "*", 2⟩] "* b" 4 ∧
      tokens stars [] 0 [.source "a *", .source "* b"]
        = ((tokenize stars "a * * b" 0).map (List.map (Token.move (unspaced ["a *"])))).mapError
            (LexError.move (unspaced ["a *"])) := by
  have blankFree : stars.BlankFree := Grammar.blankFree_iff.2 (by decide)
  have noSymbol : stars.matchSymbol "a *".toList = none := by decide +kernel
  have symbol : stars.matchSymbol "*".toList = some "*" := by decide +kernel
  have star : Lexer.Reads stars ⟨" *".toList, 1, false, false⟩ [⟨.operator .binary "*", "*", 2⟩] :=
    .step rfl (.symbol symbol) (.stop (by decide))
  have read : tokensAfter stars [] "a *" 0
      = ([⟨.identifier "a", "a", 0⟩, ⟨.operator .binary "*", "*", 2⟩], none) :=
    tokensAfter_eq_none_iff.2 ⟨_, rfl, .step rfl (.word noSymbol (by decide)) star⟩
  have readable : ∃ ts, tokens stars [] 0 [.source "a *"] = .ok ts := by
    rw [tokens, read]
    exact ⟨_, rfl⟩
  obtain ⟨law, template⟩ := tokens_joined blankFree
  exact ⟨blankFree, read, law [] _ 0 "a *" "* b" read, template ["a *"] "* b" readable⟩

set_option maxRecDepth 8000 in
/-- A quoted text that begins in one piece does not end in the next one, and the positions in a
template do not count the spaces. -/
theorem tokens_ne_tokenize_joined :
    Grammar.empty.BlankFree ∧
      (tokens .empty [] 0 [.source "\"a", .source "b\""] = .error (.unterminatedString 0) ∧
        tokenize .empty (" ".intercalate ["\"a", "b\""]) 0
          = .ok [⟨.literal (.string "a b"), "\"a b\"", 0⟩, ⟨.endOfInput, "", 5⟩]) ∧
      tokens .empty [] 0 [.source "a", .source "#"] = .error (.invalidToken '#' 1) ∧
        tokenize .empty (" ".intercalate ["a", "#"]) 0 = .error (.invalidToken '#' 2) := by
  refine ⟨Grammar.blankFree_iff.2 (by decide), ⟨?_, ?_⟩, ?_, ?_⟩
  · cbv
  · cbv
  · cbv
  · cbv

end Template

end Sift
