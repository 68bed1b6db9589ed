import Sift.Proofs.Token.Walking

/-!
# What stands between quotes

A quoted text is written with plain characters and escapes. What stands behind an opening quote
begins with as much of this as there is, and then either the closing quote comes, or a backslash
before a character that it does not go with, or the text is over. A reader tells these three cases
apart (`Walker.readString_exact`).
-/

namespace Sift

namespace Quoted

/-- The characters that a backslash goes with, and what the two stand for. -/
def escapes : List (Char × Char) :=
  [('n', '\n'), ('t', '\t'), ('r', '\r'), ('"', '"'), ('\'', '\''), ('\\', '\\')]

/-- Plain characters and escapes, and the text that they write. -/
inductive Writes (quote : Char) : List Char → List Char → Prop
  | nil : Writes quote [] []
  | plain {c : Char} {written text : List Char} (noQuote : c ≠ quote) (noBackslash : c ≠ '\\')
      (more : Writes quote written text) : Writes quote (c :: written) (c :: text)
  | escape {e d : Char} {written text : List Char} (known : (e, d) ∈ escapes)
      (more : Writes quote written text) : Writes quote ('\\' :: e :: written) (d :: text)

/-- The closing quote comes behind what writes a text. -/
def Closes (quote : Char) (cs written text : List Char) : Prop :=
  Writes quote written text ∧ ∃ more, cs = written ++ quote :: more

/-- Behind what writes a text a backslash comes before a character that it does not go with. -/
def Breaks (quote : Char) (cs written : List Char) (e : Char) : Prop :=
  (∃ text, Writes quote written text) ∧ (∀ d, (e, d) ∉ escapes) ∧
    ∃ more, cs = written ++ '\\' :: e :: more

/-- All characters write a text, except perhaps for a backslash as the last one. -/
def RunsOut (quote : Char) (cs : List Char) : Prop :=
  ∃ written text, Writes quote written text ∧ (cs = written ∨ cs = written ++ ['\\'])

lemma unescape?_eq_some_iff {e d : Char} : unescape? e = some d ↔ (e, d) ∈ escapes := by
  unfold unescape?
  split <;> simp_all [escapes, eq_comm]

lemma unescape?_eq_none_iff {e : Char} : unescape? e = none ↔ ∀ d, (e, d) ∉ escapes := by
  rw [Option.eq_none_iff_forall_ne_some]
  exact forall_congr' fun d => not_congr unescape?_eq_some_iff

/-! ### Reading on -/

/-- Put a text, written with `taken` characters, in front. -/
def pushAll (before : List Char) (taken : Nat) : Quoted → Quoted
  | closed text length => closed (before ++ text) (taken + length)
  | invalidEscape escape length => invalidEscape escape (taken + length)
  | unterminated length => unterminated (taken + length)

variable {quote : Char} {cs written text : List Char}

/-- What writes a text is read as that text, whatever comes behind it. -/
lemma Writes.scanQuoted_append (hquote : quote ≠ '\\') (h : Writes quote written text)
    (more : List Char) :
    scanQuoted quote (written ++ more) = (scanQuoted quote more).pushAll text written.length := by
  induction h with
  | nil =>
    rw [List.nil_append]
    cases scanQuoted quote more <;> simp [pushAll]
  | plain noQuote noBackslash _ ih =>
    rw [List.cons_append, scanQuoted_cons noQuote noBackslash, ih]
    cases scanQuoted quote more <;> simp [pushAll, push] <;> omega
  | escape known _ ih =>
    rw [List.cons_append, List.cons_append,
      scanQuoted_escape hquote (unescape?_eq_some_iff.2 known), ih]
    cases scanQuoted quote more <;> simp [pushAll, push] <;> omega

/-- A text that is closed is read. -/
lemma Closes.scanQuoted_eq (hquote : quote ≠ '\\') (h : Closes quote cs written text) :
    scanQuoted quote cs = .closed text (written.length + 1) := by
  obtain ⟨writes, more, rfl⟩ := h
  have closed : scanQuoted quote (quote :: more) = .closed [] 1 := by
    cases more <;> simp [scanQuoted]
  rw [writes.scanQuoted_append hquote, closed, pushAll, List.append_nil]

/-- A wrong escape is reported. -/
lemma Breaks.scanQuoted_eq (hquote : quote ≠ '\\') {e : Char} (h : Breaks quote cs written e) :
    scanQuoted quote cs = .invalidEscape e (written.length + 1) := by
  obtain ⟨⟨text, writes⟩, unknown, more, rfl⟩ := h
  have broken : scanQuoted quote ('\\' :: e :: more) = .invalidEscape e 1 := by
    simp [scanQuoted, hquote.symm, unescape?_eq_none_iff.2 unknown]
  rw [writes.scanQuoted_append hquote, broken, pushAll]

/-- A text that is not closed is looked through. -/
lemma RunsOut.scanQuoted_eq (hquote : quote ≠ '\\') (h : RunsOut quote cs) :
    scanQuoted quote cs = .unterminated cs.length := by
  obtain ⟨written, text, writes, rfl | rfl⟩ := h
  · have scanned := writes.scanQuoted_append hquote []
    rw [List.append_nil] at scanned
    rw [scanned, scanQuoted, pushAll, Nat.add_zero]
  · have ends : scanQuoted quote ['\\'] = .unterminated 1 := by simp [scanQuoted, hquote.symm]
    rw [writes.scanQuoted_append hquote, ends, pushAll, List.length_append, List.length_singleton]

/-! ### All cases -/

/-- What ends a text that is being written. -/
def Ends (quote : Char) (cs : List Char) : Prop :=
  (∃ more, cs = quote :: more) ∨
    (∃ e more, (∀ d, (e, d) ∉ escapes) ∧ cs = '\\' :: e :: more) ∨ cs = [] ∨ cs = ['\\']

/-- Every text begins with as many plain characters and escapes as there are. -/
lemma exists_writes_append (quote : Char) (cs : List Char) :
    ∃ written text tail, Writes quote written text ∧ Ends quote tail ∧ cs = written ++ tail := by
  -- The scanner stops at what ends the text, and reads on behind a plain character or an escape.
  fun_induction scanQuoted quote cs with
  | case1 => exact ⟨[], [], [], .nil, .inr (.inr (.inl rfl)), rfl⟩
  | case2 => exact ⟨[], [], _, .nil, .inl ⟨[], rfl⟩, rfl⟩
  | case3 c noQuote =>
    by_cases backslash : c = '\\'
    · subst backslash
      exact ⟨[], [], _, .nil, .inr (.inr (.inr rfl)), rfl⟩
    · exact ⟨[c], [c], [], .plain noQuote backslash .nil, .inr (.inr (.inl rfl)), rfl⟩
  | case4 e rest => exact ⟨[], [], _, .nil, .inl ⟨e :: rest, rfl⟩, rfl⟩
  | case5 e rest d unescaped _ ih =>
    obtain ⟨written, text, tail, writes, ends, rfl⟩ := ih
    exact ⟨_, _, tail, .escape (unescape?_eq_some_iff.1 unescaped) writes, ends, rfl⟩
  | case6 e rest unknown =>
    have unknown := unescape?_eq_none_iff.1 unknown
    exact ⟨[], [], _, .nil, .inr (.inl ⟨e, rest, unknown, rfl⟩), rfl⟩
  | case7 c e rest noQuote noBackslash ih =>
    obtain ⟨written, text, tail, writes, ends, same⟩ := ih
    rw [same]
    exact ⟨_, _, tail, .plain noQuote noBackslash writes, ends, rfl⟩

/-- A quoted text is closed, breaks off at a wrong escape, or runs out. -/
lemma closes_or_breaks_or_runsOut (quote : Char) (cs : List Char) :
    (∃ written text, Closes quote cs written text) ∨ (∃ written e, Breaks quote cs written e) ∨
      RunsOut quote cs := by
  obtain ⟨written, text, tail, writes, ends, rfl⟩ := exists_writes_append quote cs
  rcases ends with ⟨more, rfl⟩ | ⟨e, more, unknown, rfl⟩ | rfl | rfl
  · exact .inl ⟨written, text, writes, more, rfl⟩
  · exact .inr (.inl ⟨written, e, ⟨text, writes⟩, unknown, more, rfl⟩)
  · exact .inr (.inr ⟨written, text, writes, .inl (List.append_nil _)⟩)
  · exact .inr (.inr ⟨written, text, writes, .inr rfl⟩)

/-- A text that is closed has no wrong escape before its end. -/
lemma Closes.not_breaks (hquote : quote ≠ '\\') (h : Closes quote cs written text)
    (written' : List Char) (e : Char) : ¬ Breaks quote cs written' e := by
  intro breaks
  cases (h.scanQuoted_eq hquote).symm.trans (breaks.scanQuoted_eq hquote)

/-- A quoted text runs out if it is neither closed nor breaks off. -/
lemma runsOut_iff (hquote : quote ≠ '\\') : RunsOut quote cs ↔
    (∀ written text, ¬ Closes quote cs written text) ∧
      ∀ written e, ¬ Breaks quote cs written e := by
  constructor
  · intro runsOut
    have ends := runsOut.scanQuoted_eq hquote
    refine ⟨fun written text closes => ?_, fun written e breaks => ?_⟩
    · cases ends.symm.trans (closes.scanQuoted_eq hquote)
    · cases ends.symm.trans (breaks.scanQuoted_eq hquote)
  · rintro ⟨noClosing, noBreak⟩
    rcases closes_or_breaks_or_runsOut quote cs with ⟨written, text, closes⟩ |
      ⟨written, e, breaks⟩ | runsOut
    · exact absurd closes (noClosing written text)
    · exact absurd breaks (noBreak written e)
    · exact runsOut

end Quoted

namespace Walker

open Quoted

variable {w : Walker} {quote : Char} {behind written : List Char}

lemma readString_of_closes (hquote : quote ≠ '\\') (h : w.rest = quote :: behind)
    {text : List Char} (closes : Closes quote behind written text) :
    w.readString quote = (.ok (String.ofList text), w.step (written.length + 2)) := by
  have count : 1 + (written.length + 1) = written.length + 2 := by omega
  rw [readString_eq h, closes.scanQuoted_eq hquote, ofQuoted, step_step, count,
    String.empty_append]

lemma readString_of_breaks (hquote : quote ≠ '\\') (h : w.rest = quote :: behind) {e : Char}
    (breaks : Breaks quote behind written e) :
    w.readString quote
      = (.error (.lex (.invalidEscape e (w.position + written.length + 2))),
        w.step (written.length + 2)) := by
  have count : 1 + (written.length + 1) = written.length + 2 := by omega
  rw [readString_eq h, breaks.scanQuoted_eq hquote, ofQuoted, step_step, position_step,
    Nat.add_assoc, count, ← Nat.add_assoc]

lemma readString_of_runsOut (hquote : quote ≠ '\\') (h : w.rest = quote :: behind)
    (runsOut : RunsOut quote behind) :
    w.readString quote
      = (.error (.lex (.unterminatedString w.position)), w.step (behind.length + 1)) := by
  rw [readString_eq h, runsOut.scanQuoted_eq hquote, ofQuoted, step_step, Nat.add_comm]

/-- At a quotation mark, the walker reads the text that is written up to the closing quote and stops
behind that. If a backslash comes before a character that it does not go with, it names this
character and its position, and stops there. Otherwise the text runs out, and the walker names the
position of the opening quote. Exactly one of these is the case. Unless an operator symbol begins at
the quotation mark, the lexer reads the same as a token. -/
theorem readString_exact (hquote : quote = '"' ∨ quote = '\'') (h : w.rest = quote :: behind) :
    (∀ written text, Closes quote behind written text →
      w.readString quote = (.ok (String.ofList text), w.step (written.length + 2))) ∧
    (∀ written e, Breaks quote behind written e →
      w.readString quote
        = (.error (.lex (.invalidEscape e (w.position + written.length + 2))),
          w.step (written.length + 2))) ∧
    (RunsOut quote behind →
      w.readString quote
        = (.error (.lex (.unterminatedString w.position)), w.step (behind.length + 1))) ∧
    (RunsOut quote behind ↔ (∀ written text, ¬ Closes quote behind written text) ∧
      ∀ written e, ¬ Breaks quote behind written e) ∧
    (∀ written text written' e, Closes quote behind written text →
      ¬ Breaks quote behind written' e) ∧
    ∀ (g : Grammar) (expectOperand afterDot : Bool), g.matchSymbol (quote :: behind) = none →
      let scanned := scan g expectOperand afterDot w.position quote behind
      scanned.1.mapError .lex = (w.readString quote).1.map (fun s => .literal (.string s)) ∧
        w.step scanned.2 = (w.readString quote).2 := by
  have noEscape : quote ≠ '\\' := by rcases hquote with rfl | rfl <;> decide
  refine ⟨fun _ _ => readString_of_closes noEscape h, fun _ _ => readString_of_breaks noEscape h,
    readString_of_runsOut noEscape h, runsOut_iff noEscape,
    fun _ _ written' e closes => closes.not_breaks noEscape written' e,
    fun g expectOperand afterDot noSymbol => ?_⟩
  have same := readString_eq_scan expectOperand afterDot h hquote noSymbol
  exact ⟨(Prod.mk.inj same).1.symm, (Prod.mk.inj same).2.symm⟩

/-- An escaped quote does not close the text, and an escaped backslash does not go with the quote
behind it. -/
theorem readString_exact_escapes :
    let behind := ['a', '\\', '\'', '\\', '\\', '\'', 'b']
    let w : Walker := { chars := '+' :: '\'' :: behind, cursor := 1, offset := 10 }
    w.rest = '\'' :: behind ∧
      Closes '\'' behind ['a', '\\', '\'', '\\', '\\'] ['a', '\'', '\\'] ∧
      w.readString '\'' = (.ok "a'\\", w.step 7) ∧ ¬ RunsOut '\'' behind := by
  intro behind w
  have writes : Writes '\'' ['a', '\\', '\'', '\\', '\\'] ['a', '\'', '\\'] :=
    .plain (by decide) (by decide) (.escape (by decide) (.escape (by decide) .nil))
  have closes : Closes '\'' behind _ _ := ⟨writes, ['b'], rfl⟩
  obtain ⟨closed, -, -, ends, -⟩ := readString_exact (w := w) (.inr rfl) rfl
  exact ⟨rfl, closes, closed _ _ closes, fun runsOut => (ends.1 runsOut).1 _ _ closes⟩

end Walker

end Sift
