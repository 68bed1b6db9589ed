import Mathlib.Data.List.TakeWhile
import Sift.Proofs.Parse.Counting
import Sift.Proofs.Parse.Marks
import Sift.Proofs.Parse.Payloads

/-!
# Calls and siblings of a parser

No call of a parser matters to the next one, and no item of an array matters to the next one: what
stands alone between brackets is read in the same way among other items, unless it ends the list or
all tokens by itself (`parse_siblings`). The nesting that an item needs is free again behind it, so
that items never add up.
-/

namespace Sift

open Token (Kind)

/-! ### Arrays -/

def Expr.isArray : Expr → Bool
  | .array _ => true
  | _ => false

def Expr.NoArray (e : Expr) : Prop := e.isArray = false

namespace Level

open Parse

variable {g : Grammar} {n : Nat} {subject : Expr}

/-- Where an array comes of what has been read before, this is the array, and nothing else has been
taken. -/
def Stays (subject : Expr) (p : Parse Expr) : Prop :=
  ∀ c e c', p.run c = .ok e c' → (e = subject ∧ c' = c) ∨ e.NoArray

lemma stays_pure (subject : Expr) : Stays subject (pure subject) := by
  rintro c _ _ ⟨⟩
  exact .inl ⟨rfl, rfl⟩

/-- What gives no array leaves the array before it. -/
lemma stays_of_yields {p : Parse Expr} (h : Yields p Expr.NoArray) : Stays subject p :=
  fun c e c' run => .inr (h c e c' run)

/-- No array comes of anything else. -/
lemma Stays.yields {p : Parse Expr} (h : Stays subject p) (other : subject.NoArray) :
    Yields p Expr.NoArray := by
  intro c e c' run
  rcases h c e c' run with ⟨rfl, -⟩ | hnone
  · exact other
  · exact hnone

lemma stays_current_bind {f : Token → Parse Expr} (h : ∀ token, Stays subject (f token)) :
    Stays subject (current >>= f) :=
  fun c => h c.current c

lemma yields_descend_bind {Q : Expr → Prop} {f : Level → Parse Expr}
    (h : ∀ m, n = m + 1 → Yields (f (ofDepth g m)) Q) :
    Yields (descend (below g n) >>= f) Q := by
  cases n with
  | zero => exact (yields_tooDeep fun _ => False).bind fun _ no => no.elim
  | succ m => exact h m rfl

/-- Postfix steps make no arrays. -/
lemma stays_steps (g : Grammar) (n : Nat) (subject : Expr) :
    Stays subject ((ofDepth g n).steps subject) := by
  induction n using Nat.strongRecOn generalizing subject with
  | ind n ih =>
    have next (m : Nat) (hm : n = m + 1) (e : Expr) (he : e.NoArray) :
        Yields ((ofDepth g m).steps e) Expr.NoArray := (ih m (by omega) e).yields he
    rw [steps_ofDepth]
    refine stays_current_bind fun token => ?_
    split
    · refine stays_of_yields (yields_descend_bind fun m hm => ?_)
      exact yields_bind fun _ => yields_bind fun property => next m hm _ rfl
    · refine stays_of_yields (yields_descend_bind fun m hm => yields_bind fun _ => ?_)
      exact yields_bind fun predicate => yields_bind fun _ => next m hm _ rfl
    · refine stays_of_yields (yields_descend_bind fun m hm => yields_bind fun _ => ?_)
      refine yields_bind fun name => yields_bind fun called => ?_
      split
      · exact yields_bind fun _ => yields_bind fun arguments => next m hm _ rfl
      · exact next m hm _ rfl
    · exact stays_pure subject

/-- Binary operators make no arrays. -/
lemma stays_folds (g : Grammar) (n : Nat) (least : Int) (left : Expr) :
    Stays left ((ofDepth g n).folds least left) := by
  induction n using Nat.strongRecOn generalizing left with
  | ind n ih =>
    rw [folds_ofDepth]
    refine stays_current_bind fun token => ?_
    split
    · split
      · exact stays_of_yields (yields_unexpected _ _)
      · dsimp only
        split
        · exact stays_pure left
        · refine stays_of_yields (yields_descend_bind fun m hm => yields_bind fun _ => ?_)
          exact yields_bind fun right => (ih m (by omega) _).yields rfl
    · exact stays_pure left

variable {c c' : Cursor} {es : List Expr}

/-- An array is no conditional. -/
lemma run_chain_of_conditional (h : (ofDepth g n).conditional.run c = .ok (.array es) c') :
    ((ofDepth g n).chain anyPrecedence).run c = .ok (.array es) c' := by
  obtain ⟨test, d, hchain, run⟩ := run_bind_eq_ok.1 h
  obtain ⟨asked, _, ⟨⟩, run⟩ := run_bind_eq_ok.1 run
  split at run
  · have hbranches : Yields (do
        advance
        if ← isAt .colon then
          advance
          return Expr.fallback test (← (ofDepth g n).expression)
        else
          let consequent ← (ofDepth g n).expression
          expect .colon
          return .conditional test consequent (← (ofDepth g n).expression)) Expr.NoArray := by
      refine yields_bind fun _ => yields_bind fun short => ?_
      split
      · exact yields_bind fun _ => yields_bind fun alternate => yields_pure rfl
      · refine yields_bind fun consequent => yields_bind fun _ => ?_
        exact yields_bind fun alternate => yields_pure rfl
    cases hbranches _ _ _ run
  · cases run
    exact hchain

/-- An array is no binary operation. -/
lemma run_operand_of_chain {least : Int}
    (h : ((ofDepth g n).chain least).run c = .ok (.array es) c') :
    (ofDepth g n).operand.run c = .ok (.array es) c' := by
  obtain ⟨left, d, hoperand, run⟩ := run_bind_eq_ok.1 h
  rcases stays_folds g n least left d _ c' run with ⟨rfl, rfl⟩ | hnone
  · exact hoperand
  · cases hnone

/-- An array behind a bracket is the one that the bracket opens. -/
lemma run_items_of_operand (bracket : c.current.kind = .punctuation .openBracket)
    (h : (ofDepth g n).operand.run c = .ok (.array es) c') :
    (items (ofDepth g n).expression .closeBracket).run { c with rest := c.rest.drop 1 }
      = .ok es c' := by
  rw [operand_ofDepth] at h
  obtain ⟨token, _, ⟨⟩, run⟩ := run_bind_eq_ok.1 h
  rw [bracket] at run
  obtain ⟨subject, d, hprimary, run⟩ := run_bind_eq_ok.1 run
  rw [← steps_ofDepth] at run
  rcases stays_steps g n subject d _ c' run with ⟨rfl, rfl⟩ | hnone
  · obtain ⟨token, _, ⟨⟩, run⟩ := run_bind_eq_ok.1 hprimary
    rw [bracket] at run
    obtain ⟨_, _, ⟨⟩, run⟩ := run_bind_eq_ok.1 run
    obtain ⟨elements, d, hitems, run⟩ := run_bind_eq_ok.1 run
    cases run
    rw [expression_ofDepth]
    exact hitems
  · cases hnone

end Level

/-! ### Kinds before the first end -/

/-- The kinds before the first end. -/
def Token.Kind.beforeEnd (ks : List Kind) : List Kind := ks.takeWhile fun k => !k.isEnd

namespace Token.Kind

variable {ks rest : List Kind}

/-- An end hides what is behind it. -/
lemma beforeEnd_append (h : (first rest).isEnd = true) :
    beforeEnd (ks ++ rest) = beforeEnd ks := by
  induction ks with
  | nil =>
    cases rest with
    | nil => rfl
    | cons k rest => exact List.takeWhile_cons_of_neg (by simpa using h)
  | cons k ks ih =>
    rw [beforeEnd, beforeEnd, List.cons_append, List.takeWhile_cons, List.takeWhile_cons]
    rw [beforeEnd, beforeEnd] at ih
    rw [ih]

lemma beforeEnd_eq_self (h : ∀ k ∈ ks, k.isEnd = false) : beforeEnd ks = ks :=
  List.takeWhile_eq_self_iff.2 fun k hk => by rw [h k hk, Bool.not_false]

/-- There is one way only to split kinds at their first end. -/
lemma eq_of_append_eq {ks' rest' : List Kind} (h : ks ++ rest = ks' ++ rest')
    (hks : ∀ k ∈ ks, k.isEnd = false) (hks' : ∀ k ∈ ks', k.isEnd = false)
    (hrest : (first rest).isEnd = true) (hrest' : (first rest').isEnd = true) : ks = ks' :=
  calc ks = beforeEnd (ks ++ rest) := by rw [beforeEnd_append hrest, beforeEnd_eq_self hks]
    _ = ks' := by rw [h, beforeEnd_append hrest', beforeEnd_eq_self hks']

/-- Kinds are those before the first end, and what is behind. -/
lemma exists_eq_beforeEnd_append (ks : List Kind) :
    ∃ rest, ks = beforeEnd ks ++ rest ∧ (first rest).isEnd = true := by
  refine ⟨ks.dropWhile fun k => !k.isEnd, List.takeWhile_append_dropWhile.symm, ?_⟩
  induction ks with
  | nil => rfl
  | cons k ks ih =>
    rw [List.dropWhile_cons]
    split
    · exact ih
    · rename_i atEnd
      simpa using atEnd

lemma closes_of_isEnd {k : Kind} (h : k.isEnd = true) : k.closes = true := by
  cases k <;> first | rfl | cases h

end Token.Kind

lemma Cursor.kinds_eq_append {c c' : Cursor} {taken : List Token}
    (h : c.rest = taken ++ c'.rest) : c.kinds = taken.map Token.kind ++ c'.kinds := by
  rw [kinds, h, List.map_append]
  rfl

namespace Parse

variable {α : Type} {c c' : Cursor}

/-- What is taken up to an end are the kinds before the first one. -/
lemma eq_beforeEnd {taken : List Token} (rest : c.rest = taken ++ c'.rest)
    (noEnd : ∀ t ∈ taken, t.kind.isEnd = false) (atEnd : (Kind.first c'.kinds).isEnd = true) :
    taken.map Token.kind = Kind.beforeEnd c.kinds := by
  rw [Cursor.kinds_eq_append rest, Kind.beforeEnd_append atEnd, Kind.beforeEnd_eq_self]
  exact List.forall_mem_map.2 noEnd

/-- What is read up to an end is read off the kinds before it, whatever closes behind them. -/
lemma Takes.reads_beforeEnd {least : Nat} {p : Parse α} {a : α} (h : Takes least c p)
    (run : p.run c = .ok a c') (atEnd : (Kind.first c'.kinds).isEnd = true) {ks : List Kind}
    (closes : (Kind.first ks).closes = true) :
    Reads False p (Kind.beforeEnd c.kinds ++ ks) a ks := by
  obtain ⟨-, taken, rest, -, noEnd, reads⟩ := h.ok a c' run
  rw [← eq_beforeEnd rest noEnd atEnd]
  exact reads ks (.inr ⟨Kind.closes_of_isEnd atEnd, closes⟩)

/-! ### Items that stand alone -/

lemma kinds_of_current {k : Kind} (h : c.current.kind = k) (left : k.isEnd = false) :
    c.kinds = k :: Cursor.kinds { c with rest := c.rest.drop 1 } := by
  rw [Cursor.kinds, Cursor.map_kind_rest (h ▸ left), h]
  rfl

/-- A separator is a comma, or nothing before the closing character. -/
lemma kinds_of_separator {closing : Punctuation} (h : (separator closing).run c = .ok () c') :
    ∃ between, c.kinds = between ++ c'.kinds ∧
      (between = [] ∨ between = [.punctuation .comma]) := by
  obtain ⟨closed, _, ⟨⟩, run⟩ := run_bind_eq_ok.1 h
  split at run
  · cases run
    exact ⟨[], rfl, .inl rfl⟩
  · obtain ⟨found, _, ⟨⟩, run⟩ := run_bind_eq_ok.1 run
    split at run
    · rename_i found
      cases run
      exact ⟨_, kinds_of_current (Kind.of_isPunctuation found) rfl, .inr rfl⟩
    · exact (yields_unexpected _ (fun _ => False) _ _ _ run).elim

section

variable {item : Parse α} (htakes : ∀ c, Takes 1 c item) {closing : Punctuation} {x : α}
include htakes

/-- No items are just a closing character. -/
lemma kinds_of_items_nil (h : (items item closing).run c = .ok [] c') :
    c.kinds = .punctuation closing :: c'.kinds := by
  rw [items_eq htakes] at h
  obtain ⟨closed, _, ⟨⟩, run⟩ := run_bind_eq_ok.1 h
  split at run
  · rename_i closed
    cases run
    exact kinds_of_current (Kind.of_isPunctuation closed) rfl
  · obtain ⟨y, _, -, run⟩ := run_bind_eq_ok.1 run
    obtain ⟨_, _, -, run⟩ := run_bind_eq_ok.1 run
    obtain ⟨ys, _, -, run⟩ := run_bind_eq_ok.1 run
    cases run

/-- A single item, perhaps with a comma behind it, and the closing character. -/
lemma kinds_of_items_single (h : (items item closing).run c = .ok [x] c') :
    (Kind.first c.kinds).isPunctuation closing = false ∧ ∃ taken between, taken ≠ [] ∧
      c.kinds = taken ++ between ++ .punctuation closing :: c'.kinds ∧
      (∀ k ∈ taken, k.isEnd = false) ∧ (between = [] ∨ between = [.punctuation .comma]) ∧
      ∀ ks, (Kind.first (between ++ [.punctuation closing])).StopAlike (Kind.first ks) →
        Reads False item (taken ++ ks) x ks := by
  rw [items_eq htakes] at h
  obtain ⟨closed, _, ⟨⟩, run⟩ := run_bind_eq_ok.1 h
  split at run
  · cases run
  · rename_i opened
    obtain ⟨y, c₁, first, run⟩ := run_bind_eq_ok.1 run
    obtain ⟨_, c₂, second, run⟩ := run_bind_eq_ok.1 run
    obtain ⟨ys, c₃, third, run⟩ := run_bind_eq_ok.1 run
    cases run
    obtain ⟨-, taken, htaken, count, noEnd, reads⟩ := (htakes c).ok x c₁ first
    obtain ⟨between, hbetween, hcomma⟩ := kinds_of_separator second
    have hlast := kinds_of_items_nil htakes third
    refine ⟨?_, taken.map Token.kind, between, ?_, ?_, List.forall_mem_map.2 noEnd, hcomma,
      fun ks alike => reads ks ?_⟩
    · rw [← Cursor.kind_current]
      exact Bool.not_eq_true _ ▸ opened
    · exact List.map_eq_nil_iff.not.2 (List.length_pos_iff.1 count)
    · rw [Cursor.kinds_eq_append htaken, hbetween, hlast, List.append_assoc]
    · rw [hbetween, hlast]
      rcases hcomma with rfl | rfl <;> exact alike

/-- What is read as a list with a single item is an item of any list, if it does not end with a
comma. -/
lemma readsItem_of_run (hclosing : (Kind.punctuation closing).closes = true)
    (h : (items item closing).run c = .ok [x] c') (atEnd : (Kind.first c'.kinds).isEnd = true)
    {segment rest : List Kind} (hkinds : c.kinds = segment ++ .punctuation closing :: rest)
    (hrest : (Kind.first rest).isEnd = true) (noEnd : ∀ k ∈ segment, k.isEnd = false)
    (noComma : segment.getLast? ≠ some (.punctuation .comma)) :
    ReadsItem False item closing x segment := by
  obtain ⟨opened, taken, between, nonempty, htaken, noEnd', hcomma, reads⟩ :=
    kinds_of_items_single htakes h
  -- on both sides these are the kinds up to the first end
  have whole : segment ++ [.punctuation closing] = taken ++ between ++ [.punctuation closing] := by
    refine Kind.eq_of_append_eq ?_ ?_ ?_ hrest atEnd
    · rw [List.append_assoc, List.append_assoc, List.singleton_append, List.singleton_append,
        ← hkinds, htaken]
    · exact List.forall_mem_append.2 ⟨noEnd, List.forall_mem_singleton.2 rfl⟩
    · refine List.forall_mem_append.2 ⟨List.forall_mem_append.2 ⟨noEnd', ?_⟩,
        List.forall_mem_singleton.2 rfl⟩
      rcases hcomma with rfl | rfl
      · exact List.forall_mem_nil _
      · exact List.forall_mem_singleton.2 rfl
  have same : segment = taken ++ between := List.append_cancel_right whole
  obtain rfl : between = [] := by
    rcases hcomma with hcomma | hcomma
    · exact hcomma
    · rw [same, hcomma, List.getLast?_concat] at noComma
      exact absurd rfl noComma
  rw [List.append_nil] at same
  subst same
  refine ⟨?_, nonempty, fun ks hks => reads ks (.inr ⟨hclosing, ?_⟩)⟩
  · rwa [hkinds, first_append nonempty] at opened
  · rcases hks with hks | hks
    · rw [hks]
      rfl
    · rwa [hks]

/-- An item, a comma and more items. -/
lemma reads_items_cons {deep : Prop} {ks ks' ks'' : List Kind} {xs : List α}
    (hx : ReadsItem deep item closing x ks) (hcomma : closing ≠ .comma)
    (hxs : Reads deep (items item closing) ks' xs ks'') :
    Reads deep (items item closing) (ks ++ .punctuation .comma :: ks') (x :: xs) ks'' := by
  obtain ⟨opened, nonempty, read⟩ := hx
  rw [items_eq htakes]
  refine reads_isAt_bind false (by rwa [first_append nonempty]) ?_
  refine (read _ (.inl rfl)).bind ?_
  exact (reads_separator_comma hcomma).bind (hxs.bind (reads_pure _))

end

end Parse

/-! ### Segments of an array -/

open Parse

def bracketed (segments : List (List Kind)) : List Kind :=
  .punctuation .openBracket :: (separated segments ++ [.punctuation .closeBracket])

/-- Nothing but an end may follow the kinds. -/
def UpToEnd (ks : List Kind) (tokens : List Token) : Prop :=
  ∃ rest, tokens.map Token.kind = ks ++ rest ∧ (Kind.first rest).isEnd = true

lemma upToEnd_ofKind (ks : List Kind) : UpToEnd ks (ks.map Token.ofKind) :=
  ⟨[], by rw [Token.map_kind_ofKind, List.append_nil], rfl⟩

/-- In brackets of its own, the segment is an array of one expression. -/
def Alone (g : Grammar) (segment : List Kind) (e : Expr) : Prop :=
  ∃ tokens, UpToEnd (bracketed [segment]) tokens ∧ parse g tokens = .ok (.array [e])

/-- The segment ends neither a list nor all tokens. -/
def Inner (segment : List Kind) : Prop :=
  segment.getLast? ≠ some (.punctuation .comma) ∧ ∀ k ∈ segment, k.isEnd = false

variable {g : Grammar} {segment : List Kind} {segments : List (List Kind)} {e : Expr}
  {es : List Expr}

/-- The items of a parsed array are read behind its first bracket. -/
lemma exists_run_items_of_parse {tokens : List Token}
    (spelled : UpToEnd (bracketed segments) tokens) (h : parse g tokens = .ok (.array es)) :
    ∃ c c' rest, (items (Level.ofDepth g 63).expression .closeBracket).run c = .ok es c' ∧
      c.kinds = separated segments ++ .punctuation .closeBracket :: rest ∧
      (Kind.first rest).isEnd = true ∧ (Kind.first c'.kinds).isEnd = true := by
  obtain ⟨rest, hkinds, hrest⟩ := spelled
  obtain ⟨c', run, atEnd⟩ := exists_run_of_parse h
  change (Cursor.ofTokens tokens).kinds = _ at hkinds
  have bracket : (Cursor.ofTokens tokens).current.kind = .punctuation .openBracket := by
    rw [Cursor.kind_current, hkinds]
    rfl
  have inside := kinds_of_current bracket rfl
  rw [parseExpression, maxNesting, Level.expression_succ] at run
  refine ⟨_, c', rest, Level.run_items_of_operand bracket
    (Level.run_operand_of_chain (Level.run_chain_of_conditional run)), ?_, hrest,
    by rwa [← Cursor.kind_current]⟩
  rw [hkinds] at inside
  simpa [bracketed] using inside.symm

/-- A segment that is alone reads no elements of a filter around it. -/
lemma Alone.freeRelative? (h : Alone g segment e) : e.freeRelative? = none := by
  obtain ⟨tokens, -, parsed⟩ := h
  have hclosed := freeRelative?_of_parse parsed
  rw [Expr.freeRelative?, Expr.freeRelativeAny?, Option.or_eq_none_iff] at hclosed
  exact hclosed.1

/-- What stands alone is an item of any list. -/
lemma Alone.readsItem (h : Alone g segment e) (inner : Inner segment) :
    ReadsItem False (Level.ofDepth g 63).expression .closeBracket e segment := by
  obtain ⟨tokens, spelled, parsed⟩ := h
  obtain ⟨c, c', rest, run, hkinds, hrest, atEnd⟩ := exists_run_items_of_parse spelled parsed
  exact readsItem_of_run (Level.taking_ofDepth g 63).expression rfl run atEnd hkinds hrest inner.2
    inner.1

/-- What stands alone is the end of any list, even if it is the end of all tokens. -/
lemma Alone.reads_last (h : Alone g segment e) {rest : List Kind}
    (hrest : (Kind.first rest).isEnd = true) :
    ∃ after, (Kind.first after).isEnd = true ∧
      Reads False (items (Level.ofDepth g 63).expression .closeBracket)
        (segment ++ .punctuation .closeBracket :: rest) [e] after := by
  obtain ⟨tokens, spelled, parsed⟩ := h
  obtain ⟨c, c', rest', run, hkinds, hrest', atEnd⟩ := exists_run_items_of_parse spelled parsed
  have htakes := takes_items (c := c) (Level.taking_ofDepth g 63).expression .closeBracket
  have same : Kind.beforeEnd c.kinds
      = Kind.beforeEnd (segment ++ .punctuation .closeBracket :: rest) := by
    rw [hkinds, separated, List.append_cons segment _ rest', List.append_cons segment _ rest,
      Kind.beforeEnd_append hrest', Kind.beforeEnd_append hrest]
  obtain ⟨after, hafter, first⟩ :=
    Kind.exists_eq_beforeEnd_append (segment ++ .punctuation .closeBracket :: rest)
  refine ⟨after, first, ?_⟩
  rw [hafter, ← same]
  exact htakes.reads_beforeEnd run atEnd (Kind.closes_of_isEnd first)

/-- Segments that stand alone are read one after the other. -/
lemma reads_segments (h : List.Forall₂ (Alone g) segments es)
    (inner : ∀ segment ∈ segments.dropLast, Inner segment) {rest : List Kind}
    (hrest : (Kind.first rest).isEnd = true) :
    ∃ after, (Kind.first after).isEnd = true ∧
      Reads False (items (Level.ofDepth g 63).expression .closeBracket)
        (separated segments ++ .punctuation .closeBracket :: rest) es after := by
  have htakes := (Level.taking_ofDepth g 63).expression
  induction h with
  | nil =>
    refine ⟨rest, hrest, ?_⟩
    rw [items_eq htakes]
    exact reads_isAt_bind true rfl ((reads_advance _).bind (reads_pure []))
  | @cons segment e segments es hfirst hmore ih =>
    cases hmore with
    | nil => exact hfirst.reads_last hrest
    | cons hsecond hmore =>
      rw [List.dropLast_cons_cons] at inner
      obtain ⟨hinner, inner⟩ := List.forall_mem_cons.1 inner
      obtain ⟨after, hafter, reads⟩ := ih inner
      refine ⟨after, hafter, ?_⟩
      rw [separated, List.append_assoc, List.cons_append]
      · exact reads_items_cons htakes (hfirst.readsItem hinner) (by simp) reads
      · simp

/-- Segments that are expressions alone in brackets are the items of an array together. -/
theorem parse_segments (h : List.Forall₂ (Alone g) segments es)
    (inner : ∀ segment ∈ segments.dropLast, Inner segment) {tokens : List Token}
    (spelled : UpToEnd (bracketed segments) tokens) : parse g tokens = .ok (.array es) := by
  obtain ⟨rest, hkinds, hrest⟩ := spelled
  obtain ⟨after, hafter, hitems⟩ := reads_segments h inner hrest
  have closed : (Expr.array es).freeRelative? = none := by
    rw [Expr.freeRelative?]
    clear hitems hkinds inner
    induction h with
    | nil => rfl
    | cons hfirst _ ih => rw [Expr.freeRelativeAny?, hfirst.freeRelative?, ih, Option.none_or]
  have stop := Kind.closes_of_isEnd hafter
  have hread : Reads False (parseExpression g) (bracketed segments ++ rest) (.array es) after := by
    rw [parseExpression, maxNesting, Level.expression_succ]
    refine Level.reads_conditional_stop stop (Reads.bind ?_
      (Level.reads_folds_end (Kind.continuesChain_of_closes stop) _ _))
    rw [bracketed, List.cons_append, List.append_assoc]
    exact Level.reads_operand (by simp) (Level.reads_array hitems)
      (Level.reads_steps_stop (Kind.continuesOperand_eq_false
        (Kind.continuesChain_of_closes stop)) _)
  exact (parse_of_reads_end hread hafter closed hkinds).resolve_right And.left

/-- Neither what a parser has been called for nor what stands beside an expression has a say in how
the expression is read. The next call of a parser ends as if it were the first one, and segments
that are expressions alone in brackets are the items of an array together. -/
theorem independent_of_history_and_siblings (g : Grammar) :
    (∀ tokens s, Counting.Reached ⟨g⟩ tokens s → ∃ result s', Counting.Call ⟨g⟩ s result s') ∧
    ∀ segments es, List.Forall₂ (Alone g) segments es →
      (∀ segment ∈ segments.dropLast, Inner segment) →
      ∀ tokens, UpToEnd (bracketed segments) tokens → parse g tokens = .ok (.array es) :=
  ⟨fun _ _ reached => reached.exists_call, fun _ _ alone inner _ => parse_segments alone inner⟩

/-- A group that is not closed, and a name in place of the parenthesis. -/
def unclosedGroup : List Token :=
  [Kind.punctuation .openParen, .identifier "a", .identifier "b"].map Token.ofKind

/-- A name is alone. -/
lemma alone_identifier (name : String) : Alone .empty [.identifier name] (.identifier name) :=
  ⟨_, upToEnd_ofKind (bracketed [[.identifier name]]), rfl⟩

/-- A call behind a failed one, and a list of two names. -/
theorem independent_of_failure_and_comma :
    let behind : Counting.State := ⟨⟨unclosedGroup.drop 2, 0⟩, 0⟩
    Counting.Reached ⟨.empty⟩ unclosedGroup behind ∧
    (∃ result s', Counting.Call ⟨.empty⟩ behind result s') ∧
    parse .empty ((bracketed [[.identifier "a"], [.identifier "b"]]).map Token.ofKind)
      = .ok (.array [.identifier "a", .identifier "b"]) := by
  obtain ⟨calls, siblings⟩ := independent_of_history_and_siblings .empty
  have reached : Counting.Reached ⟨.empty⟩ unclosedGroup ⟨⟨unclosedGroup.drop 2, 0⟩, 0⟩ :=
    .call .fresh ((Counting.expression_eq_lift _ _).trans rfl)
  refine ⟨reached, calls _ _ reached, ?_⟩
  refine siblings _ _ (.cons (alone_identifier "a") (.cons (alone_identifier "b") .nil)) ?_ _
    (upToEnd_ofKind _)
  simp [Inner, Kind.isEnd]

/-- A name, and a bracket and an end that close an array before its own bracket does. -/
def closedEarly : List Kind := [.identifier "a", .punctuation .closeBracket, .endOfInput]

/-- A segment with an end in it hides those behind it. -/
theorem not_forall_parse_segments : ¬ ∀ (g : Grammar) segments es,
    List.Forall₂ (Alone g) segments es →
    (∀ segment ∈ segments, segment.getLast? ≠ some (.punctuation .comma)) →
    ∀ tokens, UpToEnd (bracketed segments) tokens → parse g tokens = .ok (.array es) := by
  intro h
  have alone : Alone .empty closedEarly (.identifier "a") :=
    ⟨_, upToEnd_ofKind (bracketed [closedEarly]), rfl⟩
  have both := h .empty [closedEarly, [.identifier "b"]] [.identifier "a", .identifier "b"]
    (.cons alone (.cons (alone_identifier "b") .nil)) (by simp [closedEarly]) _ (upToEnd_ofKind _)
  have one : parse .empty ((bracketed [closedEarly, [.identifier "b"]]).map Token.ofKind)
      = .ok (.array [.identifier "a"]) := rfl
  rw [one] at both
  cases both

end Sift
