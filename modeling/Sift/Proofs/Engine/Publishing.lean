import Sift.Engine.Session
import Sift.Proofs.Engine.Moves
import Sift.Proofs.Engine.Seeing

/-!
# Changes of grammars are neither lost nor seen early

Whatever is done with engines, clones and saved grammars, a cell has the grammar that it was made
with and the edits of all changes since then that have come to their end, in their order. While a
change is under way, its own edits are seen by nobody.
-/

namespace Sift

def Grammar.through (g : Grammar) (edits : List (Grammar → Grammar)) : Grammar :=
  edits.foldl (fun g edit => edit g) g

lemma Grammar.through_append (g : Grammar) (edits more : List (Grammar → Grammar)) :
    g.through (edits ++ more) = (g.through edits).through more :=
  List.foldl_append

namespace Move

variable (mine : Nat → Bool)

/-- The edits that are made by way of some engines. -/
def edits : Move → List (Grammar → Grammar)
  | change engine edit => if mine engine then [edit] else []
  | _ => []

/-- Whether a change by way of some engines comes to its end. -/
def ends : Move → Bool
  | leave engine => mine engine
  | _ => false

/-- The edits that are made by way of some engines, in changes that have come to their end. -/
def published : List Move → List (Grammar → Grammar)
  | [] => []
  | move :: rest => (if rest.any (ends mine) then move.edits mine else []) ++ published rest

variable {mine : Nat → Bool}

/-- Nothing has been published before a change comes to its end. -/
lemma published_of_not_ends {moves : List Move} (h : moves.any (ends mine) = false) :
    published mine moves = [] := by
  induction moves with
  | nil => rfl
  | cons move rest ih =>
    rw [List.any_cons, Bool.or_eq_false_iff] at h
    rw [published, h.2, ih h.2]
    rfl

end Move

namespace Change

def edit? : Change → Option Edit
  | edit e => some e
  | eval _ => none

/-- A step inside a change, by way of an engine with a cell. -/
def toMove (engine cell : Nat) (context : Value) : Change → Move
  | edit e => .change engine fun g => g.edit e
  | eval source => .use (.evaluate (.source cell source) context)

end Change

/-! ### One cell -/

/-- What a move does to a cell with a grammar and perhaps a copy that is being changed, given which
engines have the cell. -/
inductive Turn (mine : Nat → Bool) :
    Move → Grammar → Option Grammar → Grammar → Option Grammar → Prop
  | enter {engine : Nat} {g : Grammar} (h : mine engine = true) :
    Turn mine (.enter engine) g none g (some g)
  | change {engine : Nat} {g draft : Grammar} (h : mine engine = true) (edit : Grammar → Grammar) :
    Turn mine (.change engine edit) g (some draft) g (some (edit draft))
  | leave {engine : Nat} {g draft : Grammar} (h : mine engine = true) :
    Turn mine (.leave engine) g (some draft) draft none
  | apart {move : Move} {g : Grammar} {draft? : Option Grammar} (edits : move.edits mine = [])
    (ends : move.ends mine = false) : Turn mine move g draft? g draft?

namespace Turn

variable {mine : Nat → Bool} {move : Move} {g g' : Grammar} {draft? draft?' : Option Grammar}

/-- An edit is made to the copy that a change is working on, or to the grammar where there is none.
-/
lemma draft (h : Turn mine move g draft? g' draft?') :
    draft?'.getD g' = (draft?.getD g).through (move.edits mine) := by
  cases h with
  | enter h => rfl
  | change h edit =>
    rw [Move.edits, if_pos h]
    rfl
  | leave h => rfl
  | apart edits ends =>
    rw [edits]
    rfl

lemma grammar (h : Turn mine move g draft? g' draft?') :
    g' = if move.ends mine then draft?.getD g else g := by
  cases h with
  | enter h | change h edit => rfl
  | leave h =>
    rw [Move.ends, if_pos h]
    rfl
  | apart edits ends =>
    rw [ends]
    rfl

/-- A change that has not come to its end goes on. -/
lemma underway {draft : Grammar} (h : Turn mine move g (some draft) g' draft?')
    (on : move.ends mine = false) : draft?' = some (draft.through (move.edits mine)) := by
  cases h with
  | change h edit =>
    rw [Move.edits, if_pos h]
    rfl
  | leave h =>
    rw [Move.ends, h] at on
    cases on
  | apart edits ends =>
    rw [edits]
    rfl

end Turn

/-- What moves do to a cell. -/
inductive Turns (mine : Nat → Bool) :
    List Move → Grammar → Option Grammar → Grammar → Option Grammar → Prop
  | nil {g : Grammar} {draft? : Option Grammar} : Turns mine [] g draft? g draft?
  | cons {move : Move} {rest : List Move} {g g₁ g' : Grammar}
    {draft? draft₁? draft?' : Option Grammar} (first : Turn mine move g draft? g₁ draft₁?)
    (more : Turns mine rest g₁ draft₁? g' draft?') : Turns mine (move :: rest) g draft? g' draft?'

namespace Turns

variable {mine : Nat → Bool} {moves : List Move} {g g' : Grammar} {draft? draft?' : Option Grammar}

/-- A cell has the grammar that it had, up to the end of the change that is under way. From there on
it has that of the copy, with the edits of all changes that have come to their end. -/
lemma grammar (h : Turns mine moves g draft? g' draft?') :
    g' = if moves.any (·.ends mine) then (draft?.getD g).through (Move.published mine moves)
      else g := by
  induction h with
  | nil => rfl
  | @cons move rest g g₁ g' draft? draft₁? draft?' first more ih =>
    rw [ih, List.any_cons, Move.published]
    cases hrest : rest.any (·.ends mine) with
    | true =>
      rw [Bool.or_true, if_pos rfl, if_pos rfl, if_pos rfl, Grammar.through_append, first.draft]
    | false =>
      rw [Bool.or_false, Move.published_of_not_ends hrest]
      exact first.grammar

/-- Edits that have been published add up, where no change has been underway. -/
lemma grammar_of_none (h : Turns mine moves g none g' draft?') :
    g' = g.through (Move.published mine moves) := by
  rw [h.grammar]
  cases hends : moves.any (·.ends mine) with
  | true => rfl
  | false =>
    rw [Move.published_of_not_ends hends]
    rfl

/-- The edits of a change are collected as long as it has not come to its end. -/
lemma underway {draft : Grammar} (h : Turns mine moves g (some draft) g' draft?')
    (on : moves.any (·.ends mine) = false) :
    draft?' = some (draft.through (moves.flatMap (·.edits mine))) := by
  generalize hdraft : some draft = draft? at h
  induction h generalizing draft with
  | nil => exact hdraft.symm
  | cons first more ih =>
    subst hdraft
    rw [List.any_cons, Bool.or_eq_false_iff] at on
    rw [ih on.2 (first.underway on.1).symm, List.flatMap_cons, Grammar.through_append]

end Turns

namespace Registry

variable {r r' : Registry} {move : Move} {moves : List Move} {cell : Nat}

/-! ### A cell in the course of moves -/

def sharing (r : Registry) (cell engine : Nat) : Bool := r.engines[engine]? == some cell

/-- Every move is a turn for each cell: only the engines that share it can change its grammar. -/
lemma turn_step (there : cell < r.world.store.cells.length)
    (h : r.step move = some r') {final : Registry}
    (kept : ∀ {engine other : Nat}, r.engines[engine]? = some other →
      final.engines[engine]? = some other) :
    Turn (final.sharing cell) move (r.grammar cell) (r.drafts cell) (r'.grammar cell)
      (r'.drafts cell) := by
  have shared {engine other : Nat} (h : r.engines[engine]? = some other) :
      final.sharing cell engine = (other == cell) := by
    rw [sharing, kept h]
    rfl
  cases steps_of_step h with
  | make given =>
    rw [grammar_addEngine there]
    cases move with
    | create _ | restore _ => exact .apart rfl rfl
    | _ => cases given
  | clone _ | save _ => exact .apart rfl rfl
  | @enter engine other hother free =>
    by_cases same : other = cell
    · subst same
      rw [drafts_setDraft_self, free]
      exact .enter ((shared hother).trans (beq_self_eq_true other))
    · rw [drafts_setDraft_of_ne same]
      exact .apart rfl rfl
  | @change engine other draft hother underway edit =>
    by_cases same : other = cell
    · subst same
      rw [drafts_setDraft_self, underway]
      exact .change ((shared hother).trans (beq_self_eq_true other)) edit
    · rw [drafts_setDraft_of_ne same]
      refine .apart (if_neg ?_) rfl
      rw [shared hother, beq_eq_false_iff_ne.2 same]
      exact Bool.false_ne_true
  | @leave engine other draft hother underway =>
    by_cases same : other = cell
    · subst same
      rw [grammar_publish_self there, underway]
      rw [publish, drafts_setDraft_self]
      exact .leave ((shared hother).trans (beq_self_eq_true other))
    · rw [grammar_publish_of_ne same]
      rw [publish, drafts_setDraft_of_ne same]
      exact .apart rfl ((shared hother).trans (beq_eq_false_iff_ne.2 same))
  | use use =>
    rw [grammar_use use]
    exact .apart rfl rfl

lemma there_step (there : cell < r.world.store.cells.length) (h : r.step move = some r') :
    cell < r'.world.store.cells.length := by
  rcases world_step h with same | ⟨event, same⟩
  · exact same ▸ there
  · exact same ▸ Nat.lt_of_lt_of_le there (length_cells_step r.world event)

/-- A run is a run of turns for each cell. -/
lemma turns_run (there : cell < r.world.store.cells.length) (h : r.run moves = some r') :
    Turns (r'.sharing cell) moves (r.grammar cell) (r.drafts cell) (r'.grammar cell)
      (r'.drafts cell) := by
  induction moves generalizing r with
  | nil =>
    obtain rfl := Option.some.inj h
    exact .nil
  | cons move rest ih =>
    obtain ⟨r₁, first, more⟩ := run_cons_eq_some.1 h
    have turn := turn_step there first (grows_engines.getElem?_run h)
    exact .cons turn (ih (there_step there first) more)

/-- As long as no change of a cell comes to its end, its grammar and its trees are what they were.
-/
lemma sees_run {g : Grammar} {kept : Nat → Option Expr}
    (there : cell < r.world.store.cells.length) (h : r.run moves = some r')
    (on : moves.any (·.ends (r'.sharing cell)) = false) (sees : r.world.store.Sees cell g kept)
    (new : ∀ id, r.world.store.expressions[id]? = none → kept id = none) :
    r'.world.store.Sees cell g kept := by
  induction moves generalizing r with
  | nil =>
    obtain rfl := Option.some.inj h
    exact sees
  | cons move rest ih =>
    obtain ⟨r₁, first, more⟩ := run_cons_eq_some.1 h
    rw [List.any_cons, Bool.or_eq_false_iff] at on
    have turn := (turn_step there first (grows_engines.getElem?_run h)).grammar
    rw [on.1, if_neg Bool.false_ne_true] at turn
    have same : r₁.world.store.grammar cell = g := turn.trans sees.current
    refine ih (there_step there first) more on.2 ?_ ?_
    · rcases world_step first with unchanged | ⟨event, happens⟩
      · rwa [unchanged]
      · rw [happens]
        refine World.sees_step sees new ?_
        rwa [← happens]
    · intro id none
      refine new id ?_
      rcases world_step first with unchanged | ⟨event, happens⟩
      · rwa [← unchanged]
      · rw [happens] at none
        exact World.expressions_none_of_step none

/-- After a change of a cell its new grammar is current, and the trees are those kept before. -/
lemma sees_publish (there : cell < r.world.store.cells.length) (draft : Grammar) :
    (r.publish cell draft).world.store.Sees cell draft r.world.store.kept := by
  have current : (r.publish cell draft).world.store.grammar cell = draft :=
    grammar_publish_self there draft
  have sees := (r.publish cell draft).world.store.sees cell
  rwa [current] at sees

/-! ### A change without anything in between -/

lemma step_eval {source : String} (engine : Nat) (context : Value) :
    r.step (Change.toMove engine cell context (.eval source)) = some r := by
  have unchanged : r.world.step (.evaluate (.source cell source) context) = r.world := by
    rw [World.step, Store.evaluate_snd]
    rfl
  rw [Change.toMove, step, unchanged]
  rfl

lemma step_edit {engine : Nat} {draft : Grammar} (h : r.engines[engine]? = some cell)
    (underway : r.drafts cell = some draft) (context : Value) (e : Edit) :
    r.step (Change.toMove engine cell context (.edit e))
      = some (r.setDraft cell (some (draft.edit e))) :=
  step_of_steps (.change h underway fun g => g.edit e)

lemma setDraft_setDraft (r : Registry) (cell : Nat) (draft? other? : Option Grammar) :
    (r.setDraft cell draft?).setDraft cell other? = r.setDraft cell other? := by
  simp only [setDraft]
  congr 1
  funext other
  split <;> rfl

lemma setDraft_of_eq {draft? : Option Grammar} (h : r.drafts cell = draft?) :
    r.setDraft cell draft? = r := by
  subst h
  simp only [setDraft]
  congr 1
  funext other
  split
  · subst other
    rfl
  · rfl

/-- The steps inside a change edit the copy, and evaluations among them edit nothing. -/
lemma run_changes {engine : Nat} {draft : Grammar} (h : r.engines[engine]? = some cell)
    (underway : r.drafts cell = some draft) (context : Value) (changes : List Change) :
    r.run (changes.map (·.toMove engine cell context))
      = some (r.setDraft cell (some (draft.editAll (changes.filterMap Change.edit?)))) := by
  induction changes generalizing r draft with
  | nil => exact congrArg some (setDraft_of_eq underway).symm
  | cons change rest ih =>
    cases change with
    | edit e =>
      have more := ih (r := r.setDraft cell (some (draft.edit e))) h (drafts_setDraft_self _ _ _)
      rw [setDraft_setDraft] at more
      rw [List.map_cons, run, step_edit h underway]
      exact more
    | eval source =>
      rw [List.map_cons, run, step_eval]
      exact ih h underway

/-- A change may be given as the grammar that it leads to. -/
lemma configure_const (s : Store) (cell : Nat) (change : Grammar → Grammar) :
    s.configure cell (fun _ => change (s.grammar cell)) = s.configure cell change := by
  simp only [Store.configure, Store.grammar, Store.mk.injEq, and_true]
  refine List.ext_getElem? fun i => ?_
  rw [List.getElem?_modify, List.getElem?_modify, List.getD_eq_getElem?_getD]
  by_cases same : cell = i
  · subst same
    cases s.cells[cell]? <;> rfl
  · simp only [if_neg same]

lemma publish_setDraft (r : Registry) (cell : Nat) (draft? : Option Grammar) (draft : Grammar) :
    (r.setDraft cell draft?).publish cell draft = r.publish cell draft :=
  setDraft_setDraft { r with world := r.world.step (.configure cell fun _ => draft) } ..

/-- What a session does to change a grammar is done by moves that begin the change, make its steps
and put an end to it. -/
lemma run_configure {engine : Nat} (h : r.engines[engine]? = some cell)
    (free : r.drafts cell = none) {s : Session} (same : r.world.store = s.store) (context : Value)
    (changes : List Change) :
    let store := (s.configure cell context changes).2.2.store
    r.run (.enter engine :: changes.map (·.toMove engine cell context) ++ [.leave engine])
      = some { r with world := { r.world with store } } := by
  intro store
  let copy := (r.grammar cell).editAll (changes.filterMap Change.edit?)
  let begun := r.setDraft cell (some (r.grammar cell))
  let changed := r.setDraft cell (some copy)
  have enters : r.step (.enter engine) = some begun := step_of_steps (.enter h free)
  have edits : begun.run (changes.map (·.toMove engine cell context)) = some changed :=
    (run_changes (r := begun) h (drafts_setDraft_self _ _ _) context changes).trans
      (congrArg some (setDraft_setDraft ..))
  have leaves : changed.step (.leave engine) = some (changed.publish cell copy) :=
    step_of_steps (.leave h (drafts_setDraft_self _ _ _))
  have published : changed.publish cell copy = { r with world := { r.world with store } } := by
    have same : r.world.store.configure cell (fun _ => copy) = store :=
      (configure_const r.world.store cell fun g =>
        g.editAll (changes.filterMap Change.edit?)).trans (same ▸ rfl)
    rw [publish_setDraft, publish, World.step, same]
    exact setDraft_of_eq free
  rw [List.cons_append, run_cons_eq_some]
  refine ⟨begun, enters, ?_⟩
  rw [run_append, edits]
  exact run_cons_eq_some.2 ⟨_, leaves, congrArg some published⟩

/-! ### The whole run -/

/-- What a run has left behind of its engines, of the grammars that were saved in it, and of the
changes made in it. -/
structure Accounts (moves : List Move) (r : Registry) : Prop where
  /-- An engine that was given a grammar has a cell that no engine before it had. In the cell is the
  given grammar with the edits, in their order, of the changes that were made by way of the engines
  with the cell and have come to their end. Any other engine is a clone of one before it, and has
  the cell of that one. -/
  engine : ∀ engine < r.engines.length, ∃ before move after r₀,
    moves = before ++ move :: after ∧ empty.run before = some r₀ ∧ r₀.engines.length = engine ∧
      ((∃ g cell, r₀.given move = some g ∧ cell ∉ r₀.engines ∧ r.engines[engine]? = some cell ∧
          r.grammar cell = g.through (Move.published (r.sharing cell) after)) ∨
        ∃ other < engine, move = .clone other ∧ r.engines[engine]? = r.engines[other]?)
  /-- A saved grammar is that of its engine at the time, whatever has been done since then. -/
  snapshot : ∀ n < r.snapshots.length, ∃ before engine cell after r₀,
    moves = before ++ .save engine :: after ∧ empty.run before = some r₀ ∧
      r₀.snapshots.length = n ∧ r₀.engines[engine]? = some cell ∧
      r.snapshots[n]? = some (r₀.grammar cell)
  /-- While a change is under way, the grammar from before it is seen. The change can come to its
  end then, and right after it all of its edits are seen. -/
  change : ∀ before engine inside, moves = before ++ .enter engine :: inside →
    ∃ r₀ cell, empty.run before = some r₀ ∧ r₀.engines[engine]? = some cell ∧
      (inside.any (·.ends (r.sharing cell)) = false →
        r.world.store.Sees cell (r₀.grammar cell) r₀.world.store.kept ∧
        ∃ r₁, r.step (.leave engine) = some r₁ ∧ r₁.world.store.Sees cell
          ((r₀.grammar cell).through (inside.flatMap (·.edits (r.sharing cell))))
          r.world.store.kept)

/-- Every run accounts for what has become of its engines, saved grammars and changes. -/
theorem accounts_of_run (h : empty.run moves = some r) : Accounts moves r where
  engine := by
    intro engine new
    obtain ⟨before, move, after, r₀, r₁, rfl, earlier, here, later, rfl, here'⟩ :=
      grows_engines.exists_step h (Nat.zero_le _) new
    refine ⟨before, move, after, r₀, rfl, earlier, rfl, ?_⟩
    have sound := sound_empty.run earlier
    cases steps_of_step here with
    | @make _ g given =>
      refine .inl ⟨g, r₀.world.store.cells.length, given, ?_, ?_, ?_⟩
      · intro mem
        exact Nat.lt_irrefl _ (sound.engines _ mem)
      · exact grows_engines.getElem?_run later List.getElem?_concat_length
      · have there := (sound.step here).there List.getElem?_concat_length
        have free : (r₀.addEngine g).drafts r₀.world.store.cells.length = none :=
          sound.drafts _ (Nat.le_refl _)
        have turns := turns_run there later
        rw [grammar_addEngine_self, free] at turns
        exact turns.grammar_of_none
    | @clone other cell hcell =>
      refine .inr ⟨other, (List.getElem?_eq_some_iff.1 hcell).1, rfl, ?_⟩
      rw [grows_engines.getElem?_run later List.getElem?_concat_length]
      exact (grows_engines.getElem?_run (run_cons_eq_some.2 ⟨_, here, later⟩) hcell).symm
    | _ => exact absurd here' (Nat.lt_irrefl _)
  snapshot := by
    intro n new
    obtain ⟨before, move, after, r₀, r₁, rfl, earlier, here, later, rfl, here'⟩ :=
      grows_snapshots.exists_step h (Nat.zero_le _) new
    cases steps_of_step here with
    | @save engine cell hcell =>
      refine ⟨before, engine, cell, after, r₀, rfl, earlier, rfl, hcell, ?_⟩
      exact grows_snapshots.getElem?_run later List.getElem?_concat_length
    | _ => exact absurd here' (Nat.lt_irrefl _)
  change := by
    rintro before engine inside rfl
    rw [run_append] at h
    obtain ⟨r₀, earlier, h⟩ := Option.bind_eq_some_iff.1 h
    obtain ⟨r₁, begun, more⟩ := run_cons_eq_some.1 h
    have sound := sound_empty.run earlier
    cases steps_of_step begun with
    | make given => cases given
    | @enter _ cell hcell free =>
      have there := sound.there hcell
      refine ⟨r₀, cell, earlier, hcell, fun on => ?_⟩
      have seen : r.world.store.Sees cell (r₀.grammar cell) r₀.world.store.kept := by
        refine sees_run (r := r₀.setDraft cell _) there more on (r₀.world.store.sees cell) ?_
        exact fun id => Store.kept_of_none
      have turns := turns_run (r := r₀.setDraft cell _) there more
      rw [drafts_setDraft_self] at turns
      have shared : r.engines[engine]? = some cell := grows_engines.getElem?_run more hcell
      refine ⟨seen, _, step_of_steps (.leave shared (turns.underway on)), ?_⟩
      exact sees_publish (((sound.step begun).run more).there shared) _

/-- An engine, a clone of it, and another engine with the grammar that was saved from it. -/
def sharedRegistry : Registry := ⟨⟨⟨[.empty, .empty], []⟩, []⟩, [0, 0, 1], [.empty], fun _ => none⟩

/-- A change by way of the clone, with an evaluation after its only edit. -/
theorem accounts_of_run_shared :
    let inside := [Change.edit World.orEdit, .eval "0 or 1"].map (·.toMove 1 0 .null)
    let moves := [Move.create .empty, .clone 0, .save 0, .restore 0] ++ .enter 1 :: inside
    let r := sharedRegistry.setDraft 0 (some (Grammar.empty.edit World.orEdit))
    empty.run moves = some r ∧ Accounts moves r ∧
      r.world.store.Sees 0 .empty sharedRegistry.world.store.kept ∧
      ∃ r₁, r.step (.leave 1) = some r₁ ∧
        r₁.world.store.Sees 0 (Grammar.empty.edit World.orEdit) r.world.store.kept ∧
        r₁.grammar 1 = .empty ∧ r₁.snapshots = [.empty] := by
  intro inside moves r
  have made : empty.run [.create .empty, .clone 0, .save 0, .restore 0] = some sharedRegistry := rfl
  have run : empty.run moves = some r := by
    rw [run_append, made]
    have entered : sharedRegistry.step (.enter 1)
        = some (sharedRegistry.setDraft 0 (some .empty)) := rfl
    have clone : (sharedRegistry.setDraft 0 (some .empty)).engines[1]? = some 0 := rfl
    have changed := run_changes clone (drafts_setDraft_self _ _ _) .null
      [.edit World.orEdit, .eval "0 or 1"]
    rw [setDraft_setDraft] at changed
    exact run_cons_eq_some.2 ⟨_, entered, changed⟩
  have accounts := accounts_of_run run
  obtain ⟨r₀, cell, before, shared, seen⟩ := accounts.change _ 1 inside rfl
  obtain rfl := Option.some.inj (made.symm.trans before)
  obtain rfl := Option.some.inj shared
  obtain ⟨seen, r₁, ended, published⟩ := seen rfl
  obtain rfl := Option.some.inj ended
  exact ⟨run, accounts, seen, _, rfl, published, rfl, rfl⟩

end Registry

end Sift
