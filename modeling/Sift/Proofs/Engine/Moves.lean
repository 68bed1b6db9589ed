import Sift.Engine.Registry
import Sift.Proofs.Engine.Keeping

/-!
# Moves

What a move does to a registry, case by case, and what it leaves as it is. Engines and saved
grammars are only ever added, and the cells of engines and of changes under way are there.
-/

namespace Sift

namespace Registry

variable {r r' : Registry} {move : Move} {moves : List Move} {cell : Nat}

/-! ### Steps -/

/-- The grammar that is given to a new engine. -/
def given (r : Registry) : Move → Option Grammar
  | .create g => some g
  | .restore n => r.snapshots[n]?
  | _ => none

/-- What a move does. -/
inductive Steps (r : Registry) : Move → Registry → Prop
  | make {move : Move} {g : Grammar} (h : r.given move = some g) : Steps r move (r.addEngine g)
  | clone {engine cell : Nat} (h : r.engines[engine]? = some cell) :
    Steps r (.clone engine) { r with engines := r.engines ++ [cell] }
  | save {engine cell : Nat} (h : r.engines[engine]? = some cell) :
    Steps r (.save engine) { r with snapshots := r.snapshots ++ [r.grammar cell] }
  | enter {engine cell : Nat} (h : r.engines[engine]? = some cell) (free : r.drafts cell = none) :
    Steps r (.enter engine) (r.setDraft cell (some (r.grammar cell)))
  | change {engine cell : Nat} {draft : Grammar} (h : r.engines[engine]? = some cell)
    (underway : r.drafts cell = some draft) (edit : Grammar → Grammar) :
    Steps r (.change engine edit) (r.setDraft cell (some (edit draft)))
  | leave {engine cell : Nat} {draft : Grammar} (h : r.engines[engine]? = some cell)
    (underway : r.drafts cell = some draft) : Steps r (.leave engine) (r.publish cell draft)
  | use {event : Event} (h : event.isUse = true) :
    Steps r (.use event) { r with world := r.world.step event }

/-- A move that can be made is made in one of these ways. -/
lemma steps_of_step (h : r.step move = some r') : r.Steps move r' := by
  cases move with
  | create g =>
    obtain rfl := Option.some.inj h
    exact .make rfl
  | restore n =>
    obtain ⟨g, hg, rfl⟩ := Option.map_eq_some_iff.1 h
    exact .make hg
  | clone engine =>
    obtain ⟨cell, hcell, hr⟩ := Option.bind_eq_some_iff.1 h
    obtain rfl := Option.some.inj hr
    exact .clone hcell
  | save engine =>
    obtain ⟨cell, hcell, hr⟩ := Option.bind_eq_some_iff.1 h
    obtain rfl := Option.some.inj hr
    exact .save hcell
  | enter engine =>
    obtain ⟨cell, hcell, hr⟩ := Option.bind_eq_some_iff.1 h
    split at hr
    · cases hr
    · rename_i free
      obtain rfl := Option.some.inj hr
      exact .enter hcell free
  | change engine edit =>
    obtain ⟨cell, hcell, hr⟩ := Option.bind_eq_some_iff.1 h
    obtain ⟨draft, hdraft, hr⟩ := Option.bind_eq_some_iff.1 hr
    obtain rfl := Option.some.inj hr
    exact .change hcell hdraft edit
  | leave engine =>
    obtain ⟨cell, hcell, hr⟩ := Option.bind_eq_some_iff.1 h
    obtain ⟨draft, hdraft, hr⟩ := Option.bind_eq_some_iff.1 hr
    obtain rfl := Option.some.inj hr
    exact .leave hcell hdraft
  | use event =>
    rw [step] at h
    split at h
    · rename_i use
      obtain rfl := Option.some.inj h
      exact .use use
    · cases h

/-- What a move can do, it does. -/
lemma step_of_steps (h : r.Steps move r') : r.step move = some r' := by
  cases h with
  | make given =>
    cases move with
    | create g =>
      obtain rfl := Option.some.inj given
      rfl
    | restore n => exact Option.map_eq_some_iff.2 ⟨_, given, rfl⟩
    | _ => cases given
  | clone h | save h => simp [step, h]
  | enter h free => simp [step, h, free]
  | change h underway edit | leave h underway => simp [step, h, underway]
  | use h => exact if_pos h

/-- A run of two parts is the run of the second after the first. -/
lemma run_append (before after : List Move) :
    r.run (before ++ after) = r.run before >>= fun r => r.run after := by
  induction before generalizing r with
  | nil => rfl
  | cons move rest ih =>
    rw [List.cons_append, run, run]
    cases r.step move with
    | none => rfl
    | some r => exact ih

lemma run_cons_eq_some : r.run (move :: moves) = some r' ↔
    ∃ r₁, r.step move = some r₁ ∧ r₁.run moves = some r' :=
  Option.bind_eq_some_iff

/-- What every move keeps holds after a run. -/
lemma run_of_step {P : Registry → Prop}
    (keeps : ∀ {r move r'}, P r → r.step move = some r' → P r') (start : P r)
    (h : r.run moves = some r') : P r' := by
  induction moves generalizing r with
  | nil =>
    obtain rfl := Option.some.inj h
    exact start
  | cons move rest ih =>
    obtain ⟨r₁, first, more⟩ := run_cons_eq_some.1 h
    exact ih (keeps start first) more

/-- Moves add to a part of a registry, at most one thing at a time, and take nothing away. -/
structure Grows {α : Type} (part : Registry → List α) : Prop where
  prefix_step {r : Registry} {move : Move} {r' : Registry} (h : r.step move = some r') :
    part r <+: part r'
  length_step {r : Registry} {move : Move} {r' : Registry} (h : r.step move = some r') :
    (part r').length ≤ (part r).length + 1

/-- Engines are never taken away. -/
lemma grows_engines : Grows engines where
  prefix_step h := by
    cases steps_of_step h with
    | make _ | clone _ => exact List.prefix_append _ _
    | _ => exact List.prefix_refl _
  length_step h := by
    cases steps_of_step h with
    | make _ | clone _ => exact Nat.le_of_eq List.length_append
    | _ => exact Nat.le_succ _

/-- Saved grammars are never taken away. -/
lemma grows_snapshots : Grows snapshots where
  prefix_step h := by
    cases steps_of_step h with
    | save _ => exact List.prefix_append _ _
    | _ => exact List.prefix_refl _
  length_step h := by
    cases steps_of_step h with
    | save _ => exact Nat.le_of_eq List.length_append
    | _ => exact Nat.le_succ _

namespace Grows

variable {α : Type} {part : Registry → List α} {n : Nat} {x : α}

/-- What a move only adds to is added to by a run. -/
lemma prefix_run (grows : Grows part) (h : r.run moves = some r') : part r <+: part r' :=
  run_of_step (P := fun r' => part r <+: part r')
    (fun before step => before.trans (grows.prefix_step step)) (List.prefix_refl _) h

lemma getElem?_run (grows : Grows part) (h : r.run moves = some r')
    (hx : (part r)[n]? = some x) : (part r')[n]? = some x := by
  obtain ⟨more, hmore⟩ := grows.prefix_run h
  rw [← hmore, List.getElem?_append_left (List.getElem?_eq_some_iff.1 hx).1]
  exact hx

/-- What has been added was added by one of the moves. -/
lemma exists_step (grows : Grows part) (h : r.run moves = some r')
    (old : (part r).length ≤ n) (new : n < (part r').length) :
    ∃ before move after r₀ r₁, moves = before ++ move :: after ∧ r.run before = some r₀ ∧
      r₀.step move = some r₁ ∧ r₁.run after = some r' ∧
      (part r₀).length = n ∧ n < (part r₁).length := by
  induction moves generalizing r with
  | nil =>
    obtain rfl := Option.some.inj h
    omega
  | cons move rest ih =>
    obtain ⟨r₁, first, more⟩ := run_cons_eq_some.1 h
    by_cases here : n < (part r₁).length
    · have one := grows.length_step first
      exact ⟨[], move, rest, r, r₁, rfl, rfl, first, more, by omega, here⟩
    · obtain ⟨before, move', after, r₂, r₃, rfl, run, added⟩ := ih more (by omega)
      have run := run_cons_eq_some.2 ⟨r₁, first, run⟩
      exact ⟨move :: before, move', after, r₂, r₃, rfl, run, added⟩

end Grows

/-- A move is an event of the world, or none. -/
lemma world_step (h : r.step move = some r') :
    r'.world = r.world ∨ ∃ event, r'.world = r.world.step event := by
  cases steps_of_step h with
  | make _ => exact .inr ⟨.engine _, rfl⟩
  | leave _ _ => exact .inr ⟨.configure _ _, rfl⟩
  | use _ => exact .inr ⟨_, rfl⟩
  | _ => exact .inl rfl

/-- What is known of the runs of worlds applies to those of registries. -/
lemma exists_world_run (h : r.run moves = some r') : ∃ events, r'.world = r.world.run events := by
  refine run_of_step (P := fun r' => ∃ events, r'.world = r.world.run events) ?_ ⟨[], rfl⟩ h
  rintro r₁ move r₂ ⟨events, before⟩ step
  rcases world_step step with same | ⟨event, happens⟩
  · exact ⟨events, same.trans before⟩
  · refine ⟨events ++ [event], ?_⟩
    rw [World.run, List.foldl_append, happens, before]
    rfl

/-! ### Cells that are there -/

/-- The cells of the engines and those that are being changed are there. -/
structure Sound (r : Registry) : Prop where
  engines : ∀ cell ∈ r.engines, cell < r.world.store.cells.length
  drafts : ∀ cell, r.world.store.cells.length ≤ cell → r.drafts cell = none

lemma sound_empty : empty.Sound where
  engines _ h := nomatch h
  drafts _ _ := rfl

/-- Cells are never taken away. -/
lemma length_cells_step (w : World) (event : Event) :
    w.store.cells.length ≤ (w.step event).store.cells.length := by
  rw [World.cells_step]
  cases event with
  | engine g => exact (List.prefix_append _ _).length_le
  | configure cell change => exact Nat.le_of_eq (List.length_modify _ _ _).symm
  | _ => exact Nat.le_refl _

lemma cells_of_isUse {event : Event} (h : event.isUse = true) (w : World) :
    (w.step event).store.cells = w.store.cells := by
  rw [World.cells_step]
  cases event with
  | engine g | configure cell change => cases h
  | _ => rfl

namespace Sound

/-- The cell of an engine is there. -/
lemma there (sound : r.Sound) {engine : Nat} (h : r.engines[engine]? = some cell) :
    cell < r.world.store.cells.length :=
  sound.engines cell (List.mem_of_getElem? h)

/-- Changes of a cell leave a registry sound. -/
lemma setDraft (sound : r.Sound) (there : cell < r.world.store.cells.length)
    (draft? : Option Grammar) : (r.setDraft cell draft?).Sound where
  engines := sound.engines
  drafts other beyond := by
    have different : other ≠ cell := by
      rintro rfl
      exact Nat.not_le_of_lt there beyond
    exact (if_neg different).trans (sound.drafts other beyond)

/-- More cells do no harm, nor do other grammars in them. -/
lemma withWorld (sound : r.Sound) {w : World}
    (h : r.world.store.cells.length ≤ w.store.cells.length) : { r with world := w }.Sound where
  engines cell mem := Nat.lt_of_lt_of_le (sound.engines cell mem) h
  drafts cell beyond := sound.drafts cell (Nat.le_trans h beyond)

lemma withEngine (sound : r.Sound) (there : cell < r.world.store.cells.length) :
    { r with engines := r.engines ++ [cell] }.Sound where
  engines other mem := by
    rcases List.mem_append.1 mem with old | new
    · exact sound.engines other old
    · exact List.mem_singleton.1 new ▸ there
  drafts := sound.drafts

/-- Every move leaves a registry sound. -/
lemma step (sound : r.Sound) (h : r.step move = some r') : r'.Sound := by
  cases steps_of_step h with
  | make _ =>
    refine (sound.withWorld (length_cells_step _ (.engine _))).withEngine ?_
    simp [World.cells_step]
  | clone hcell => exact sound.withEngine (sound.there hcell)
  | save _ => exact ⟨sound.engines, sound.drafts⟩
  | enter hcell _ | change hcell _ _ => exact sound.setDraft (sound.there hcell) _
  | @leave _ cell draft hcell _ =>
    have more := length_cells_step r.world (.configure cell fun _ => draft)
    exact (sound.withWorld more).setDraft (Nat.lt_of_lt_of_le (sound.there hcell) more) none
  | use _ => exact sound.withWorld (length_cells_step _ _)

lemma run (sound : r.Sound) (h : r.run moves = some r') : r'.Sound :=
  run_of_step Sound.step sound h

end Sound

/-! ### Grammars and copies after a move -/

lemma grammar_eq (r : Registry) (cell : Nat) :
    r.grammar cell = (r.world.store.cells[cell]?).getD .empty :=
  List.getD_eq_getElem?_getD

/-- A new engine leaves the grammars of the others alone. -/
lemma grammar_addEngine (there : cell < r.world.store.cells.length) (g : Grammar) :
    (r.addEngine g).grammar cell = r.grammar cell := by
  have before : (r.world.store.cells ++ [g])[cell]? = r.world.store.cells[cell]? :=
    List.getElem?_append_left there
  rw [grammar_eq, grammar_eq, ← before]
  rfl

lemma grammar_addEngine_self (r : Registry) (g : Grammar) :
    (r.addEngine g).grammar r.world.store.cells.length = g := by
  have last : (r.world.store.cells ++ [g])[r.world.store.cells.length]? = some g :=
    List.getElem?_concat_length
  exact (grammar_eq _ _).trans (congrArg (Option.getD · _) last)

lemma grammar_publish_self (there : cell < r.world.store.cells.length) (draft : Grammar) :
    (r.publish cell draft).grammar cell = draft := by
  have changed : (r.world.store.cells.modify cell fun _ => draft)[cell]? = some draft := by
    rw [List.getElem?_modify_eq, List.getElem?_eq_getElem there]
    rfl
  exact (grammar_eq _ _).trans (congrArg (Option.getD · _) changed)

/-- A copy takes the place of one grammar only. -/
lemma grammar_publish_of_ne {other : Nat} (h : cell ≠ other) (draft : Grammar) :
    (r.publish cell draft).grammar other = r.grammar other := by
  have same : (r.world.store.cells.modify cell fun _ => draft)[other]?
      = r.world.store.cells[other]? := List.getElem?_modify_ne _ _ h
  rw [grammar_eq, grammar_eq, ← same]
  rfl

/-- Using engines changes no grammar. -/
lemma grammar_use {event : Event} (h : event.isUse = true) :
    { r with world := r.world.step event }.grammar cell = r.grammar cell :=
  congrArg (List.getD · cell _) (cells_of_isUse h r.world)

lemma drafts_setDraft_self (r : Registry) (cell : Nat) (draft? : Option Grammar) :
    (r.setDraft cell draft?).drafts cell = draft? :=
  if_pos rfl

lemma drafts_setDraft_of_ne {other : Nat} (h : cell ≠ other) (draft? : Option Grammar) :
    (r.setDraft cell draft?).drafts other = r.drafts other :=
  if_neg h.symm

end Registry

end Sift
