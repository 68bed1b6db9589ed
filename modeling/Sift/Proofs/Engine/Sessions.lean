import Sift.Proofs.Engine.Publishing

/-!
# Sessions are runs of registries

What a session does is done by moves: an instruction makes an engine, saves a grammar, changes a
grammar from begin to end, or makes, reads, evaluates, starts or polls something. The tasks of the
session are the jobs of the world that are not finished. So what is known of the runs of registries
and worlds applies to sessions.
-/

namespace Sift

namespace Session

open Registry (run_cons_eq_some step_of_steps)

variable {s : Session} {r : Registry} {cell : Nat} {g : Grammar} {context : Value}

/-- What holds of all bindings and of a new one holds of all of them afterwards. -/
lemma forall_get?_insert {α : Type} {d : Dict α} {P : α → Prop} {name : String} {v : α}
    (old : ∀ other w, d.get? other = some w → P w) (new : P v) :
    ∀ other w, (d.insert name v).get? other = some w → P w := by
  intro other w found
  rw [Dict.get?_insert] at found
  split at found
  · exact Option.some.inj found ▸ new
  · exact old other w found

/-- To make an expression and then to read it is to make it with its tree. -/
lemma compile_newExpression {store : Store} {fragments : List Fragment} {tree : Expr}
    (read : Template.compile (store.grammar cell) fragments = .ok tree) :
    ((store.newExpression { fragments, cell }).2.compile store.expressions.length).2
      = (store.newExpression { fragments, cell, tree := some tree }).2 := by
  have last : (store.newExpression { fragments, cell }).2.expression store.expressions.length
      = { fragments, cell } := Store.expression_eq List.getElem?_concat_length
  have grammar : (store.newExpression { fragments, cell }).2.grammar cell = store.grammar cell :=
    rfl
  simp only [Store.compile, last, grammar, read]
  simp [Store.newExpression]

/-! ### Tasks as jobs -/

/-- Each task is a job that is not finished, with a number of its own. -/
structure Numbered (number : String → Nat) (tasks : Dict Task) (jobs : List Job) : Prop where
  pending {name : String} {task : Task} (found : tasks.get? name = some task) :
    ∃ calls, jobs[number name]? = some ⟨.pending task, calls⟩
  apart {name other : String} {task task' : Task} (found : tasks.get? name = some task)
    (found' : tasks.get? other = some task') (same : number name = number other) : name = other

lemma numbered_empty {jobs : List Job} : Numbered (fun _ => 0) .empty jobs where
  pending found := by cases found
  apart found := by cases found

namespace Numbered

variable {number : String → Nat} {tasks : Dict Task} {jobs : List Job} {name : String} {task : Task}
  (h : Numbered number tasks jobs)
include h

/-- The job of a task is there. -/
lemma lt (found : tasks.get? name = some task) : number name < jobs.length := by
  obtain ⟨calls, job⟩ := h.pending found
  exact (List.getElem?_eq_some_iff.1 job).1

/-- The task that is started gets the next number. -/
lemma start (name : String) (task : Task) :
    ∃ number', Numbered number' (tasks.insert name task) (jobs ++ [⟨.pending task, []⟩]) := by
  have old {other : String} {task' : Task} (different : name ≠ other)
      (found : (tasks.insert name task).get? other = some task') :
      tasks.get? other = some task' := by
    rwa [Dict.get?_insert, if_neg different] at found
  refine ⟨fun other => if name = other then jobs.length else number other,
    fun {other task'} found => ?_, fun {one other task₁ task₂} found found' same => ?_⟩
  · by_cases new : name = other
    · rw [Dict.get?_insert, if_pos new] at found
      cases found
      rw [if_pos new]
      exact ⟨[], List.getElem?_concat_length⟩
    · obtain ⟨calls, job⟩ := h.pending (old new found)
      rw [if_neg new, List.getElem?_append_left (h.lt (old new found))]
      exact ⟨calls, job⟩
  · split_ifs at same with new new' new'
    · exact new.symm.trans new'
    · exact absurd same (Nat.ne_of_gt (h.lt (old new' found')))
    · exact absurd same (Nat.ne_of_lt (h.lt (old new found)))
    · exact h.apart (old new found) (old new' found') same

/-- A poll of a task leaves the jobs of the others as they are. -/
lemma getElem?_set (found : tasks.get? name = some task) (job : Job) {other : String} {task' : Task}
    (found' : tasks.get? other = some task') (different : name ≠ other) :
    ∃ calls, (jobs.set (number name) job)[number other]? = some ⟨.pending task', calls⟩ := by
  obtain ⟨calls, there⟩ := h.pending found'
  refine ⟨calls, ?_⟩
  rwa [List.getElem?_set_ne fun same => different (h.apart found found' same)]

/-- A task that is still pending keeps its job. -/
lemma poll_pending (found : tasks.get? name = some task) (task' : Task) (calls : List Call) :
    Numbered number (tasks.insert name task') (jobs.set (number name) ⟨.pending task', calls⟩) where
  pending {other task₁} found₁ := by
    rw [Dict.get?_insert] at found₁
    split_ifs at found₁ with same
    · cases found₁
      rw [← same, List.getElem?_set_self (h.lt found)]
      exact ⟨calls, rfl⟩
    · exact h.getElem?_set found _ found₁ same
  apart {one other task₁ task₂} found₁ found₂ same := by
    rw [Dict.get?_insert] at found₁ found₂
    split_ifs at found₁ found₂ with polled polled' polled'
    · exact polled.symm.trans polled'
    · subst polled
      exact h.apart found found₂ same
    · subst polled'
      exact h.apart found₁ found same
    · exact h.apart found₁ found₂ same

/-- A task that is finished leaves, its job stays. -/
lemma poll_finished (found : tasks.get? name = some task) (job : Job) :
    Numbered number (tasks.erase name) (jobs.set (number name) job) where
  pending {other task₁} found₁ := by
    rw [Dict.get?_erase] at found₁
    split_ifs at found₁ with same
    exact h.getElem?_set found _ found₁ same
  apart {one other task₁ task₂} found₁ found₂ same := by
    rw [Dict.get?_erase] at found₁ found₂
    split_ifs at found₁ found₂
    exact h.apart found₁ found₂ same

end Numbered

/-- A session stands as a registry does in which no change is under way: their stores are the same,
the names of the session are given to engines, saved grammars and expressions of the registry, and
its tasks are jobs. -/
structure StandsAs (s : Session) (r : Registry) : Prop where
  store : r.world.store = s.store
  idle : ∀ cell, r.drafts cell = none
  engines : ∀ name cell, s.engines.get? name = some cell → cell ∈ r.engines
  snapshots : ∀ name g, s.snapshots.get? name = some g → g ∈ r.snapshots
  tasks : ∃ number, Numbered number s.tasks r.world.jobs

/-- A session stands as the registry does after some moves. -/
def Follows (s : Session) (r : Registry) : Prop :=
  ∃ moves r', r.run moves = some r' ∧ s.StandsAs r'

/-- A session goes on following where it has followed. -/
lemma Follows.bind {s' : Session} (first : s.Follows r)
    (next : ∀ r', s.StandsAs r' → s'.Follows r') : s'.Follows r := by
  obtain ⟨moves, r', run, stands⟩ := first
  obtain ⟨moves', r'', run', stands'⟩ := next r' stands
  refine ⟨moves ++ moves', r'', ?_, stands'⟩
  rw [Registry.run_append, run]
  exact run'

namespace StandsAs

variable (h : s.StandsAs r)

include h

/-- Nothing is done. -/
lemma stay : s.Follows r := ⟨[], r, rfl, h⟩

/-- Something is made, read, evaluated, started or polled. -/
lemma use (event : Event) (isUse : event.isUse = true) {store : Store}
    (same : (r.world.step event).store = store) (expressions : Dict Nat) {tasks : Dict Task}
    (jobs : ∃ number, Numbered number tasks (r.world.step event).jobs) :
    { s with store, expressions, tasks }.Follows r :=
  ⟨[.use event], _, run_cons_eq_some.2 ⟨_, step_of_steps (.use isUse), rfl⟩,
    { store := same, idle := h.idle, engines := h.engines, snapshots := h.snapshots,
      tasks := jobs }⟩

/-- An expression is read, if any. -/
lemma reading (id? : Option Nat) : { s with store := s.store.reading id? }.Follows r := by
  cases id? with
  | none => exact h.stay
  | some id => exact h.use (.compile id) rfl (by rw [World.step, h.store]; rfl) _ h.tasks

/-- To evaluate is a move that only reads. -/
lemma evaluate (request : Request) (context : Value) :
    { s with store := (s.store.evaluate request context).2.2 }.Follows r := by
  rw [Store.evaluate_snd]
  exact h.reading _

lemma start (name : String) (request : Request) (context : Value) :
    { s with tasks := s.tasks.insert name (.waiting request context) }.Follows r := by
  obtain ⟨number, jobs⟩ := h.tasks
  exact h.use (.start request context) rfl h.store s.expressions (jobs.start name _)

/-- An engine is made, with a cell of its own. -/
lemma make (name : String) (g : Grammar) :
    { s with
      store := (s.store.newCell g).2
      engines := s.engines.insert name (s.store.newCell g).1 }.Follows r := by
  refine ⟨[.create g], _, run_cons_eq_some.2 ⟨_, rfl, rfl⟩, ?_, h.idle, ?_, h.snapshots, h.tasks⟩
  · exact congrArg (fun store => (Store.newCell store g).2) h.store
  · exact forall_get?_insert (fun other cell found =>
      List.mem_append_left _ (h.engines other cell found)) (h.store ▸ List.mem_concat_self)

/-- An engine is made that shares its cell with another one. -/
lemma share (name : String) (mem : cell ∈ r.engines) :
    { s with engines := s.engines.insert name cell }.Follows r := by
  obtain ⟨engine, hengine⟩ := List.getElem?_of_mem mem
  refine ⟨[.clone engine], _, run_cons_eq_some.2 ⟨_, step_of_steps (.clone hengine), rfl⟩,
    h.store, h.idle, ?_, h.snapshots, h.tasks⟩
  exact forall_get?_insert (fun other cell found =>
    List.mem_append_left _ (h.engines other cell found)) List.mem_concat_self

/-- A grammar is saved by a move. -/
lemma save (name : String) (mem : cell ∈ r.engines) :
    { s with snapshots := s.snapshots.insert name (s.store.grammar cell) }.Follows r := by
  obtain ⟨engine, hengine⟩ := List.getElem?_of_mem mem
  refine ⟨[.save engine], _, run_cons_eq_some.2 ⟨_, step_of_steps (.save hengine), rfl⟩,
    h.store, h.idle, h.engines, ?_, h.tasks⟩
  exact forall_get?_insert (fun other g found =>
    List.mem_append_left _ (h.snapshots other g found)) (h.store ▸ List.mem_concat_self)

lemma configure (mem : cell ∈ r.engines) (context : Value) (changes : List Change) :
    (s.configure cell context changes).2.2.Follows r := by
  obtain ⟨engine, hengine⟩ := List.getElem?_of_mem mem
  exact ⟨_, _, Registry.run_configure hengine (h.idle cell) h.store context changes, rfl, h.idle,
    h.engines, h.snapshots, h.tasks⟩

/-- An expression is made and read, if that succeeds. -/
lemma compile {fragments : List Fragment} {tree : Expr} (expressions : Dict Nat)
    (read : Template.compile (s.store.grammar cell) fragments = .ok tree) :
    { s with
      store := (s.store.newExpression { fragments, cell, tree := some tree }).2
      expressions }.Follows r := by
  have made : { s with store := (s.store.newExpression { fragments, cell }).2 }.Follows r :=
    h.use (.create fragments cell) rfl (by rw [World.step, h.store]) _ h.tasks
  refine made.bind fun r' h' => ?_
  refine h'.use (.compile s.store.expressions.length) rfl ?_ expressions h'.tasks
  rw [World.step, h'.store]
  exact compile_newExpression read

/-- The poll of a task is the poll of its job. -/
lemma poll (name : String) (cell : Nat) (g : Grammar) (context : Value) :
    (s.perform cell g context (.poll name)).2.2.Follows r := by
  simp only [Session.perform]
  cases found : s.tasks.get? name with
  | none => exact h.stay
  | some task =>
    obtain ⟨number, jobs⟩ := h.tasks
    obtain ⟨calls, job⟩ := jobs.pending found
    have polled := World.step_poll_of_some job
    rw [Job.poll_pending, h.store] at polled
    have same : (r.world.step (.poll (number name))).store = (s.store.poll task).2.2 := by
      rw [polled]
    dsimp only
    cases hprogress : (s.store.poll task).2.1 with
    | pending task' =>
      refine h.use (.poll (number name)) rfl same s.expressions ⟨number, ?_⟩
      rw [polled, hprogress]
      exact jobs.poll_pending found task' _
    | finished result =>
      refine h.use (.poll (number name)) rfl same s.expressions ⟨number, ?_⟩
      rw [polled]
      exact jobs.poll_finished found _

/-- Every command is carried out by moves of the registry. -/
lemma perform (mem : cell ∈ r.engines) (command : Command) :
    (s.perform cell g context command).2.2.Follows r := by
  cases command with
  | engine name origin =>
    cases origin with
    | standard => exact h.make name .standard
    | empty => exact h.make name .empty
    | copy => exact h.make name g
    | clone => exact h.share name mem
  | configure changes => exact h.configure mem context changes
  | snapshot name => exact h.save name mem
  | list | describe | inspect | matchSymbol source | isOperator source | lookup name =>
    exact h.stay
  | compile id fragments =>
    cases read : Template.compile (s.store.grammar cell) fragments with
    | error e =>
      simp only [Session.perform, read]
      exact h.stay
    | ok tree =>
      simp only [Session.perform, read]
      exact h.compile _ read
  | create id source =>
    exact h.use (.create [.source source] cell) rfl (by rw [World.step, h.store]; rfl) _ h.tasks
  | source id =>
    simp only [Session.perform]
    cases s.expressions.get? id <;> exact h.stay
  | tree id =>
    simp only [Session.perform]
    cases s.expressions.get? id with
    | none => exact h.stay
    | some n =>
      dsimp only
      cases (s.store.compile n).1 <;> exact h.reading (some n)
  | run id =>
    simp only [Session.perform]
    cases s.expressions.get? id with
    | none => exact h.stay
    | some n => exact h.evaluate (.expression n) context
  | eval source => exact h.evaluate (.source cell source) context
  | startSource task source => exact h.start task (.source cell source) context
  | startExpression task id =>
    simp only [Session.perform]
    cases s.expressions.get? id with
    | none => exact h.stay
    | some n => exact h.start task (.expression n) context
  | poll name => exact h.poll name cell g context
  | call name arguments =>
    simp only [Session.perform]
    cases (s.store.grammar cell).functions.get? name <;> exact h.stay
  | apply name subject arguments =>
    simp only [Session.perform]
    cases (s.store.grammar cell).transforms.get? name <;> exact h.stay

lemma step (i : Instruction) : (s.step i).2.2.Follows r := by
  rw [Session.step]
  split
  · exact h.stay
  · rename_i cell hcell
    have mem := h.engines _ cell hcell
    cases i.snapshot with
    | none => exact h.perform mem i.command
    | some name =>
      dsimp only
      cases s.snapshots.get? name with
      | none => exact h.stay
      | some g => exact h.perform mem i.command

/-- A session that is told something follows the registry all along. -/
lemma run (instructions : List Instruction) : (s.run instructions).2.Follows r := by
  induction instructions generalizing s r with
  | nil => exact h.stay
  | cons i rest ih => exact (h.step i).bind fun r' h' => ih h'

end StandsAs

/-- Whatever a session is told to do, it stands as a registry does after some run. -/
theorem run_follows (g : Grammar) (instructions : List Instruction) :
    ((start g).run instructions).2.Follows .empty := by
  have first : (start g).Follows .empty := by
    refine ⟨[.create g], _, run_cons_eq_some.2 ⟨_, rfl, rfl⟩, rfl, fun _ => rfl, ?_, ?_, ?_⟩
    · exact forall_get?_insert (fun other cell found => by cases found) List.mem_concat_self
    · exact fun name g found => by cases found
    · exact ⟨fun _ => 0, numbered_empty⟩
  exact first.bind fun r h => h.run instructions

end Session

end Sift
