import Sift.Catalog
import Sift.Engine.World
import Sift.Proofs.Evaluation.Polling
import Sift.Proofs.Template.Splicing

/-!
# Tasks keep their grammar

A task takes the grammar that is current at its first poll, and the tree that its expression has
kept by then. From there on it does what it would do alone, whatever happens between its polls.
-/

namespace Sift

/-! ### Evaluations alone -/

namespace Store

variable (s : Store)

def cellOf : Request → Nat
  | .source cell _ => cell
  | .expression id => (s.expression id).cell

def grammarOf (request : Request) : Grammar := s.grammar (s.cellOf request)

/-- The tree of what is to be evaluated, read with the current grammar unless it has been kept. -/
def treeOf : Request → Except Error Expr
  | .source cell text => Template.compile (s.grammar cell) [.source text]
  | .expression id =>
    match (s.expression id).tree with
    | some tree => .ok tree
    | none => Template.compile (s.grammar (s.expression id).cell) (s.expression id).fragments

/-- What is seen of an evaluation that begins now, if nothing else happens until it is ready. -/
def alone (request : Request) (context : Value) : Course (Except Error Value) :=
  match s.treeOf request with
  | .ok tree =>
    let course := (tree.evaluate (s.grammarOf request) context).course
    { course with result := course.result.mapError .eval }
  | .error e => ⟨0, [], .error e⟩

/-- What is seen alone is read off the process of the tree. -/
lemma alone_of_tree {request : Request} {tree : Expr} (h : s.treeOf request = .ok tree)
    (context : Value) :
    let p := tree.evaluate (s.grammarOf request) context
    s.alone request context = ⟨p.pauses, p.calls, p.result.mapError .eval⟩ := by
  simp only [alone, h, Process.course_eq]

lemma cell_expression_keep (id : Nat) (tree : Expr) :
    (expression
      { s with expressions := s.expressions.set id { s.expression id with tree := some tree } }
      id).cell = (s.expression id).cell := by
  simp only [expression, List.getD_eq_getElem?_getD, List.getElem?_set_self']
  cases s.expressions[id]? <;> rfl

/-- An evaluation begins with the current grammar and with the tree that is kept or read with it. -/
lemma begin_eq (request : Request) (context : Value) :
    (s.begin request context).1
      = (s.treeOf request).map fun tree => tree.evaluate (s.grammarOf request) context := by
  cases request with
  | source cell text => rfl
  | expression id =>
    simp only [begin, compile, treeOf, grammarOf, cellOf]
    cases (s.expression id).tree with
    | some tree => rfl
    | none =>
      dsimp only
      cases Template.compile (s.grammar (s.expression id).cell) (s.expression id).fragments with
      | error e => rfl
      | ok tree =>
        rw [cell_expression_keep]
        rfl

end Store

/-! ### One job -/

namespace Job

/-- How a job stands after some polls, if it does what is seen of an evaluation alone. -/
structure Follows (alone : Course (Except Error Value)) (polls : Nat) (job : Job) : Prop where
  calls : job.calls <+: alone.calls
  pending : polls ≤ alone.pendings → ∃ rest, job.progress = .pending (.running rest)
  finished : alone.pendings < polls → job = ⟨.finished alone.result, alone.calls⟩

/-- What there still is to come of a job after some polls, the first of them included. -/
inductive Ahead (alone : Course (Except Error Value)) : Nat → Job → Prop
  | running {polls : Nat} {made : List Call} {rest : Process Value}
    (pendings : polls + rest.course.pendings = alone.pendings)
    (calls : made ++ rest.course.calls = alone.calls)
    (result : rest.course.result.mapError .eval = alone.result) :
    Ahead alone polls ⟨.pending (.running rest), made⟩
  | finished {polls : Nat} (h : alone.pendings < polls) :
    Ahead alone polls ⟨.finished alone.result, alone.calls⟩

variable {alone : Course (Except Error Value)} {polls : Nat} {job : Job}

lemma poll_pending (s : Store) (task : Task) (calls : List Call) :
    poll s ⟨.pending task, calls⟩
      = (⟨(s.poll task).2.1, calls ++ (s.poll task).1⟩, (s.poll task).2.2) := rfl

/-- What holds of a job before a poll says all that can be seen of it. -/
lemma Ahead.follows (h : Ahead alone polls job) : job.Follows alone polls := by
  cases h with
  | running pendings calls result =>
    constructor
    · exact ⟨_, calls⟩
    · intro _
      exact ⟨_, rfl⟩
    · intro beyond
      omega
  | finished beyond =>
    constructor
    · exact List.prefix_refl _
    · intro within
      omega
    · intro _
      rfl

/-- Polling a process takes one poll off what there is to come. -/
lemma ahead_pollProcess {made : List Call} {p : Process Value}
    (pendings : polls + p.course.pendings = alone.pendings)
    (calls : made ++ p.course.calls = alone.calls)
    (result : p.course.result.mapError .eval = alone.result) :
    Ahead alone (polls + 1)
      ⟨(Store.pollProcess p).2, made ++ (Store.pollProcess p).1⟩ := by
  rw [Store.pollProcess]
  rcases hpoll : p.poll with ⟨now, rest | outcome⟩
  · rw [Process.course_of_pending hpoll] at pendings calls result
    refine .running ?_ ?_ result
    · simp only at pendings
      omega
    · rw [List.append_assoc]
      exact calls
  · rw [Process.course_of_ready hpoll] at pendings calls result
    simp only at pendings calls result ⊢
    rw [calls, result]
    exact .finished (by omega)

/-- A poll that is not the first one, whatever the store has come to be. -/
lemma Ahead.poll (h : Ahead alone polls job) (s : Store) :
    Ahead alone (polls + 1) (job.poll s).1 := by
  cases h with
  | running pendings calls result => exact ahead_pollProcess pendings calls result
  | finished beyond => exact .finished (by omega)

/-- The first poll. -/
lemma ahead_poll_waiting (s : Store) (request : Request) (context : Value) :
    Ahead (s.alone request context) 1 (poll s ⟨.pending (.waiting request context), []⟩).1 := by
  -- The store that is left behind does not matter, only the process that has begun.
  have hbegin := s.begin_eq request context
  rcases hbegun : s.begin request context with ⟨begun, kept⟩
  rw [hbegun] at hbegin
  simp only at hbegin
  subst hbegin
  simp only [Job.poll, Store.poll, hbegun, Store.alone]
  cases s.treeOf request with
  | error e => exact .finished Nat.zero_lt_one
  | ok tree => exact ahead_pollProcess (Nat.zero_add _) rfl rfl

end Job

/-! ### All jobs -/

namespace World

variable {w : World} {number : Nat} {job : Job}

lemma step_poll_of_some (h : w.jobs[number]? = some job) :
    w.step (.poll number) = ⟨(job.poll w.store).2, w.jobs.set number (job.poll w.store).1⟩ := by
  simp only [step, h]

/-- What is not a poll of a job leaves it as it is. -/
lemma step_of_not_polls {e : Event} (h : e.polls number = false)
    (hjob : w.jobs[number]? = some job) : (w.step e).jobs[number]? = some job := by
  cases e with
  | start request context =>
    rw [step, List.getElem?_append_left (List.getElem?_eq_some_iff.1 hjob).1]
    exact hjob
  | poll other =>
    have different : other ≠ number := by simpa [Event.polls] using h
    rcases hother : w.jobs[other]? with _ | job'
    · simpa only [step, hother] using hjob
    · rw [step_poll_of_some hother, List.getElem?_set_ne different]
      exact hjob
  | _ => exact hjob

/-- A poll of a job is a poll of its task. -/
lemma step_of_polls {e : Event} (h : e.polls number = true) (hjob : w.jobs[number]? = some job) :
    (w.step e).jobs[number]? = some (job.poll w.store).1 := by
  cases e with
  | poll other =>
    obtain rfl : other = number := by simpa [Event.polls] using h
    have inside := (List.getElem?_eq_some_iff.1 hjob).1
    rw [step_poll_of_some hjob, List.getElem?_set_self inside]
  | _ => cases h

/-- Events that do not poll a job leave it alone. -/
lemma run_of_not_polls {events : List Event} (h : ∀ e ∈ events, e.polls number = false)
    (hjob : w.jobs[number]? = some job) : (w.run events).jobs[number]? = some job := by
  induction events generalizing w with
  | nil => exact hjob
  | cons e rest ih =>
    rw [List.forall_mem_cons] at h
    exact ih h.2 (step_of_not_polls h.1 hjob)

/-- In every order of events, a job that was polled goes on as alone. -/
lemma run_ahead {alone : Course (Except Error Value)} {polls : Nat} (events : List Event)
    (hjob : w.jobs[number]? = some job) (h : job.Ahead alone polls) :
    ∃ job', (w.run events).jobs[number]? = some job' ∧
      job'.Ahead alone (polls + events.countP (·.polls number)) := by
  -- What is still ahead of the job is the invariant, and only its own polls change it.
  induction events generalizing w job polls with
  | nil => exact ⟨job, hjob, h⟩
  | cons e rest ih =>
    cases he : e.polls number with
    | false =>
      rw [List.countP_cons_of_neg (by simp [he])]
      exact ih (step_of_not_polls he hjob) h
    | true =>
      obtain ⟨job', hjob', h'⟩ := ih (step_of_polls he hjob) (h.poll w.store)
      rw [Nat.add_right_comm] at h'
      rw [List.countP_cons_of_pos he]
      exact ⟨job', hjob', h'⟩

/-- A job does what it would do alone from its first poll on, with the grammar and the kept trees
of that moment, in every world and whatever happens before, between and after its polls. -/
theorem run_isolated (w : World) (request : Request) (context : Value) {before : List Event}
    (h : ∀ e ∈ before, e.polls w.jobs.length = false) (after : List Event) :
    let number := w.jobs.length
    let first := w.run (.start request context :: before)
    ∃ job, (first.run (.poll number :: after)).jobs[number]? = some job ∧
      job.Follows (first.store.alone request context) (1 + after.countP (·.polls number)) := by
  intro number first
  have started : (w.step (.start request context)).jobs[number]?
      = some ⟨.pending (.waiting request context), []⟩ := by simp [step, number]
  have waiting : first.jobs[number]? = some ⟨.pending (.waiting request context), []⟩ :=
    run_of_not_polls (w := w.step (.start request context)) h started
  have polled := step_of_polls (e := .poll number) (by simp [Event.polls]) waiting
  obtain ⟨job, hjob, ahead⟩ :=
    run_ahead after polled (Job.ahead_poll_waiting first.store request context)
  exact ⟨job, hjob, ahead.follows⟩

/-- A function that takes a poll for each of its arguments. -/
def waitEdit : Edit := .function "w" fun vs => Catalog.late vs.length (Catalog.argument vs 0)

def emptyEngine : World := ⟨⟨[.empty], []⟩, []⟩

set_option maxRecDepth 8000 in
/-- A function is registered after the task has been started and removed while the task waits for
its first call, before the second one. -/
theorem run_isolated_removed :
    let request := Request.source 0 "[w(a),w(b)]"
    let context := Value.object [("a", .boolean true), ("b", .boolean false)]
    let before := [Event.configure 0 fun g => g.edit waitEdit]
    let after := [Event.configure 0 fun _ => .empty, .poll 0, .poll 0]
    let first := emptyEngine.run (.start request context :: before)
    let alone := first.store.alone request context
    (∀ e ∈ before, e.polls emptyEngine.jobs.length = false) ∧
      alone.pendings = 2 ∧ alone.result = .ok (.array [.boolean true, .boolean false]) ∧
        ∃ job, (first.run (.poll 0 :: after)).jobs[0]? = some job ∧ job.Follows alone 3 := by
  intro request context before after first alone
  have waits : ∀ e ∈ before, e.polls emptyEngine.jobs.length = false := by
    simp [before, Event.polls]
  have tokens : Template.tokens (Grammar.empty.edit waitEdit) [] 0 [.source "[w(a),w(b)]"]
      = .ok [⟨.punctuation .openBracket, "[", 0⟩, ⟨.identifier "w", "w", 1⟩,
        ⟨.punctuation .openParen, "(", 2⟩, ⟨.identifier "a", "a", 3⟩,
        ⟨.punctuation .closeParen, ")", 4⟩, ⟨.punctuation .comma, ",", 5⟩,
        ⟨.identifier "w", "w", 6⟩, ⟨.punctuation .openParen, "(", 7⟩,
        ⟨.identifier "b", "b", 8⟩, ⟨.punctuation .closeParen, ")", 9⟩,
        ⟨.punctuation .closeBracket, "]", 10⟩, ⟨.endOfInput, "", 11⟩] := by
    cbv
  have tree : first.store.treeOf request
      = .ok (.array [.call "w" [.identifier "a"], .call "w" [.identifier "b"]]) :=
    (Template.compile_of_ok tokens).trans rfl
  have seen := first.store.alone_of_tree tree context
  refine ⟨waits, ?_, ?_, run_isolated emptyEngine request context waits after⟩
  · exact (congrArg Course.pendings seen).trans rfl
  · exact (congrArg Course.result seen).trans rfl

end World

end Sift
