import Sift.Proofs.Engine.Sessions

/-!
# Polls of the tasks of a session

A task of a session does what it would do alone from its first poll on, whatever else the session is
told in between (`Session.heard_isolated`). It is pending as often as it would be alone, then its
poll is answered by the result, and with the polls come the notes of its calls. After that there is
no such task any more.
-/

namespace Sift

def Command.starts (name : String) : Command → Bool
  | startSource task _ | startExpression task _ => task == name
  | _ => false

def Command.polls (name : String) : Command → Bool
  | poll task => task == name
  | _ => false

lemma Command.eq_poll {name : String} {command : Command} (h : command.polls name = true) :
    command = .poll name := by
  cases command with
  | poll task => rw [beq_iff_eq.1 h]
  | _ => cases h

lemma notesOf_append (made more : List Call) :
    notesOf (made ++ more) = notesOf made ++ notesOf more := List.flatMap_append

namespace Session

variable {s : Session} {name : String} {i : Instruction}

/-! ### Instructions -/

/-- Whether the engine and the saved grammar that an instruction is about are there. -/
def finds (s : Session) (i : Instruction) : Bool :=
  (s.cell? i.engine).isSome && i.snapshot.all s.snapshots.contains

/-- An instruction whose engine and saved grammar are there is carried out. -/
lemma step_of_finds (h : s.finds i = true) :
    ∃ cell g, s.step i = s.perform cell g i.context i.command := by
  rw [finds, Bool.and_eq_true, Option.isSome_iff_exists] at h
  obtain ⟨⟨cell, hcell⟩, saved⟩ := h
  rw [step, hcell]
  dsimp only
  cases hname : i.snapshot with
  | none => exact ⟨_, _, rfl⟩
  | some name =>
    rw [hname, Option.all_some, Dict.contains, Option.isSome_iff_exists] at saved
    obtain ⟨g, hg⟩ := saved
    dsimp only
    rw [hg]
    exact ⟨_, _, rfl⟩

/-- An instruction about something missing has no effect. -/
lemma step_of_not_finds (h : s.finds i = false) : s.step i = ([], .missing, s) := by
  rw [step]
  rw [finds] at h
  cases hcell : s.cell? i.engine with
  | none => rfl
  | some cell =>
    rw [hcell, Option.isSome_some, Bool.true_and] at h
    dsimp only
    cases hname : i.snapshot with
    | none =>
      rw [hname] at h
      cases h
    | some name =>
      rw [hname, Option.all_some, Dict.contains, Option.isSome_eq_false_iff,
        Option.isNone_iff_eq_none] at h
      dsimp only
      rw [h]

/-- What neither starts nor polls a task leaves it as it is. -/
lemma get?_tasks_perform {command : Command} (starts : command.starts name = false)
    (polls : command.polls name = false) (cell : Nat) (g : Grammar) (context : Value) :
    (s.perform cell g context command).2.2.tasks.get? name = s.tasks.get? name := by
  cases command with
  | engine _ origin => cases origin <;> rfl
  | configure | snapshot | list | describe | inspect | matchSymbol | isOperator | lookup | create
  | eval => rfl
  | compile id fragments =>
    simp only [perform]
    cases Template.compile (s.store.grammar cell) fragments <;> rfl
  | source id | run id =>
    simp only [perform]
    cases s.expressions.get? id <;> rfl
  | tree id =>
    simp only [perform]
    cases s.expressions.get? id with
    | none => rfl
    | some n =>
      dsimp only
      cases (s.store.compile n).1 <;> rfl
  | startSource task source =>
    have different : task ≠ name := ne_of_beq_false starts
    exact (Dict.get?_insert ..).trans (if_neg different)
  | startExpression task id =>
    have different : task ≠ name := ne_of_beq_false starts
    simp only [perform]
    cases s.expressions.get? id with
    | none => rfl
    | some n => exact (Dict.get?_insert ..).trans (if_neg different)
  | poll other =>
    have different : other ≠ name := ne_of_beq_false polls
    simp only [perform]
    cases s.tasks.get? other with
    | none => rfl
    | some task =>
      dsimp only
      cases (s.store.poll task).2.1 with
      | pending _ => exact (Dict.get?_insert ..).trans (if_neg different)
      | finished _ => exact (Dict.get?_erase ..).trans (if_neg different)
  | call f arguments =>
    simp only [perform]
    cases (s.store.grammar cell).functions.get? f <;> rfl
  | apply f subject arguments =>
    simp only [perform]
    cases (s.store.grammar cell).transforms.get? f <;> rfl

/-- Only the polls of a task and its start under the name change it. -/
lemma get?_tasks_step (starts : i.command.starts name = false)
    (polls : i.command.polls name = false) : (s.step i).2.2.tasks.get? name = s.tasks.get? name := by
  cases found : s.finds i with
  | true =>
    obtain ⟨cell, g, same⟩ := step_of_finds found
    rw [same]
    exact get?_tasks_perform starts polls cell g i.context
  | false => rw [step_of_not_finds found]

/-! ### Polls -/

/-- The notes and the answers of the polls of a task that are carried out. -/
def heard (name : String) (s : Session) : List Instruction → List (List String × Answer)
  | [] => []
  | i :: rest =>
    let (notes, answer, next) := s.step i
    if i.command.polls name && s.finds i then (notes, answer) :: next.heard name rest
    else next.heard name rest

/-- How a poll is answered after so many others, if the task does what is seen of it alone. -/
def answerAfter (alone : Course (Except Error Value)) (polls : Nat) : Answer :=
  if polls < alone.pendings then .pending
  else if polls = alone.pendings then .ofResult alone.result
  else .missing

/-- How a task stands after some polls and calls. -/
inductive Standing (alone : Course (Except Error Value)) (polls : Nat) (made : List Call) :
    Option Task → Prop
  | running {rest : Process Value} (h : Job.Ahead alone polls ⟨.pending (.running rest), made⟩) :
    Standing alone polls made (some (.running rest))
  | gone (beyond : alone.pendings < polls) (all : made = alone.calls) :
    Standing alone polls made none

variable {alone : Course (Except Error Value)} {polls : Nat} {made : List Call}

/-- What a poll is answered, and how it leaves the task, if it goes on as alone. -/
structure Answered (alone : Course (Except Error Value)) (polls : Nat) (made : List Call)
    (name : String) (after : List String × Answer × Session) : Prop where
  answer : after.2.1 = answerAfter alone polls
  standing : ∃ more, after.1 = notesOf more ∧
    Standing alone (polls + 1) (made ++ more) (after.2.2.tasks.get? name)

variable (cell : Nat) (g : Grammar) (context : Value)

/-- A poll that leaves a job ahead as alone is answered as alone. -/
lemma answered_of_ahead {task : Task} (found : s.tasks.get? name = some task)
    (within : polls ≤ alone.pendings)
    (ahead : Job.Ahead alone (polls + 1) (Job.poll s.store ⟨.pending task, made⟩).1) :
    Answered alone polls made name (s.perform cell g context (.poll name)) := by
  rw [Job.poll_pending] at ahead
  simp only [perform, found]
  cases hprogress : (s.store.poll task).2.1 with
  | pending task' =>
    rw [hprogress] at ahead
    cases ahead with
    | running pendings calls result =>
      refine ⟨?_, _, rfl, ?_⟩
      · rw [answerAfter, if_pos (by omega)]
      · dsimp only
        rw [Dict.get?_insert, if_pos rfl]
        exact .running (.running pendings calls result)
  | finished result =>
    rw [hprogress] at ahead
    generalize hcalls : made ++ (s.store.poll task).1 = calls at ahead
    cases ahead with
    | finished beyond =>
      refine ⟨?_, _, rfl, ?_⟩
      · rw [answerAfter, if_neg (by omega), if_pos (by omega)]
      · dsimp only
        rw [Dict.get?_erase, if_pos rfl]
        exact .gone beyond hcalls

/-- A poll of a task that stands as alone is answered as alone. -/
lemma Standing.poll (h : Standing alone polls made (s.tasks.get? name)) :
    Answered alone polls made name (s.perform cell g context (.poll name)) := by
  generalize found : s.tasks.get? name = task? at h
  cases h with
  | running h =>
    refine answered_of_ahead cell g context found ?_ (h.poll s.store)
    cases h with
    | running pendings _ _ => omega
  | gone beyond all =>
    simp only [perform, found]
    refine ⟨?_, [], rfl, ?_⟩
    · rw [answerAfter, if_neg (by omega), if_neg (by omega)]
    · dsimp only
      rw [found, List.append_nil]
      exact .gone (by omega) all

/-- After some polls and calls, the further polls have the answers and the notes that they would
have alone. -/
structure HeardAlone (alone : Course (Except Error Value)) (polls : Nat) (made : List Call)
    (heard : List (List String × Answer)) : Prop where
  answers : heard.map (·.2) = (List.range heard.length).map fun n => answerAfter alone (polls + n)
  notes : notesOf made ++ heard.flatMap (·.1) <+: notesOf alone.calls
  allNotes : alone.pendings < polls + heard.length →
    notesOf made ++ heard.flatMap (·.1) = notesOf alone.calls

/-- Where nothing is heard any more, the notes are some of those made alone, or all of them. -/
lemma Standing.heardAlone_nil {task? : Option Task} (h : Standing alone polls made task?) :
    HeardAlone alone polls made [] := by
  cases h with
  | running h =>
    cases h with
    | @running _ rest pendings calls _ =>
      refine ⟨rfl, ?_, fun beyond => ?_⟩
      · rw [← calls, notesOf_append, List.flatMap_nil, List.append_nil]
        exact List.prefix_append _ _
      · rw [List.length_nil] at beyond
        omega
  | gone _ all =>
    rw [all]
    refine ⟨rfl, ⟨[], ?_⟩, fun _ => List.append_nil _⟩
    rw [List.flatMap_nil, List.append_nil, List.append_nil]

/-- A poll that is answered as alone comes before polls of which this holds as well. -/
lemma Answered.heardAlone {first : Instruction} {rest : List Instruction}
    (asked : first.command.polls name = true) (found : s.finds first = true)
    (h : ∀ cell g context, Answered alone polls made name (s.perform cell g context (.poll name)))
    (later : ∀ {next : Session} {more : List Call},
      Standing alone (polls + 1) (made ++ more) (next.tasks.get? name) →
      HeardAlone alone (polls + 1) (made ++ more) (next.heard name rest)) :
    HeardAlone alone polls made (s.heard name (first :: rest)) := by
  obtain ⟨cell, g, carried⟩ := step_of_finds found
  obtain ⟨answer, more, notes, stands⟩ := h cell g first.context
  rw [← Command.eq_poll asked, ← carried] at answer notes stands
  obtain ⟨answers, within, all⟩ := later stands
  have split : s.heard name (first :: rest)
      = (notesOf more, answerAfter alone polls) :: (s.step first).2.2.heard name rest := by
    rw [heard, ← answer, ← notes]
    dsimp only
    rw [asked, found, Bool.and_self, if_pos rfl]
  rw [notesOf_append, List.append_assoc] at within all
  rw [split]
  refine ⟨?_, within, fun beyond => all ?_⟩
  · rw [List.map_cons, List.length_cons, List.range_succ_eq_map, List.map_cons, List.map_map,
      answers]
    refine congrArg _ (List.map_congr_left fun n _ => congrArg _ ?_)
    exact Nat.add_right_comm polls 1 n
  · rw [List.length_cons] at beyond
    omega

/-- A task that stands as alone is heard as alone, whatever comes between its polls. -/
lemma Standing.heardAlone (h : Standing alone polls made (s.tasks.get? name))
    {instructions : List Instruction} (kept : ∀ i ∈ instructions, i.command.starts name = false) :
    HeardAlone alone polls made (s.heard name instructions) := by
  -- How the task stands is the invariant, and only its own polls change it.
  induction instructions generalizing s polls made with
  | nil => exact h.heardAlone_nil
  | cons i rest ih =>
    rw [List.forall_mem_cons] at kept
    cases polled : i.command.polls name && s.finds i with
    | true =>
      obtain ⟨asked, found⟩ := Bool.and_eq_true_iff.1 polled
      exact Answered.heardAlone asked found (fun cell g context => h.poll cell g context)
        fun stands => ih stands kept.2
    | false =>
      have split : s.heard name (i :: rest) = (s.step i).2.2.heard name rest := by
        rw [heard]
        dsimp only
        rw [polled, if_neg Bool.false_ne_true]
      rw [split]
      refine ih ?_ kept.2
      cases asked : i.command.polls name with
      | false => rwa [get?_tasks_step kept.1 asked]
      | true =>
        rw [asked, Bool.true_and] at polled
        rwa [step_of_not_finds polled]

/-- A task that is neither started nor polled stays as it is. -/
lemma get?_tasks_run {instructions : List Instruction}
    (untouched : ∀ i ∈ instructions, i.command.starts name = false ∧ i.command.polls name = false) :
    (s.run instructions).2.tasks.get? name = s.tasks.get? name := by
  induction instructions generalizing s with
  | nil => rfl
  | cons i rest ih =>
    rw [List.forall_mem_cons] at untouched
    exact (ih untouched.2).trans (get?_tasks_step untouched.1.1 untouched.1.2)

/-- A task that has been started does what it would do alone from its first poll on, with the
grammar and the kept trees of that moment, whatever the session is told before, between and after
its polls, as long as no other task is started under its name. -/
theorem heard_isolated {request : Request} {context : Value}
    (waiting : s.tasks.get? name = some (.waiting request context)) {before : List Instruction}
    (untouched : ∀ i ∈ before, i.command.starts name = false ∧ i.command.polls name = false)
    {first : Instruction} (asked : first.command.polls name = true)
    (found : (s.run before).2.finds first = true) {rest : List Instruction}
    (kept : ∀ i ∈ rest, i.command.starts name = false) :
    let here := (s.run before).2
    let alone := here.store.alone request context
    let heard := here.heard name (first :: rest)
    heard.map (·.2) = (List.range heard.length).map (answerAfter alone) ∧
    heard.flatMap (·.1) <+: notesOf alone.calls ∧
    (alone.pendings < heard.length → heard.flatMap (·.1) = notesOf alone.calls) := by
  intro here alone heard
  have there : here.tasks.get? name = some (.waiting request context) :=
    (get?_tasks_run untouched).trans waiting
  have ahead := Job.ahead_poll_waiting here.store request context
  have all : HeardAlone alone 0 [] heard := by
    refine Answered.heardAlone asked found (fun cell g context' => ?_) fun stands =>
      stands.heardAlone kept
    exact answered_of_ahead cell g context' there (Nat.zero_le _) ahead
  obtain ⟨answers, notes, allNotes⟩ := all
  simp only [Nat.zero_add] at answers allNotes
  exact ⟨answers, notes, allNotes⟩

end Session

end Sift
