import Sift.Grammar.Standard
import Sift.Proofs.Engine.Isolation

/-!
# Expressions keep their tree

An expression is read whenever it is needed and has no tree yet: to compile it, to evaluate it, or
at the first poll of a task. The first time that this succeeds, the tree is kept. Nothing else about
an expression changes, in every order of events.
-/

namespace Sift

def Expression.read (e : Expression) (g : Grammar) : Expression :=
  { e with tree := e.tree.or (Template.compile g e.fragments).toOption }

/-- Attempts to read an expression keep the tree of the first one that succeeds. -/
lemma Expression.foldl_read (e : Expression) (attempts : List Grammar) :
    attempts.foldl read e = { e with
      tree := e.tree.or
        (attempts.findSome? fun g => (Template.compile g e.fragments).toOption) } := by
  induction attempts generalizing e with
  | nil => cases e; simp
  | cons g rest ih =>
    rw [List.foldl_cons, ih, List.findSome?_cons]
    cases htree : e.tree <;> cases hcompile : Template.compile g e.fragments <;>
      simp [read, htree, hcompile, Except.toOption]

def Request.expression? : Request → Option Nat
  | source _ _ => none
  | expression id => some id

/-- What a job is to evaluate that has not begun yet. -/
def Job.request? (job : Job) : Option Request :=
  match job.progress with
  | .pending (.waiting request _) => some request
  | _ => none

/-! ### What is read -/

namespace Store

variable {s : Store} {id : Nat} {e : Expression}

lemma expression_eq (h : s.expressions[id]? = some e) : s.expression id = e := by
  rw [expression, List.getD_eq_getElem?_getD, h, Option.getD_some]

/-- Reading an expression keeps its tree, and no other one. -/
lemma expressions_compile (h : s.expressions[id]? = some e) (other : Nat) :
    (s.compile other).2.expressions[id]?
      = some (if other = id then e.read (s.grammar e.cell) else e) := by
  by_cases same : other = id
  · subst same
    rw [if_pos rfl, Expression.read, compile, expression_eq h]
    obtain ⟨fragments, cell, tree | tree⟩ := e
    · cases Template.compile (s.grammar cell) fragments with
      | error error => exact h
      | ok tree => exact List.getElem?_set_self (List.getElem?_eq_some_iff.1 h).1
    · exact h
  · rw [if_neg same, compile]
    split
    · exact h
    · split
      · simpa only [List.getElem?_set_ne same] using h
      · exact h

@[simp] lemma cells_compile (id : Nat) : (s.compile id).2.cells = s.cells := by
  simp only [compile]
  split
  · rfl
  · split <;> rfl

/-- What an expression is read as: the tree that it has kept, or else what its pieces spell. -/
lemma compile_eq (h : s.expressions[id]? = some e) :
    (s.compile id).1 = e.tree.elim (Template.compile (s.grammar e.cell) e.fragments) .ok := by
  simp only [compile, expression_eq h]
  cases e.tree with
  | some tree => rfl
  | none => cases Template.compile (s.grammar e.cell) e.fragments <;> rfl

/-- Reading that fails leaves nothing behind. -/
lemma compile_snd_of_error {error : Error} (h : (s.compile id).1 = .error error) :
    (s.compile id).2 = s := by
  simp only [compile] at h ⊢
  split at h
  · cases h
  · split at h
    · cases h
    · rfl

/-- Reading an expression gives the tree that an evaluation of it takes. -/
lemma treeOf_expression (id : Nat) : s.treeOf (.expression id) = (s.compile id).1 := by
  simp only [treeOf, compile]
  cases (s.expression id).tree with
  | some tree => rfl
  | none => cases Template.compile _ _ <;> rfl

/-- The store after reading an expression, if there is one to be read. -/
def reading (s : Store) (id? : Option Nat) : Store := id?.elim s fun id => (s.compile id).2

/-- Beginning an evaluation does nothing to the store but to read its expression. -/
lemma begin_snd (request : Request) (context : Value) :
    (s.begin request context).2 = s.reading request.expression? := by
  cases request <;> rfl

/-- Evaluating without waiting does nothing to the store but to read the expression. -/
lemma evaluate_snd (request : Request) (context : Value) :
    (s.evaluate request context).2.2 = s.reading request.expression? := by
  rw [← begin_snd request context, evaluate]
  rcases s.begin request context with ⟨_ | _, _⟩ <;> rfl

lemma poll_waiting_snd (request : Request) (context : Value) :
    (s.poll (.waiting request context)).2.2 = s.reading request.expression? := by
  rw [← begin_snd request context, poll]
  rcases s.begin request context with ⟨_ | _, _⟩ <;> rfl

/-- An evaluation is that of the tree that is kept or read, under the current grammar. -/
lemma evaluate_expression (h : s.expressions[id]? = some e) (context : Value) :
    s.evaluate (.expression id) context = match (s.compile id).1 with
      | .ok tree =>
        let p := tree.evaluate (s.grammar e.cell) context
        (p.now.1, p.now.2.mapError .eval, (s.compile id).2)
      | .error error => ([], .error error, (s.compile id).2) := by
  have grammar : (s.compile id).2.grammar ((s.compile id).2.expression id).cell
      = s.grammar e.cell := by
    rw [expression_eq (expressions_compile h id), if_pos rfl, Expression.read, Store.grammar,
      Store.grammar, cells_compile]
  rw [evaluate, begin]
  rcases hcompile : s.compile id with ⟨tree | error, s'⟩
  · rfl
  · rw [hcompile] at grammar
    simp only [Except.map, grammar]

end Store

/-- A poll does nothing to the store but to read the expression of a job that has not begun. -/
lemma Job.poll_snd (job : Job) (s : Store) :
    (job.poll s).2 = s.reading (job.request? >>= Request.expression?) := by
  obtain ⟨progress, calls⟩ := job
  cases progress with
  | finished result => rfl
  | pending task =>
    cases task with
    | waiting request context => exact Store.poll_waiting_snd request context
    | running rest => rfl

/-! ### Runs -/

namespace World

variable {w : World} {id : Nat} {e : Expression}

/-- The expression that is read at an event, unless its tree has been kept. -/
def reads (w : World) : Event → Option Nat
  | .compile id => some id
  | .evaluate request _ => request.expression?
  | .poll number => w.jobs[number]? >>= Job.request? >>= Request.expression?
  | _ => none

/-- Apart from new engines, new expressions and changes of grammars, an event only reads. -/
lemma store_step (event : Event) : (w.step event).store = match event with
    | .engine g => (w.store.newCell g).2
    | .configure cell change => w.store.configure cell change
    | .create fragments cell => (w.store.newExpression { fragments, cell }).2
    | event => w.store.reading (w.reads event) := by
  cases event with
  | evaluate request context => exact Store.evaluate_snd request context
  | poll number =>
    simp only [reads]
    rcases hjob : w.jobs[number]? with _ | job
    · simp only [step, hjob]
      rfl
    · rw [step_poll_of_some hjob]
      exact job.poll_snd w.store
  | _ => rfl

/-- Only a change of a grammar changes the cells. -/
lemma cells_step (event : Event) : (w.step event).store.cells = match event with
    | .engine g => w.store.cells ++ [g]
    | .configure cell change => w.store.cells.modify cell change
    | _ => w.store.cells := by
  have reading (id? : Option Nat) : (w.store.reading id?).cells = w.store.cells := by
    cases id? with
    | none => rfl
    | some id => exact Store.cells_compile id
  rw [store_step]
  cases event with
  | engine g | configure cell change | create fragments cell => rfl
  | _ => exact reading _

/-- An event may read an expression, and does nothing else to it. -/
lemma expressions_step (h : w.store.expressions[id]? = some e) (event : Event) :
    (w.step event).store.expressions[id]?
      = some (if w.reads event = some id then e.read (w.store.grammar e.cell) else e) := by
  have reading (id? : Option Nat) : (w.store.reading id?).expressions[id]?
      = some (if id? = some id then e.read (w.store.grammar e.cell) else e) := by
    cases id? with
    | none => exact h
    | some other => simpa [Store.reading] using Store.expressions_compile h other
  rw [store_step]
  cases event with
  | engine g | configure cell change => exact h
  | create fragments cell =>
    exact (List.getElem?_append_left (List.getElem?_eq_some_iff.1 h).1).trans h
  | _ => exact reading _

/-- The grammars that are current where an expression is read in the course of events. -/
def attempts (id : Nat) : World → List Event → List Grammar
  | _, [] => []
  | w, event :: rest =>
    if w.reads event = some id then
      w.store.grammar (w.store.expression id).cell :: attempts id (w.step event) rest
    else attempts id (w.step event) rest

/-- A run keeps an expression, apart from the tree that it tries to read whenever there is none. -/
lemma expressions_run (h : w.store.expressions[id]? = some e) (events : List Event) :
    (w.run events).store.expressions[id]? = some ((w.attempts id events).foldl .read e) := by
  induction events generalizing w e with
  | nil => exact h
  | cons event rest ih =>
    have next := ih (expressions_step h event)
    rw [attempts]
    split
    · rename_i reads
      rw [if_pos reads] at next
      rwa [Store.expression_eq h]
    · rename_i reads
      rwa [if_neg reads] at next

/-- A task that is polled for the first time goes on as its evaluation alone. -/
lemma run_poll_waiting {number : Nat} {request : Request} {context : Value}
    (h : w.jobs[number]? = some ⟨.pending (.waiting request context), []⟩) (after : List Event) :
    ∃ job, (w.run (.poll number :: after)).jobs[number]? = some job ∧
      job.Follows (w.store.alone request context) (1 + after.countP (·.polls number)) := by
  have polled := step_of_polls (e := .poll number) (by simp [Event.polls]) h
  obtain ⟨job, hjob, ahead⟩ :=
    run_ahead after polled (Job.ahead_poll_waiting w.store request context)
  exact ⟨job, hjob, ahead.follows⟩

/-- Every evaluation of an expression that begins now, at once or as a task, is that of a tree
under a grammar. -/
structure Evaluates (w : World) (id : Nat) (tree : Expr) (g : Grammar) : Prop where
  atOnce : ∀ context, w.store.evaluate (.expression id) context =
    ((tree.evaluate g context).now.1, (tree.evaluate g context).now.2.mapError .eval,
      (w.store.compile id).2)
  task : ∀ context number,
    w.jobs[number]? = some ⟨.pending (.waiting (.expression id) context), []⟩ →
    ∀ after, ∃ job, (w.run (.poll number :: after)).jobs[number]? = some job ∧
      job.Follows
        ⟨(tree.evaluate g context).pauses, (tree.evaluate g context).calls,
          (tree.evaluate g context).result.mapError .eval⟩
        (1 + after.countP (·.polls number))

/-- Whoever evaluates an expression takes the tree that reading it gives. -/
lemma evaluates_of_compile (h : w.store.expressions[id]? = some e) {tree : Expr}
    (read : (w.store.compile id).1 = .ok tree) :
    w.Evaluates id tree (w.store.grammar e.cell) where
  atOnce context := by rw [Store.evaluate_expression h, read]
  task context number waiting after := by
    have alone := w.store.alone_of_tree ((Store.treeOf_expression id).trans read) context
    rw [Store.grammarOf, Store.cellOf, Store.expression_eq h] at alone
    exact alone ▸ run_poll_waiting waiting after

/-- An expression keeps its pieces and the tree of the first time that reading them succeeds, in the
course of whatever events. As long as it fails, nothing is left behind, and the next attempt is one
with the same pieces and the grammar that is then current. Once it has succeeded, reading gives that
tree ever after, and evaluations are those of the tree under the grammar that is current when they
begin. -/
theorem run_keeps (h : w.store.expressions[id]? = some e) (events : List Event) :
    let later := w.run events
    let g := later.store.grammar e.cell
    let kept := e.tree.or
      ((w.attempts id events).findSome? fun g => (Template.compile g e.fragments).toOption)
    let read := kept.elim (Template.compile g e.fragments) .ok
    later.store.expressions[id]? = some { e with tree := kept } ∧
      (later.store.compile id).1 = read ∧
      (∀ error, read = .error error →
        (later.store.compile id).2 = later.store ∧ ∀ context,
          later.store.evaluate (.expression id) context = ([], .error error, later.store)) ∧
      ∀ tree, read = .ok tree →
        later.Evaluates id tree g ∧
        ∀ event more, later.reads event = some id →
          (((later.step event).run more).store.compile id).1 = .ok tree := by
  intro later g kept read
  have now : later.store.expressions[id]? = some { e with tree := kept } :=
    (expressions_run h events).trans (congrArg some (e.foldl_read _))
  have hread : (later.store.compile id).1 = read := Store.compile_eq now
  refine ⟨now, hread, fun error failed => ?_, fun tree succeeded => ⟨?_, ?_⟩⟩
  · have unchanged := Store.compile_snd_of_error (hread.trans failed)
    refine ⟨unchanged, fun context => ?_⟩
    rw [Store.evaluate_expression now, hread, failed, unchanged]
  · exact evaluates_of_compile now (hread.trans succeeded)
  · intro event more reads
    have next := expressions_run (expressions_step now event) more
    rw [if_pos reads, Expression.foldl_read] at next
    have keeps : (kept.or (Template.compile g e.fragments).toOption) = some tree := by
      cases hkept : kept with
      | some tree' =>
        simp only [read, hkept, Option.elim, Except.ok.injEq] at succeeded
        rw [succeeded, Option.some_or]
      | none =>
        simp only [read, hkept, Option.elim] at succeeded
        rw [succeeded]
        rfl
    rw [Store.compile_eq next]
    simp only [Expression.read, g, later] at keeps ⊢
    rw [keeps]
    rfl

def orEdit : Edit := .binary "or" (.immediate 10 fun v w => .ok (if v.isTruthy then v else w))

def orFragments : List Fragment := [.value (.integer 0), .source "or", .value (.integer 1)]

def orWorld (g : Grammar) (tree : Option Expr) : World := ⟨⟨[g], [⟨orFragments, 0, tree⟩]⟩, []⟩

/-- Between two values, the word is read as the operator. -/
lemma tokensAfter_orEdit :
    tokensAfter (Grammar.empty.edit orEdit) [⟨.literal (.integer 0), "", 0⟩] "or" 0
      = ([⟨.literal (.integer 0), "", 0⟩, ⟨.operator .binary "or", "or", 0⟩], none) := by
  have scans : Scans (Grammar.empty.edit orEdit) false false 'o' ['r']
      (.operator .binary "or") 2 := .word rfl rfl
  have reads : Lexer.Reads (Grammar.empty.edit orEdit) ⟨['o', 'r'], 0, false, false⟩
      [⟨.operator .binary "or", "or", 0⟩] :=
    @Lexer.Reads.step _ _ 'o' ['r'] _ 2 [] rfl scans (.stop rfl)
  exact tokensAfter_eq_none_iff.2 ⟨_, rfl, reads⟩

set_option maxRecDepth 8000 in
/-- An expression is compiled in vain, evaluated once its operator is there, and compiled again
after the operator has been removed. -/
theorem run_keeps_orWorld :
    let tree := Expr.binary "or" (.literal (.integer 0)) (.literal (.integer 1))
    let events := [Event.compile 0, .configure 0 fun g => g.edit orEdit,
      .evaluate (.expression 0) .null, .configure 0 fun _ => .empty]
    let later := (orWorld .empty none).run events
    (orWorld .empty none).store.expressions[0]? = some ⟨orFragments, 0, none⟩ ∧
      (∃ error, Template.compile .empty orFragments = .error error) ∧
      later.store.expressions[0]? = some ⟨orFragments, 0, some tree⟩ ∧
      later.Evaluates 0 tree .empty ∧
      (((later.step (.compile 0)).run []).store.compile 0).1 = .ok tree := by
  intro tree events later
  have here : (orWorld .empty none).store.expressions[0]? = some ⟨orFragments, 0, none⟩ := rfl
  have unknown : Template.tokens .empty [] 0 orFragments
      = .ok [⟨.literal (.integer 0), "", 0⟩, ⟨.identifier "or", "or", 0⟩,
        ⟨.literal (.integer 1), "", 2⟩, ⟨.endOfInput, "", 2⟩] := by
    cbv
  have known : Template.tokens (Grammar.empty.edit orEdit) [] 0 orFragments
      = .ok [⟨.literal (.integer 0), "", 0⟩, ⟨.operator .binary "or", "or", 0⟩,
        ⟨.literal (.integer 1), "", 2⟩, ⟨.endOfInput, "", 2⟩] := by
    simp only [orFragments, Template.tokens, List.nil_append, tokensAfter_orEdit]
    rfl
  obtain ⟨error, fails⟩ : ∃ error, Template.compile .empty orFragments = .error error :=
    ⟨_, (Template.compile_of_ok unknown).trans rfl⟩
  have succeeds : Template.compile (Grammar.empty.edit orEdit) orFragments = .ok tree :=
    (Template.compile_of_ok known).trans rfl
  have compiled : (orWorld .empty none).step (.compile 0) = orWorld .empty none := by
    simp [step, orWorld, Store.compile, Store.expression, Store.grammar, fails]
  have attempts : (orWorld .empty none).attempts 0 events
      = [.empty, Grammar.empty.edit orEdit] := by
    simp only [events, World.attempts, reads, Request.expression?, compiled]
    rfl
  have changed : later.store.grammar 0 = .empty := by
    simp only [later, events, run, List.foldl_cons, List.foldl_nil, Store.grammar, cells_step]
    rfl
  obtain ⟨now, -, -, succeeded⟩ := run_keeps here events
  rw [attempts] at now succeeded
  simp only [List.findSome?_cons, fails, succeeds, Except.toOption] at now succeeded
  have reads : later.reads (.compile 0) = some 0 := rfl
  obtain ⟨evaluates, again⟩ := succeeded tree rfl
  exact ⟨here, ⟨error, fails⟩, now, changed ▸ evaluates, again _ [] reads⟩

end World

end Sift
