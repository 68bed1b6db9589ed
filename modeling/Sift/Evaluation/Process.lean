import Sift.Evaluation.Outcome

/-!
# Processes

An evaluation that calls callables and waits for their answers, step by step. `Process.poll` runs a
process to its next pause; its calls, its pauses and its result are read off by `calls`, `pauses`
and `result`. Processes are a lawful monad, in which calls and pauses keep their order.
-/

namespace Sift

variable {α β γ : Type}

/-- What is called. -/
inductive Callee where
  | unary (symbol : String)
  | binary (symbol : String)
  | function (name : String)
  | transform (name : String)
deriving DecidableEq, Inhabited

/-- A call with its answer. The subject of a transform is its first argument. -/
structure Call where
  callee : Callee
  arguments : List Value
  reply : Reply

/-- A computation of calls and pauses that ends in a result. -/
inductive Process (α : Type) where
  | done (result : Except EvalError α)
  | call (c : Call) (rest : Process α)
  | pause (rest : Process α)

namespace Process

/-- Go on with the result of a process, whatever it is. -/
def andThen : Process α → (Except EvalError α → Process β) → Process β
  | done result, next => next result
  | call c rest, next => call c (rest.andThen next)
  | pause rest, next => pause (rest.andThen next)

/-- Go on with the value of a process. A failure is the result of the whole. -/
def bind (p : Process α) (next : α → Process β) : Process β :=
  p.andThen fun
    | .ok a => next a
    | .error e => done (.error e)

instance : Monad Process where
  pure a := done (.ok a)
  bind := bind

/-- Pause a number of times. -/
def pauseFor : Nat → Process α → Process α
  | 0, p => p
  | n + 1, p => pause (pauseFor n p)

/-- A call, and the wait for its answer. -/
def invoke (callee : Callee) (arguments : List Value) (reply : Reply) : Process Value :=
  call ⟨callee, arguments, reply⟩ (pauseFor reply.deferred.polls (done reply.deferred.outcome))

/-- The elements that pass a test, which is done on one element after the other. -/
def filter (test : α → Process Bool) : List α → Process (List α)
  | [] => pure []
  | a :: rest => do
    let keep ← test a
    let kept ← filter test rest
    return if keep then a :: kept else kept

/-! ### Views -/

def calls : Process α → List Call
  | done _ => []
  | call c rest => c :: rest.calls
  | pause rest => rest.calls

def pauses : Process α → Nat
  | done _ => 0
  | call _ rest => rest.pauses
  | pause rest => rest.pauses + 1

def result : Process α → Except EvalError α
  | done result => result
  | call _ rest => rest.result
  | pause rest => rest.result

section

variable (p : Process α) (next : Except EvalError α → Process β)

@[simp] theorem result_andThen : (p.andThen next).result = (next p.result).result := by
  induction p with simp_all [andThen, result]

theorem andThen_done : p.andThen done = p := by
  induction p with simp_all [andThen]

/-- Going on is associative. -/
theorem andThen_andThen (last : Except EvalError β → Process γ) :
    (p.andThen next).andThen last = p.andThen fun r => (next r).andThen last := by
  induction p with simp_all [andThen]

end

instance : LawfulMonad Process :=
  have bind_pure (α : Type) (p : Process α) : p.bind pure = p := by
    have h : (fun | .ok a => pure a | .error e => done (.error e)) = (done : _ → Process α) := by
      funext r
      cases r <;> rfl
    exact (congrArg p.andThen h).trans p.andThen_done
  have bind_assoc (α β γ : Type) (p : Process α) (next : α → Process β) (last : β → Process γ) :
      (p.bind next).bind last = p.bind fun a => (next a).bind last := by
    refine (andThen_andThen p _ _).trans (congrArg p.andThen ?_)
    funext r
    cases r <;> rfl
  .mk' Process (bind_pure _) (fun _ _ => rfl) (bind_assoc _ _ _)

/-! ### Running -/

/-- What a poll finds: the process at its pause, or its result. -/
inductive Polled (α : Type) where
  | pending (rest : Process α)
  | ready (result : Except EvalError α)

/-- Run up to the next pause. Also the calls made on the way. -/
def poll : Process α → List Call × Polled α
  | done result => ([], .ready result)
  | pause rest => ([], .pending rest)
  | call c rest =>
    let (made, polled) := rest.poll
    (c :: made, polled)

/-- Run without waiting. A pause is an error. Also the calls made on the way. -/
def now (p : Process α) : List Call × Except EvalError α :=
  match p.poll with
  | (made, .ready result) => (made, result)
  | (made, .pending _) => (made, .error .wouldBlock)

end Process

def notesOf (made : List Call) : List String := made.flatMap fun c => c.reply.notes

end Sift
