import Mathlib.Tactic.Lemma
import Sift.Evaluation.Process

/-!
# Polling

A process is driven by polling it until it is ready. What this shows from outside is its course: how
often it was pending, the calls made on the way, and the result. These are the pauses, the calls and
the result of the process.
-/

namespace Sift

variable {α β : Type}

/-- What is seen of something that is polled until it is ready. -/
structure Course (ρ : Type) where
  pendings : Nat
  calls : List Call
  result : ρ

namespace Process

/-! ### One poll -/

/-- A process that is ready at a poll has made its calls and does not pause. -/
lemma of_poll_ready {p : Process α} {made : List Call} {result : Except EvalError α}
    (h : p.poll = (made, .ready result)) :
    p.pauses = 0 ∧ p.calls = made ∧ p.result = result := by
  induction p generalizing made with
  | done result' =>
    cases h
    exact ⟨rfl, rfl, rfl⟩
  | pause rest => cases h
  | call c rest ih =>
    cases hrest : rest.poll with
    | mk made' polled =>
      rw [poll, hrest] at h
      cases h
      obtain ⟨pauses, rfl, result⟩ := ih hrest
      exact ⟨pauses, rfl, result⟩

/-- A process that is pending at a poll has passed one pause. -/
lemma of_poll_pending {p rest : Process α} {made : List Call} (h : p.poll = (made, .pending rest)) :
    p.pauses = rest.pauses + 1 ∧ p.calls = made ++ rest.calls ∧ p.result = rest.result := by
  induction p generalizing made with
  | done result => cases h
  | pause rest' =>
    cases h
    exact ⟨rfl, rfl, rfl⟩
  | call c rest' ih =>
    cases hrest : rest'.poll with
    | mk made' polled =>
      rw [poll, hrest] at h
      cases h
      obtain ⟨pauses, calls, result⟩ := ih hrest
      exact ⟨pauses, congrArg (c :: ·) calls, result⟩

/-! ### Polls until the result is there -/

/-- What polling a process shows, until it is ready. -/
def course (p : Process α) : Course (Except EvalError α) :=
  match polled : p.poll with
  | (made, .ready result) => ⟨0, made, result⟩
  | (made, .pending rest) =>
    have : rest.pauses < p.pauses := by
      rw [(of_poll_pending polled).1]
      exact Nat.lt_succ_self _
    let later := rest.course
    ⟨later.pendings + 1, made ++ later.calls, later.result⟩
termination_by p.pauses

/-- A process that is ready at the first poll shows its calls and its result. -/
lemma course_of_ready {p : Process α} {made : List Call} {result : Except EvalError α}
    (h : p.poll = (made, .ready result)) : p.course = ⟨0, made, result⟩ := by
  rw [course]
  split <;> simp_all

/-- A process that is pending at the first poll shows one more poll than its rest. -/
lemma course_of_pending {p rest : Process α} {made : List Call}
    (h : p.poll = (made, .pending rest)) :
    p.course
      = ⟨rest.course.pendings + 1, made ++ rest.course.calls, rest.course.result⟩ := by
  rw [course]
  split <;> simp_all

/-- Polling shows the pauses, the calls and the result of a process. -/
theorem course_eq (p : Process α) : p.course = ⟨p.pauses, p.calls, p.result⟩ := by
  induction p using course.induct with
  | case1 p made result polled =>
    obtain ⟨pauses, calls, result⟩ := of_poll_ready polled
    rw [course_of_ready polled, pauses, calls, result]
  | case2 p made rest polled smaller ih =>
    obtain ⟨pauses, calls, result⟩ := of_poll_pending polled
    rw [course_of_pending polled, ih, pauses, calls, result]

/-! ### Without waiting -/

@[simp] lemma now_done (result : Except EvalError α) : (done result).now = ([], result) := rfl

@[simp] lemma now_pause (rest : Process α) : (pause rest).now = ([], .error .wouldBlock) := rfl

@[simp] lemma now_call (c : Call) (rest : Process α) :
    (call c rest).now = (c :: rest.now.1, rest.now.2) := by
  rw [now, now, poll]
  cases rest.poll with
  | mk made polled => cases polled <;> rfl

/-- A process that gives a value without waiting, and another one after it. -/
lemma now_bind_eq_ok {p : Process α} {a : α} {f : α → Process β} {b : β} (h : p.now.2 = .ok a)
    (hf : (f a).now.2 = .ok b) : (p >>= f).now.2 = .ok b := by
  induction p with
  | done result =>
    obtain rfl : result = .ok a := h
    exact hf
  | pause rest => cases h
  | call c rest ih =>
    rw [now_call] at h
    have later : call c rest >>= f = call c (rest >>= f) := rfl
    rw [later, now_call]
    exact ih h

/-! ### Pauses in a row -/

section

variable (n : Nat) (p : Process α)

@[simp] lemma calls_pauseFor : (pauseFor n p).calls = p.calls := by
  induction n with
  | zero => rfl
  | succ n ih => exact ih

@[simp] lemma pauses_pauseFor : (pauseFor n p).pauses = n + p.pauses := by
  induction n with
  | zero => exact (Nat.zero_add _).symm
  | succ n ih =>
    rw [pauseFor, pauses, ih]
    omega

@[simp] lemma result_pauseFor : (pauseFor n p).result = p.result := by
  induction n with
  | zero => rfl
  | succ n ih => exact ih

/-- Without waiting, only pauses of no length are got over. -/
lemma now_pauseFor : (pauseFor n p).now = if n = 0 then p.now else ([], .error .wouldBlock) := by
  cases n with
  | zero => rfl
  | succ n => rfl

lemma pauseFor_andThen (next : Except EvalError α → Process β) :
    (pauseFor n p).andThen next = pauseFor n (p.andThen next) := by
  induction n with
  | zero => rfl
  | succ n ih => exact congrArg pause ih

end

end Process

end Sift
