import Sift.Engine.Store

/-!
# Worlds

A world is a store with the tasks that have been started. Events happen in it one after the other:
engines and expressions come into being, grammars change, things are evaluated, and tasks are
started and polled, in any order.

A poll looks at the store only before its first call. So what a callable does to the store while it
is polled is an event after the poll, and what is done inside a change of a grammar, which is not
yet seen there, is an event before the change.
-/

namespace Sift

/-- A task that has been started, with the calls that it has made so far. -/
structure Job where
  progress : Progress
  calls : List Call := []

/-- A store and what is under way. Jobs are numbered in the order in which they were started. -/
structure World where
  store : Store
  jobs : List Job

/-- Something that happens. -/
inductive Event where
  | engine (g : Grammar)
  | configure (cell : Nat) (change : Grammar → Grammar)
  | create (fragments : List Fragment) (cell : Nat)
  | compile (id : Nat)
  | evaluate (request : Request) (context : Value)
  | start (request : Request) (context : Value)
  | poll (job : Nat)

def Event.polls (job : Nat) : Event → Bool
  | poll other => other == job
  | _ => false

/-- Poll a job, unless it is finished. -/
def Job.poll (s : Store) (job : Job) : Job × Store :=
  match job.progress with
  | .pending task =>
    let (made, progress, s) := s.poll task
    (⟨progress, job.calls ++ made⟩, s)
  | .finished _ => (job, s)

namespace World

/-- The world after an event. -/
def step (w : World) : Event → World
  | .engine g => { w with store := (w.store.newCell g).2 }
  | .configure cell change => { w with store := w.store.configure cell change }
  | .create fragments cell => { w with store := (w.store.newExpression { fragments, cell }).2 }
  | .compile id => { w with store := (w.store.compile id).2 }
  | .evaluate request context => { w with store := (w.store.evaluate request context).2.2 }
  | .start request context =>
    { w with jobs := w.jobs ++ [⟨.pending (.waiting request context), []⟩] }
  | .poll number =>
    match w.jobs[number]? with
    | some job =>
      let (job, store) := job.poll w.store
      ⟨store, w.jobs.set number job⟩
    | none => w

/-- The world after events one after the other. -/
def run (w : World) (events : List Event) : World := events.foldl step w

end World

end Sift
