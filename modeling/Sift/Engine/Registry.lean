import Sift.Engine.World

/-!
# Engines, clones and saved grammars

An engine is made with a grammar, which may be a saved one, or as a clone of another engine, with
which it shares a cell. A change of a grammar works on a copy, which takes the place of the grammar
at the end of the change. Until then the cell holds the grammar from before the change, and no other
change of that cell begins.
-/

namespace Sift

/-- A world with its engines, the grammars saved in it, and the changes that are under way. -/
structure Registry where
  world : World
  /-- The cell of each engine. Engines are numbered in the order in which they were made. -/
  engines : List Nat
  /-- The saved grammars, in the order in which they were saved. -/
  snapshots : List Grammar
  /-- The copy of the grammar of a cell that is being changed. -/
  drafts : Nat → Option Grammar

/-- Something that is done with engines. In the course of a change, other things are done as
well. -/
inductive Move where
  /-- Make an engine with a grammar. -/
  | create (g : Grammar)
  /-- Make an engine with a saved grammar. -/
  | restore (snapshot : Nat)
  | clone (engine : Nat)
  /-- Save the current grammar. -/
  | save (engine : Nat)
  /-- Begin to change the grammar. -/
  | enter (engine : Nat)
  /-- Edit the copy that is being changed. -/
  | change (engine : Nat) (edit : Grammar → Grammar)
  /-- Come to the end of a change. -/
  | leave (engine : Nat)
  /-- Make, read or evaluate something. -/
  | use (event : Event)

def Event.isUse : Event → Bool
  | engine _ => false
  | configure _ _ => false
  | _ => true

namespace Registry

def empty : Registry := ⟨⟨.empty, []⟩, [], [], fun _ => none⟩

def grammar (r : Registry) (cell : Nat) : Grammar := r.world.store.grammar cell

/-- A new engine with a cell of its own. -/
def addEngine (r : Registry) (g : Grammar) : Registry :=
  { r with
    world := r.world.step (.engine g)
    engines := r.engines ++ [r.world.store.cells.length] }

/-- Begin, go on with or put an end to a change of a cell. -/
def setDraft (r : Registry) (cell : Nat) (draft : Option Grammar) : Registry :=
  { r with drafts := fun other => if other = cell then draft else r.drafts other }

/-- The copy takes the place of the grammar. -/
def publish (r : Registry) (cell : Nat) (draft : Grammar) : Registry :=
  { r with world := r.world.step (.configure cell fun _ => draft) }.setDraft cell none

/-- The registry after a move, if it can be made: what it is about has to be there, and a cell is
changed by one at a time. -/
def step (r : Registry) : Move → Option Registry
  | .create g => some (r.addEngine g)
  | .restore n => r.snapshots[n]?.map r.addEngine
  | .clone engine => do
    let cell ← r.engines[engine]?
    return { r with engines := r.engines ++ [cell] }
  | .save engine => do
    let cell ← r.engines[engine]?
    return { r with snapshots := r.snapshots ++ [r.grammar cell] }
  | .enter engine => do
    let cell ← r.engines[engine]?
    match r.drafts cell with
    | some _ => none
    | none => some (r.setDraft cell (some (r.grammar cell)))
  | .change engine edit => do
    let cell ← r.engines[engine]?
    let draft ← r.drafts cell
    return r.setDraft cell (some (edit draft))
  | .leave engine => do
    let cell ← r.engines[engine]?
    let draft ← r.drafts cell
    return r.publish cell draft
  | .use event => if event.isUse then some { r with world := r.world.step event } else none

/-- The registry after moves one after the other, if all of them can be made. -/
def run (r : Registry) : List Move → Option Registry
  | [] => some r
  | move :: rest => r.step move >>= fun r => r.run rest

end Registry

end Sift
