import IncidentMemory.Simulation.World

/-!
# Tasks side by side

Tasks take turns: one goes on until it ends or really has to wait, then the next one that is ready.
A task that waits and watches the token looks at the token first when it goes on.
-/

namespace IncidentMemory.Simulation

/-- **A task**: what is left of its routine. -/
structure Task (α : Type) where
  /-- Who it is. -/
  id : TaskId
  /-- What is left to do. -/
  routine : Routine α
  /-- Whether it waits for the call that its routine begins with. -/
  waiting : Bool := false

/-- A task whose result is turned into another. -/
def Task.map {α β : Type} (f : α → β) (t : Task α) : Task β where
  id := t.id
  routine := f <$> t.routine
  waiting := t.waiting

/-- How far a task came in its turn. -/
inductive Turn (α : Type) where
  /-- It has ended. -/
  | ended (result : Attempt α)
  /-- It waits for the call that the rest of its routine begins with. -/
  | waits (rest : Routine α)

namespace World

variable {α : Type}

/-- **Lets a task go on** until it ends or has to wait. -/
def advance (w : World) (t : TaskId) : Routine α → World × Turn α
  | .done a => (w, .ended (.done a))
  | .brokenOff text => (w, .ended (.brokenOff text))
  | .act a next =>
    let (w', r) := w.act a
    w'.advance t (next r)
  | .call c next =>
    match w.attempt t c with
    | (w', .ended r) => w'.advance t (next r)
    | (w', .waits) => (w', .waits (.call c next))
    | (w', .stops) => (w'.fire, .waits (.call c next))
  | .watch c next stopped =>
    match w.attempt t c with
    | (w', .ended r) => w'.advance t (next r)
    | (w', .waits) => (w'.watch t, .waits (.watch c next stopped))
    | (w', .stops) => ((w'.watch t).fire, .waits (.watch c next stopped))

/-- **Lets a task go on** that has waited for the call its routine begins with. -/
def resume (w : World) (t : TaskId) : Routine α → World × Turn α
  | .call c next =>
    match w.retry t c with
    | (w', .ended r) => w'.advance t (next r)
    | (w', _) => (w', .waits (.call c next))
  | .watch c next stopped =>
    let w := w.unwatch t
    if w.stopping then (w.giveUp t c).advance t stopped
    else
      match w.retry t c with
      | (w', .ended r) => w'.advance t (next r)
      | (w', _) => (w'.watch t, .waits (.watch c next stopped))
  | r => w.advance t r

end World

/-- How a task ended. -/
inductive Ending (α : Type) where
  /-- With a result. -/
  | result (a : α)
  /-- It broke off. -/
  | brokenOff (text : String)
  /-- It was aborted. -/
  | aborted

/-- **Tasks in a world.** -/
structure Schedule (α : Type) where
  /-- The world. -/
  world : World
  /-- The tasks that have not ended. -/
  tasks : List (Task α)
  /-- The tasks that have ended, in order, and how. -/
  endings : List (TaskId × Ending α) := []

namespace Schedule

variable {α : Type}

/-- A world with the tasks of the background, none of which has been started. -/
def idle (world : World) (background : BackgroundTask → Routine α) : Schedule α where
  world
  tasks := [.worker, .supervisor].map fun task =>
    { id := .background task, routine := background task }

/-- A task that has not ended. -/
def find? (s : Schedule α) (t : TaskId) : Option (Task α) :=
  s.tasks.find? (·.id = t)

/-- The schedule without a task, which has ended. -/
def finish (s : Schedule α) (t : TaskId) (e : Ending α) : Schedule α where
  world := s.world.leave t
  tasks := s.tasks.filter (·.id ≠ t)
  endings := s.endings ++ [(t, e)]

/-- The schedule after a turn of a task. -/
def settle (s : Schedule α) (t : TaskId) : World × Turn α → Schedule α
  | (w, .ended (.done a)) => { s with world := w }.finish t (.result a)
  | (w, .ended (.brokenOff text)) => { s with world := w }.finish t (.brokenOff text)
  | (w, .waits rest) =>
    { s with world := w, tasks := s.tasks.map fun task =>
        if task.id = t then ⟨t, rest, true⟩ else task }

/-- **The turn of the task** that has been ready longest. -/
def turn (s : Schedule α) (t : TaskId) : Schedule α :=
  match s.find? t with
  | none => s
  | some task =>
    s.settle t (if task.waiting then s.world.resume t task.routine
      else s.world.advance t task.routine)

/-- Lets up to `most` turns be taken. -/
def runFor : (most : Nat) → Schedule α → Schedule α
  | 0, s => s
  | most + 1, s =>
    match s.world.ready with
    | [] => s
    | t :: ts => runFor most ({ s with world := { s.world with ready := ts } }.turn t)

/-- How many turns tasks can need: each is made ready by its start, by a slot, by an item, by the
end of another or by the token, and each of these happens at most once for every task. -/
def turns (s : Schedule α) : Nat :=
  8 * (s.tasks.length + s.world.buffer.queue.length + 8)

/-- **Lets all tasks go on** until each has ended or waits. -/
def run (s : Schedule α) : Schedule α :=
  runFor s.turns s

/-- Begins a task. -/
def start (s : Schedule α) (t : TaskId) (r : Routine α) : Schedule α :=
  { s with world := s.world.wake t, tasks := s.tasks ++ [{ id := t, routine := r }] }

/-- Aborts a task, and says whether it was there. -/
def abort (s : Schedule α) (t : TaskId) : Schedule α × Bool :=
  match s.find? t with
  | none => (s, false)
  | some _ => (s.finish t .aborted, true)

end Schedule

end IncidentMemory.Simulation
