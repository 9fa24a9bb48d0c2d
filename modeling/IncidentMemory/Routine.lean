import IncidentMemory.Consolidation.Counters
import IncidentMemory.Incident.Basic
import IncidentMemory.Log
import IncidentMemory.Memory.Collections
import IncidentMemory.Time.Duration

/-!
# Routines

What the parts of the pipeline do is written down as routines: trees of actions, which take effect
at once, and calls, which may have to wait. A routine says nothing about how actions and calls are
carried out. `Simulation` carries out many of them side by side; another interpreter may look at one
alone.

A shutdown is announced by a token that fires. `Routine.watching` makes a part of a routine give up
when that happens: the token is looked at before the part begins and every time it goes on after a
wait. A call may also break off. Then the routine breaks off too, unless `Routine.caught` stops it.
-/

namespace IncidentMemory

/-- The tasks that run in the background. -/
inductive BackgroundTask where
  /-- The worker takes resolutions from the buffer. -/
  | worker
  /-- The supervisor notices when the worker ends. -/
  | supervisor
  deriving DecidableEq, Repr

/-- **What takes effect at once.** -/
inductive Action where
  /-- Report an event. -/
  | log (event : Log.Event)
  /-- What time is it? -/
  | now
  /-- Has the token fired? -/
  | isStopping
  /-- Let the token fire. -/
  | stop
  /-- Count something the worker has done. -/
  | count (counter : Counter)
  /-- What has the worker done? -/
  | counters
  /-- Does the worker run? -/
  | workerState
  /-- Note whether the worker runs. -/
  | setWorkerState (state : WorkerState)
  /-- How many slots of the buffer are taken? -/
  | buffered
  /-- How many slots does the buffer have? -/
  | bufferCapacity
  /-- Take the buffer's reader, if nobody has. -/
  | takeReader
  /-- Let the buffer's reader go. -/
  | dropReader
  /-- Start a task. -/
  | spawn (task : BackgroundTask)
  /-- Take the right to wait for the supervisor, if it was started and nobody has. -/
  | takeSupervisor

/-- What an action results in. -/
@[reducible] def Action.Result : Action → Type
  | .log _ | .stop | .count _ | .setWorkerState _ | .dropReader | .spawn _ => Unit
  | .now => Timestamp
  | .isStopping | .takeReader | .takeSupervisor => Bool
  | .counters => Counters
  | .workerState => WorkerState
  | .buffered | .bufferCapacity => Nat

/-- **What may have to wait.** -/
inductive Call where
  /-- Compute the embedding of a text. -/
  | embed (text : String)
  /-- Look for a diagnosis of an incident. -/
  | resolve (incident : Incident) (goal : String)
  /-- Set a marker unless there is one. -/
  | setIfAbsent (key value : String) (ttl : Duration)
  /-- Create a collection. -/
  | createCollection (name : String) (dims : Nat) (distance : Distance)
  /-- Is there a collection? -/
  | hasCollection (name : String)
  /-- Put points in. -/
  | upsert (points : List Point)
  /-- Look for similar points. -/
  | search (query : Embedding) (limit : Nat) (least : Option Single)
  /-- Ask for a point. -/
  | get (id : String)
  /-- Put a resolution into the buffer. -/
  | send (resolution : Resolution)
  /-- Take a resolution from the buffer; none if nobody can write any more. -/
  | receive
  /-- Wait until a task has ended. -/
  | join (task : BackgroundTask)

/-- What a call is answered with. -/
@[reducible] def Call.Reply : Call → Type
  | .embed _ => Outcome Embedding
  | .resolve .. => Outcome (Option Diagnosis)
  | .setIfAbsent .. => Outcome Bool
  | .createCollection .. => Outcome Unit
  | .hasCollection _ => Outcome Bool
  | .upsert _ => Outcome Unit
  | .search .. => Outcome (List Hit)
  | .get _ => Outcome (Option Point)
  | .send _ => Outcome Unit
  | .receive => Option Resolution
  | .join _ => Unit

/-- **A routine.** -/
inductive Routine (α : Type) where
  /-- It has ended. -/
  | done (result : α)
  /-- It has broken off. -/
  | brokenOff (text : String)
  /-- It acts, and goes on. -/
  | act (action : Action) (next : action.Result → Routine α)
  /-- It makes a call, and goes on when that has ended. -/
  | call (call : Call) (next : Attempt call.Reply → Routine α)
  /-- It makes a call, and goes on when that has ended, or else when the token has fired. -/
  | watch (call : Call) (next : Attempt call.Reply → Routine α) (stopped : Routine α)

namespace Routine

variable {α β : Type}

/-- Goes on with the result. -/
def bind : Routine α → (α → Routine β) → Routine β
  | .done a, f => f a
  | .brokenOff text, _ => .brokenOff text
  | .act a next, f => .act a fun r => (next r).bind f
  | .call c next, f => .call c fun r => (next r).bind f
  | .watch c next stopped, f => .watch c (fun r => (next r).bind f) (stopped.bind f)

instance : Monad Routine where
  pure := .done
  bind := bind

/-- An action alone. -/
def perform (a : Action) : Routine a.Result :=
  .act a .done

/-- A call alone; if it breaks off, so does the routine. -/
def ask (c : Call) : Routine c.Reply :=
  .call c fun
    | .done r => .done r
    | .brokenOff text => .brokenOff text

/-- Reports an event. -/
def report (event : Log.Event) : Routine Unit :=
  perform (.log event)

/-- Stops a break-off. -/
def caught : Routine α → Routine (Attempt α)
  | .done a => .done (.done a)
  | .brokenOff text => .done (.brokenOff text)
  | .act a next => .act a fun r => (next r).caught
  | .call c next => .call c fun r => (next r).caught
  | .watch c next stopped => .watch c (fun r => (next r).caught) stopped.caught

/-- Gives every wait up when the token has fired. -/
def guarded : Routine α → Routine (Option α)
  | .done a => .done (some a)
  | .brokenOff text => .brokenOff text
  | .act a next => .act a fun r => (next r).guarded
  | .call c next => .watch c (fun r => (next r).guarded) (.done none)
  | .watch c next stopped => .watch c (fun r => (next r).guarded) stopped.guarded

/-- **A routine that gives up when the token has fired**, without a result then. -/
def watching (r : Routine α) : Routine (Option α) := do
  if ← perform .isStopping then return none
  r.guarded

end Routine

/-! ## Routines that may fail -/

/-- A routine that may end in a failure. -/
abbrev Procedure (α : Type) := ExceptT Failure Routine α

namespace Procedure

variable {α : Type}

/-- A routine as a procedure that does not fail. -/
def ofRoutine (r : Routine α) : Procedure α :=
  ExceptT.lift r

/-- A procedure together with its failure, as one that does not fail. -/
def outcome (p : Procedure α) : Procedure (Outcome α) :=
  ofRoutine p.run

/-- An outcome as a procedure. -/
def ofOutcome (o : Outcome α) : Procedure α :=
  ExceptT.mk (.done o)

/-- Computes the embedding of a text. -/
def embed (text : String) : Procedure Embedding :=
  Routine.ask (.embed text)

/-- The embedding of a text, which must have the given number of dimensions. -/
def embedAs (dims : Nat) (text : String) : Procedure Embedding := do
  let e ← embed text
  if e.length = dims then return e
  throw (.dimensions dims e.length)

/-- Looks for a diagnosis. -/
def resolve (incident : Incident) (goal : String) : Procedure (Option Diagnosis) :=
  Routine.ask (.resolve incident goal)

/-- Sets a marker unless there is one. -/
def setIfAbsent (key value : String) (ttl : Duration) : Procedure Bool :=
  Routine.ask (.setIfAbsent key value ttl)

/-- Creates a collection. -/
def createCollection (name : String) (dims : Nat) (distance : Distance) : Procedure Unit :=
  Routine.ask (.createCollection name dims distance)

/-- Whether there is a collection. -/
def hasCollection (name : String) : Procedure Bool :=
  Routine.ask (.hasCollection name)

/-- **Creates a collection if there is none**, and says whether it did. -/
def ensureCollection (name : String) (dims : Nat) (distance : Distance) : Procedure Bool := do
  if ← hasCollection name then return false
  createCollection name dims distance
  return true

/-- Puts points in. -/
def upsert (points : List Point) : Procedure Unit :=
  Routine.ask (.upsert points)

/-- Looks for similar points. -/
def search (query : Embedding) (limit : Nat) (least : Option Single) : Procedure (List Hit) :=
  Routine.ask (.search query limit least)

/-- Asks for a point. -/
def get (id : String) : Procedure (Option Point) :=
  Routine.ask (.get id)

/-- Puts a resolution into the buffer. -/
def send (resolution : Resolution) : Procedure Unit :=
  Routine.ask (.send resolution)

/-- **A procedure that is cancelled when the token has fired**, under the name of what it does. -/
def cancellable (operation : String) (p : Procedure α) : Procedure α := do
  match ← Routine.watching p.run with
  | some (.ok a) => return a
  | some (.error f) => throw f
  | none => throw (.cancelled operation)

end Procedure

end IncidentMemory
