import IncidentMemory.Memory.Preparation
import IncidentMemory.Service.Basic
import IncidentMemory.Simulation.Tasks

/-!
# Sessions

A session is a rehearsal of everything together. Each step of it is begun as a task of its own; then
all tasks go on until each has ended or waits. A step whose task waits is pending, and its result
turns up later.
-/

namespace IncidentMemory.Simulation

/-- **A step.** -/
inductive Step where
  /-- Ask the gate about an incident. -/
  | gate (incidentId : String)
  /-- Let an incident in. -/
  | letIn (incident : Incident) (goal : String)
  /-- Handle an incident. -/
  | handle (incident : Incident) (goal : String)
  /-- Put a resolution into the buffer. -/
  | record (resolution : Resolution)
  /-- Consolidate a resolution beside the worker. -/
  | consolidate (resolution : Resolution)
  /-- Look for the memories that are relevant to an incident. -/
  | relevant (incident : Incident)
  /-- Enrich a goal. -/
  | enrich (incident : Incident) (goal : String)
  /-- Prepare a collection. -/
  | prepare (name : String) (dims : Nat)
  /-- Create a collection. -/
  | create (name : String) (dims : Nat) (distance : Distance)
  /-- Create a collection if there is none. -/
  | ensure (name : String) (dims : Nat) (distance : Distance)
  /-- Look for a collection. -/
  | has (name : String)
  /-- Put points in. -/
  | upsert (points : List Point)
  /-- Look for similar points. -/
  | search (query : Embedding) (limit : Nat) (least : Option Single)
  /-- Ask for a point. -/
  | get (id : String)
  /-- Ask for the memory that a point is. -/
  | memory (id : String)
  /-- Set a marker. -/
  | setIfAbsent (key value : String) (ttl : Duration)
  /-- Send a request. -/
  | http (request : Http.Request)
  /-- Start the worker. -/
  | start
  /-- Stop the worker. -/
  | shutdown
  /-- Let the token fire. -/
  | cancel
  /-- Move the clock. -/
  | advance (duration : Duration)
  /-- Let the tasks go on. -/
  | settle
  /-- Abort the task of a step. -/
  | abort (number : Nat)
  /-- Let the pipeline go. -/
  | dropWriters
  /-- How many points are there? -/
  | storeSize
  /-- How many markers are there? -/
  | markerCount
  /-- What are the parts called? -/
  | names

/-- **The result of a step.** -/
inductive Result where
  /-- It was done. -/
  | done
  /-- It failed. -/
  | failed (f : Failure)
  /-- Yes or no. -/
  | flag (b : Bool)
  /-- Whether an incident was let in. -/
  | admitted (a : Admission)
  /-- What became of an incident. -/
  | handled (h : Handled)
  /-- What became of a resolution beside the worker, and what was counted there. -/
  | consolidated (result : Outcome Consolidated) (counters : Counters)
  /-- Memories. -/
  | memories (ms : List ScoredMemory)
  /-- A goal. -/
  | goal (g : String)
  /-- Hits. -/
  | hits (hs : List Hit)
  /-- A point, if there is one. -/
  | point (p : Option Point)
  /-- A memory, if there is one. -/
  | memory (m : Option MemoryRecord)
  /-- A response. -/
  | response (r : Http.Response)
  /-- How many points are in memory, and how many dimensions they are meant to have. -/
  | storeSize (size : Option (Nat × Nat))
  /-- How many markers are in memory. -/
  | markerCount (count : Option Nat)
  /-- What the parts are called, and whether the worker runs. -/
  | names (service : Service) (running : Bool)

namespace Step

/-- The result of a procedure. -/
def resultOf {α : Type} (f : α → Result) (p : Procedure α) : Routine Result := do
  match ← p.run with
  | .ok a => return f a
  | .error e => return .failed e

/-- **What a step does** as a task; nothing for the steps that are no tasks. -/
def routine (s : Service) : Step → Routine Result
  | .gate id => resultOf .flag (s.gate.isDuplicate id)
  | .letIn i goal => resultOf .admitted (s.pipeline.letIn i goal)
  | .handle i goal => resultOf .handled (s.pipeline.handle i goal)
  | .record r => resultOf (fun _ => .done) (Pipeline.record r)
  | .consolidate r => (fun o => .consolidated o {}) <$> (s.consolidator.consolidate r).run
  | .relevant i => resultOf .memories (s.retriever.relevantMemories i)
  | .enrich i goal => .goal <$> s.retriever.enrich i goal
  | .prepare name dims => .flag <$> Memory.prepareCollection name dims
  | .create name dims distance =>
    resultOf (fun _ => .done) (Procedure.createCollection name dims distance)
  | .ensure name dims distance => resultOf .flag (Procedure.ensureCollection name dims distance)
  | .has name => resultOf .flag (Procedure.hasCollection name)
  | .upsert points => resultOf (fun _ => .done) (Procedure.upsert points)
  | .search query limit least => resultOf .hits (Procedure.search query limit least)
  | .get id => resultOf .point (Procedure.get id)
  | .memory id => resultOf .memory do
    match ← Procedure.get id with
    | some p => return some (← Procedure.ofOutcome (MemoryRecord.ofPoint p))
    | none => return none
  | .setIfAbsent key value ttl => resultOf .flag (Procedure.setIfAbsent key value ttl)
  | .http request => .response <$> s.server.respond request
  | .start => resultOf (fun _ => .done) Background.start
  | .shutdown => (fun _ => .done) <$> Background.shutdown
  | .cancel => (fun _ => .done) <$> Routine.perform .stop
  | _ => return .done

/-- Whether the task of a step uses the pipeline, and keeps the buffer from having no writers. -/
def usesPipeline : Step → Bool
  | .letIn .. | .handle .. | .record _ | .http _ => true
  | _ => false

end Step

/-- **A session.** -/
structure Session where
  /-- What it is made of. -/
  service : Service
  /-- Its tasks and their world. -/
  schedule : Schedule Result
  /-- How many steps there have been. -/
  steps : Nat := 0
  /-- What was counted beside the worker. -/
  besides : Counters := {}

/-- **What is to be seen after a step.** -/
structure Observation where
  /-- How the step's task ended, or that it is pending. -/
  result : Option (Ending Result)
  /-- What the worker has done. -/
  counters : Counters
  /-- Whether the worker runs. -/
  workerState : WorkerState
  /-- How many slots of the buffer are taken, while the pipeline is there. -/
  buffered : Option Nat
  /-- The calls of stand-ins since the last step. -/
  calls : List Call
  /-- The earlier steps that have ended since, and how. -/
  ended : List (Nat × Ending Result)

namespace Session

/-- A session at its beginning: the tasks of the background are there, but none has been started. -/
def begin (service : Service) (world : World) : Session where
  service
  schedule := .idle world fun task => (fun _ => .done) <$> service.background task

/-- The session with a changed world. -/
def withWorld (s : Session) (w : World) : Session :=
  { s with schedule := { s.schedule with world := w } }

/-- How many points there are, if they are in memory. -/
def storeSize (s : Session) : Option (Nat × Nat) :=
  match s.schedule.world.store with
  | .inMemory c => some (c.size, c.dims)
  | .scripted _ => none

/-- How many markers there are, if they are in memory. -/
def markerCount (s : Session) : Option Nat :=
  match s.schedule.world.dedup with
  | .inMemory m => some (m.size s.schedule.world.clock)
  | .scripted _ => none

/-- Begins a step: what changes at once, and the result if there is no task. -/
def begun (s : Session) (step : Step) : Session × Option Result :=
  let w := s.schedule.world
  match step with
  | .advance d => (s.withWorld { w with clock := w.clock + d.nanos }, some .done)
  | .settle => (s, some .done)
  | .abort n =>
    let (schedule, was) := s.schedule.abort (.step n)
    ({ s with schedule }, some (.flag was))
  | .dropWriters => (s.withWorld w.dropWriters, some .done)
  | .storeSize => (s, some (.storeSize s.storeSize))
  | .markerCount => (s, some (.markerCount s.markerCount))
  | .names => (s, some (.names s.service (w.workerState = .running)))
  | step =>
    let t := TaskId.step s.steps
    let w := if step.usesPipeline then { w with users := w.users ++ [t] } else w
    let s := s.withWorld w
    ({ s with schedule := s.schedule.start t (step.routine s.service) }, none)

/-- Counts what was consolidated beside the worker, and puts the counters into the results. -/
def tally (besides : Counters) :
    List (TaskId × Ending Result) → Counters × List (Nat × Ending Result)
  | [] => (besides, [])
  | (.step n, .result (.consolidated o _)) :: es =>
    let besides := match o with
      | .ok c => besides.add c.counter
      | .error _ => besides
    let (total, rest) := tally besides es
    (total, (n, .result (.consolidated o besides)) :: rest)
  | (.step n, e) :: es =>
    let (total, rest) := tally besides es
    (total, (n, e) :: rest)
  | (.background _, _) :: es => tally besides es

/-- **Takes a step**, and says what is to be seen then. -/
def step (s : Session) (step : Step) : Session × Observation :=
  let (s', direct) := s.begun step
  let schedule := s'.schedule.run
  let (besides, endings) := tally s.besides schedule.endings
  let w := schedule.world
  let earlier := (endings.filter (·.1 ≠ s.steps)).mergeSort fun a b => a.1 ≤ b.1
  ({ s' with
      schedule := { schedule with endings := [], world := { w with trace := [] } }
      steps := s.steps + 1
      besides },
    { result := (direct.map Ending.result).or (endings.lookup s.steps)
      counters := w.counters
      workerState := w.workerState
      buffered := if w.writersHeld then some w.buffer.size else none
      calls := w.trace
      ended := earlier })

end Session

end IncidentMemory.Simulation
