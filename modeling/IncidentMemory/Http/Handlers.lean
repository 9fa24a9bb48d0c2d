import IncidentMemory.Http.Route
import IncidentMemory.Pipeline

/-!
# Handlers

What happens when a request has found its route: the state of the service, an incident handed in, a
resolution handed in, a memory asked for.
-/

namespace IncidentMemory.Http

/-- A routine that ends in a response either way. -/
abbrev Handler := ExceptT Response Routine Response

/-- Goes on with a procedure; a failure is answered with the error it becomes. -/
def attempt {α : Type} (p : Procedure α) : ExceptT Response Routine α := do
  match ← ExceptT.lift p.run with
  | .ok a => return a
  | .error f =>
    let (e, events) := ApiError.ofFailure f
    events.forM fun event => Routine.report event
    throw (.ofError e)

/-- Goes on with what was read from a request; a rejection is answered. -/
def accept {α : Type} : Except Rejection α → ExceptT Response Routine α
  | .ok a => return a
  | .error r => throw r.response

/-- Refuses a blank id. -/
def requireId (id : String) : ExceptT Response Routine Unit := do
  if Text.allBlank id then throw (.ofError (.validation "incident_id must not be empty"))

/-! ## The state of the service -/

/-- The version of the service. -/
def version : String := "0.1.0"

/-- The status of the service and what it is called. A worker that has ended on its own is worth an
alarm, a shutdown is not. -/
def healthStatus (stopping : Bool) (worker : WorkerState) : Status × String :=
  if stopping then (200, "shutting_down")
  else if worker = .stopped then (503, "degraded")
  else (200, "healthy")

/-- **Answers with the state of the service.** -/
def health : Handler := do
  let worker ← Routine.perform .workerState
  let (status, name) := healthStatus (← Routine.perform .isStopping) worker
  let capacity ← Routine.perform .bufferCapacity
  let buffered ← Routine.perform .buffered
  let counters ← Routine.perform .counters
  return .ofJson status (.obj [("status", .str name), ("version", .str version),
    ("consolidator", .str worker.name), ("buffer_capacity", .ofNat capacity),
    ("buffered", .ofNat buffered), ("consolidation", counters.toJson)])

/-! ## Incidents -/

/-- The goal of the work on an incident, if nothing is said. -/
def defaultGoal : String :=
  "Diagnose the root cause of the failing pod and recommend a remediation."

/-- Reads an incident and the goal of the work on it, the fields of both in one object. -/
def readSubmission : Reader (Incident × Option String) := fun d => do
  let (fs, others) ← Reader.openRecord [.of "goal" .optional (.optional .text)] d
  let incident ← Incident.ofFields (← Fields.mixedIn Incident.fields others)
  let goal ← fs.get "goal" (.optional .text) (.ok none)
  .ok (incident, goal)

/-- **Lets an incident in.** -/
def submitIncident (p : Pipeline) (r : Request) : Handler := do
  let (incident, goal) ← accept (r.readBody readSubmission)
  requireId incident.id
  let answer := fun (fields : List (String × Json)) =>
    Response.ofJson 200 (.obj (("incident_id", .str incident.id) :: fields))
  match ← attempt (p.letIn incident (goal.getD defaultGoal)) with
  | .duplicate => return answer [("duplicate", .bool true)]
  | .accepted goal => return answer [("duplicate", .bool false), ("goal", .str goal)]

/-! ## Resolutions -/

/-- **Puts a resolution into the buffer.** -/
def submitResolution (r : Request) : Handler := do
  let resolution ← accept (r.readBody Resolution.read)
  requireId resolution.incidentId
  attempt (Pipeline.record resolution)
  let queued ← Routine.perform .buffered
  return .ofJson 202 (.obj [("incident_id", .str resolution.incidentId),
    ("queued", .ofNat queued)])

/-! ## Memories -/

/-- **Answers with a memory**, without its embedding. -/
def findMemory (escapedId : String) : Handler := do
  match Text.percentDecoded? escapedId with
  | none => throw Rejection.badPath.response
  | some id =>
    match ← attempt (Procedure.get id) with
    | none => throw (.ofError (.notFound s!"Memory '{id}' not found"))
    | some point =>
      let record ← attempt (Procedure.ofOutcome (MemoryRecord.ofPoint point))
      return .ofJson 200 { record with embedding := [] }.toJson

/-- The handler of a route. -/
def handler (p : Pipeline) (r : Request) : Route → Handler
  | .health => health
  | .incidents => submitIncident p r
  | .resolutions => submitResolution r
  | .memory id => findMemory id

end IncidentMemory.Http
