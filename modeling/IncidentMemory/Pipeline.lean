import IncidentMemory.Buffer.Exchange
import IncidentMemory.Gate
import IncidentMemory.Retrieval.Search

/-!
# The pipeline

The way of an incident: through the gate, to a goal enriched by memories, to a reasoner, and if that
finds a diagnosis into the buffer as a resolution. Each part gives up when the token fires.
-/

namespace IncidentMemory

/-- **Whether an incident is worked on.** -/
inductive Admission where
  /-- It is a repetition. -/
  | duplicate
  /-- It is new, and to be worked on with this goal. -/
  | accepted (goal : String)
  deriving DecidableEq

/-- **What became of an incident.** -/
inductive Handled where
  /-- It is a repetition. -/
  | duplicate
  /-- The reasoner found nothing. -/
  | unresolved
  /-- The reasoner found a diagnosis, and the resolution is in the buffer. -/
  | resolved (diagnosis : Diagnosis) (resolution : Resolution)
  deriving DecidableEq

/-- **A pipeline.** -/
structure Pipeline where
  /-- Its gate. -/
  gate : Gate
  /-- What enriches goals. -/
  retriever : Retriever
  /-- The cluster that resolutions are recorded for. -/
  clusterId : String

namespace Pipeline

/-- An event about an incident. -/
def event (message incidentId : String) (fields : List (String × Json) := []) : Log.Event :=
  ⟨.info, .pipeline, message, ("incident_id", .str incidentId) :: fields⟩

/-- **Lets an incident in**, if it is new, and enriches the goal of the work on it. -/
def letIn (p : Pipeline) (i : Incident) (goal : String) : Procedure Admission := do
  Routine.report (event "Incident received" i.id [("namespace", .str i.podNamespace),
    ("reason", .str i.failureReason)])
  if ← (p.gate.isDuplicate i.id).cancellable "incident gate" then return .duplicate
  let enriched := Procedure.ofRoutine (p.retriever.enrich i goal)
  return .accepted (← enriched.cancellable "memory retrieval")

/-- **Puts a resolution into the buffer**, waiting while that is full. -/
def record (r : Resolution) : Procedure Unit := do
  match ← Routine.watching (Procedure.send r).run with
  | some (.ok ()) =>
    Routine.report (Buffer.writtenEvent r.incidentId (← Routine.perform .buffered))
  | some (.error f) => throw f
  | none =>
    Routine.report (Buffer.cancelledEvent r.incidentId)
    throw .writeCancelled

/-- **Handles an incident** from the gate to the buffer. -/
def handle (p : Pipeline) (i : Incident) (goal : String) : Procedure Handled := do
  match ← p.letIn i goal with
  | .duplicate => return .duplicate
  | .accepted goal =>
    match ← (Procedure.resolve i goal).cancellable "incident reasoning" with
    | none =>
      Routine.report (event "No diagnosis produced" i.id)
      return .unresolved
    | some diagnosis =>
      Routine.report (event "Diagnosis produced" i.id
        [("confidence", .str diagnosis.confidence.name)])
      let resolution := Resolution.ofDiagnosis i p.clusterId diagnosis
      record resolution
      return .resolved diagnosis resolution

end Pipeline

end IncidentMemory
