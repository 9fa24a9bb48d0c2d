import IncidentMemory.Document.Reader
import IncidentMemory.Json.Basic
import IncidentMemory.Time.Timestamp

/-!
# Incidents, diagnoses and resolutions

An incident is what an observer reports about a failing pod. A reasoner answers it with a diagnosis,
and the two together make a resolution, which the consolidation turns into a memory. Each type has a
reader from documents and a JSON form.
-/

namespace IncidentMemory

/-- Reads a timestamp in the lenient notation. -/
def Reader.timestamp : Reader Timestamp := fun d => do
  let s ← Reader.text d
  match Timestamp.parseLenient s with
  | some t => .ok t
  | none => .error .mismatch

/-- **An incident.** -/
structure Incident where
  /-- The incident's id. -/
  id : String
  /-- Name of the failing pod. -/
  podName : String
  /-- Namespace of the failing pod. -/
  podNamespace : String
  /-- Why the pod failed, in a word. -/
  failureReason : String
  /-- The end of the container's log. -/
  logs : String
  /-- Manifests that belong to the pod. -/
  manifests : Option String
  /-- When the failure was seen. -/
  timestamp : Option Timestamp
  deriving DecidableEq

namespace Incident

/-- An incident with nothing but what the memory looks at. -/
def minimal (id podNamespace failureReason logs : String) : Incident :=
  ⟨id, "", podNamespace, failureReason, logs, none, none⟩

/-- Whether nothing beyond that is set. -/
def isMinimal (i : Incident) : Bool :=
  i = minimal i.id i.podNamespace i.failureReason i.logs

/-- **The text used to look for similar incidents**: reason and log. -/
def searchQuery (i : Incident) : String :=
  i.failureReason ++ ": " ++ i.logs

/-- The fields of a written incident. -/
def fields : List Field :=
  [.of "incident_id" .required .text, .of "pod_name" .defaulted .text,
    .of "pod_namespace" .required .text, .of "failure_reason" .required .text,
    .of "logs" .defaulted .text, .of "manifests" .defaulted (.optional .text),
    .of "timestamp" .defaulted (.optional .timestamp)]

/-- An incident from its fields. -/
def ofFields (fs : Fields) : Reading Incident := do
  let id ← fs.need "incident_id" .text
  let podName ← fs.get "pod_name" .text (.ok "")
  let podNamespace ← fs.need "pod_namespace" .text
  let failureReason ← fs.need "failure_reason" .text
  let logs ← fs.get "logs" .text (.ok "")
  let manifests ← fs.get "manifests" (.optional .text) (.ok none)
  let timestamp ← fs.get "timestamp" (.optional .timestamp) (.ok none)
  .ok ⟨id, podName, podNamespace, failureReason, logs, manifests, timestamp⟩

/-- Reads an incident. -/
def read : Reader Incident := fun d => do
  ofFields (← Reader.record fields d)

/-- The JSON form; what is not set is left out. -/
def toJson (i : Incident) : Json :=
  .obj ([("incident_id", .str i.id), ("pod_name", .str i.podName),
    ("pod_namespace", .str i.podNamespace), ("failure_reason", .str i.failureReason),
    ("logs", .str i.logs)]
    ++ (i.manifests.map fun m => ("manifests", Json.str m)).toList
    ++ (i.timestamp.map fun t => ("timestamp", Json.str (t.render .letter))).toList)

end Incident

/-- How sure a reasoner is of a diagnosis. -/
inductive Confidence where
  /-- Not sure. -/
  | low
  /-- Fairly sure. -/
  | medium
  /-- Sure. -/
  | high
  deriving DecidableEq, Repr

namespace Confidence

/-- The names of the degrees. -/
def names : List (String × Confidence) :=
  [("Low", .low), ("Medium", .medium), ("High", .high)]

/-- A degree's name. -/
def name : Confidence → String
  | .low => "Low"
  | .medium => "Medium"
  | .high => "High"

/-- The degree of a name, in any case of its letters. -/
def parse? (text : String) : Option Confidence :=
  (names.find? fun (n, _) => Text.eqIgnoringCase n text).map (·.2)

end Confidence

/-- **A diagnosis.** -/
structure Diagnosis where
  /-- The most likely cause. -/
  rootCause : String
  /-- How sure the reasoner is. -/
  confidence : Confidence
  /-- What to do. -/
  recommendedAction : String
  /-- What the diagnosis rests on. -/
  supportingEvidence : String
  deriving DecidableEq

namespace Diagnosis

/-- **The text kept as what resolved the incident.** -/
def resolutionText (d : Diagnosis) : String :=
  s!"{d.recommendedAction} (root cause: {d.rootCause}; confidence: {d.confidence.name})"

/-- The fields of a written diagnosis. -/
def fields : List Field :=
  [.of "rootCause" .required .text, .of "confidence" .required (.oneOf Confidence.names),
    .of "recommendedAction" .required .text, .of "supportingEvidence" .defaulted .text]

/-- Reads a diagnosis. -/
def read : Reader Diagnosis := fun d => do
  let fs ← Reader.record fields d
  let rootCause ← fs.need "rootCause" .text
  let confidence ← fs.need "confidence" (.oneOf Confidence.names)
  let recommendedAction ← fs.need "recommendedAction" .text
  let supportingEvidence ← fs.get "supportingEvidence" .text (.ok "")
  .ok ⟨rootCause, confidence, recommendedAction, supportingEvidence⟩

/-- The JSON form. -/
def toJson (d : Diagnosis) : Json :=
  .obj [("rootCause", .str d.rootCause), ("confidence", .str d.confidence.name),
    ("recommendedAction", .str d.recommendedAction),
    ("supportingEvidence", .str d.supportingEvidence)]

end Diagnosis

/-- **A resolution**: an incident and what resolved it. -/
structure Resolution where
  /-- The incident's id, and the id of the memory the resolution becomes. -/
  incidentId : String
  /-- The cluster of the incident. -/
  clusterId : String
  /-- The namespace of the workload. -/
  namespaceName : String
  /-- The log that characterizes the failure. -/
  rawLog : String
  /-- What resolved it. -/
  resolutionText : String
  deriving DecidableEq

namespace Resolution

/-- The resolution of an incident by a diagnosis. -/
def ofDiagnosis (incident : Incident) (clusterId : String) (diagnosis : Diagnosis) : Resolution :=
  ⟨incident.id, clusterId, incident.podNamespace, incident.logs, diagnosis.resolutionText⟩

/-- Whether the log has any text. -/
def hasLog (r : Resolution) : Bool :=
  !Text.allBlank r.rawLog

/-- The fields of a written resolution. -/
def fields : List Field :=
  [.of "incident_id" .required .text, .of "cluster_id" .required .text,
    .of "namespace" .required .text, .of "raw_log" .required .text,
    .of "resolution_text" .required .text]

/-- Reads a resolution. -/
def read : Reader Resolution := fun d => do
  let fs ← Reader.record fields d
  let incidentId ← fs.need "incident_id" .text
  let clusterId ← fs.need "cluster_id" .text
  let namespaceName ← fs.need "namespace" .text
  let rawLog ← fs.need "raw_log" .text
  let resolutionText ← fs.need "resolution_text" .text
  .ok ⟨incidentId, clusterId, namespaceName, rawLog, resolutionText⟩

/-- The JSON form. -/
def toJson (r : Resolution) : Json :=
  .obj [("incident_id", .str r.incidentId), ("cluster_id", .str r.clusterId),
    ("namespace", .str r.namespaceName), ("raw_log", .str r.rawLog),
    ("resolution_text", .str r.resolutionText)]

end Resolution

end IncidentMemory
