import IncidentMemory.Failure
import IncidentMemory.Incident.Basic
import IncidentMemory.Redaction
import IncidentMemory.Vector

/-!
# Memory records

A memory record is a resolution with the embedding of its log and the time it was recorded. A vector
store knows nothing of resolutions: it holds points, each with an id, a vector and a payload of JSON
fields. `MemoryRecord.toPoint` writes a record as a point and `MemoryRecord.ofPayload` reads it
back.
-/

namespace IncidentMemory

/-- The payload of a point: JSON fields by name. -/
abbrev Payload := List (String × Json)

/-- What a vector store holds under an id. -/
structure Point where
  /-- The point's id. -/
  id : String
  /-- Its vector. -/
  vector : Embedding
  /-- Its payload. -/
  payload : Payload

/-- A point found by a search. -/
structure Hit where
  /-- The point's id. -/
  id : String
  /-- How similar it is to the query; more is closer. -/
  score : Single
  /-- Its payload. -/
  payload : Payload

/-- The text of a payload field. -/
def Payload.text? (payload : Payload) (key : String) : Option String :=
  (payload.lookup key).bind Json.text?

/-- **A memory record.** -/
structure MemoryRecord where
  /-- The record's id, which is the incident's. -/
  id : String
  /-- The cluster of the incident. -/
  clusterId : String
  /-- The namespace of the workload. -/
  namespaceName : String
  /-- The log. -/
  rawLog : String
  /-- What resolved the incident. -/
  resolutionAction : String
  /-- The embedding of the log. -/
  embedding : Embedding
  /-- When the record was made. -/
  createdAt : Timestamp
  deriving DecidableEq

namespace MemoryRecord

/-- The record of a resolution, made at the given time. -/
def ofResolution (r : Resolution) (embedding : Embedding) (now : Timestamp) : MemoryRecord :=
  ⟨r.incidentId, r.clusterId, r.namespaceName, r.rawLog, r.resolutionText, embedding, now⟩

/-- The record with the secrets in its log and its action masked. -/
def redacted (r : MemoryRecord) : MemoryRecord :=
  { r with
    rawLog := Redaction.redact r.rawLog
    resolutionAction := Redaction.redact r.resolutionAction }

/-- **The record as a point.** -/
def toPoint (r : MemoryRecord) : Point where
  id := r.id
  vector := r.embedding
  payload := [("cluster_id", .str r.clusterId), ("namespace", .str r.namespaceName),
    ("raw_log", .str r.rawLog), ("resolution_action", .str r.resolutionAction),
    ("created_at", .str (r.createdAt.render .offset))]

/-- The text of a payload field that a record needs. -/
def neededText (id : String) (payload : Payload) (key : String) : Outcome String :=
  match payload.text? key with
  | some s => .ok s
  | none => .error (.invalid s!"memory record '{id}' is missing payload field '{key}'")

/-- **A record from the parts of a point.** The time is read first. -/
def ofPayload (id : String) (embedding : Embedding) (payload : Payload) : Outcome MemoryRecord := do
  let time ← neededText id payload "created_at"
  let createdAt ← match Timestamp.parse time with
    | some t => Except.ok t
    | none => .error (.invalid s!"invalid created_at on '{id}': not a timestamp")
  let clusterId ← neededText id payload "cluster_id"
  let namespaceName ← neededText id payload "namespace"
  let rawLog ← neededText id payload "raw_log"
  let resolutionAction ← neededText id payload "resolution_action"
  .ok ⟨id, clusterId, namespaceName, rawLog, resolutionAction, embedding, createdAt⟩

/-- A record from a point. -/
def ofPoint (p : Point) : Outcome MemoryRecord :=
  ofPayload p.id p.vector p.payload

/-- **The line that describes a record** in an enriched goal. -/
def describe (r : MemoryRecord) : String :=
  s!"[{r.clusterId}/{r.namespaceName}] {Text.trim r.rawLog}"
    ++ s!" -> Resolution: {Text.trim r.resolutionAction}"

/-- The fields of a written record. -/
def fields : List Field :=
  [.of "id" .required .text, .of "cluster_id" .required .text,
    .of "namespace" .required .text, .of "raw_log" .required .text,
    .of "resolution_action" .required .text, .of "embedding" .defaulted (.list .single),
    .of "created_at" .required .timestamp]

/-- Reads a record. -/
def read : Reader MemoryRecord := fun d => do
  let fs ← Reader.record fields d
  let id ← fs.need "id" .text
  let clusterId ← fs.need "cluster_id" .text
  let namespaceName ← fs.need "namespace" .text
  let rawLog ← fs.need "raw_log" .text
  let resolutionAction ← fs.need "resolution_action" .text
  let embedding ← fs.get "embedding" (.list .single) (.ok [])
  let createdAt ← fs.need "created_at" .timestamp
  .ok ⟨id, clusterId, namespaceName, rawLog, resolutionAction, embedding, createdAt⟩

/-- The JSON form; an empty embedding is left out. -/
def toJson (r : MemoryRecord) : Json :=
  .obj ([("id", .str r.id), ("cluster_id", .str r.clusterId), ("namespace", .str r.namespaceName),
    ("raw_log", .str r.rawLog), ("resolution_action", .str r.resolutionAction)]
    ++ (if r.embedding.isEmpty then [] else [("embedding", .arr (r.embedding.map Json.ofSingle))])
    ++ [("created_at", .str (r.createdAt.render .letter))])

end MemoryRecord

/-- A memory found by a search, without its embedding. -/
structure ScoredMemory where
  /-- The record. -/
  record : MemoryRecord
  /-- How similar it is to the query; more is closer. -/
  score : Single

/-- The memory of a hit, if its payload is one. -/
def ScoredMemory.ofHit (h : Hit) : Outcome ScoredMemory := do
  let record ← MemoryRecord.ofPayload h.id [] h.payload
  .ok ⟨record, h.score⟩

end IncidentMemory
