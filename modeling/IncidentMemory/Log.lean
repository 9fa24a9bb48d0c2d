import IncidentMemory.Failure
import IncidentMemory.Json.Basic
import IncidentMemory.Redaction

/-!
# Log events

What the parts of the service report while they work: a level, the part that reports, a message, and
named values. `Event.line` is the line that the JSON layout writes for an event; like every line
that leaves the process it has passed the redaction.
-/

namespace IncidentMemory.Log

/-- How important an event is. -/
inductive Level where
  /-- Something failed. -/
  | error
  /-- Something is not as it should be. -/
  | warn
  /-- Something happened. -/
  | info
  /-- A detail. -/
  | debug
  /-- A finer detail. -/
  | trace
  deriving DecidableEq, Repr

/-- The level's name. -/
def Level.name : Level → String
  | .error => "ERROR"
  | .warn => "WARN"
  | .info => "INFO"
  | .debug => "DEBUG"
  | .trace => "TRACE"

/-- How much a log that admits this level shows; a higher rank shows more. -/
def Level.rank : Level → Nat
  | .error => 1
  | .warn => 2
  | .info => 3
  | .debug => 4
  | .trace => 5

/-- The parts of the service that report events. -/
inductive Part where
  /-- Reading and checking the configuration. -/
  | config
  /-- The incident gate. -/
  | gate
  /-- The resolution buffer. -/
  | buffer
  /-- The consolidation worker. -/
  | worker
  /-- Enrichment of goals. -/
  | enrichment
  /-- Creation of the memory collection. -/
  | initializer
  /-- The incident pipeline. -/
  | pipeline
  /-- The background runtime. -/
  | runtime
  /-- Choice of the embedding provider. -/
  | embedderChoice
  /-- The OpenAI client. -/
  | openai
  /-- The Vertex AI client. -/
  | vertexAI
  /-- Choice of the vector store. -/
  | vectorStoreChoice
  /-- The vector store in memory. -/
  | vectorMemory
  /-- The Qdrant client. -/
  | qdrant
  /-- Choice of the dedup store. -/
  | dedupStoreChoice
  /-- The Redis client. -/
  | redis
  /-- The HTTP service. -/
  | server
  /-- Failures answered over HTTP. -/
  | serverFailure
  /-- What wraps the routes. -/
  | middleware
  deriving DecidableEq, Repr

/-- The name under which a part's events are filtered and written. -/
def Part.target : Part → String
  | .config => "kubemind_core::config"
  | .gate => "kubemind_core::gate"
  | .buffer => "kubemind_core::buffer"
  | .worker => "kubemind_core::consolidation::worker"
  | .enrichment => "kubemind_core::retrieval::enrichment"
  | .initializer => "kubemind_core::initializer"
  | .pipeline => "kubemind_core::pipeline"
  | .runtime => "kubemind_core::runtime"
  | .embedderChoice => "kubemind_embeddings::factory"
  | .openai => "kubemind_embeddings::openai"
  | .vertexAI => "kubemind_embeddings::vertex_ai"
  | .vectorStoreChoice => "kubemind_vector_stores::factory"
  | .vectorMemory => "kubemind_vector_stores::memory"
  | .qdrant => "kubemind_vector_stores::qdrant"
  | .dedupStoreChoice => "kubemind_dedup_stores::factory"
  | .redis => "kubemind_dedup_stores::redis_store"
  | .server => "kubemind_server"
  | .serverFailure => "kubemind_server::error"
  | .middleware => "kubemind_server::middleware"

/-- **A log event.** -/
structure Event where
  /-- How important it is. -/
  level : Level
  /-- Who reports it. -/
  part : Part
  /-- What happened. -/
  message : String
  /-- The values that belong to it. -/
  fields : List (String × Json) := []

/-- The event as a person reads it: level and message. -/
def Event.summary (e : Event) : String :=
  e.level.name ++ " " ++ e.message

/-- The event as a JSON object, its fields and message together. -/
def Event.toJson (e : Event) : Json :=
  .obj [("level", .str e.level.name),
    ("fields", .obj (("message", .str e.message) :: e.fields)),
    ("target", .str e.part.target)]

/-- **The line written for an event**: its JSON text with all secret values masked. -/
def Event.line (e : Event) : String :=
  Redaction.redact e.toJson.render

/-- A value, and the events reported on the way to it. -/
structure Reported (α : Type) where
  /-- The value. -/
  value : α
  /-- The events, in order. -/
  events : List Event := []

/-- Goes on with the result of an operation that may fail. -/
def Reported.andThen {ε α β : Type} (r : Reported (Except ε α))
    (next : α → Reported (Except ε β)) : Reported (Except ε β) :=
  match r.value with
  | .ok a =>
    let s := next a
    ⟨s.value, r.events ++ s.events⟩
  | .error f => ⟨.error f, r.events⟩

end IncidentMemory.Log
