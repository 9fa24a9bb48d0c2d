import IncidentMemory.Document.Reader
import IncidentMemory.Json.Basic

/-!
# Configuration

What an operator may set, as it is written in a configuration file: the dedup window, the buffer,
the two thresholds, and the three backends. Every field has a default. Nothing is checked here
beyond its type; `Config/Settings` derives from a configuration the values the pipeline runs with.
-/

namespace IncidentMemory

/-! ## Choices -/

/-- **What the gate does when the dedup store fails.** -/
inductive GatePolicy where
  /-- Take the incident as new and go on. -/
  | failOpen
  /-- Report the failure. -/
  | failClosed
  deriving DecidableEq, Repr

namespace GatePolicy

/-- The policies by name. -/
def names : List (String × GatePolicy) :=
  [("fail_open", .failOpen), ("fail_closed", .failClosed)]

/-- A policy's name. -/
def name : GatePolicy → String
  | .failOpen => "fail_open"
  | .failClosed => "fail_closed"

/-- The policy of a name, in any case of its letters. -/
def parse? (text : String) : Option GatePolicy :=
  (names.find? fun (n, _) => Text.eqIgnoringCase n text).map (·.2)

end GatePolicy

/-- **Who computes embeddings.** -/
inductive EmbedderProvider where
  /-- The OpenAI interface. -/
  | openAI
  /-- An Ollama server. -/
  | ollama
  /-- Google's Vertex AI. -/
  | vertexAI
  deriving DecidableEq, Repr

namespace EmbedderProvider

/-- The providers by the name a file uses. -/
def names : List (String × EmbedderProvider) :=
  [("openai", .openAI), ("ollama", .ollama), ("vertexai", .vertexAI)]

/-- The name a file uses. -/
def name : EmbedderProvider → String
  | .openAI => "openai"
  | .ollama => "ollama"
  | .vertexAI => "vertexai"

/-- The name for people. -/
def label : EmbedderProvider → String
  | .openAI => "OpenAI"
  | .ollama => "Ollama"
  | .vertexAI => "VertexAI"

/-- The provider of a name given by hand: any case, and two further spellings of the last one. -/
def parse? (text : String) : Option EmbedderProvider :=
  let spellings := names ++ [("vertex_ai", .vertexAI), ("vertex", .vertexAI)]
  (spellings.find? fun (n, _) => Text.eqIgnoringCase n text).map (·.2)

end EmbedderProvider

/-- **Where memories are kept.** -/
inductive VectorBackend where
  /-- A Qdrant server. -/
  | qdrant
  /-- The process itself. -/
  | memory
  deriving DecidableEq, Repr

namespace VectorBackend

/-- The backends by name. -/
def names : List (String × VectorBackend) :=
  [("qdrant", .qdrant), ("memory", .memory)]

/-- A backend's name. -/
def name : VectorBackend → String
  | .qdrant => "qdrant"
  | .memory => "memory"

/-- The name for people. -/
def label : VectorBackend → String
  | .qdrant => "Qdrant"
  | .memory => "Memory"

/-- The backend of a name given by hand: the server unless the name is that of the other one. -/
def ofText (text : String) : VectorBackend :=
  if Text.eqIgnoringCase "memory" text then .memory else .qdrant

end VectorBackend

/-- **Where the gate keeps its markers.** -/
inductive DedupBackend where
  /-- A Redis server. -/
  | redis
  /-- The process itself. -/
  | memory
  deriving DecidableEq, Repr

namespace DedupBackend

/-- The backends by name. -/
def names : List (String × DedupBackend) :=
  [("redis", .redis), ("memory", .memory)]

/-- A backend's name. -/
def name : DedupBackend → String
  | .redis => "redis"
  | .memory => "memory"

/-- The backend of a name given by hand: the server unless the name is that of the other one. -/
def ofText (text : String) : DedupBackend :=
  if Text.eqIgnoringCase "memory" text then .memory else .redis

end DedupBackend

/-! ## Backends -/

/-- What an embedding provider needs to know. -/
structure EmbedderConfig where
  /-- The model. -/
  model : String := "text-embedding-3-small"
  /-- How many dimensions its embeddings have. -/
  dims : Nat := 768
  /-- The key to use the provider with. -/
  apiKey : Option String := none
  /-- Where the provider is, if not in its usual place. -/
  baseUrl : Option String := none
  /-- The project that is billed. -/
  projectId : Option String := none
  /-- The region that serves the model. -/
  location : Option String := none
  deriving DecidableEq

/-- What a vector store needs to know. -/
structure VectorStoreConfig where
  /-- Which one it is. -/
  provider : VectorBackend := .qdrant
  /-- The collection of memories. -/
  collection : String := "k8s_incidents"
  /-- How many dimensions the collection has. -/
  dims : Nat := 768
  /-- All else that was said about it. -/
  extra : Json := .obj []

/-- What a dedup store needs to know. -/
structure DedupStoreConfig where
  /-- Which one it is. -/
  provider : DedupBackend := .redis
  /-- Where it is. -/
  url : Option String := none
  deriving DecidableEq

/-- The single-precision number nearest to 0.95. -/
def defaultDuplicateThreshold : Single := ⟨0x3F733333⟩

/-- The single-precision number 0.75. -/
def defaultRelevanceThreshold : Single := ⟨0x3F400000⟩

/-- How many resolutions the buffer holds if nothing is said. -/
def defaultBufferCapacity : Nat := 100

/-- How many memories enrich a goal if nothing is said. -/
def defaultRetrievalLimit : Nat := 3

/-- **A configuration.** -/
structure Config where
  /-- How long an incident suppresses its repetitions, as text. -/
  dedupWindow : Option String := none
  /-- What the gate does when the dedup store fails. -/
  gatePolicy : GatePolicy := .failOpen
  /-- How many resolutions the buffer holds. -/
  bufferCapacity : Nat := defaultBufferCapacity
  /-- The similarity from which on a log counts as known. -/
  duplicateThreshold : Single := defaultDuplicateThreshold
  /-- The similarity from which on a memory is relevant. -/
  relevanceThreshold : Single := defaultRelevanceThreshold
  /-- How many memories enrich a goal at most. -/
  retrievalLimit : Nat := defaultRetrievalLimit
  /-- The cluster that resolutions are recorded for. -/
  clusterId : String := "default"
  /-- Whether secrets are masked in what is kept. -/
  redactLogs : Bool := true
  /-- Who computes embeddings. -/
  provider : EmbedderProvider := .openAI
  /-- What the embedding provider needs to know. -/
  embedder : EmbedderConfig := {}
  /-- Where memories are kept. -/
  vectorStore : VectorStoreConfig := {}
  /-- Where the gate keeps its markers. -/
  dedupStore : DedupStoreConfig := {}

/-! ## Reading -/

/-- Reads an unsigned number of 64 bits. -/
def Reader.word : Reader Nat := Reader.nat Number.maxWord

namespace EmbedderConfig

/-- The fields of a written embedder configuration. -/
def fields : List Field :=
  [.of "model" .defaulted .text, .of "embedding_dims" .defaulted .word,
    .of "api_key" .defaulted (.optional .text), .of "base_url" .defaulted (.optional .text),
    .of "project_id" .defaulted (.optional .text), .of "location" .defaulted (.optional .text)]

/-- An embedder configuration from its fields. -/
def ofFields (fs : Fields) : Reading EmbedderConfig := do
  let base : EmbedderConfig := {}
  let model ← fs.get "model" .text (.ok base.model)
  let dims ← fs.get "embedding_dims" .word (.ok base.dims)
  let apiKey ← fs.get "api_key" (.optional .text) (.ok none)
  let baseUrl ← fs.get "base_url" (.optional .text) (.ok none)
  let projectId ← fs.get "project_id" (.optional .text) (.ok none)
  let location ← fs.get "location" (.optional .text) (.ok none)
  .ok ⟨model, dims, apiKey, baseUrl, projectId, location⟩

/-- Reads an embedder configuration. -/
def read : Reader EmbedderConfig := fun d => do
  ofFields (← Reader.record fields d)

/-- The fields of the JSON form; what is not set is left out. -/
def toFields (c : EmbedderConfig) : List (String × Json) :=
  let optional := fun (key : String) (value : Option String) =>
    (value.map fun s => (key, Json.str s)).toList
  [("model", .str c.model), ("embedding_dims", .ofNat c.dims)]
    ++ optional "api_key" c.apiKey ++ optional "base_url" c.baseUrl
    ++ optional "project_id" c.projectId ++ optional "location" c.location

end EmbedderConfig

/-- Reads a provider together with its configuration, the fields of both in one map. -/
def Reader.embedder : Reader (EmbedderProvider × EmbedderConfig) := fun d => do
  let name := Reader.oneOf EmbedderProvider.names
  let (fs, others) ← Reader.openRecord [.of "provider" .defaulted name] d
  let provider ← fs.get "provider" name (.ok .openAI)
  let config ← EmbedderConfig.ofFields (← Fields.mixedIn EmbedderConfig.fields others)
  .ok (provider, config)

namespace VectorStoreConfig

/-- The fields of a written vector store configuration; there may be any others. -/
def fields : List Field :=
  [.of "provider" .defaulted (.oneOf VectorBackend.names),
    .of "collection_name" .defaulted .text, .of "embedding_model_dims" .defaulted .word]

/-- Reads a vector store configuration. -/
def read : Reader VectorStoreConfig := fun d => do
  let (fs, others) ← Reader.openRecord fields d
  let base : VectorStoreConfig := {}
  let provider ← fs.get "provider" (.oneOf VectorBackend.names) (.ok base.provider)
  let collection ← fs.get "collection_name" .text (.ok base.collection)
  let dims ← fs.get "embedding_model_dims" .word (.ok base.dims)
  let extra ← Json.ofDocument (.map others true)
  .ok ⟨provider, collection, dims, extra⟩

/-- The JSON form, all else mixed in; there is none if all else is neither an object nor null. -/
def toJson? (c : VectorStoreConfig) : Option Json :=
  let known := [("provider", Json.str c.provider.name), ("collection_name", .str c.collection),
    ("embedding_model_dims", .ofNat c.dims)]
  match c.extra with
  | .obj more => some (.object (known ++ more))
  | .null => some (.object known)
  | _ => none

end VectorStoreConfig

namespace DedupStoreConfig

/-- The fields of a written dedup store configuration. -/
def fields : List Field :=
  [.of "provider" .defaulted (.oneOf DedupBackend.names),
    .of "url" .optional (.optional .text)]

/-- Reads a dedup store configuration. -/
def read : Reader DedupStoreConfig := fun d => do
  let fs ← Reader.record fields d
  let provider ← fs.get "provider" (.oneOf DedupBackend.names) (.ok .redis)
  let url ← fs.get "url" (.optional .text) (.ok none)
  .ok ⟨provider, url⟩

/-- The JSON form. -/
def toJson (c : DedupStoreConfig) : Json :=
  .obj (("provider", .str c.provider.name) :: (c.url.map fun u => ("url", Json.str u)).toList)

end DedupStoreConfig

namespace Config

/-- The fields of a written configuration. -/
def fields : List Field :=
  [.of "dedup_window" .defaulted (.optional .text),
    .of "gate_failure_policy" .defaulted (.oneOf GatePolicy.names),
    .of "buffer_capacity" .defaulted .word,
    .of "duplicate_threshold" .defaulted .single,
    .of "relevance_threshold" .defaulted .single,
    .of "retrieval_limit" .defaulted .word,
    .of "cluster_id" .defaulted .text,
    .of "redact_persisted_logs" .defaulted .bool,
    .of "embedder" .defaulted .embedder,
    .of "vector_store" .defaulted VectorStoreConfig.read,
    .of "dedup_store" .defaulted DedupStoreConfig.read]

/-- **Reads a configuration.** -/
def read : Reader Config := fun d => do
  let fs ← Reader.record fields d
  let base : Config := {}
  let dedupWindow ← fs.get "dedup_window" (.optional .text) (.ok none)
  let gatePolicy ← fs.get "gate_failure_policy" (.oneOf GatePolicy.names) (.ok base.gatePolicy)
  let bufferCapacity ← fs.get "buffer_capacity" .word (.ok base.bufferCapacity)
  let duplicateThreshold ← fs.get "duplicate_threshold" .single (.ok base.duplicateThreshold)
  let relevanceThreshold ← fs.get "relevance_threshold" .single (.ok base.relevanceThreshold)
  let retrievalLimit ← fs.get "retrieval_limit" .word (.ok base.retrievalLimit)
  let clusterId ← fs.get "cluster_id" .text (.ok base.clusterId)
  let redactLogs ← fs.get "redact_persisted_logs" .bool (.ok base.redactLogs)
  let (provider, embedder) ← fs.get "embedder" .embedder (.ok (base.provider, base.embedder))
  let vectorStore ← fs.get "vector_store" VectorStoreConfig.read (.ok base.vectorStore)
  let dedupStore ← fs.get "dedup_store" DedupStoreConfig.read (.ok base.dedupStore)
  .ok ⟨dedupWindow, gatePolicy, bufferCapacity, duplicateThreshold, relevanceThreshold,
    retrievalLimit, clusterId, redactLogs, provider, embedder, vectorStore, dedupStore⟩

/-- The JSON form, if there is one. -/
def toJson? (c : Config) : Option Json := do
  let vectorStore ← c.vectorStore.toJson?
  some (.obj ((c.dedupWindow.map fun w => ("dedup_window", Json.str w)).toList
    ++ [("gate_failure_policy", .str c.gatePolicy.name),
      ("buffer_capacity", .ofNat c.bufferCapacity),
      ("duplicate_threshold", .ofSingle c.duplicateThreshold),
      ("relevance_threshold", .ofSingle c.relevanceThreshold),
      ("retrieval_limit", .ofNat c.retrievalLimit), ("cluster_id", .str c.clusterId),
      ("redact_persisted_logs", .bool c.redactLogs),
      ("embedder", .object (("provider", .str c.provider.name) :: c.embedder.toFields)),
      ("vector_store", vectorStore), ("dedup_store", c.dedupStore.toJson)]))

/-- Sets the number of dimensions of embedder and collection alike. -/
def withDims (c : Config) (dims : Nat) : Config :=
  { c with
    embedder := { c.embedder with dims }
    vectorStore := { c.vectorStore with dims } }

end Config

end IncidentMemory
