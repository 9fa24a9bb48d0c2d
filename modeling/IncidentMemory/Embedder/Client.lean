import IncidentMemory.Config.Environment
import IncidentMemory.Failure
import IncidentMemory.Http.Call
import IncidentMemory.Json.Reader
import IncidentMemory.Net.Url
import IncidentMemory.Vector

/-!
# Embedding providers

A client of an embedding provider turns a text into a call, and the reply to that call into an
embedding. `EmbedderClient.create` finds out what a provider needs before it can be called: an
address, and for two of the three a key.
-/

namespace IncidentMemory

/-- **A client of an embedding provider.** -/
structure EmbedderClient where
  /-- The provider. -/
  provider : EmbedderProvider
  /-- The model. -/
  model : String
  /-- How many dimensions its embeddings have. -/
  dims : Nat
  /-- Where calls go. -/
  endpoint : String
  /-- What the client proves its identity with. -/
  token : Option String
  deriving DecidableEq

/-- Who reports on a provider's calls. -/
def EmbedderProvider.part : EmbedderProvider → Log.Part
  | .vertexAI => .vertexAI
  | _ => .openai

namespace EmbedderConfig

/-- A configuration with the given model, all else by default. -/
def ofModel (model : String) (dims : Nat) : EmbedderConfig :=
  { model, dims }

/-- The usual model of an Ollama server. -/
def nomic : EmbedderConfig :=
  ofModel "nomic-embed-text" 768

/-- The usual model of Vertex AI, in a project. -/
def vertexAI (project : String) : EmbedderConfig :=
  { ofModel "text-embedding-004" 768 with projectId := some project }

end EmbedderConfig

namespace EmbedderClient

/-! ## Creation -/

/-- Where the OpenAI interface is. -/
def openAIBase : String := "https://api.openai.com/v1"

/-- Where an Ollama server is, if nothing is said. -/
def ollamaBase : String := "http://localhost:11434"

/-- The port of an Ollama server. -/
def ollamaPort : Nat := 11434

/-- The region of Vertex AI, if nothing is said. -/
def defaultLocation : String := "us-central1"

/-- A value that must be there, or the complaint that it is not. -/
def required (value : Option String) (complaint : String) : Outcome String :=
  match value with
  | some s => .ok s
  | none => .error (.configuration complaint)

/-- A client of the OpenAI interface. -/
def createOpenAI (env : Environment) (c : EmbedderConfig) : Outcome EmbedderClient := do
  let key ← required (c.apiKey <|> env "OPENAI_API_KEY") ("OpenAI API key not found. Set "
    ++ "OPENAI_API_KEY environment variable or provide api_key in config.")
  .ok ⟨.openAI, c.model, c.dims, c.baseUrl.getD openAIBase ++ "/embeddings", some key⟩

/-- A client of an Ollama server; of its address only scheme, host and port count. -/
def createOllama (c : EmbedderConfig) : Outcome EmbedderClient :=
  match Url.parse? (c.baseUrl.getD ollamaBase) with
  | none => .error (.configuration "Invalid Ollama URL: not an address")
  | some url =>
    let host := url.host.getD "localhost"
    .ok ⟨.ollama, c.model, c.dims,
      s!"{url.scheme}://{host}:{url.port.getD ollamaPort}/api/embed", none⟩

/-- A text without slashes at the end. -/
def withoutSlashes (s : String) : String :=
  String.ofList (s.toList.reverse.dropWhile (· = '/')).reverse

/-- A client of Vertex AI. -/
def createVertexAI (env : Environment) (c : EmbedderConfig) : Outcome EmbedderClient := do
  let project ← required (c.projectId <|> env "GCP_PROJECT_ID" <|> env "GOOGLE_CLOUD_PROJECT")
    "Vertex AI project not found. Set GCP_PROJECT_ID or provide project_id in config."
  let token ← required (c.apiKey <|> env "GOOGLE_ACCESS_TOKEN")
    ("Vertex AI access token not found. "
      ++ "Set GOOGLE_ACCESS_TOKEN or provide api_key in config.")
  let location := c.location.getD defaultLocation
  let base := match c.baseUrl with
    | some url => withoutSlashes url
    | none => s!"https://{location}-aiplatform.googleapis.com"
  .ok ⟨.vertexAI, c.model, c.dims, base ++ s!"/v1/projects/{project}/locations/{location}"
    ++ s!"/publishers/google/models/{c.model}:predict", some token⟩

/-- What is logged when a client is there. -/
def createdEvent (c : EmbedderClient) : Log.Event :=
  ⟨.info, .embedderChoice, "Embedder created", [("provider", .str c.provider.label),
    ("model", .str c.model), ("dims", .ofNat c.dims)]⟩

/-- **Creates a client.** -/
def create (env : Environment) (provider : EmbedderProvider) (config : EmbedderConfig) :
    Outcome EmbedderClient :=
  match provider with
  | .openAI => createOpenAI env config
  | .ollama => createOllama config
  | .vertexAI => createVertexAI env config

/-! ## Calls -/

/-- Whether a model of OpenAI can shorten its embeddings. -/
def shortens (model : String) : Bool :=
  (Text.dropLiteral? "text-embedding-3".toList model.toList).isSome

/-- The body of the call for a text. The OpenAI interface takes the number of dimensions as 32
bits. -/
def body (c : EmbedderClient) (text : String) : Json :=
  match c.provider with
  | .openAI => .obj ([("model", .str c.model), ("input", .str text)]
      ++ (if shortens c.model then [("dimensions", .ofNat (c.dims % 4294967296))] else []))
  | .ollama => .obj [("model", .str c.model), ("input", .str text)]
  | .vertexAI => .obj [("instances", .arr [.obj [("content", .str text)]]),
      ("parameters", .obj [("outputDimensionality", .ofNat c.dims)])]

/-- **The call that asks for the embedding of a text.** -/
def call (c : EmbedderClient) (text : String) : Http.Call :=
  ⟨"POST", c.endpoint, c.token.map ("Bearer " ++ ·), c.body text⟩

/-! ## Replies -/

/-- Reads an unsigned number of 32 bits. -/
def count32 : Reader Nat := Reader.nat 4294967295

/-- The embeddings in a reply of the OpenAI interface. -/
def readOpenAI : Reader (List Embedding) := fun d => do
  let item : Reader Fields := Reader.record [.of "index" .required count32,
    .of "object" .required .text, .of "embedding" .required (.list .single)]
  let usage : Reader Fields := Reader.record [.of "prompt_tokens" .required count32,
    .of "total_tokens" .required count32]
  let fs ← Reader.record [.of "object" .required .text, .of "model" .required .text,
    .of "data" .required (.list item), .of "usage" .required usage] d
  let data ← fs.need "data" (.list item)
  data.mapM fun item => item.need "embedding" (.list .single)

/-- The embeddings in a reply of an Ollama server. -/
def readOllama : Reader (List Embedding) := fun d => do
  let fs ← Reader.record [.of "embeddings" .required (.list (.list .single))] d
  fs.need "embeddings" (.list (.list .single))

/-- The embeddings in a reply of Vertex AI. -/
def readVertexAI : Reader (List Embedding) := fun d => do
  let values : Reader Fields := Reader.record [.of "values" .required (.list .single)]
  let prediction : Reader Fields := Reader.record [.of "embeddings" .required values]
  let fs ← Reader.record [.of "predictions" .defaulted (.list prediction)] d
  let predictions ← fs.get "predictions" (.list prediction) (.ok [])
  predictions.mapM fun p => do
    let e ← p.need "embeddings" values
    e.need "values" (.list .single)

/-- What a provider's failure is called. -/
def complaint : EmbedderProvider → String
  | .openAI => "OpenAI embedding error"
  | .ollama => "Ollama embedding error"
  | .vertexAI => "Invalid Vertex AI response"

/-- The failure when no reply came. -/
def unreached (provider : EmbedderProvider) (reason : String) : Failure :=
  match provider with
  | .vertexAI => .ofNetwork s!"Vertex AI request failed: {reason}"
  | p => .ofEmbedding s!"{complaint p}: {reason}"

/-- The failure when a reply reports one. -/
def refused (provider : EmbedderProvider) (reply : Http.Reply) : Failure :=
  let detail := Text.decodeLossy reply.body
  match provider with
  | .vertexAI =>
    .ofEmbedding s!"Vertex AI embedding error ({Http.Status.line reply.status}): {detail}"
  | p => .ofEmbedding s!"{complaint p}: {detail}"

/-- The reader of a provider's replies. -/
def reader : EmbedderProvider → Reader (List Embedding)
  | .openAI => readOpenAI
  | .ollama => readOllama
  | .vertexAI => readVertexAI

/-- **The embedding in a reply**: the first one. -/
def interpret (c : EmbedderClient) (reply : Except String Http.Reply) : Outcome Embedding :=
  match reply with
  | .error reason => .error (unreached c.provider reason)
  | .ok reply =>
    if !reply.status.isSuccess then .error (refused c.provider reply)
    else
      match Json.decode (reader c.provider) reply.body with
      | .error fault => .error (.ofEmbedding s!"{complaint c.provider}: {fault.message}")
      | .ok [] => .error (.ofEmbedding "No embedding returned")
      | .ok (e :: _) => .ok e

/-- What is logged about an embedding; an Ollama server's are not reported. -/
def interpretedEvents (c : EmbedderClient) (e : Embedding) : List Log.Event :=
  let event := fun (message : String) => Log.Event.mk .debug c.provider.part message
    [("model", .str c.model), ("dims", .ofNat e.length)]
  match c.provider with
  | .openAI => [event "OpenAI embedding generated"]
  | .vertexAI => [event "Vertex AI embedding generated"]
  | .ollama => []

end EmbedderClient

end IncidentMemory
