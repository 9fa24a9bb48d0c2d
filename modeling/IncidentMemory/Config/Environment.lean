import IncidentMemory.Config.Settings

/-!
# The environment

Variables of the environment are laid over a configuration. A variable that is not set leaves its
field alone, and so does one whose value cannot be read, with a warning.
-/

namespace IncidentMemory

/-- An environment: the text of each variable that has one. -/
abbrev Environment := String → Option String

namespace Config

/-- The value of a variable that is read from its trimmed text, or the value it would replace. -/
def overlayParsed {α : Type} (env : Environment) (name : String)
    (parse : List Char → Option α) (current : α) : Checked α :=
  match env name with
  | none => ⟨current, []⟩
  | some raw =>
    match parse (Text.trimChars raw.toList) with
    | some value => ⟨value, []⟩
    | none => ⟨current, [Settings.warning "Ignoring unparsable environment variable"
        [("variable", .str name), ("value", .str raw)]]⟩

/-- The value of a variable that is a name, or the value it would replace. -/
def overlayNamed {α : Type} (env : Environment) (name : String) (parse : String → Option α)
    (label : α → String) (current : α) : Checked α :=
  match env name with
  | none => ⟨current, []⟩
  | some raw =>
    match parse raw with
    | some value => ⟨value, []⟩
    | none => ⟨current,
        [Settings.warning s!"Unknown {name}, keeping {label current}" [("value", .str raw)]]⟩

/-- The embedder part of the overlay. The key counts only for the provider it belongs to. -/
def overlayEmbedder (env : Environment) (provider : EmbedderProvider) (dims : Nat)
    (c : EmbedderConfig) : EmbedderConfig :=
  { c with
    model := (env "KUBEMIND_EMBEDDING_MODEL").getD c.model
    dims
    apiKey := if provider = .openAI then env "OPENAI_API_KEY" <|> c.apiKey else c.apiKey
    baseUrl := env "KUBEMIND_EMBEDDER_URL" <|> c.baseUrl }

/-- Sets a field among all that was said about the vector store. -/
def overlayExtra (env : Environment) (name key : String) (extra : Json) : Json :=
  match env name with
  | some raw => extra.withField key (.str raw)
  | none => extra

/-- The vector store part of the overlay. -/
def overlayVectorStore (env : Environment) (dims : Nat) (c : VectorStoreConfig) :
    VectorStoreConfig where
  provider := ((env "KUBEMIND_VECTOR_STORE").map VectorBackend.ofText).getD c.provider
  collection := (env "KUBEMIND_COLLECTION").getD c.collection
  dims
  extra := overlayExtra env "KUBEMIND_QDRANT_API_KEY" "api_key"
    (overlayExtra env "KUBEMIND_QDRANT_URL" "url" c.extra)

/-- The dedup store part of the overlay. -/
def overlayDedupStore (env : Environment) (c : DedupStoreConfig) : DedupStoreConfig where
  provider := ((env "KUBEMIND_DEDUP_STORE").map DedupBackend.ofText).getD c.provider
  url := env "KUBEMIND_REDIS_URL" <|> c.url

/-- **Lays an environment over a configuration.** -/
def overlay (env : Environment) (c : Config) : Checked Config :=
  let policy := overlayNamed env "KUBEMIND_GATE_FAILURE_POLICY" GatePolicy.parse? GatePolicy.name
    c.gatePolicy
  let capacity := overlayParsed env "KUBEMIND_BUFFER_CAPACITY" Number.readWord c.bufferCapacity
  let duplicate := overlayParsed env "KUBEMIND_DUPLICATE_THRESHOLD" Number.readSingle
    c.duplicateThreshold
  let relevance := overlayParsed env "KUBEMIND_RELEVANCE_THRESHOLD" Number.readSingle
    c.relevanceThreshold
  let limit := overlayParsed env "KUBEMIND_RETRIEVAL_LIMIT" Number.readWord c.retrievalLimit
  let provider := overlayNamed env "KUBEMIND_EMBEDDER" EmbedderProvider.parse?
    EmbedderProvider.label c.provider
  let dims := overlayParsed env "KUBEMIND_EMBEDDING_DIMS" Number.readWord c.vectorStore.dims
  ⟨{ c with
     dedupWindow := env "KUBEMIND_DEDUP_WINDOW" <|> c.dedupWindow
     gatePolicy := policy.value
     bufferCapacity := capacity.value
     duplicateThreshold := duplicate.value
     relevanceThreshold := relevance.value
     retrievalLimit := limit.value
     clusterId := (env "KUBEMIND_CLUSTER_ID").getD c.clusterId
     provider := provider.value
     embedder := overlayEmbedder env provider.value dims.value c.embedder
     vectorStore := overlayVectorStore env dims.value c.vectorStore
     dedupStore := overlayDedupStore env c.dedupStore },
    policy.warnings ++ capacity.warnings ++ duplicate.warnings ++ relevance.warnings
      ++ limit.warnings ++ provider.warnings ++ dims.warnings⟩

/-- The configuration of an environment alone. -/
def ofEnvironment (env : Environment) : Checked Config :=
  overlay env {}

/-! ## The usual place of the file -/

/-- A name inside a directory. -/
def inside (directory name : String) : String :=
  if directory.isEmpty then name
  else if directory.endsWith "/" then directory ++ name
  else directory ++ "/" ++ name

/-- **Where the configuration file is looked for**, given the home directory. -/
def defaultPath (home : String) : String :=
  inside (inside home ".kubemind") "config.toml"

end Config

end IncidentMemory
