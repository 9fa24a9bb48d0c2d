import IncidentMemory.Config.Settings
import IncidentMemory.Embedder.Client
import IncidentMemory.Qdrant.Client
import IncidentMemory.Redis.Client

/-!
# Backends

The three services that the pipeline rests on: who computes embeddings, where memories are kept and
where the gate keeps its markers. `Backends.create` makes them from a configuration, one after
another; the first that cannot be made ends the attempt. Only a Redis server has to be reached for
that.
-/

namespace IncidentMemory

open Log (Reported)

/-- **The backends of a pipeline.** -/
structure Backends where
  /-- Who computes embeddings. -/
  embedder : EmbedderClient
  /-- Where memories are kept. -/
  vectorStore : VectorStoreConfig
  /-- Where the gate keeps its markers. -/
  dedupStore : DedupBackend

/-- Makes the client of an embedding provider. -/
def EmbedderClient.prepare (env : Environment) (provider : EmbedderProvider)
    (config : EmbedderConfig) : Reported (Outcome EmbedderClient) :=
  match create env provider config with
  | .ok client => ⟨.ok client, [client.createdEvent]⟩
  | .error f => ⟨.error f, []⟩

/-- What is logged when a vector store is there. -/
def VectorStoreConfig.createdEvent (c : VectorStoreConfig) : Log.Event :=
  ⟨.info, .vectorStoreChoice, "Vector store created", [("provider", .str c.provider.label),
    ("collection", .str c.collection), ("dims", .ofNat c.dims)]⟩

/-- Makes a vector store. -/
def VectorStoreConfig.prepare (c : VectorStoreConfig) : Reported (Outcome Unit) :=
  match c.provider with
  | .memory => ⟨.ok (), [c.createdEvent]⟩
  | .qdrant =>
    match Qdrant.create c with
    | .ok event => ⟨.ok (), [event, c.createdEvent]⟩
    | .error f => ⟨.error f, []⟩

/-- What is logged when a dedup store is there. -/
def DedupBackend.createdEvent (b : DedupBackend) : Log.Event :=
  ⟨.info, .dedupStoreChoice, "Dedup store created", [("backend", .str b.name)]⟩

/-- Makes a dedup store. `dial` tries to reach an address. -/
def DedupStoreConfig.prepare (dial : String → Except String Unit) (c : DedupStoreConfig) :
    Reported (Outcome Unit) :=
  match c.provider with
  | .memory =>
    ⟨.ok (),
      [⟨.warn, .dedupStoreChoice, "In-memory dedup store is not shared between replicas", []⟩,
        c.provider.createdEvent]⟩
  | .redis =>
    let url := c.url.getD Redis.defaultUrl
    match Redis.connect dial url with
    | .ok () => ⟨.ok (), [Redis.connectedEvent url, c.provider.createdEvent]⟩
    | .error f => ⟨.error f, []⟩

/-- **Makes the backends of a configuration.** The embedder has to produce what the settings say. -/
def Backends.create (env : Environment) (dial : String → Except String Unit) (config : Config)
    (settings : Settings) : Reported (Outcome Backends) :=
  let embedder := { config.embedder with dims := settings.dims }
  (EmbedderClient.prepare env config.provider embedder).andThen
    fun embedder => config.vectorStore.prepare.andThen
    fun () => (config.dedupStore.prepare dial).andThen
    fun () => ⟨.ok ⟨embedder, config.vectorStore, config.dedupStore.provider⟩, []⟩

end IncidentMemory
