import IncidentMemory.Background
import IncidentMemory.Http.Server

/-!
# The service

What a service is made of once its settings and backends are known. All its parts are derived from
that: the gate, the retriever, the consolidator, the pipeline and the interface.
-/

namespace IncidentMemory

/-- **What a service is made of.** -/
structure Service where
  /-- The settings. -/
  settings : Settings
  /-- The collection that memories go to. -/
  collection : String
  /-- The name of the dedup store. -/
  backend : String
  /-- The key that requests must show, if there is one. -/
  apiKey : Option String

namespace Service

/-- The gate. -/
def gate (s : Service) : Gate := ⟨s.settings.dedupWindow, s.settings.gatePolicy, s.backend⟩

/-- The retriever. -/
def retriever (s : Service) : Retriever := ⟨s.settings.retrieval⟩

/-- The consolidator. -/
def consolidator (s : Service) : Consolidator := ⟨s.settings.consolidation, s.collection⟩

/-- The pipeline. -/
def pipeline (s : Service) : Pipeline := ⟨s.gate, s.retriever, s.settings.clusterId⟩

/-- The interface. -/
def server (s : Service) : Http.Server := ⟨s.pipeline, s.apiKey⟩

/-- What a task in the background does. -/
def background (s : Service) : BackgroundTask → Routine Unit
  | .worker => s.consolidator.work
  | .supervisor => Background.supervise

end Service

end IncidentMemory
