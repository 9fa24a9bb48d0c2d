import IncidentMemory.Config.Settings
import IncidentMemory.Retrieval.Context
import IncidentMemory.Routine

/-!
# Retrieval

Before an incident is worked on, the goal of the work is enriched by what helped in similar cases.
The vector store is asked for similar memories, but its answer is checked again: what scores too low
or cannot be read is left out, and the rest is brought into order. Enrichment never fails; without
memories the goal stays as it is.
-/

namespace IncidentMemory

/-- **A retriever.** -/
structure Retriever where
  /-- How it decides. -/
  settings : RetrievalSettings

namespace Retriever

/-- An event about an incident. -/
def event (level : Log.Level) (message incidentId : String) (fields : List (String × Json) := []) :
    Log.Event :=
  ⟨level, .enrichment, message, ("incident_id", .str incidentId) :: fields⟩

/-- What is logged about a hit that is no memory. -/
def unreadableEvent (h : Hit) (f : Failure) : Log.Event :=
  ⟨.debug, .enrichment, "Skipping unreadable memory", [("memory_id", .str h.id),
    ("error", .str f.message)]⟩

/-- The hits that score high enough. -/
def relevantHits (r : Retriever) (hits : List Hit) : List Hit :=
  hits.filter fun h => r.settings.relevanceThreshold ≤ h.score

/-- The memories among hits. -/
def readable (hits : List Hit) : List ScoredMemory :=
  hits.filterMap fun h => (ScoredMemory.ofHit h).toOption

/-- What is logged about the other hits. -/
def unreadable (hits : List Hit) : List Log.Event :=
  hits.filterMap fun h =>
    match ScoredMemory.ofHit h with
    | .ok _ => none
    | .error f => some (unreadableEvent h f)

/-- **The memories to use of the hits of a search**: the most similar of those that score high
enough and can be read, best first. -/
def select (r : Retriever) (hits : List Hit) : List ScoredMemory :=
  ((readable (r.relevantHits hits)).mergeSort fun a b => b.score.totalLe a.score).take
    r.settings.limit

/-- **The memories that are relevant to an incident.** -/
def relevantMemories (r : Retriever) (i : Incident) : Procedure (List ScoredMemory) := do
  let embedding ← Procedure.embedAs r.settings.dims i.searchQuery
  let hits ← Procedure.search embedding r.settings.limit (some r.settings.relevanceThreshold)
  (unreadable (r.relevantHits hits)).forM fun e => Routine.report e
  return r.select hits

/-- **The goal with what helped in similar cases.** -/
def enrich (r : Retriever) (i : Incident) (goal : String) : Routine String := do
  match ← (r.relevantMemories i).run with
  | .ok [] =>
    Routine.report (event .info "No relevant memories found" i.id)
    return goal
  | .ok (best :: others) =>
    let memories := best :: others
    Routine.report (event .info "Found relevant memories" i.id
      [("count", .ofNat memories.length), ("top_score", .ofSingle best.score)])
    return goal ++ Retrieval.contextBlock (memories.map (·.record))
  | .error f =>
    Routine.report (event .warn "Memory lookup failed, continuing without enrichment" i.id
      [("error", .str f.message)])
    return goal

end Retriever

end IncidentMemory
