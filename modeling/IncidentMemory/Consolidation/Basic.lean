import IncidentMemory.Config.Settings
import IncidentMemory.Routine

/-!
# Consolidation

A resolution becomes a memory unless its log is blank or the most similar memory there is scores at
or above the duplicate threshold. Secrets are masked only in what is stored: the embedding and the
decision rest on the log as it came.
-/

namespace IncidentMemory

/-- **What became of a resolution.** -/
inductive Consolidated where
  /-- Its log is blank. -/
  | skipped
  /-- A memory like it exists. -/
  | duplicate (existingId : String) (score : Single)
  /-- It is a memory now. -/
  | stored (id : String)
  deriving DecidableEq

/-- What is counted for it. -/
def Consolidated.counter : Consolidated → Counter
  | .skipped => .skipped
  | .duplicate .. => .duplicates
  | .stored _ => .stored

/-- **A consolidator.** -/
structure Consolidator where
  /-- How it decides. -/
  settings : ConsolidationSettings
  /-- The collection that memories go to. -/
  collection : String

namespace Consolidator

/-- An event about an incident's resolution. -/
def event (level : Log.Level) (message incidentId : String) (fields : List (String × Json) := []) :
    Log.Event :=
  ⟨level, .worker, message, ("incident_id", .str incidentId) :: fields⟩

/-- The memory record of a resolution, as it is stored. -/
def recordOf (c : Consolidator) (r : Resolution) (embedding : Embedding) (now : Timestamp) :
    MemoryRecord :=
  let record := MemoryRecord.ofResolution r embedding now
  if c.settings.redactLogs then record.redacted else record

/-- The memory that a resolution repeats, given the most similar memories there are, and what is
logged about the most similar one. -/
def repeated (c : Consolidator) (incidentId : String) (nearest : List Hit) :
    Log.Reported (Option Hit) :=
  match nearest.head? with
  | none => ⟨none, []⟩
  | some hit =>
    if c.settings.duplicateThreshold ≤ hit.score then
      ⟨some hit, [event .info "Similar memory already exists, skipping" incidentId
        [("existing_id", .str hit.id), ("score", .ofSingle hit.score),
          ("threshold", .ofSingle c.settings.duplicateThreshold)]]⟩
    else
      ⟨none, [event .debug "Nearest memory below duplicate threshold" incidentId
        [("nearest_id", .str hit.id), ("score", .ofSingle hit.score)]]⟩

/-- **Consolidates a resolution.** -/
def consolidate (c : Consolidator) (r : Resolution) : Procedure Consolidated := do
  if !r.hasLog then
    Routine.report (event .warn "Resolution has an empty raw log, skipping consolidation"
      r.incidentId [("code", .str FailureCode.emptyLog.text)])
    return .skipped
  let embedding ← Procedure.embedAs c.settings.dims r.rawLog
  let known := c.repeated r.incidentId (← Procedure.search embedding 1 none)
  known.events.forM fun e => Routine.report e
  match known.value with
  | some hit => return .duplicate hit.id hit.score
  | none =>
    let now ← Routine.perform .now
    Procedure.upsert [(c.recordOf r embedding now).toPoint]
    Routine.report (event .info "Memory stored" r.incidentId [("collection", .str c.collection)])
    return .stored r.incidentId

end Consolidator

end IncidentMemory
