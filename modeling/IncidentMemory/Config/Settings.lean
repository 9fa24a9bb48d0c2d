import IncidentMemory.Config.Basic
import IncidentMemory.Log
import IncidentMemory.Time.Duration

/-!
# Settings

The values the pipeline runs with, derived from a configuration. A value that is missing or makes no
sense never prevents a start: it is replaced, and each replacement is reported by one warning.

A `Checked` value is a value together with the warnings it took to get it. The settings of a
configuration are put together from checked parts in a fixed order, which is the order of the
warnings.
-/

namespace IncidentMemory

/-- A value and the warnings about it. -/
structure Checked (α : Type) where
  /-- The value. -/
  value : α
  /-- The warnings, in order. -/
  warnings : List Log.Event

/-- How the consolidation decides. -/
structure ConsolidationSettings where
  /-- The similarity from which on a log counts as known. -/
  duplicateThreshold : Single
  /-- How many dimensions an embedding must have. -/
  dims : Nat
  /-- Whether secrets are masked in what is kept. -/
  redactLogs : Bool
  deriving DecidableEq

/-- How relevant memories are looked for. -/
structure RetrievalSettings where
  /-- The similarity from which on a memory is relevant. -/
  relevanceThreshold : Single
  /-- How many memories are used at most. -/
  limit : Nat
  /-- How many dimensions an embedding must have. -/
  dims : Nat
  deriving DecidableEq

/-- **Settings.** -/
structure Settings where
  /-- How long an incident suppresses its repetitions. -/
  dedupWindow : Duration
  /-- What the gate does when the dedup store fails. -/
  gatePolicy : GatePolicy
  /-- How many resolutions the buffer holds. -/
  bufferCapacity : Nat
  /-- How many dimensions embeddings have. -/
  dims : Nat
  /-- The cluster that resolutions are recorded for. -/
  clusterId : String
  /-- How the consolidation decides. -/
  consolidation : ConsolidationSettings
  /-- How relevant memories are looked for. -/
  retrieval : RetrievalSettings
  deriving DecidableEq

/-- The dedup window if nothing else is said: five minutes. -/
def defaultDedupWindow : Duration := .ofSeconds 300

namespace Settings

/-- A warning about the configuration. -/
def warning (message : String) (fields : List (String × Json)) : Log.Event :=
  ⟨.warn, .config, message, fields⟩

/-- The default window as it is reported. -/
def defaultMinutes : String × Json :=
  ("default_minutes", .ofNat (defaultDedupWindow.seconds / 60))

/-- **The dedup window** that a text denotes. -/
def dedupWindowOf : Option String → Checked Duration
  | none =>
    ⟨defaultDedupWindow, [warning "Dedup window not configured, using default" [defaultMinutes]]⟩
  | some raw =>
    match Duration.parse raw with
    | some d => ⟨d, []⟩
    | none => ⟨defaultDedupWindow,
        [warning "Dedup window is invalid, using default" [("value", .str raw), defaultMinutes]]⟩

/-- **A number that must be positive**, or its default. -/
def positiveOr (default : Nat) (complaint : String) (n : Nat) : Checked Nat :=
  if n = 0 then ⟨default, [warning complaint [("default", .ofNat default)]]⟩ else ⟨n, []⟩

/-- **A threshold**, which lies between zero and one. -/
def thresholdOf (name : String) (default value : Single) : Checked Single :=
  if value.isNaN then
    ⟨default, [warning "Threshold is not a number, using default"
      [("setting", .str name), ("default", .ofSingle default)]]⟩
  else if Single.zero ≤ value ∧ value ≤ Single.one then ⟨value, []⟩
  else
    let clamped := if value < Single.zero then Single.zero else Single.one
    ⟨clamped, [warning "Threshold out of range, clamping"
      [("setting", .str name), ("value", .ofSingle value), ("clamped", .ofSingle clamped)]]⟩

/-- **The number of dimensions.** The collection's counts, whatever the embedder's is. -/
def dimsOf (embedder collection : Nat) : Checked Nat :=
  ⟨collection,
    if embedder = collection then []
    else [warning "Embedder and collection dimensions differ, the collection dimension wins"
      [("embedder_dims", .ofNat embedder), ("collection_dims", .ofNat collection)]]⟩

end Settings

open Settings in
/-- **The settings of a configuration**, with a warning for every value that was replaced. -/
def Config.settings (c : Config) : Checked Settings :=
  let dims := dimsOf c.embedder.dims c.vectorStore.dims
  let window := dedupWindowOf c.dedupWindow
  let capacity := positiveOr defaultBufferCapacity
    "Buffer capacity must be positive, using default" c.bufferCapacity
  let duplicate := thresholdOf "duplicate_threshold" defaultDuplicateThreshold c.duplicateThreshold
  let relevance := thresholdOf "relevance_threshold" defaultRelevanceThreshold c.relevanceThreshold
  let limit := positiveOr defaultRetrievalLimit
    "Retrieval limit must be positive, using default" c.retrievalLimit
  ⟨{ dedupWindow := window.value
     gatePolicy := c.gatePolicy
     bufferCapacity := capacity.value
     dims := dims.value
     clusterId := c.clusterId
     consolidation := ⟨duplicate.value, dims.value, c.redactLogs⟩
     retrieval := ⟨relevance.value, limit.value, dims.value⟩ },
    dims.warnings ++ window.warnings ++ capacity.warnings ++ duplicate.warnings
      ++ relevance.warnings ++ limit.warnings⟩

end IncidentMemory
