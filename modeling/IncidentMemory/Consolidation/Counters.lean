import IncidentMemory.Json.Basic

/-!
# Counters of the consolidation

What the worker has done so far, and whether it runs.
-/

namespace IncidentMemory

/-- Whether the worker runs. -/
inductive WorkerState where
  /-- It has not been started. -/
  | idle
  /-- It runs. -/
  | running
  /-- It has ended. -/
  | stopped
  deriving DecidableEq, Repr

/-- A state's name. -/
def WorkerState.name : WorkerState → String
  | .idle => "idle"
  | .running => "running"
  | .stopped => "stopped"

/-- What is counted. -/
inductive Counter where
  /-- A resolution was taken from the buffer. -/
  | received
  /-- A memory was stored. -/
  | stored
  /-- A resolution was known already. -/
  | duplicates
  /-- A resolution had an empty log. -/
  | skipped
  /-- A resolution could not be consolidated. -/
  | failed
  deriving DecidableEq, Repr

/-- **The counters.** -/
structure Counters where
  /-- How many resolutions were taken from the buffer. -/
  received : Nat := 0
  /-- How many memories were stored. -/
  stored : Nat := 0
  /-- How many resolutions were known already. -/
  duplicates : Nat := 0
  /-- How many resolutions had an empty log. -/
  skipped : Nat := 0
  /-- How many resolutions could not be consolidated. -/
  failed : Nat := 0
  deriving DecidableEq, Repr

namespace Counters

/-- Counts one more. -/
def add (c : Counters) : Counter → Counters
  | .received => { c with received := c.received + 1 }
  | .stored => { c with stored := c.stored + 1 }
  | .duplicates => { c with duplicates := c.duplicates + 1 }
  | .skipped => { c with skipped := c.skipped + 1 }
  | .failed => { c with failed := c.failed + 1 }

/-- The counters by name. -/
def toJson (c : Counters) : Json :=
  .obj [("received", .ofNat c.received), ("stored", .ofNat c.stored),
    ("duplicates", .ofNat c.duplicates), ("skipped", .ofNat c.skipped),
    ("failed", .ofNat c.failed)]

/-- The counters as they are logged. -/
def line (c : Counters) : String :=
  s!"ConsolidationStats \x7b received: {c.received}, stored: {c.stored}, "
    ++ s!"duplicates: {c.duplicates}, skipped: {c.skipped}, failed: {c.failed} \x7d"

end Counters

end IncidentMemory
