import IncidentMemory.Consolidation.Basic

/-!
# The worker

One worker takes resolutions from the buffer and consolidates them one after another, so that a
duplicate is never missed because two were looked at side by side. A resolution that cannot be
consolidated is counted and left behind, even if its consolidation breaks off. The worker ends when
the token fires, when a backend reports a cancellation, and when nobody can write any more.
-/

namespace IncidentMemory.Consolidator

/-- What the worker says about itself. -/
def workerEvent (message : String) (fields : List (String × Json) := []) : Log.Event :=
  ⟨.info, .worker, message, fields⟩

/-- **Consolidates a resolution taken from the buffer**, and says whether the worker goes on. -/
def handle (c : Consolidator) (r : Resolution) : Routine Bool := do
  Routine.perform (.count .received)
  match ← Routine.watching (c.consolidate r).run.caught with
  | none =>
    Routine.report (event .info "Shutdown during consolidation, item dropped" r.incidentId)
    return false
  | some (.done (.ok result)) =>
    Routine.perform (.count result.counter)
    return true
  | some (.done (.error f)) =>
    if f.isCancellation then
      Routine.report (event .info "Consolidation cancelled" r.incidentId)
      return false
    else
      Routine.perform (.count .failed)
      Routine.report (event .error "Failed to consolidate resolution" r.incidentId
        [("error", .str f.message), ("code", .str f.code.text)])
      return true
  | some (.brokenOff _) =>
    Routine.perform (.count .failed)
    Routine.report (event .error "Consolidation panicked, item dropped" r.incidentId)
    return true

/-- Takes up to `most` resolutions from the buffer. -/
def drain (c : Consolidator) : (most : Nat) → Routine Unit
  | 0 => return ()
  | most + 1 => do
    match ← Routine.watching (Routine.ask .receive) with
    | none => return ()
    | some none => Routine.report (workerEvent "Resolution buffer closed")
    | some (some r) => if ← c.handle r then c.drain most

/-- The worker counts what it receives in 64 bits, so this is how much it can take. -/
def mostReceived : Nat := Number.maxWord

/-- **The worker**, which lets the reader go when it ends. -/
def work (c : Consolidator) (most : Nat := mostReceived) : Routine Unit := do
  Routine.report (workerEvent "Memory consolidator started"
    [("duplicate_threshold", .ofSingle c.settings.duplicateThreshold)])
  c.drain most
  Routine.report (workerEvent "Memory consolidator stopped")
  Routine.perform .dropReader

end IncidentMemory.Consolidator
