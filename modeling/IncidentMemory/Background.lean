import IncidentMemory.Consolidation.Worker

/-!
# The work in the background

The worker is started once, together with a supervisor that notices when it ends. A shutdown lets
the token fire and waits for the supervisor, and so for the worker.
-/

namespace IncidentMemory.Background

/-- An event about the background. -/
def event (level : Log.Level) (message : String) (fields : List (String × Json) := []) :
    Log.Event :=
  ⟨level, .runtime, message, fields⟩

/-- **Starts the worker.** Only the first attempt succeeds. -/
def start : Procedure Unit := do
  if !(← Routine.perform .takeReader) then
    throw (.internal "Memory consolidator already started")
  Routine.perform (.spawn .worker)
  Routine.perform (.setWorkerState .running)
  Routine.perform (.spawn .supervisor)
  Routine.report (event .info "Background consolidation started")

/-- **The supervisor**: notes that the worker has ended, and complains if nobody asked for it. -/
def supervise : Routine Unit := do
  Routine.ask (.join .worker)
  Routine.perform (.setWorkerState .stopped)
  if !(← Routine.perform .isStopping) then
    Routine.report (event .warn "Memory consolidator exited before shutdown")

/-- **Stops the worker** and waits until it has ended. -/
def shutdown : Routine Unit := do
  Routine.report (event .debug "Shutting down background consolidation")
  Routine.perform .stop
  if ← Routine.perform .takeSupervisor then
    Routine.ask (.join .supervisor)
  let counters ← Routine.perform .counters
  Routine.report (event .info "Background consolidation stopped" [("stats", .str counters.line)])

end IncidentMemory.Background
