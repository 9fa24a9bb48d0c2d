import IncidentMemory.Config.Settings
import IncidentMemory.Dedup.Markers
import IncidentMemory.Routine

/-!
# The gate

An incident passes the gate once in every window. Whether it has passed already is decided by one
call of the dedup store, which sets the incident's marker unless there is one; two callers can
therefore not both be let through. If the store fails, the policy decides.
-/

namespace IncidentMemory

/-- **A gate.** -/
structure Gate where
  /-- How long an incident suppresses its repetitions. -/
  window : Duration
  /-- What is done when the dedup store fails. -/
  policy : GatePolicy
  /-- The name of the dedup store. -/
  backend : String

namespace Gate

/-- An event about an incident. -/
def event (level : Log.Level) (message incidentId : String) (fields : List (String × Json) := []) :
    Log.Event :=
  ⟨level, .gate, message, ("incident_id", .str incidentId) :: fields⟩

/-- **Whether an incident has passed already.** If not, it passes now. -/
def isDuplicate (g : Gate) (incidentId : String) : Procedure Bool := do
  match ← (Procedure.setIfAbsent (Markers.keyOf incidentId) Markers.sentinel g.window).outcome with
  | .ok true =>
    Routine.report (event .debug "New incident, marker created" incidentId)
    return false
  | .ok false =>
    Routine.report (event .info "Duplicate incident suppressed" incidentId
      [("window_secs", .ofNat g.window.seconds)])
    return true
  | .error f =>
    match g.policy with
    | .failOpen =>
      Routine.report (event .warn "Dedup store unavailable, treating incident as new" incidentId
        [("backend", .str g.backend), ("error", .str f.message)])
      return false
    | .failClosed => throw f

end Gate

end IncidentMemory
