import IncidentMemory.Routine

/-!
# Preparation of the memory collection

The collection is created at the start if it is missing. That it cannot be created does not prevent
the start; what needs the collection fails later.
-/

namespace IncidentMemory.Memory

/-- An event about the collection. -/
def preparationEvent (level : Log.Level) (message collection : String)
    (fields : List (String × Json) := []) : Log.Event :=
  ⟨level, .initializer, message, ("collection", .str collection) :: fields⟩

/-- **Creates the collection if it is missing**, and says whether it is known to exist then. -/
def prepareCollection (collection : String) (dims : Nat) : Routine Bool := do
  match ← (Procedure.ensureCollection collection dims .cosine).run with
  | .ok true =>
    Routine.report (preparationEvent .info "Created memory collection" collection
      [("dimension", .ofNat dims)])
    return true
  | .ok false =>
    Routine.report (preparationEvent .info "Memory collection already exists" collection)
    return true
  | .error f =>
    Routine.report (preparationEvent .error "Failed to initialize memory collection" collection
      [("error", .str f.message)])
    return false

end IncidentMemory.Memory
