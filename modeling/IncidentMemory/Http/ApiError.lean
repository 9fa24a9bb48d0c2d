import IncidentMemory.Failure
import IncidentMemory.Http.Status
import IncidentMemory.Log

/-!
# Errors of the interface

An error answered to a client has a status, a code, a message and perhaps details. `ofFailure` says
which one a failure becomes: refused inputs and missing records are the client's, a shutdown makes
the service unavailable, a failing backend is a bad gateway, and anything else is internal. The last
two are also logged.
-/

namespace IncidentMemory.Http

/-- **An error answered to a client.** -/
structure ApiError where
  /-- The status of the answer. -/
  status : Status
  /-- The code for programs. -/
  code : String
  /-- The message for people. -/
  message : String
  /-- Further details. -/
  details : Option Json := none

namespace ApiError

/-- The request makes no sense. -/
def badRequest (message : String) : ApiError := ⟨400, "BAD_REQUEST", message, none⟩

/-- There is no such thing. -/
def notFound (message : String) : ApiError := ⟨404, "NOT_FOUND", message, none⟩

/-- Something went wrong inside. -/
def internal (message : String) : ApiError := ⟨500, "INTERNAL_ERROR", message, none⟩

/-- A value was refused. -/
def validation (message : String) : ApiError := ⟨422, "VALIDATION_ERROR", message, none⟩

/-- The service does not work at the moment. -/
def unavailable (message : String) : ApiError := ⟨503, "UNAVAILABLE", message, none⟩

/-- The error as one line. -/
def line (e : ApiError) : String :=
  s!"[{Status.line e.status}] {e.code}: {e.message}"

/-- The body of the answer. -/
def body (e : ApiError) : Json :=
  .obj [("error", .obj ([("code", .str e.code), ("message", .str e.message)]
    ++ (e.details.map fun d => ("details", d)).toList))]

/-- The error without details that a failure becomes, and what is logged about it. -/
def classify (f : Failure) : ApiError × List Log.Event :=
  match f with
  | .validation message code _ => (⟨422, code.text, message, none⟩, [])
  | .notFound message code _ => (⟨404, code.text, message, none⟩, [])
  | .cancelled operation => (unavailable s!"Shutting down, {operation} cancelled", [])
  | .bufferClosed => (unavailable "Memory consolidation has stopped", [])
  | .unsupportedProvider provider => (badRequest s!"Unsupported provider: {provider}", [])
  | f =>
    if f.isTransient then
      (⟨502, f.code.text, f.message, none⟩,
        [⟨.error, .serverFailure, "Backend failure", [("error", .str f.message)]⟩])
    else
      (⟨500, f.code.text, f.message, none⟩,
        [⟨.error, .serverFailure, "Internal failure", [("error", .str f.message)]⟩])

/-- **The error that a failure becomes**, with the failure's suggestion as details, and what is
logged about it. -/
def ofFailure (f : Failure) : ApiError × List Log.Event :=
  let (e, events) := classify f
  match f.suggestion with
  | some s => ({ e with details := some (.obj [("suggestion", .str s)]) }, events)
  | none => (e, events)

end ApiError

end IncidentMemory.Http
