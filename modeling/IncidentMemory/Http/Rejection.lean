import IncidentMemory.Http.MediaType
import IncidentMemory.Http.Message
import IncidentMemory.Json.Reader

/-!
# Rejections

Requests that never get to a handler, because their body or their path cannot be read. What is
wrong is said in plain text.
-/

namespace IncidentMemory.Http

/-- **Why a request was rejected.** -/
inductive Rejection where
  /-- Its body is not declared to be JSON. -/
  | notJson
  /-- Its body is too long. -/
  | tooLong
  /-- Its body is not well formed. -/
  | malformed
  /-- Its body has the wrong shape. -/
  | mismatch
  /-- Its path is not UTF-8. -/
  | badPath
  deriving DecidableEq, Repr

namespace Rejection

/-- The rejection for a fault in the body. -/
def ofFault : Fault → Rejection
  | .malformed => .malformed
  | .mismatch => .mismatch

/-- The response. -/
def response : Rejection → Response
  | .notJson => .ofText 415 "Expected request with `Content-Type: application/json`"
  | .tooLong => .ofText 413 "Failed to buffer the request body: length limit exceeded"
  | .malformed => .ofText 400
      s!"Failed to parse the request body as JSON: {Fault.malformed.message}"
  | .mismatch => .ofText 422
      s!"Failed to deserialize the JSON body into the target type: {Fault.mismatch.message}"
  | .badPath => .ofText 400 "Invalid URL: a path segment is not UTF-8"

end Rejection

/-- How long a body may be. -/
def maxBodyLength : Nat := 2 * 1024 * 1024

/-- **Reads the body of a request.** The declared type is looked at before the length, and that
before the content; what follows the first JSON value is not looked at. -/
def Request.readBody {α : Type} (r : Request) (read : Reader α) : Except Rejection α :=
  if !((r.headerText? "content-type").map isJsonType).getD false then .error .notJson
  else if maxBodyLength < r.body.length then .error .tooLong
  else
    match read (Json.readFirst r.body) with
    | .ok a => .ok a
    | .error fault => .error (.ofFault fault)

end IncidentMemory.Http
