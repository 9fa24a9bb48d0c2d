import IncidentMemory.Http.Status
import IncidentMemory.Json.Basic

/-!
# Calls to other services

A call over HTTP with a JSON body, and the reply. Why no reply came is a text.
-/

namespace IncidentMemory.Http

/-- A call. -/
structure Call where
  /-- The method. -/
  method : String
  /-- Where it goes. -/
  url : String
  /-- The `Authorization` header, if there is one. -/
  authorization : Option String
  /-- The body. -/
  body : Json

/-- A reply. -/
structure Reply where
  /-- The status. -/
  status : Status
  /-- The body. -/
  body : List UInt8
  deriving DecidableEq, Repr

end IncidentMemory.Http
