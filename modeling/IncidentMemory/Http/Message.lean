import IncidentMemory.Http.ApiError
import IncidentMemory.Text.Utf8

/-!
# Requests and responses
-/

namespace IncidentMemory.Http

/-- **A request.** -/
structure Request where
  /-- The method. -/
  method : String
  /-- The target: a path, perhaps with a query, perhaps with a host in front. -/
  target : String
  /-- The headers, in order. -/
  headers : List (String × List UInt8) := []
  /-- The body. -/
  body : List UInt8 := []

namespace Request

/-- The first header of a name. -/
def header? (r : Request) (name : String) : Option (List UInt8) :=
  (r.headers.find? fun h => Text.eqIgnoringCase name h.1).map (·.2)

/-- The text of a header, if it is visible ASCII. -/
def headerText? (r : Request) (name : String) : Option String :=
  (r.header? name).bind fun bytes =>
    if bytes.all fun b => (0x20 ≤ b && b < 0x7F) || b = 0x09 then Text.decode? bytes else none

/-- The path of the target. -/
def path (r : Request) : String :=
  let cs := match r.target.toList with
    | '/' :: cs => '/' :: cs
    | cs =>
      match Text.splitAtLiteral "://".toList cs with
      | some (_, rest) =>
        match rest.dropWhile fun c => c ≠ '/' && c ≠ '?' && c ≠ '#' with
        | '/' :: path => '/' :: path
        | rest => '/' :: rest
      | none => cs
  String.ofList (cs.takeWhile fun c => c ≠ '?' && c ≠ '#')

end Request

/-- A body. -/
inductive Body where
  /-- A JSON value. -/
  | json (value : Json)
  /-- Text. -/
  | text (s : String)

/-- **A response.** -/
structure Response where
  /-- The status. -/
  status : Status
  /-- The headers, in order. -/
  headers : List (String × String) := []
  /-- The body. -/
  body : Body := .text ""

namespace Response

/-- A response with a JSON value. -/
def ofJson (status : Status) (value : Json) : Response :=
  ⟨status, [("content-type", "application/json")], .json value⟩

/-- A response with text. -/
def ofText (status : Status) (s : String) : Response :=
  ⟨status, [("content-type", "text/plain; charset=utf-8")], .text s⟩

/-- A response without a body. -/
def bare (status : Status) : Response :=
  { status }

/-- The response with further headers. -/
def withHeaders (r : Response) (more : List (String × String)) : Response :=
  { r with headers := r.headers ++ more }

/-- The response that an error is answered with. -/
def ofError (e : ApiError) : Response :=
  ofJson e.status e.body

end Response

end IncidentMemory.Http
