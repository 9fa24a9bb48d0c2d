import IncidentMemory.Http.Rejection
import IncidentMemory.Text.Percent

/-!
# Routes

What the paths of the interface stand for, and which methods they know.
-/

namespace IncidentMemory.Http

/-- **What a path stands for.** -/
inductive Route where
  /-- The state of the service. -/
  | health
  /-- The incidents. -/
  | incidents
  /-- The resolutions. -/
  | resolutions
  /-- The memory of an id, which is written with escapes. -/
  | memory (escapedId : String)
  deriving DecidableEq, Repr

namespace Route

/-- The path of the state of the service. -/
def healthPath : String := "/health"

/-- **The route of a path**; no path stands for anything with a slash at its end. -/
def ofPath? (path : String) : Option Route :=
  if path = healthPath then some .health
  else if path = "/v1/incidents" then some .incidents
  else if path = "/v1/resolutions" then some .resolutions
  else
    match Text.dropLiteral? "/v1/memories/".toList path.toList with
    | some id => if id.isEmpty || id.contains '/' then none else some (.memory (String.ofList id))
    | none => none

/-- The methods that a route knows. -/
def methods : Route → List String
  | .health => ["GET", "HEAD"]
  | .incidents => ["POST"]
  | .resolutions => ["POST"]
  | .memory _ => ["GET", "HEAD"]

/-- Whether a route knows a method. -/
def allows (r : Route) (method : String) : Bool :=
  r.methods.contains method

/-- The header that says which methods a route knows. -/
def allowHeader (r : Route) : String × String :=
  ("allow", String.intercalate "," r.methods)

end Route

end IncidentMemory.Http
