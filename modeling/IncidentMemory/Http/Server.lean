import IncidentMemory.Http.Handlers

/-!
# The interface

A request passes several layers on its way to a handler. Outermost every answer is reported; then,
where a key is set, requests without it are turned away, the state of the service excepted; then
scripts of other origins are let in; innermost the request finds its route.
-/

namespace IncidentMemory.Http

/-- **The interface of a pipeline.** -/
structure Server where
  /-- The pipeline. -/
  pipeline : Pipeline
  /-- The key that requests must show, if there is one. -/
  apiKey : Option String

namespace Server

/-! ## Routing -/

/-- Runs the handler of a route that knows the method of the request. -/
def run (s : Server) (r : Request) (route : Route) : Routine Response := do
  let response ← (handler s.pipeline r route).run
  let response := match response with
    | .ok response => response
    | .error response => response
  return if r.method = "HEAD" then { response with body := .text "" } else response

/-- The answer of the routes. -/
def route (s : Server) (r : Request) : Routine Response :=
  match Route.ofPath? r.path with
  | none => return .bare 404
  | some route => if route.allows r.method then s.run r route else return .bare 405

/-! ## Other origins -/

/-- What tells a browser that any origin may ask. -/
def anyOrigin : List (String × String) := [("access-control-allow-origin", "*")]

/-- What tells a browser that any origin may ask by any method and with any header. -/
def anyAccess : List (String × String) :=
  anyOrigin ++ [("access-control-allow-methods", "*"), ("access-control-allow-headers", "*")]

/-- Lets scripts of other origins in; their browsers' inquiries are answered here. -/
def shared (s : Server) (r : Request) : Routine Response := do
  if r.method = "OPTIONS" then return (Response.bare 200).withHeaders anyAccess
  return (← s.route r).withHeaders anyOrigin

/-! ## Authentication -/

/-- The key that a request shows. -/
def presentedKey? (r : Request) : Option String :=
  (r.headerText? "authorization").bind fun value =>
    ((Text.dropLiteral? "Bearer ".toList value.toList)
      <|> (Text.dropLiteral? "Token ".toList value.toList)).map String.ofList

/-- **Whether a request shows the key.** The empty key lets nobody in. -/
def showsKey (key : String) (r : Request) : Bool :=
  !key.isEmpty && presentedKey? r == some key

/-- Whether a request is let in. -/
def admits (s : Server) (r : Request) : Bool :=
  match s.apiKey with
  | none => true
  | some key => r.path = Route.healthPath || showsKey key r

/-- **Turns away requests without the key.** -/
def authenticated (s : Server) (r : Request) : Routine Response := do
  if s.admits r then s.shared r
  else
    Routine.report ⟨.warn, .middleware, "Rejected unauthenticated request",
      [("path", .str r.path)]⟩
    return .bare 401

/-! ## Reports -/

/-- What is logged about an answer. -/
def completedEvent (r : Request) (status : Status) : Log.Event :=
  ⟨.info, .middleware, "Request completed", [("method", .str r.method), ("uri", .str r.target),
    ("status", .str (toString status)), ("duration_ms", .str "0")]⟩

/-- What a response says about the methods of a route that does not know the one asked for. -/
def allowed (r : Request) (response : Response) : Response :=
  match Route.ofPath? r.path with
  | some route =>
    if route.allows r.method then response else response.withHeaders [route.allowHeader]
  | none => response

/-- **Answers a request.** -/
def respond (s : Server) (r : Request) : Routine Response := do
  let response ← s.authenticated r
  Routine.report (completedEvent r response.status)
  return allowed r response

end Server

end IncidentMemory.Http
