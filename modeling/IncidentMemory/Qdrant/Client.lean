import IncidentMemory.Config.Basic
import IncidentMemory.Log
import IncidentMemory.Memory.Collections
import IncidentMemory.Net.Url
import IncidentMemory.Qdrant.Point

/-!
# A Qdrant server as a vector store

Every operation of a vector store is one request to the server. A `Server` answers a request, or
says why it could not; what is asked and what becomes of the answer is said here.
-/

namespace IncidentMemory.Qdrant

/-! ## Creation -/

/-- Where the server is, if nothing is said. -/
def defaultUrl : String := "http://localhost:6334"

/-- Where the server of a configuration is. -/
def urlOf (c : VectorStoreConfig) : String :=
  ((c.extra.get? "url").bind Json.text?).getD defaultUrl

/-- **Makes a client**, which is possible for every well-formed address; nobody is called yet. -/
def create (c : VectorStoreConfig) : Outcome Log.Event :=
  if isEndpoint (urlOf c) then
    .ok ⟨.debug, .qdrant, "Qdrant client created",
      [("url", .str (urlOf c)), ("collection", .str c.collection)]⟩
  else .error (.vectorStore "Failed to create Qdrant client: not an address" .vectorConnection)

/-! ## Requests -/

/-- A request. -/
inductive Request where
  /-- Is there a collection? -/
  | hasCollection (name : String)
  /-- Create a collection. -/
  | createCollection (name : String) (dims : Nat) (distance : Distance)
  /-- Put points in, and answer when they are there. -/
  | upsert (collection : String) (points : List StoredPoint)
  /-- Look for similar points, payloads included. -/
  | search (collection : String) (query : Embedding) (limit : Nat) (least : Option Single)
  /-- Answer with points, payloads and vectors included. -/
  | get (collection : String) (ids : List PointId)

/-- What a request is answered with. -/
def Request.Answer : Request → Type
  | .hasCollection _ => Bool
  | .createCollection .. => Unit
  | .upsert .. => Unit
  | .search .. => List FoundPoint
  | .get .. => List StoredPoint

/-- What a failed request is called. -/
def Request.complaint : Request → String
  | .hasCollection _ => "Failed to check collection"
  | .createCollection .. => "Failed to create collection"
  | .upsert .. => "Failed to upsert vectors"
  | .search .. => "Failed to search vectors"
  | .get .. => "Failed to get vector"

/-- A server: its answer to a request, or why there is none. -/
abbrev Server := (request : Request) → Except String request.Answer

/-- Asks a server. -/
def ask (server : Server) (request : Request) : Outcome request.Answer :=
  match server request with
  | .ok answer => .ok answer
  | .error reason => .error (.ofVectorStore s!"{request.complaint}: {reason}")

/-! ## Operations -/

/-- Creates a collection. -/
def createCollection (server : Server) (name : String) (dims : Nat) (distance : Distance) :
    Outcome Unit :=
  ask server (.createCollection name dims distance)

/-- Whether there is a collection. -/
def hasCollection (server : Server) (name : String) : Outcome Bool :=
  ask server (.hasCollection name)

/-- **Creates a collection if there is none**, and says whether it did. -/
def ensureCollection (server : Server) (name : String) (dims : Nat) (distance : Distance) :
    Outcome Bool := do
  if ← hasCollection server name then .ok false
  else
    createCollection server name dims distance
    .ok true

/-- **Puts points in.** -/
def upsert (server : Server) (collection : String) (points : List Point) : Outcome Unit :=
  ask server (.upsert collection (points.map StoredPoint.ofPoint))

/-- **Looks for similar points.** -/
def search (server : Server) (collection : String) (query : Embedding) (limit : Nat)
    (least : Option Single) : Outcome (List Hit) := do
  let found ← ask server (.search collection query limit least)
  .ok (found.map FoundPoint.toHit)

/-- **The point of a record's id**, if there is one. -/
def get (server : Server) (collection : String) (recordId : String) : Outcome (Option Point) := do
  let found ← ask server (.get collection [.uuid (pointId recordId)])
  .ok (found.head?.map (·.toPoint recordId))

end IncidentMemory.Qdrant
