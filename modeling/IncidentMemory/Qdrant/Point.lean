import IncidentMemory.Memory.Record
import IncidentMemory.Qdrant.Uuid
import IncidentMemory.Qdrant.Value

/-!
# Points of Qdrant

Qdrant tells points apart by UUIDs or numbers, while records have ids of any text. The id of a
record is therefore turned into a UUID and kept, as it is, in the payload. `StoredPoint.ofPoint`
and `StoredPoint.toPoint` convert between the two.
-/

namespace IncidentMemory.Qdrant

/-- What the server tells points apart by. -/
inductive PointId where
  /-- A UUID. -/
  | uuid (text : String)
  /-- A number. -/
  | number (n : Nat)
  /-- An id that the server did not give. -/
  | absent
  deriving DecidableEq, Repr

/-- The text of an id. -/
def PointId.text : PointId → String
  | .uuid text => text
  | .number n => toString n
  | .absent => ""

/-- A payload of typed values. -/
abbrev TypedPayload := List (String × Value)

/-- The payload key under which the id of a record is kept. -/
def recordIdKey : String := "record_id"

/-- The namespace of the UUIDs made from ids. -/
def idSpace : Uuid := ⟨0x6b7562656d696e648000000000000001⟩

/-- **The UUID of a record's id**: itself if it is one, else one made from it. -/
def pointId (recordId : String) : String :=
  match Uuid.parse? recordId with
  | some u => u.render
  | none => (Uuid.ofName idSpace recordId).render

/-- A typed payload as a record's id, if it has one that is a text, and a payload of JSON values. -/
def splitPayload (payload : TypedPayload) : Option String × Payload :=
  let fields := Value.toFields payload
  ((fields.lookup recordIdKey).bind Json.text?, fields.filter fun f => f.1 ≠ recordIdKey)

/-- A payload and a record's id as a typed payload. -/
def joinPayload (recordId : String) (payload : Payload) : TypedPayload :=
  (Value.ofFields payload).filter (fun f => f.1 ≠ recordIdKey) ++ [(recordIdKey, .string recordId)]

/-- **A point as the server holds it.** -/
structure StoredPoint where
  /-- Its id. -/
  id : PointId
  /-- Its vector; the server may answer without one. -/
  vector : Option Embedding
  /-- Its payload. -/
  payload : TypedPayload

/-- The stored form of a point. -/
def StoredPoint.ofPoint (p : Point) : StoredPoint :=
  ⟨.uuid (pointId p.id), some p.vector, joinPayload p.id p.payload⟩

/-- The point of a stored form that was asked for by a record's id. -/
def StoredPoint.toPoint (p : StoredPoint) (recordId : String) : Point :=
  ⟨recordId, p.vector.getD [], (splitPayload p.payload).2⟩

/-- A point found by a search of the server. -/
structure FoundPoint where
  /-- Its id. -/
  id : PointId
  /-- Its score. -/
  score : Single
  /-- Its payload. -/
  payload : TypedPayload

/-- The hit that a found point is: under its record's id, or else under the server's. -/
def FoundPoint.toHit (p : FoundPoint) : Hit :=
  let (recordId, payload) := splitPayload p.payload
  ⟨recordId.getD p.id.text, p.score, payload⟩

end IncidentMemory.Qdrant
