import IncidentMemory.Proofs.Timestamps
import IncidentMemory.Proofs.TypedValues

/-!
# What is stored of a record is read as that record

A record has more than its point shows: its time is a text in the payload, and the
server keeps its id in the payload as well, under a name of its own. The four texts
and the vector come back as they are. So a record comes back, from a point and
from a stored point alike, if and only if its time does
(`MemoryRecord.restored_iff`). A time that is a whole second late is written as the
next second, and comes back as that (`MemoryRecord.not_restored_late`).
-/

namespace IncidentMemory

/-- The record of a stored point: under the id in its payload, or else under the
server's. -/
def Qdrant.StoredPoint.toRecord (p : Qdrant.StoredPoint) : Outcome MemoryRecord :=
  let (recordId, payload) := Qdrant.splitPayload p.payload
  MemoryRecord.ofPayload (recordId.getD p.id.text) (p.vector.getD []) payload

namespace MemoryRecord

variable (r : MemoryRecord)

/-- The texts in a record's point. -/
theorem text?_toPoint : r.toPoint.payload.text? "created_at" = some (r.createdAt.render .offset)
    ∧ r.toPoint.payload.text? "cluster_id" = some r.clusterId
    ∧ r.toPoint.payload.text? "namespace" = some r.namespaceName
    ∧ r.toPoint.payload.text? "raw_log" = some r.rawLog
    ∧ r.toPoint.payload.text? "resolution_action" = some r.resolutionAction := by
  simp [Payload.text?, toPoint, List.lookup_cons, Json.text?]

/-- What is read of a record's own payload. Only its time can differ. -/
theorem ofPayload_toPoint (id : String) (embedding : Embedding) :
    ofPayload id embedding r.toPoint.payload
      = match Timestamp.parse (r.createdAt.render .offset) with
        | some t => .ok { r with id := id, embedding := embedding, createdAt := t }
        | none => .error (.invalid s!"invalid created_at on '{id}': not a timestamp") := by
  have hneeded : ∀ {key text : String}, r.toPoint.payload.text? key = some text →
      neededText id r.toPoint.payload key = .ok text := by
    intro key text h
    unfold neededText
    rw [h]
  unfold ofPayload
  rw [hneeded (r.text?_toPoint.1), hneeded r.text?_toPoint.2.1, hneeded r.text?_toPoint.2.2.1,
    hneeded r.text?_toPoint.2.2.2.1, hneeded r.text?_toPoint.2.2.2.2]
  cases hparse : Timestamp.parse (r.createdAt.render .offset) with
  | none => simp only [bind, Except.bind, hparse]
  | some t => simp only [bind, Except.bind, hparse]

/-- **A record is read from its point** if its time can be read. -/
theorem ofPoint_toPoint_iff : ofPoint r.toPoint = .ok r
    ↔ r.createdAt.IsInstant ∧ 0 ≤ r.createdAt.year ∧ r.createdAt.year ≤ 9999 := by
  rw [← Timestamp.parse_render_iff .offset]
  unfold ofPoint
  rw [ofPayload_toPoint]
  cases h : Timestamp.parse (r.createdAt.render .offset) with
  | none => exact ⟨nofun, nofun⟩
  | some t =>
    constructor
    · intro hread
      exact congrArg (fun r => some r.createdAt) (Except.ok.inj hread)
    · intro htime
      rw [Option.some.inj htime]
      rfl

/-- The server's mapping takes nothing from a record's point. -/
theorem toRecord_ofPoint :
    (Qdrant.StoredPoint.ofPoint r.toPoint).toRecord = ofPoint r.toPoint := by
  have hsplit : Qdrant.splitPayload (Qdrant.joinPayload r.id r.toPoint.payload)
      = (some r.id, r.toPoint.payload) :=
    Qdrant.splitPayload_joinPayload rfl (by simp [toPoint, Qdrant.recordIdKey]) r.id
  show ofPayload ((Qdrant.splitPayload (Qdrant.joinPayload r.id r.toPoint.payload)).1.getD _)
    r.embedding (Qdrant.splitPayload (Qdrant.joinPayload r.id r.toPoint.payload)).2 = _
  rw [hsplit]
  rfl

/-- **A record comes back from storage**, as a point and as a stored point, if its
time is an instant of the years that are written with four digits, and not
otherwise. -/
theorem restored_iff :
    (ofPoint r.toPoint = .ok r
      ↔ r.createdAt.IsInstant ∧ 0 ≤ r.createdAt.year ∧ r.createdAt.year ≤ 9999)
    ∧ ((Qdrant.StoredPoint.ofPoint r.toPoint).toRecord = .ok r
      ↔ r.createdAt.IsInstant ∧ 0 ≤ r.createdAt.year ∧ r.createdAt.year ≤ 9999) :=
  ⟨ofPoint_toPoint_iff r, by rw [toRecord_ofPoint]; exact ofPoint_toPoint_iff r⟩

/-- A record of which the time is one and a half seconds after a second that is not the
last of its minute. -/
def late : MemoryRecord where
  id := "a"
  clusterId := "cluster"
  namespaceName := "namespace"
  rawLog := "oom killed"
  resolutionAction := "raise the limit"
  embedding := [.one]
  createdAt := ⟨30, 1500000000⟩

/-- **It does not come back**, but the same record half a second after the next second. -/
theorem not_restored_late :
    (0 ≤ late.createdAt.year ∧ late.createdAt.year ≤ 9999)
      ∧ ofPoint late.toPoint = .ok { late with createdAt := ⟨31, 500000000⟩ }
      ∧ (Qdrant.StoredPoint.ofPoint late.toPoint).toRecord
        = .ok { late with createdAt := ⟨31, 500000000⟩ }
      ∧ late.createdAt ≠ ⟨31, 500000000⟩ := by
  have hread : ofPoint late.toPoint = .ok { late with createdAt := ⟨31, 500000000⟩ } := by
    show ofPayload late.id late.embedding late.toPoint.payload = _
    have htime : Timestamp.parse (late.createdAt.render .offset) = some ⟨31, 500000000⟩ := by
      decide +kernel
    rw [ofPayload_toPoint, htime]
  exact ⟨by decide +kernel, hread, by rw [toRecord_ofPoint, hread], by decide⟩

end MemoryRecord

end IncidentMemory
