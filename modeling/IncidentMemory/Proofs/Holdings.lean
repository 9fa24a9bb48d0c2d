import IncidentMemory.Proofs.Consolidation
import IncidentMemory.Proofs.Identity
import IncidentMemory.Qdrant.Client
import Mathlib.Data.List.Find

/-!
# A Qdrant server and a store in memory, side by side

A server that holds one point per point id is driven through the client by
upserts and gets, and so is a store in memory. A get through the client answers
with what was last put in under *an* id of the record, a get from memory with
what was last put in under *that* id. So both answer alike to the end as long as
no record is called by two spellings of a UUID (`Held.run_eq`), and differ when
one is (`Held.run_spellings`).
-/

namespace IncidentMemory

/-- **What is done to a vector store.** -/
inductive Operation where
  /-- Points are put in. -/
  | upsert (points : List Point)
  /-- The point of an id is asked for. -/
  | get (id : String)

namespace Operation

/-- The points that an operation puts in. -/
def points : Operation → List Point
  | .upsert points => points
  | .get _ => []

/-- The ids that an operation uses. -/
def ids : Operation → List String
  | .upsert points => points.map (·.id)
  | .get id => [id]

/-- **The answers to operations**, if gets are answered by a function of what
has been put in. -/
def answers (found : List Point → String → Option Point) (past : List Point) :
    List Operation → List (Outcome (Option Point))
  | [] => []
  | .upsert points :: ops => .ok none :: answers found (past ++ points) ops
  | .get id :: ops => .ok (found past id) :: answers found past ops

/-- Two functions that agree on the ids in use answer alike. -/
theorem answers_congr {found found' : List Point → String → Option Point} {ids : List String}
    (h : ∀ past : List Point, (∀ p ∈ past, p.id ∈ ids) → ∀ id ∈ ids, found past id = found' past id)
    {ops : List Operation} (hops : ∀ id ∈ ops.flatMap Operation.ids, id ∈ ids) {past : List Point}
    (hpast : ∀ p ∈ past, p.id ∈ ids) : answers found past ops = answers found' past ops := by
  induction ops generalizing past with
  | nil => rfl
  | cons op ops ih =>
    rw [List.flatMap_cons] at hops
    have hrest := fun id hid => hops id (List.mem_append_right _ hid)
    cases op with
    | upsert points =>
      rw [answers, answers, ih hrest]
      intro p hp
      rcases List.mem_append.mp hp with hp | hp
      · exact hpast p hp
      · exact hops p.id (List.mem_append_left _ (List.mem_map_of_mem hp))
    | get id =>
      rw [answers, answers, ih hrest hpast,
        h past hpast id (hops id (List.mem_append_left _ List.mem_cons_self))]

end Operation

namespace Collections

/-- **The answers of a store in memory**, which stays as it is if it refuses
points. -/
def run : Collections → List Operation → List (Outcome (Option Point))
  | _, [] => []
  | s, .upsert points :: ops =>
    match s.upsert points with
    | .ok s' => .ok none :: run s' ops
    | .error f => .error f :: run s ops
  | s, .get id :: ops => s.get id :: run s ops

end Collections

/-- **What was last put in under an id.** -/
def lastUnder (past : List Point) (id : String) : Option Point :=
  past.reverse.find? (·.id == id)

theorem lastUnder_append (past new : List Point) (id : String) :
    lastUnder (past ++ new) id = (lastUnder new id).or (lastUnder past id) := by
  unfold lastUnder
  rw [List.reverse_append, List.find?_append]

theorem Collection.find?_insertAll (points new : List Point) (id : String) :
    (Collection.insertAll points new).find? (·.id == id)
      = (lastUnder new id).or (points.find? (·.id == id)) := by
  unfold lastUnder
  induction new generalizing points with
  | nil => rfl
  | cons p new ih =>
    show (insertAll (insertPoint p points) new).find? _ = _
    rw [ih, find?_insertPoint, List.reverse_cons, List.find?_append, List.find?_singleton,
      Option.or_assoc]
    by_cases h : p.id = id
    · simp [h]
    · simp [h]

theorem Collection.upsert_of_fits {col : Collection} {points : List Point}
    (h : ∀ p ∈ points, p.vector.length = col.dims) :
    col.upsert points = .ok { col with points := insertAll col.points points } := by
  unfold upsert
  have hcheck : points.forM (fun p => col.checkDims p.vector) = .ok () := by
    induction points with
    | nil => rfl
    | cons p points ih =>
      show (col.checkDims p.vector >>= fun _ => points.forM _) = _
      rw [ih fun q hq => h q (List.mem_cons_of_mem p hq)]
      unfold checkDims
      rw [if_pos (h p List.mem_cons_self)]
      rfl
  rw [hcheck]
  rfl

theorem Collections.upsert_of_fits {s : Collections} {col : Collection} {points : List Point}
    (hcol : s.current = .ok col) (h : ∀ p ∈ points, p.vector.length = col.dims) :
    s.upsert points
      = .ok (s.withCurrent { col with points := Collection.insertAll col.points points }) := by
  unfold upsert
  rw [hcol]
  show (col.upsert points >>= fun col' => .ok (s.withCurrent col')) = _
  rw [Collection.upsert_of_fits h]
  rfl

/-- **A store in memory answers with what was last put in under an id**, if all
points fit. -/
theorem Collections.run_eq_answers {s : Collections} {col : Collection} (hcol : s.current = .ok col)
    {past : List Point} (hpast : ∀ id, col.points.find? (·.id == id) = lastUnder past id)
    {ops : List Operation}
    (hfits : ∀ p ∈ ops.flatMap Operation.points, p.vector.length = col.dims) :
    s.run ops = Operation.answers lastUnder past ops := by
  induction ops generalizing s col past with
  | nil => rfl
  | cons op ops ih =>
    rw [List.flatMap_cons] at hfits
    have hrest := fun p hp => hfits p (List.mem_append_right _ hp)
    cases op with
    | upsert points =>
      have hpoints : ∀ p ∈ points, p.vector.length = col.dims := fun p hp =>
        hfits p (List.mem_append_left _ hp)
      have hnext := Collections.current_withCurrent hcol
        { col with points := Collection.insertAll col.points points }
      rw [run, Operation.answers, upsert_of_fits hcol hpoints]
      refine congrArg (Except.ok none :: ·) (ih hnext (fun id => ?_) hrest)
      rw [Collection.find?_insertAll, hpast, lastUnder_append]
    | get id =>
      rw [run, Operation.answers, ih hcol hpast hrest]
      unfold get
      rw [hcol]
      exact congrArg (fun found => Except.ok found :: _) (hpast id)

namespace Qdrant

/-! ## A server that holds points -/

/-- **What a server holds**: the point of each point id. -/
abbrev Held := PointId → Option StoredPoint

namespace Held

/-- Puts a point in, in place of the one of its point id. -/
def put (held : Held) (p : StoredPoint) : Held :=
  fun id => if id = p.id then some p else held id

/-- What is held after a request. -/
def after (held : Held) : Request → Held
  | .upsert _ points => points.foldl put held
  | _ => held

/-- **A server that answers from what it holds**, and in some other way where
that does not matter. -/
def server (held : Held) (other : Server) : Server
  | .upsert _ _ => .ok ()
  | .get _ ids => .ok (ids.filterMap held)
  | request => other request

/-- **The answers of the client** of a server, which it reaches under the name
of a collection. -/
def run (other : Server) (collection : String) :
    Held → List Operation → List (Outcome (Option Point))
  | _, [] => []
  | held, .upsert points :: ops =>
    (Qdrant.upsert (held.server other) collection points).map (fun _ => none)
      :: run other collection
        (held.after (.upsert collection (points.map StoredPoint.ofPoint))) ops
  | held, .get id :: ops =>
    Qdrant.get (held.server other) collection id :: run other collection held ops

end Held

/-- **What was last put in under an id of a record**, as the point of that id. -/
def lastOfRecord (past : List Point) (id : String) : Option Point :=
  (past.reverse.find? fun p => SameRecord p.id id).map fun p => { p with id }

/-- **A payload that is kept as it is**: no field has the name that the record's
id has there, and all integers fit. -/
def IsKept (payload : Payload) : Prop :=
  (∀ f ∈ payload, f.1 ≠ recordIdKey) ∧ Json.fieldsSigned payload = true

instance (payload : Payload) : Decidable (IsKept payload) :=
  inferInstanceAs (Decidable (_ ∧ _))

theorem toPoint_ofPoint {p : Point} (h : IsKept p.payload) (id : String) :
    (StoredPoint.ofPoint p).toPoint id = { p with id } := by
  unfold StoredPoint.toPoint StoredPoint.ofPoint
  simp only [splitPayload_joinPayload h.2 h.1, Option.getD_some]

/-- A server that holds the points of records, by the ids that are in use. -/
def Held.Holds (held : Held) (ids : List String) (past : List Point) : Prop :=
  ∀ id ∈ ids, held (.uuid (pointId id))
    = (past.reverse.find? fun p => SameRecord p.id id).map StoredPoint.ofPoint

variable {held : Held} {ids : List String} {past : List Point}

/-- **Putting in the point of a record** puts in the point of all its ids. -/
theorem Held.Holds.put (h : held.Holds ids past) (hmade : MadeApart ids) {p : Point}
    (hp : p.id ∈ ids) : (held.put (.ofPoint p)).Holds ids (past ++ [p]) := by
  intro id hid
  have hsame : PointId.uuid (pointId id) = (StoredPoint.ofPoint p).id ↔ SameRecord p.id id := by
    unfold StoredPoint.ofPoint
    rw [PointId.uuid.injEq, eq_comm, pointId_eq_iff_sameRecord hmade hp hid]
  unfold Held.put
  rw [List.reverse_append, List.reverse_singleton, List.singleton_append]
  by_cases h' : SameRecord p.id id
  · rw [if_pos (hsame.mpr h'), List.find?_cons_of_pos (by simpa using h'), Option.map_some]
  · rw [if_neg (mt hsame.mp h'), List.find?_cons_of_neg (by simpa using h'), h id hid]

theorem Held.Holds.after (h : held.Holds ids past) (hmade : MadeApart ids) (collection : String)
    {points : List Point} (hp : ∀ p ∈ points, p.id ∈ ids) :
    (held.after (.upsert collection (points.map StoredPoint.ofPoint))).Holds ids
      (past ++ points) := by
  show ((points.map StoredPoint.ofPoint).foldl Held.put held).Holds ids (past ++ points)
  induction points generalizing held past with
  | nil => rwa [List.append_nil]
  | cons p points ih =>
    rw [List.map_cons, List.foldl_cons, ← List.singleton_append, ← List.append_assoc]
    exact ih (h.put hmade (hp p List.mem_cons_self)) fun q hq => hp q (List.mem_cons_of_mem p hq)

/-- A get through the client finds what was last put in under an id of the
record. -/
theorem Held.Holds.get (h : held.Holds ids past) (hkept : ∀ p ∈ past, IsKept p.payload)
    (other : Server) (collection : String) {id : String} (hid : id ∈ ids) :
    Qdrant.get (held.server other) collection id = .ok (lastOfRecord past id) := by
  have hask : ask (held.server other) (.get collection [.uuid (pointId id)])
      = .ok ([PointId.uuid (pointId id)].filterMap held) := rfl
  unfold Qdrant.get lastOfRecord
  rw [hask, List.filterMap_cons, h id hid]
  cases hfind : past.reverse.find? fun p => decide (SameRecord p.id id) with
  | none => rfl
  | some p =>
    have hp := hkept p (List.mem_reverse.mp (List.mem_of_find?_eq_some hfind))
    exact congrArg (fun q => Except.ok (some q)) (toPoint_ofPoint hp id)

/-- **The client answers with what was last put in under an id of the record.** -/
theorem Held.Holds.run_eq_answers (h : held.Holds ids past) (hmade : MadeApart ids)
    (hkept : ∀ p ∈ past, IsKept p.payload) (other : Server) (collection : String)
    {ops : List Operation} (hids : ∀ id ∈ ops.flatMap Operation.ids, id ∈ ids)
    (hops : ∀ p ∈ ops.flatMap Operation.points, IsKept p.payload) :
    held.run other collection ops = Operation.answers lastOfRecord past ops := by
  induction ops generalizing held past with
  | nil => rfl
  | cons op ops ih =>
    rw [List.flatMap_cons] at hids hops
    have hids' := fun id hid => hids id (List.mem_append_right _ hid)
    have hops' := fun p hp => hops p (List.mem_append_right _ hp)
    cases op with
    | upsert points =>
      have hin : ∀ p ∈ points, p.id ∈ ids := fun p hp =>
        hids p.id (List.mem_append_left _ (List.mem_map_of_mem hp))
      have hall : ∀ p ∈ past ++ points, IsKept p.payload := by
        intro p hp
        rcases List.mem_append.mp hp with hp | hp
        · exact hkept p hp
        · exact hops p (List.mem_append_left _ hp)
      rw [Held.run, Operation.answers, ih (h.after hmade collection hin) hall hids' hops']
      rfl
    | get id =>
      rw [Held.run, Operation.answers, ih h hkept hids' hops',
        h.get hkept other collection (hids id (List.mem_append_left _ List.mem_cons_self))]

/-- Where no record is called by two ids, what was last put in under an id of a
record was put in under that id. -/
theorem lastOfRecord_eq_lastUnder (hspelled : ∀ a ∈ ids, ∀ b ∈ ids, SameRecord a b → a = b)
    (hpast : ∀ p ∈ past, p.id ∈ ids) {id : String} (hid : id ∈ ids) :
    lastOfRecord past id = lastUnder past id := by
  have hsame : ∀ p ∈ past.reverse, decide (SameRecord p.id id) = (p.id == id) := by
    intro p hp
    rw [beq_eq_decide, decide_eq_decide]
    exact ⟨hspelled p.id (hpast p (List.mem_reverse.mp hp)) id hid, Or.inl⟩
  unfold lastOfRecord lastUnder
  rw [List.find?_congr hsame]
  cases hfind : past.reverse.find? fun p => p.id == id with
  | none => rfl
  | some p =>
    obtain rfl : p.id = id := by simpa using List.find?_some hfind
    rfl

/-- **A Qdrant server and a store in memory.** Both start empty, and any upserts
and gets are done to both, where payloads are kept as they are and made UUIDs
are different from each other and from the ids in use.

The client answers every get with what was last put in under an id of the
record, that is under this id or another spelling of the same UUID. Two ids are
one point exactly if they are ids of one record. And the client answers as the
store in memory does, if the points fit that and no UUID is spelled in two
ways. -/
theorem Held.run_eq (other : Server) (collection : String) {s : Collections} {col : Collection}
    (hcol : s.current = .ok col) (hempty : col.points = []) (ops : List Operation)
    (hmade : MadeApart (ops.flatMap Operation.ids))
    (hkept : ∀ p ∈ ops.flatMap Operation.points, IsKept p.payload) :
    Held.run other collection (fun _ => none) ops = Operation.answers lastOfRecord [] ops
      ∧ (∀ a ∈ ops.flatMap Operation.ids, ∀ b ∈ ops.flatMap Operation.ids,
          pointId a = pointId b ↔ SameRecord a b)
      ∧ ((∀ p ∈ ops.flatMap Operation.points, p.vector.length = col.dims) →
          (∀ a ∈ ops.flatMap Operation.ids, ∀ b ∈ ops.flatMap Operation.ids,
            SameRecord a b → a = b) →
          Held.run other collection (fun _ => none) ops = s.run ops) := by
  have hholds : Held.Holds (fun _ => none) (ops.flatMap Operation.ids) [] := fun _ _ => rfl
  have hclient := hholds.run_eq_answers hmade (fun _ hp => absurd hp List.not_mem_nil) other collection
    (fun _ hid => hid) hkept
  refine ⟨hclient, fun a ha b hb => pointId_eq_iff_sameRecord hmade ha hb, fun hfits hspelled => ?_⟩
  have hmemory : s.run ops = Operation.answers lastUnder [] ops :=
    Collections.run_eq_answers hcol (fun id => by rw [hempty]; rfl) hfits
  rw [hclient, hmemory]
  exact Operation.answers_congr
    (fun past hpast id hid => lastOfRecord_eq_lastUnder hspelled hpast hid) (fun _ hid => hid)
    fun _ hp => absurd hp List.not_mem_nil

/-- A server that does nothing but hold points. -/
def unreachable : Server :=
  fun _ => .error "not implemented"

/-- A store in memory with an empty collection for vectors of two dimensions. -/
def emptyStore : Collections :=
  ⟨.usual, "memories", 2, [("memories", ⟨2, .cosine, []⟩)]⟩

/-- Two incidents, one of them twice, and a UUID. -/
def incidents : List Operation :=
  [.upsert [⟨"INC-42", [.one, .zero], [("raw_log", .str "oom killed")]⟩,
      ⟨"INC-43", [.zero, .one], [("tags", .arr [.str "oom", .ofNat 3])]⟩],
    .get "INC-42", .upsert [⟨"INC-42", [.zero, .one], [("raw_log", .str "evicted")]⟩],
    .get "INC-42", .get "2f1b6a0e-3c4d-4e5f-8a9b-0c1d2e3f4a5b"]

theorem Held.run_eq_incidents :
    (emptyStore.current = .ok ⟨2, .cosine, []⟩ ∧ MadeApart (incidents.flatMap Operation.ids)
        ∧ (∀ p ∈ incidents.flatMap Operation.points, IsKept p.payload)
        ∧ (∀ p ∈ incidents.flatMap Operation.points, p.vector.length = 2)
        ∧ ∀ a ∈ incidents.flatMap Operation.ids, ∀ b ∈ incidents.flatMap Operation.ids,
          SameRecord a b → a = b)
      ∧ Held.run unreachable "memories" (fun _ => none) incidents = emptyStore.run incidents := by
  have hmade : MadeApart (incidents.flatMap Operation.ids) :=
    ⟨by decide +kernel, by decide +kernel⟩
  have hkept : ∀ p ∈ incidents.flatMap Operation.points, IsKept p.payload := by decide
  have hfits : ∀ p ∈ incidents.flatMap Operation.points, p.vector.length = 2 := by decide
  have hspelled : ∀ a ∈ incidents.flatMap Operation.ids, ∀ b ∈ incidents.flatMap Operation.ids,
      SameRecord a b → a = b := by decide +kernel
  exact ⟨⟨rfl, hmade, hkept, hfits, hspelled⟩,
    (Held.run_eq unreachable "memories" rfl rfl incidents hmade hkept).2.2 hfits hspelled⟩

/-- A point put in under one spelling of a UUID and asked for under another. -/
def spellings : List Operation :=
  [.upsert [⟨"2F1B6A0E-3C4D-4E5F-8A9B-0C1D2E3F4A5B", [.one, .zero], []⟩],
    .get "2f1b6a0e-3c4d-4e5f-8a9b-0c1d2e3f4a5b"]

/-- **A get finds what was put in under another spelling of a UUID**, and does
not in memory. -/
theorem Held.run_spellings :
    MadeApart (spellings.flatMap Operation.ids)
      ∧ (∀ p ∈ spellings.flatMap Operation.points, IsKept p.payload)
      ∧ (Held.run unreachable "memories" (fun _ => none) spellings).map
          (fun answer => answer.toOption.join.isSome) = [false, true]
      ∧ (emptyStore.run spellings).map (fun answer => answer.toOption.join.isSome)
        = [false, false] :=
  ⟨⟨by decide +kernel, by decide +kernel⟩, by decide, by decide +kernel, by decide +kernel⟩

end Qdrant

end IncidentMemory
