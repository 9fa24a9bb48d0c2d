import IncidentMemory.Proofs.TypedValues

/-!
# Where the conversion of payloads loses something

There is one kind of number in JSON that a typed value cannot hold, an integer above
`2 ^ 63 - 1`. It becomes a double, and a double is not the integer it came from. So a
value is the same after both conversions exactly if there is no such integer in it, at
any depth, and likewise a payload that is kept next to a record's id.

The other way nothing is refused. A typed value is converted place by place: what is at
a path in the JSON value is the conversion of what is at that path in the typed one, and
it is `null` only where the typed value is null, has no type, or is a double that JSON
cannot write (`Qdrant.conversion_lossless_iff`).
-/

namespace IncidentMemory

/-! ## Integers in a value -/

namespace Json

/-- **An integer occurs in a value**, at some depth. -/
inductive Holds (i : Int) : Json → Prop where
  /-- The value is the integer, -/
  | here (inRange : -9223372036854775808 ≤ i ∧ i < 18446744073709551616) :
    Holds i (.num (.int i inRange))
  /-- or it occurs in an item -/
  | item {items : List Json} {v : Json} (mem : v ∈ items) (h : Holds i v) : Holds i (.arr items)
  /-- or in a field. -/
  | field {fields : List (String × Json)} {f : String × Json} (mem : f ∈ fields)
    (h : Holds i f.2) : Holds i (.obj fields)

variable {i : Int}

theorem holds_int_iff {j : Int} (inRange : -9223372036854775808 ≤ j ∧ j < 18446744073709551616) :
    Holds i (.num (.int j inRange)) ↔ i = j := by
  constructor
  · rintro ⟨⟩
    rfl
  · rintro rfl
    exact .here inRange

theorem holds_arr_iff {items : List Json} : Holds i (.arr items) ↔ ∃ v ∈ items, Holds i v := by
  constructor
  · rintro ⟨⟩
    exact ⟨_, ‹_›, ‹_›⟩
  · rintro ⟨v, hv, h⟩
    exact .item hv h

theorem holds_obj_iff {fields : List (String × Json)} :
    Holds i (.obj fields) ↔ ∃ f ∈ fields, Holds i f.2 := by
  constructor
  · rintro ⟨⟩
    exact ⟨_, ‹_›, ‹_›⟩
  · rintro ⟨f, hf, h⟩
    exact .field hf h

mutual

/-- **The integers of a value fit** if each of those that occur in it does. -/
theorem isSigned_iff : ∀ v : Json, v.isSigned = true ↔ ∀ i, v.Holds i → i ≤ 9223372036854775807
  | .null => iff_of_true rfl fun _ h => nomatch h
  | .bool _ => iff_of_true rfl fun _ h => nomatch h
  | .str _ => iff_of_true rfl fun _ h => nomatch h
  | .num (.real x hx) => iff_of_true rfl fun _ h => nomatch h
  | .num (.int j hj) => by
    rw [isSigned, decide_eq_true_iff]
    simp only [holds_int_iff, forall_eq]
    omega
  | .arr items => by
    rw [isSigned, itemsSigned_iff]
    simp only [holds_arr_iff]
    exact ⟨fun h i ⟨v, hv, hi⟩ => h v hv i hi, fun h v hv i hi => h i ⟨v, hv, hi⟩⟩
  | .obj fields => by
    rw [isSigned, fieldsSigned_iff]
    simp only [holds_obj_iff]
    exact ⟨fun h i ⟨f, hf, hi⟩ => h f hf i hi, fun h f hf i hi => h i ⟨f, hf, hi⟩⟩

theorem itemsSigned_iff : ∀ items : List Json, itemsSigned items = true
    ↔ ∀ v ∈ items, ∀ i, v.Holds i → i ≤ 9223372036854775807
  | [] => iff_of_true rfl fun _ h => absurd h List.not_mem_nil
  | v :: vs => by
    rw [itemsSigned, Bool.and_eq_true, isSigned_iff v, itemsSigned_iff vs, List.forall_mem_cons]

theorem fieldsSigned_iff : ∀ fields : List (String × Json), fieldsSigned fields = true
    ↔ ∀ f ∈ fields, ∀ i, f.2.Holds i → i ≤ 9223372036854775807
  | [] => iff_of_true rfl fun _ h => absurd h List.not_mem_nil
  | (k, v) :: fs => by
    rw [fieldsSigned, Bool.and_eq_true, isSigned_iff v, fieldsSigned_iff fs, List.forall_mem_cons]

end

end Json

/-! ## Places in a value -/

/-- A step from a value to one inside it. -/
inductive PathStep where
  /-- To an item, by its position. -/
  | item (index : Nat)
  /-- To a field, by its key. -/
  | field (key : String)

/-- The value one step inside. -/
def Json.inside? : Json → PathStep → Option Json
  | .arr items, .item index => items[index]?
  | .obj fields, .field key => fields.lookup key
  | _, _ => none

/-- **The value at a path.** -/
def Json.at? (v : Json) : List PathStep → Option Json
  | [] => some v
  | s :: path => (v.inside? s).bind fun w => w.at? path

namespace Qdrant

namespace Value

/-- The typed value one step inside. -/
def inside? : Value → PathStep → Option Value
  | .list items, .item index => items[index]?
  | .struct fields, .field key => fields.lookup key
  | _, _ => none

/-- **The typed value at a path.** -/
def at? (v : Value) : List PathStep → Option Value
  | [] => some v
  | s :: path => (v.inside? s).bind fun w => w.at? path

/-- **A typed value that JSON has no other value for than null.** -/
inductive IsNull : Value → Prop where
  /-- Null itself, -/
  | null : IsNull .null
  /-- a value without a type, -/
  | untyped : IsNull .untyped
  /-- and an infinity or not-a-number. -/
  | double (x : Float) (h : x.isFinite = false) : IsNull (.double x)

theorem toItems_getElem? (items : List Value) (index : Nat) :
    (toItems items)[index]? = items[index]?.map toJson := by
  induction items generalizing index with
  | nil => rw [toItems]; rfl
  | cons v vs ih =>
    rw [toItems]
    cases index with
    | zero => rfl
    | succ index => exact ih index

theorem lookup_toFields (fields : List (String × Value)) (key : String) :
    (toFields fields).lookup key = (fields.lookup key).map toJson := by
  induction fields with
  | nil => rw [toFields]; rfl
  | cons f fs ih =>
    obtain ⟨k, v⟩ := f
    rw [toFields, List.lookup_cons, List.lookup_cons]
    split
    · rfl
    · exact ih

/-- A double becomes a number or null. -/
theorem toJson_double (x : Float) :
    toJson (.double x) = .null ∧ x.isFinite = false
      ∨ ∃ hx : x.isFinite = true, toJson (.double x) = .num (.real x hx) := by
  rw [toJson, Json.ofFloat]
  by_cases hx : x.isFinite = true
  · exact Or.inr ⟨hx, dif_pos hx⟩
  · exact Or.inl ⟨dif_neg hx, Bool.eq_false_iff.mpr hx⟩

/-- One step inside, before or after the conversion. -/
theorem inside?_toJson (v : Value) (s : PathStep) :
    (toJson v).inside? s = (v.inside? s).map toJson := by
  cases v with
  | untyped => rw [toJson]; rfl
  | null => rw [toJson]; rfl
  | bool b => rw [toJson]; rfl
  | int i h => rw [toJson]; rfl
  | string t => rw [toJson]; rfl
  | double x =>
    obtain ⟨heq, -⟩ | ⟨hx, heq⟩ := toJson_double x
    · rw [heq]; rfl
    · rw [heq]; rfl
  | list items =>
    rw [toJson]
    cases s with
    | item index => exact toItems_getElem? items index
    | field key => rfl
  | struct fields =>
    rw [toJson]
    cases s with
    | item index => rfl
    | field key => exact lookup_toFields fields key

/-- **The conversion goes place by place.** -/
theorem at?_toJson (v : Value) (path : List PathStep) :
    (toJson v).at? path = (v.at? path).map toJson := by
  induction path generalizing v with
  | nil => rfl
  | cons s path ih =>
    rw [Json.at?, at?, inside?_toJson]
    cases v.inside? s with
    | none => rfl
    | some w => exact ih w

/-- **What becomes null.** -/
theorem toJson_eq_null_iff (v : Value) : toJson v = .null ↔ v.IsNull := by
  constructor
  · intro h
    cases v with
    | untyped => exact .untyped
    | null => exact .null
    | double x =>
      obtain ⟨-, hx⟩ | ⟨hx, heq⟩ := toJson_double x
      · exact .double x hx
      · exact nomatch heq.symm.trans h
    | bool b => rw [toJson] at h; cases h
    | int i hi => rw [toJson] at h; cases h
    | string t => rw [toJson] at h; cases h
    | list items => rw [toJson] at h; cases h
    | struct fields => rw [toJson] at h; cases h
  · rintro (_ | _ | ⟨x, hx⟩)
    · rw [toJson]
    · rw [toJson]
    · obtain ⟨heq, -⟩ | ⟨hx', -⟩ := toJson_double x
      · exact heq
      · exact Bool.noConfusion (hx.symm.trans hx')

/-! ## What survives both conversions -/

/-- An integer that does not fit becomes a double or null, and so no integer. -/
theorem isSigned_of_toJson_ofNumber {n : JsonNumber} (h : toJson (ofNumber n) = .num n) :
    (Json.num n).isSigned = true := by
  cases n with
  | real x hx => rfl
  | int i hi =>
    by_cases hfits : i < 9223372036854775808
    · exact decide_eq_true hfits
    · rw [ofNumber, dif_neg hfits] at h
      obtain ⟨heq, -⟩ | ⟨hx, heq⟩ := toJson_double (Number.double i)
      · rw [heq] at h
        simp at h
      · rw [heq] at h
        simp at h

mutual

/-- **Only integers that fit survive.** -/
theorem isSigned_of_toJson_ofJson : ∀ v : Json, toJson (ofJson v) = v → v.isSigned = true
  | .null, _ => rfl
  | .bool _, _ => rfl
  | .str _, _ => rfl
  | .num n, h => by
    rw [ofJson] at h
    exact isSigned_of_toJson_ofNumber h
  | .arr items, h => by
    rw [ofJson, toJson] at h
    rw [Json.isSigned]
    exact itemsSigned_of_toItems_ofItems items (Json.arr.inj h)
  | .obj fields, h => by
    rw [ofJson, toJson] at h
    rw [Json.isSigned]
    exact fieldsSigned_of_toFields_ofFields fields (Json.obj.inj h)

theorem itemsSigned_of_toItems_ofItems : ∀ items : List Json,
    toItems (ofItems items) = items → Json.itemsSigned items = true
  | [], _ => rfl
  | v :: vs, h => by
    rw [ofItems, toItems, List.cons.injEq] at h
    rw [Json.itemsSigned, isSigned_of_toJson_ofJson v h.1,
      itemsSigned_of_toItems_ofItems vs h.2]
    rfl

theorem fieldsSigned_of_toFields_ofFields : ∀ fields : List (String × Json),
    toFields (ofFields fields) = fields → Json.fieldsSigned fields = true
  | [], _ => rfl
  | (k, v) :: fs, h => by
    rw [ofFields, toFields, List.cons.injEq, Prod.mk.injEq] at h
    rw [Json.fieldsSigned, isSigned_of_toJson_ofJson v h.1.2,
      fieldsSigned_of_toFields_ofFields fs h.2]
    rfl

end

/-- **A value survives** if and only if the integers in it fit. -/
theorem toJson_ofJson_iff (v : Json) :
    toJson (ofJson v) = v ↔ ∀ i, v.Holds i → i ≤ 9223372036854775807 := by
  rw [← Json.isSigned_iff]
  exact ⟨isSigned_of_toJson_ofJson v, toJson_ofJson v⟩

end Value

/-- **A payload survives next to a record's id** if and only if the integers in it fit. -/
theorem splitPayload_ofPoint_iff {p : Point} (hfree : ∀ f ∈ p.payload, f.1 ≠ recordIdKey) :
    splitPayload (StoredPoint.ofPoint p).payload = (some p.id, p.payload)
      ↔ ∀ f ∈ p.payload, ∀ i, f.2.Holds i → i ≤ 9223372036854775807 := by
  have hstored : splitPayload (StoredPoint.ofPoint p).payload
      = (some p.id, Value.toFields (Value.ofFields p.payload)) :=
    splitPayload_joinPayload_of_free hfree p.id
  rw [hstored, Prod.mk.injEq, ← Json.fieldsSigned_iff]
  constructor
  · rintro ⟨-, h⟩
    exact Value.fieldsSigned_of_toFields_ofFields p.payload h
  · intro h
    exact ⟨rfl, Value.toFields_ofFields p.payload h⟩

/-- **Conversion is lossless exactly up to `2 ^ 63 - 1`.** A JSON value is the same after both
conversions if and only if no integer above that occurs in it, and so the point that a record is
kept as, if the record has no field of the name that its id has there, gives back the id always and
the payload if and only if no such integer occurs in a field. Every typed value is converted to
JSON: at each path there is just the conversion of what is at that path in the typed value, and
that is null only if it was null, had no type, or was a double that is not finite. -/
theorem conversion_lossless_iff (v : Json) {p : Point}
    (hfree : ∀ f ∈ p.payload, f.1 ≠ "record_id") (value : Value) (path : List PathStep) :
    (Value.toJson (Value.ofJson v) = v ↔ ∀ i, v.Holds i → i ≤ 9223372036854775807)
      ∧ (splitPayload (StoredPoint.ofPoint p).payload).1 = some p.id
      ∧ (splitPayload (StoredPoint.ofPoint p).payload = (some p.id, p.payload)
        ↔ ∀ f ∈ p.payload, ∀ i, f.2.Holds i → i ≤ 9223372036854775807)
      ∧ value.toJson.at? path = (value.at? path).map Value.toJson
      ∧ (value.toJson = .null ↔ value.IsNull) :=
  ⟨Value.toJson_ofJson_iff v, congrArg Prod.fst (splitPayload_joinPayload_of_free hfree p.id),
    splitPayload_ofPoint_iff hfree, Value.at?_toJson value path, Value.toJson_eq_null_iff value⟩

/-- A count that is the last to fit, inside a list. -/
def lastToFit : Json :=
  .obj [("counts", .arr [.null, .num (.int 9223372036854775807 (by decide))])]

/-- A point with a count that is the first not to fit. -/
def firstTooLarge : Point :=
  ⟨"INC-42", [], [("raw_log", .str "oom killed"),
    ("counts", .arr [.num (.int 9223372036854775808 (by decide))])]⟩

/-- The first count survives, the second does not, and infinity in a list becomes null. -/
theorem conversion_lossless_iff_lastToFit :
    (∀ f ∈ firstTooLarge.payload, f.1 ≠ "record_id")
      ∧ Value.toJson (Value.ofJson lastToFit) = lastToFit
      ∧ (splitPayload (StoredPoint.ofPoint firstTooLarge).payload).1 = some "INC-42"
      ∧ splitPayload (StoredPoint.ofPoint firstTooLarge).payload
        ≠ (some "INC-42", firstTooLarge.payload)
      ∧ (Value.list [.double (1 / 0)]).toJson.at? [.item 0]
        = ((Value.list [.double (1 / 0)]).at? [.item 0]).map Value.toJson
      ∧ (Value.list [.double (1 / 0)]).toJson ≠ .null := by
  have hfree : ∀ f ∈ firstTooLarge.payload, f.1 ≠ "record_id" := by decide
  obtain ⟨hvalue, hid, hpayload, hplace, hnull⟩ := conversion_lossless_iff lastToFit hfree
    (.list [.double (1 / 0)]) [.item 0]
  have hfits : lastToFit.isSigned = true := by decide
  refine ⟨hfree, hvalue.mpr (Json.isSigned_iff lastToFit |>.mp hfits), hid, fun h => ?_, hplace,
    fun h => nomatch hnull.mp h⟩
  have hlarge :
      (Json.arr [.num (.int 9223372036854775808 (by decide))]).Holds 9223372036854775808 :=
    .item List.mem_cons_self (.here (by decide))
  have hle := hpayload.mp h _ (List.mem_cons_of_mem _ List.mem_cons_self) _ hlarge
  exact absurd hle (by decide)

end Qdrant

end IncidentMemory
