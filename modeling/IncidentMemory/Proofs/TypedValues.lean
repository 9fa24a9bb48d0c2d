import IncidentMemory.Qdrant.Point

/-!
# What a payload keeps as a typed value

A JSON integer goes up to `2 ^ 64 - 1` and a typed one only up to `2 ^ 63 - 1`;
what is above becomes a double. Apart from these integers a JSON value is what
it was once it has been made a typed value and back, at any depth, and so is a
payload next to the id that is kept in it.
-/

namespace IncidentMemory

namespace Json

mutual

/-- **Whether every integer in a value fits 64 bits with sign.** -/
def isSigned : Json → Bool
  | .num (.int i _) => decide (i < 9223372036854775808)
  | .arr items => itemsSigned items
  | .obj fields => fieldsSigned fields
  | _ => true

/-- `isSigned` of every item. -/
def itemsSigned : List Json → Bool
  | [] => true
  | v :: vs => v.isSigned && itemsSigned vs

/-- `isSigned` of every field. -/
def fieldsSigned : List (String × Json) → Bool
  | [] => true
  | (_, v) :: fs => v.isSigned && fieldsSigned fs

end

end Json

namespace Qdrant

namespace Value

/-- A number is the same number after both conversions, if it fits. -/
theorem toJson_ofNumber {n : JsonNumber} (h : (Json.num n).isSigned = true) :
    toJson (ofNumber n) = .num n := by
  cases n with
  | int i hi =>
    have hfits : i < 9223372036854775808 := by simpa [Json.isSigned] using h
    rw [ofNumber, dif_pos hfits, toJson]
  | real x hx =>
    rw [ofNumber, toJson, Json.ofFloat, dif_pos hx]

mutual

/-- **A value is the same value after both conversions**, if its integers fit. -/
theorem toJson_ofJson : ∀ v : Json, v.isSigned = true → toJson (ofJson v) = v
  | .null, _ => by rw [ofJson, toJson]
  | .bool b, _ => by rw [ofJson, toJson]
  | .num n, h => by rw [ofJson, toJson_ofNumber h]
  | .str s, _ => by rw [ofJson, toJson]
  | .arr items, h => by
    rw [Json.isSigned] at h
    rw [ofJson, toJson, toItems_ofItems items h]
  | .obj fields, h => by
    rw [Json.isSigned] at h
    rw [ofJson, toJson, toFields_ofFields fields h]

theorem toItems_ofItems : ∀ items : List Json, Json.itemsSigned items = true →
    toItems (ofItems items) = items
  | [], _ => by rw [ofItems, toItems]
  | v :: vs, h => by
    rw [Json.itemsSigned, Bool.and_eq_true] at h
    rw [ofItems, toItems, toJson_ofJson v h.1, toItems_ofItems vs h.2]

theorem toFields_ofFields : ∀ fields : List (String × Json), Json.fieldsSigned fields = true →
    toFields (ofFields fields) = fields
  | [], _ => by rw [ofFields, toFields]
  | (k, v) :: fs, h => by
    rw [Json.fieldsSigned, Bool.and_eq_true] at h
    rw [ofFields, toFields, toJson_ofJson v h.1, toFields_ofFields fs h.2]

end

/-! ## Fields by name -/

theorem toFields_append (fs gs : List (String × Value)) :
    toFields (fs ++ gs) = toFields fs ++ toFields gs := by
  induction fs with
  | nil => rw [List.nil_append, toFields, List.nil_append]
  | cons f fs ih =>
    obtain ⟨k, v⟩ := f
    rw [List.cons_append, toFields, ih, toFields, List.cons_append]

theorem map_fst_toFields_ofFields (fs : List (String × Json)) :
    (toFields (ofFields fs)).map Prod.fst = fs.map Prod.fst := by
  induction fs with
  | nil => rw [ofFields, toFields]
  | cons f fs ih =>
    obtain ⟨k, v⟩ := f
    rw [ofFields, toFields, List.map_cons, List.map_cons, ih]

theorem toFields_filter (p : String → Bool) (fs : List (String × Value)) :
    toFields (fs.filter fun f => p f.1) = (toFields fs).filter fun f => p f.1 := by
  induction fs with
  | nil => rw [List.filter_nil, toFields, List.filter_nil]
  | cons f fs ih =>
    obtain ⟨k, v⟩ := f
    rw [toFields, List.filter_cons, List.filter_cons]
    split
    · rw [toFields, ih]
    · exact ih

end Value

/-- **What is kept under a record's id** are the fields of a payload as they are after both
conversions, if it has no field of the name that the id has there. -/
theorem splitPayload_joinPayload_of_free {payload : Payload}
    (hfree : ∀ f ∈ payload, f.1 ≠ recordIdKey) (recordId : String) :
    splitPayload (joinPayload recordId payload)
      = (some recordId, Value.toFields (Value.ofFields payload)) := by
  have hback : ∀ f ∈ Value.toFields (Value.ofFields payload), f.1 ≠ recordIdKey := by
    intro f hf
    have hkey := List.mem_map_of_mem (f := Prod.fst) hf
    rw [Value.map_fst_toFields_ofFields] at hkey
    obtain ⟨g, hg, heq⟩ := List.mem_map.mp hkey
    exact heq ▸ hfree g hg
  generalize hfields : Value.toFields (Value.ofFields payload) = back at hback
  have hkeep : back.filter (fun f => f.1 ≠ recordIdKey) = back :=
    List.filter_eq_self.mpr fun f hf => decide_eq_true (hback f hf)
  have hjoined : Value.toFields (joinPayload recordId payload)
      = back ++ [(recordIdKey, .str recordId)] := by
    unfold joinPayload
    rw [Value.toFields_append, Value.toFields_filter (fun k => k ≠ recordIdKey), hfields, hkeep,
      Value.toFields, Value.toJson, Value.toFields]
  have hnone : back.lookup recordIdKey = none := by
    rw [List.lookup_eq_none_iff]
    exact fun f hf => bne_iff_ne.mpr (hback f hf).symm
  unfold splitPayload
  simp only [hjoined, List.lookup_append, hnone, Option.none_or, List.filter_append, hkeep]
  -- of the two parts the first has no field of that name and the second no other
  simp [Json.text?]

/-- **A payload is the same payload after it was kept under a record's id**, if
its integers fit and it has no field of the name that the id has there. -/
theorem splitPayload_joinPayload {payload : Payload} (hsigned : Json.fieldsSigned payload = true)
    (hfree : ∀ f ∈ payload, f.1 ≠ recordIdKey) (recordId : String) :
    splitPayload (joinPayload recordId payload) = (some recordId, payload) := by
  rw [splitPayload_joinPayload_of_free hfree, Value.toFields_ofFields payload hsigned]

end Qdrant

end IncidentMemory
