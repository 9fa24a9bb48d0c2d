import IncidentMemory.Json.Basic

/-!
# Payload values of Qdrant

A Qdrant payload holds typed values: integers are signed and have 64 bits, all other numbers are
doubles, and a value may have no type at all. `ofJson` and `toJson` convert from and to JSON; what
JSON cannot write becomes `null`.
-/

namespace IncidentMemory.Qdrant

/-- **A typed value.** -/
inductive Value where
  /-- A value without a type. -/
  | untyped
  /-- Null. -/
  | null
  /-- A truth value. -/
  | bool (b : Bool)
  /-- An integer of 64 bits. -/
  | int (value : Int) (inRange : -9223372036854775808 ≤ value ∧ value < 9223372036854775808)
  /-- A double. -/
  | double (x : Float)
  /-- Text. -/
  | string (s : String)
  /-- A list. -/
  | list (items : List Value)
  /-- Values by name. -/
  | struct (fields : List (String × Value))

namespace Value

/-- The value of a number: an integer if it fits, else the nearest double. -/
def ofNumber : JsonNumber → Value
  | .int i h =>
    if fits : i < 9223372036854775808 then .int i ⟨h.1, fits⟩ else .double (Number.double i)
  | .real x _ => .double x

mutual

/-- **The value of a JSON value.** -/
def ofJson : Json → Value
  | .null => .null
  | .bool b => .bool b
  | .num n => ofNumber n
  | .str s => .string s
  | .arr items => .list (ofItems items)
  | .obj fields => .struct (ofFields fields)

/-- `ofJson` of every item. -/
def ofItems : List Json → List Value
  | [] => []
  | v :: vs => ofJson v :: ofItems vs

/-- `ofJson` of every field. -/
def ofFields : List (String × Json) → List (String × Value)
  | [] => []
  | (k, v) :: fs => (k, ofJson v) :: ofFields fs

end

mutual

/-- **The JSON value of a value.** -/
def toJson : Value → Json
  | .untyped => .null
  | .null => .null
  | .bool b => .bool b
  | .int i h => .num (.int i ⟨h.1, Int.lt_trans h.2 (by decide)⟩)
  | .double x => Json.ofFloat x
  | .string s => .str s
  | .list items => .arr (toItems items)
  | .struct fields => .obj (toFields fields)

/-- `toJson` of every item. -/
def toItems : List Value → List Json
  | [] => []
  | v :: vs => toJson v :: toItems vs

/-- `toJson` of every field. -/
def toFields : List (String × Value) → List (String × Json)
  | [] => []
  | (k, v) :: fs => (k, toJson v) :: toFields fs

end

end Value

end IncidentMemory.Qdrant
