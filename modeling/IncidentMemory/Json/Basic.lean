import IncidentMemory.Document.Basic
import IncidentMemory.Number.Decimal
import IncidentMemory.Number.Shortest
import IncidentMemory.Text.Blank

/-!
# JSON values

`Json` is the value type for payloads, provider configuration and bodies. A number is an integer of
64 bits, signed or unsigned, or a finite double; the bounds are part of the type. An object keeps
its fields in the order in which they were set, one per key.

`render` writes a value, `escape` the inside of one of its strings, and `ofDocument` takes a
document as a value.
-/

namespace IncidentMemory

/-- A JSON number. -/
inductive JsonNumber where
  /-- An integer that fits 64 bits, with or without sign: from `-2 ^ 63` to `2 ^ 64 - 1`. -/
  | int (value : Int) (inRange : -9223372036854775808 ≤ value ∧ value < 18446744073709551616)
  /-- A finite double. -/
  | real (value : Float) (finite : value.isFinite = true)
  deriving DecidableEq

/-- A JSON value. -/
inductive Json where
  /-- The value `null`. -/
  | null
  /-- A truth value. -/
  | bool (b : Bool)
  /-- A number. -/
  | num (n : JsonNumber)
  /-- A string. -/
  | str (s : String)
  /-- An array. -/
  | arr (items : List Json)
  /-- An object. -/
  | obj (fields : List (String × Json))

namespace JsonNumber

/-- The text of a number. -/
def render : JsonNumber → String
  | .int i _ => toString i
  | .real x _ => Number.renderFloat x

/-- The double nearest to a number. -/
def toFloat : JsonNumber → Float
  | .int i _ => Number.double i
  | .real x _ => x

end JsonNumber

namespace Json

/-- An integer, when it fits 64 bits. -/
def ofInt? (i : Int) : Option Json :=
  if h : -9223372036854775808 ≤ i ∧ i < 18446744073709551616 then some (.num (.int i h)) else none

/-- A natural number as a JSON integer; `null` above 64 bits. -/
def ofNat (n : Nat) : Json :=
  (ofInt? n).getD .null

/-- A double; `null` for infinities and not-a-number. -/
def ofFloat (x : Float) : Json :=
  if h : x.isFinite = true then .num (.real x h) else .null

/-- A single-precision number, as the double of the same value. -/
def ofSingle (x : Single) : Json :=
  ofFloat x.toFloat

/-- Sets a field: the place of an earlier field of that key is kept. -/
def insertField (key : String) (value : Json) : List (String × Json) → List (String × Json)
  | [] => [(key, value)]
  | (k, v) :: rest =>
    if k = key then (key, value) :: rest else (k, v) :: insertField key value rest

/-- The fields that result from setting all of a list's in order. -/
def fieldsOf (entries : List (String × Json)) : List (String × Json) :=
  entries.foldl (fun fs e => insertField e.1 e.2 fs) []

/-- An object with the given fields. -/
def object (entries : List (String × Json)) : Json :=
  .obj (fieldsOf entries)

/-- The value of a field, for an object that has it. -/
def get? (key : String) : Json → Option Json
  | .obj fields => fields.lookup key
  | _ => none

/-- The text of a string. -/
def text? : Json → Option String
  | .str s => some s
  | _ => none

/-- An object with one more field; anything that is no object is replaced by an empty one first. -/
def withField (j : Json) (key : String) (value : Json) : Json :=
  match j with
  | .obj fields => .obj (insertField key value fields)
  | _ => .obj [(key, value)]

/-- How a character is written inside a string: quotation mark and reverse solidus after a reverse
solidus, control characters by their short names or their code, all others as they are. -/
def escapeChar (c : Char) : List Char :=
  if c = '"' then ['\\', '"']
  else if c = '\\' then ['\\', '\\']
  else if c = '\x08' then ['\\', 'b']
  else if c = '\x0c' then ['\\', 'f']
  else if c = '\n' then ['\\', 'n']
  else if c = '\r' then ['\\', 'r']
  else if c = '\t' then ['\\', 't']
  else if c.toNat < 0x20 then '\\' :: 'u' :: (Number.hexDigits 4 c.toNat).toList
  else [c]

/-- **The inside of a string literal** that denotes the given text. -/
def escape (s : List Char) : List Char :=
  s.flatMap escapeChar

/-- A string literal. -/
def quote (s : String) : List Char :=
  '"' :: escape s.toList ++ ['"']

mutual

/-- The characters of a value's text, without blanks. -/
def renderChars : Json → List Char
  | .null => "null".toList
  | .bool true => "true".toList
  | .bool false => "false".toList
  | .num n => n.render.toList
  | .str s => quote s
  | .arr items => '[' :: renderItems items
  | .obj fields => '\x7b' :: renderFields fields

/-- The items of an array and the closing bracket. -/
def renderItems : List Json → List Char
  | [] => [']']
  | [v] => renderChars v ++ [']']
  | v :: vs => renderChars v ++ ',' :: renderItems vs

/-- The fields of an object and the closing brace. -/
def renderFields : List (String × Json) → List Char
  | [] => ['\x7d']
  | [(k, v)] => quote k ++ ':' :: renderChars v ++ ['\x7d']
  | (k, v) :: fs => quote k ++ ':' :: renderChars v ++ ',' :: renderFields fs

end

/-- **The text of a value.** -/
def render (v : Json) : String :=
  String.ofList (renderChars v)

mutual

/-- Takes a document as a value. Of repeated keys the last one counts; a number that JSON cannot
write becomes `null`, except that an integer beyond 64 bits is refused. -/
def ofDocument : Document → Reading Json
  | .scalar .null _ => .ok .null
  | .scalar (.bool b) _ => .ok (.bool b)
  | .scalar (.int i) _ =>
    match ofInt? i with
    | some v => .ok v
    | none => .error .mismatch
  | .scalar (.real x) _ => .ok (ofFloat x)
  | .scalar (.text s) _ => .ok (.str s)
  | .unreadable => .error .malformed
  | .broken => .error .malformed
  | .seq items closed => do
    let vs ← ofDocuments items
    if closed then .ok (.arr vs) else .error .malformed
  | .map entries closed => do
    let fs ← ofEntries entries
    if closed then .ok (object fs) else .error .malformed
  | .tagged _ _ => .error .mismatch

/-- `ofDocument` of every item. -/
def ofDocuments : List Document → Reading (List Json)
  | [] => .ok []
  | d :: ds => do
    let v ← ofDocument d
    let vs ← ofDocuments ds
    .ok (v :: vs)

/-- `ofDocument` of every entry. -/
def ofEntries : List (String × Document) → Reading (List (String × Json))
  | [] => .ok []
  | (k, d) :: es => do
    let v ← ofDocument d
    let fs ← ofEntries es
    .ok ((k, v) :: fs)

end

mutual

/-- A value as a document, to read typed records from it. -/
def toDocument : Json → Document
  | .null => .scalar .null none
  | .bool b => .scalar (.bool b) none
  | .num (.int i _) => .scalar (.int i) none
  | .num (.real x _) => .scalar (.real x) none
  | .str s => .ofText s
  | .arr items => .seq (toDocuments items) true
  | .obj fields => .map (toEntries fields) true

/-- `toDocument` of every item. -/
def toDocuments : List Json → List Document
  | [] => []
  | v :: vs => toDocument v :: toDocuments vs

/-- `toDocument` of every field. -/
def toEntries : List (String × Json) → List (String × Document)
  | [] => []
  | (k, v) :: fs => (k, toDocument v) :: toEntries fs

end

end Json

end IncidentMemory
