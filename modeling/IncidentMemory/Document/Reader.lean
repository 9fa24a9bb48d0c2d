import IncidentMemory.Document.Basic

/-!
# Typed readers

A reader takes a typed value out of a document, or says why it cannot: the text breaks off, or the
value has another shape. Readers work in document order, so that the first fault of the text is the
one reported.

A record is a map from field names; unknown fields are passed over, and a field may not come twice.
It may also be written as a sequence of its fields' values. An *open* record shares its map with the
fields of another record, and then a sequence will not do.
-/

namespace IncidentMemory

/-- A reader of typed values. -/
abbrev Reader (α : Type) := Document → Reading α

/-- The fault of a leaf that cannot be read, or of a document of another kind. -/
def Document.refuse : Document → Fault
  | .unreadable | .broken => .malformed
  | _ => .mismatch

namespace Reader

/-- Passes over a document. -/
def skip : Reader Unit := fun d =>
  if d.sound then .ok () else .error .malformed

/-- Reads text. -/
def text : Reader String
  | .scalar _ (some s) => .ok s
  | .tagged _ (.scalar _ (some s)) => .ok s
  | d => .error d.refuse

/-- Reads a natural number of at most `bound`. -/
def nat (bound : Nat) : Reader Nat
  | .scalar (.int i) _ => if 0 ≤ i ∧ i ≤ bound then .ok i.toNat else .error .mismatch
  | d => .error d.refuse

/-- Reads a truth value. -/
def bool : Reader Bool
  | .scalar (.bool b) _ => .ok b
  | d => .error d.refuse

/-- Reads a single-precision number; integers are numbers too. -/
def single : Reader Single
  | .scalar (.int i) _ => .ok (Single.ofInt i)
  | .scalar (.real x) _ => .ok (Single.ofFloat x)
  | d => .error d.refuse

/-- Reads a value that may be missing, written as null. -/
def optional {α : Type} (read : Reader α) : Reader (Option α)
  | .scalar .null _ => .ok none
  | d => some <$> read d

/-- Reads every item of a sequence. -/
def list {α : Type} (read : Reader α) : Reader (List α)
  | .seq items closed => do
    let xs ← items.mapM read
    if closed then .ok xs else .error .malformed
  | d => .error d.refuse

/-- Reads one of a fixed set of names. A name may also be written as the only key of a map whose
value is a null without text, or as a tag on null. -/
def oneOf {α : Type} (names : List (String × α)) : Reader α
  | .scalar _ (some s) => find s
  | .map [] closed => .error (if closed then .mismatch else .malformed)
  | .map ((name, content) :: more) closed => do
    let a ← find name
    match content with
    | .scalar .null none => pure ()
    | d => .error d.refuse
    if more.isEmpty && closed then .ok a else .error .malformed
  | .tagged name (.scalar .null _) => find name
  | d => .error d.refuse
where
  /-- Looks a name up. -/
  find (name : String) : Reading α :=
    match names.lookup name with
    | some a => .ok a
    | none => .error .mismatch

end Reader

/-! ## Records -/

/-- Whether a record may come without a field. -/
inductive Presence where
  /-- The field must be there. -/
  | required
  /-- A map may leave the field out; a sequence may not. -/
  | optional
  /-- The field may be left out. -/
  | defaulted
  deriving DecidableEq

/-- A field of a record: its name, whether it may be missing, and what its value must be. -/
structure Field where
  /-- The field's name. -/
  name : String
  /-- Whether the record may come without it. -/
  presence : Presence
  /-- Refuses a value that the field cannot hold. -/
  check : Reader Unit

/-- A field that reads with `read`. -/
def Field.of {α : Type} (name : String) (presence : Presence) (read : Reader α) : Field :=
  ⟨name, presence, fun d => (fun _ => ()) <$> read d⟩

/-- The fields found in a document, each at most once. -/
abbrev Fields := List (String × Document)

/-- The value of a field, or a default where the document has none. -/
def Fields.get {α : Type} (fs : Fields) (name : String) (read : Reader α)
    (default : Reading α) : Reading α :=
  match fs.lookup name with
  | some d => read d
  | none => default

/-- Reads a field that must be there. -/
def Fields.need {α : Type} (fs : Fields) (name : String) (read : Reader α) : Reading α :=
  fs.get name read (.error .mismatch)

/-- Takes the entries of a map in document order: a known field must be new and must hold what the
field says; any other entry is passed over by `other`. -/
def Fields.collect (fields : List Field) (other : Reader Unit) :
    List (String × Document) → Fields → Reading Fields
  | [], found => .ok found
  | (key, value) :: rest, found =>
    match fields.find? (·.name == key) with
    | none => do
      other value
      collect fields other rest found
    | some f =>
      if (found.lookup key).isSome then .error .mismatch
      else do
        f.check value
        collect fields other rest (found ++ [(key, value)])

/-- Refuses when a required field was not found. -/
def Fields.requireAll (fields : List Field) (found : Fields) : Reading Fields :=
  if fields.all fun f => f.presence ≠ .required || (found.lookup f.name).isSome then .ok found
  else .error .mismatch

/-- Takes the items of a sequence as the fields in the order of their declaration. -/
def Fields.positional : List Field → List Document → (closed : Bool) → Reading Fields
  | [], [], true => .ok []
  | [], _, _ => .error .malformed
  | _ :: _, [], false => .error .malformed
  | f :: fs, [], true => if f.presence = .defaulted then positional fs [] true else .error .mismatch
  | f :: fs, d :: ds, closed => do
    f.check d
    let rest ← positional fs ds closed
    .ok ((f.name, d) :: rest)

/-- **Reads a record**: a map from field names, unknown ones passed over, or a sequence of the
fields' values in order. A value that is left out altogether is a record without fields. -/
def Reader.record (fields : List Field) : Reader Fields
  | .scalar .null (some "") => Fields.requireAll fields []
  | .map entries closed => do
    let found ← Fields.collect fields Reader.skip entries []
    if closed then Fields.requireAll fields found else .error .malformed
  | .seq items closed => Fields.positional fields items closed
  | d => .error d.refuse

/-- **Reads a record that has further fields of its own kind mixed into the same map.** All entries
that are not among `fields` are taken in as they are and handed back in order; a sequence is not
accepted. -/
def Reader.openRecord (fields : List Field) : Reader (Fields × List (String × Document))
  | .scalar .null (some "") => do .ok (← Fields.requireAll fields [], [])
  | .map entries closed => do
    let passOver := fun (d : Document) => if d.readable then .ok () else .error .malformed
    let found ← Fields.collect fields passOver entries []
    if !closed then .error .malformed
    else do
      let found ← Fields.requireAll fields found
      let others := entries.filter fun e => !fields.any (·.name == e.1)
      .ok (found, Document.settledEntries others)
  | d => .error d.refuse

/-- Reads the fields of a record out of the entries that an open record handed back. -/
def Fields.mixedIn (fields : List Field) (entries : List (String × Document)) : Reading Fields := do
  let found ← Fields.collect fields (fun _ => .ok ()) entries []
  Fields.requireAll fields found

end IncidentMemory
