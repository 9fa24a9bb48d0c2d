import IncidentMemory.Number.Single

/-!
# Documents

What a configuration file or a request body holds, before anyone has asked for a particular shape:
scalars, sequences and maps. The file formats all read into this type; `Document/Reader` takes typed
values out of it.

Two things are kept that a plain value would lose. A scalar carries the *text* a reader of text
takes from it, beside what it is on its own (in YAML an unquoted `300` is both a number and the
text `300`). And a text that breaks off keeps everything before the break, because readers work in
document order: a field of the wrong type before the break is reported as such, and a break before
the field is reported as a break. `Fault` tells the two apart.
-/

namespace IncidentMemory

/-- Why a document could not be read as what was asked for. -/
inductive Fault where
  /-- The text itself is not well formed. -/
  | malformed
  /-- The text is well formed and has the wrong shape. -/
  | mismatch
  deriving DecidableEq, Repr

/-- Why a document was refused, for people. -/
def Fault.message : Fault → String
  | .malformed => "the text is not well formed"
  | .mismatch => "a value is missing or has the wrong type"

/-- The value of a scalar on its own. -/
inductive Scalar where
  /-- No value. -/
  | null
  /-- A truth value. -/
  | bool (b : Bool)
  /-- An integer of any size. -/
  | int (i : Int)
  /-- A floating-point number. -/
  | real (x : Float)
  /-- Text. -/
  | text (s : String)

/-- A document, possibly broken off. -/
inductive Document where
  /-- A scalar, and the text that a reader of text takes from it, if it takes any. -/
  | scalar (value : Scalar) (verbatim : Option String)
  /-- A well-formed value that cannot be read, such as a number beyond all bounds: it may only be
  passed over. -/
  | unreadable
  /-- The place where the text stops being well formed. -/
  | broken
  /-- A sequence; `closed` unless the text breaks off inside it. -/
  | seq (items : List Document) (closed : Bool)
  /-- A map in the order of the text, repeated keys included. -/
  | map (entries : List (String × Document)) (closed : Bool)
  /-- A value marked with an application's own tag. -/
  | tagged (tag : String) (content : Document)

/-- The result of reading something from a document. -/
abbrev Reading (α : Type) := Except Fault α

namespace Document

/-- A text scalar. -/
def ofText (s : String) : Document := .scalar (.text s) (some s)

mutual

/-- Whether nothing in the document is broken off. -/
def sound : Document → Bool
  | .scalar _ _ => true
  | .unreadable => true
  | .broken => false
  | .seq items closed => soundItems items && closed
  | .map entries closed => soundEntries entries && closed
  | .tagged _ content => sound content

/-- `sound` of every item. -/
def soundItems : List Document → Bool
  | [] => true
  | d :: ds => sound d && soundItems ds

/-- `sound` of every value. -/
def soundEntries : List (String × Document) → Bool
  | [] => true
  | (_, d) :: es => sound d && soundEntries es

end

mutual

/-- Whether the document can be taken in as it is: sound, and no part of it is
unreadable. -/
def readable : Document → Bool
  | .scalar _ _ => true
  | .unreadable => false
  | .broken => false
  | .seq items closed => readableItems items && closed
  | .map entries closed => readableEntries entries && closed
  | .tagged _ content => readable content

/-- `readable` of every item. -/
def readableItems : List Document → Bool
  | [] => true
  | d :: ds => readable d && readableItems ds

/-- `readable` of every value. -/
def readableEntries : List (String × Document) → Bool
  | [] => true
  | (_, d) :: es => readable d && readableEntries es

end

mutual

/-- The document as it is once it has been taken in without knowing what will be asked of it: only
text still reads as text. -/
def settled : Document → Document
  | .scalar (.text s) _ => .scalar (.text s) (some s)
  | .scalar v _ => .scalar v none
  | .unreadable => .unreadable
  | .broken => .broken
  | .seq items closed => .seq (settledItems items) closed
  | .map entries closed => .map (settledEntries entries) closed
  | .tagged tag content => .tagged tag (settled content)

/-- `settled` of every item. -/
def settledItems : List Document → List Document
  | [] => []
  | d :: ds => settled d :: settledItems ds

/-- `settled` of every value. -/
def settledEntries : List (String × Document) → List (String × Document)
  | [] => []
  | (k, d) :: es => (k, settled d) :: settledEntries es

end

end Document

end IncidentMemory
