import IncidentMemory.Document.Basic
import IncidentMemory.Number.Decimal

/-!
# YAML scalars

What an unquoted scalar is on its own: null, a truth value, a number, or else text. Whatever it is,
its characters remain available to a reader of text.
-/

namespace IncidentMemory.Yaml

/-- The texts of null. -/
def nullWords : List String := ["", "~", "null", "Null", "NULL"]

/-- The texts of the truth values. -/
def truthWords : List (String × Bool) :=
  [("true", true), ("True", true), ("TRUE", true), ("false", false), ("False", false),
    ("FALSE", false)]

/-- The texts of special floats, without sign. -/
def infinityWords : List String := [".inf", ".Inf", ".INF"]

/-- The texts of not-a-number. -/
def nanWords : List String := [".nan", ".NaN", ".NAN"]

/-- The magnitude of an integer, in decimal or with the mark of another base. Decimal digits that
start with a superfluous zero are no number. -/
def magnitude (cs : List Char) : Option Nat :=
  match cs with
  | '0' :: 'x' :: r => Number.readBase 16 r
  | '0' :: 'o' :: r => Number.readBase 8 r
  | '0' :: 'b' :: r => Number.readBase 2 r
  | '0' :: _ :: _ => none
  | cs => if cs.isEmpty || !cs.all Number.isDigit then none else some (Number.ofDigits cs)

/-- The integer of a text. -/
def integer? (cs : List Char) : Option Int :=
  match cs with
  | '-' :: r => (magnitude r).map fun n => -(n : Int)
  | '+' :: r => (magnitude r).map Int.ofNat
  | r => (magnitude r).map Int.ofNat

/-- Whether a text has nothing but digits and yet is no number, because of a zero in front. -/
def isZeroPadded (cs : List Char) : Bool :=
  let ds := match cs with
    | '-' :: r | '+' :: r => r
    | r => r
  1 < ds.length && ds.head? == some '0' && ds.all Number.isDigit

/-- The float of a text. -/
def float? (cs : List Char) : Option Float :=
  let (negative, body) := match cs with
    | '-' :: r => (true, r)
    | '+' :: r => (false, r)
    | r => (false, r)
  let word := String.ofList body
  if infinityWords.contains word then
    Number.readFloat (if negative then "-inf".toList else "inf".toList)
  else if nanWords.contains (String.ofList cs) then Number.readFloat "nan".toList
  else
    match Number.readFloat cs with
    | some x => if x.isFinite then some x else none
    | none => none

/-- **The document of an unquoted scalar.** -/
def plainScalar (text : String) : Document :=
  let cs := text.toList
  let value : Scalar :=
    if nullWords.contains text then .null
    else
      match truthWords.lookup text with
      | some b => .bool b
      | none =>
        match integer? cs with
        | some i => .int i
        | none =>
          if isZeroPadded cs then .text text
          else
            match float? cs with
            | some x => .real x
            | none => .text text
  .scalar value (some text)

/-- The document of a place where a value is left out. -/
def nothing : Document := plainScalar ""

end IncidentMemory.Yaml
