import IncidentMemory.Document.Reader
import IncidentMemory.Json.Basic
import IncidentMemory.Json.Numeral
import IncidentMemory.Text.Utf8

/-!
# Reading JSON text

A text is read in two steps. `tokens` cuts the bytes into tokens and stops at the first byte that
can be part of none. `assemble` builds the document from the tokens with a stack of open arrays and
objects, so that a text that breaks off still yields everything before the break.

Some well-formed values cannot be read and may only be passed over: a string that is not UTF-8 or
has half of a surrogate pair, a number beyond the largest double, and an array or object inside
`maxDepth` others.
-/

namespace IncidentMemory.Json

/-- The code of an ASCII character. -/
def code (c : Char) : UInt8 := c.toNat.toUInt8

/-- Whether a byte is JSON white space. -/
def isGap (b : UInt8) : Bool :=
  b == code ' ' || b == code '\n' || b == code '\t' || b == code '\r'

/-- Whether a byte is a decimal digit. -/
def isDigitByte (b : UInt8) : Bool :=
  code '0' ≤ b && b ≤ code '9'

/-- The values of digit bytes. -/
def digitValues (bs : List UInt8) : List Nat :=
  bs.map fun b => b.toNat - 48

/-! ## Strings -/

/-- The inside of a string and what follows its closing quotation mark. A byte after a reverse
solidus never closes the string. -/
def untilQuote : List UInt8 → Option (List UInt8 × List UInt8)
  | [] => none
  | b :: bs =>
    if b == code '"' then some ([], bs)
    else if b == code '\\' then
      match bs with
      | [] => none
      | e :: bs' => (untilQuote bs').map fun (inner, rest) => (b :: e :: inner, rest)
    else (untilQuote bs).map fun (inner, rest) => (b :: inner, rest)

theorem length_untilQuote {bs inner rest : List UInt8} (h : untilQuote bs = some (inner, rest)) :
    rest.length < bs.length := by
  fun_induction untilQuote bs generalizing inner rest <;> simp_all <;> grind

/-- One unit of a string's inside: a byte of UTF-8, or a code unit written as an escape. -/
inductive Unit where
  /-- A byte that stands for itself. -/
  | byte (b : UInt8)
  /-- A 16-bit code unit. -/
  | code16 (n : Nat)

/-- The bytes of the short escapes. -/
def shortEscape (b : UInt8) : Option UInt8 :=
  [('"', '"'), ('\\', '\\'), ('/', '/'), ('b', '\x08'), ('f', '\x0c'), ('n', '\n'), ('r', '\r'),
    ('t', '\t')].findSome? fun (name, c) => if b == code name then some (code c) else none

/-- The value of four hexadecimal digits. -/
def hex4 (a b c d : UInt8) : Option Nat :=
  Number.readBase 16 ([a, b, c, d].map fun x => Char.ofNat x.toNat)

/-- The units of a string's inside; `none` for an unknown escape or a control character. -/
def units : List UInt8 → Option (List Unit)
  | [] => some []
  | b :: bs =>
    if b < 0x20 then none
    else if b == code '\\' then
      match bs with
      | [] => none
      | e :: bs' =>
        if e == code 'u' then
          match bs' with
          | p :: q :: r :: s :: rest =>
            match hex4 p q r s with
            | none => none
            | some n => (units rest).map (.code16 n :: ·)
          | _ => none
        else
          match shortEscape e with
          | none => none
          | some c => (units bs').map (.byte c :: ·)
    else (units bs).map (.byte b :: ·)

/-- The bytes that units stand for: two code units of a surrogate pair make one character, and half
a pair denotes nothing. -/
def unitBytes : List Unit → Option (List UInt8)
  | [] => some []
  | .byte b :: us => (unitBytes us).map (b :: ·)
  | .code16 n :: us =>
    if 0xD800 ≤ n ∧ n < 0xDC00 then
      match us with
      | .code16 m :: us' =>
        if 0xDC00 ≤ m ∧ m < 0xE000 then
          let c := Char.ofNat (0x10000 + (n - 0xD800) * 0x400 + (m - 0xDC00))
          (unitBytes us').map (Text.encode (String.singleton c) ++ ·)
        else none
      | _ => none
    else if 0xDC00 ≤ n ∧ n < 0xE000 then none
    else (unitBytes us).map (Text.encode (String.singleton (Char.ofNat n)) ++ ·)

/-! ## Tokens -/

/-- A token of JSON text. -/
inductive Token where
  /-- `[` -/
  | openArray
  /-- `]` -/
  | closeArray
  /-- An opening brace. -/
  | openObject
  /-- A closing brace. -/
  | closeObject
  /-- `,` -/
  | comma
  /-- `:` -/
  | colon
  /-- A literal or a number; `none` if it denotes nothing. -/
  | leaf (value : Option Scalar)
  /-- A string; `none` if it denotes no text. -/
  | string (value : Option String)
  /-- A place that is no token. -/
  | junk

/-- The token of a string's inside. -/
def stringToken (inner : List UInt8) : Token :=
  match units inner with
  | none => .junk
  | some us => .string ((unitBytes us).bind Text.decode?)

/-- The digits after a point, if a point follows; `none` if it has no digits. -/
def fractionPart : List UInt8 → Option (Option (List Nat) × List UInt8)
  | b :: bs =>
    if b == code '.' then
      let ds := bs.takeWhile isDigitByte
      if ds.isEmpty then none else some (some (digitValues ds), bs.dropWhile isDigitByte)
    else some (none, b :: bs)
  | [] => some (none, [])

/-- The sign of an exponent and what follows it. -/
def exponentSign : List UInt8 → Bool × List UInt8
  | b :: bs =>
    if b == code '-' then (true, bs) else if b == code '+' then (false, bs) else (false, b :: bs)
  | [] => (false, [])

/-- The exponent, if one follows; `none` if it has no digits. -/
def exponentPart : List UInt8 → Option (Option (Bool × List Nat) × List UInt8)
  | b :: bs =>
    if b == code 'e' || b == code 'E' then
      let (down, bs) := exponentSign bs
      let ds := bs.takeWhile isDigitByte
      if ds.isEmpty then none else some (some (down, digitValues ds), bs.dropWhile isDigitByte)
    else some (none, b :: bs)
  | [] => some (none, [])

/-- A numeral at the start of the bytes, without its sign, and the rest. -/
def numeral (negative : Bool) (bs : List UInt8) : Option (Numeral × List UInt8) := do
  let ds := bs.takeWhile isDigitByte
  let rest := bs.dropWhile isDigitByte
  if ds.isEmpty || (ds.head? == some (code '0') && 1 < ds.length) then none
  else
    let (fraction, rest) ← fractionPart rest
    let (exponent, rest) ← exponentPart rest
    some (⟨negative, digitValues ds, fraction, exponent⟩, rest)

/-- The literals of JSON. -/
def literals : List (String × Scalar) :=
  [("null", .null), ("true", .bool true), ("false", .bool false)]

/-- What follows a given word at the start of the bytes. -/
def dropWord? : List UInt8 → List UInt8 → Option (List UInt8)
  | [], bs => some bs
  | _ :: _, [] => none
  | w :: ws, b :: bs => if w == b then dropWord? ws bs else none

/-- The token that starts with a given byte, and the rest. -/
def nextToken (b : UInt8) (bs : List UInt8) : Token × List UInt8 :=
  if b == code '[' then (.openArray, bs)
  else if b == code ']' then (.closeArray, bs)
  else if b == code '\x7b' then (.openObject, bs)
  else if b == code '\x7d' then (.closeObject, bs)
  else if b == code ',' then (.comma, bs)
  else if b == code ':' then (.colon, bs)
  else if b == code '"' then
    match untilQuote bs with
    | some (inner, rest) => (stringToken inner, rest)
    | none => (.junk, [])
  else if b == code '-' then
    match numeral true bs with
    | some (n, rest) => (.leaf n.value, rest)
    | none => (.junk, [])
  else if isDigitByte b then
    match numeral false (b :: bs) with
    | some (n, rest) => (.leaf n.value, rest)
    | none => (.junk, [])
  else
    match literals.findSome? fun (word, v) =>
        (dropWord? (Text.encode word) (b :: bs)).map fun rest => (v, rest) with
    | some (v, rest) => (.leaf (some v), rest)
    | none => (.junk, [])

/-- The tokens of a text, at most `fuel` of them, the last of them junk if it is not well formed. -/
def tokensUpTo : Nat → List UInt8 → List Token
  | 0, _ => []
  | fuel + 1, bs =>
    match bs.dropWhile isGap with
    | [] => []
    | b :: rest =>
      match nextToken b rest with
      | (.junk, _) => [.junk]
      | (t, rest) => t :: tokensUpTo fuel rest

/-- **The tokens of a text.** Every token takes a byte at least, so there are no more of them than
bytes. -/
def tokens (bs : List UInt8) : List Token :=
  tokensUpTo (bs.length + 1) bs

/-! ## Documents -/

/-- An array or object that is still open; its contents in reverse order. -/
inductive Frame where
  /-- An array. -/
  | array (items : List Document)
  /-- An object, and the key whose value is still to come. -/
  | object (entries : List (String × Document)) (key : Option String)

/-- What may stand next. -/
inductive Want where
  /-- A value. -/
  | value
  /-- A value, or the end of an array that is still empty. -/
  | firstItem
  /-- A comma or the end of the innermost array or object. -/
  | afterValue
  /-- A key, or the end of an object that is still empty. -/
  | firstKey
  /-- A key. -/
  | key
  /-- The colon after a key. -/
  | colon

/-- How deep arrays and objects may be nested and still be read. -/
def maxDepth : Nat := 127

/-- A complete array or object, with the frames around it. -/
def nested (d : Document) (around : List Frame) : Document :=
  if (around.drop (maxDepth - 1)).isEmpty then d else .unreadable

/-- The document of a text that breaks off with the given frames open, `d` being the broken part. -/
def abandon : List Frame → Document → Document
  | [], d => d
  | .array items :: fs, d => abandon fs (.seq (d :: items).reverse false)
  | .object es (some k) :: fs, d => abandon fs (.map ((k, d) :: es).reverse false)
  | .object es none :: fs, _ => abandon fs (.map es.reverse false)

/-- Puts a finished value into the innermost frame. -/
def place (d : Document) : List Frame → Option (List Frame)
  | [] => none
  | .array items :: fs => some (.array (d :: items) :: fs)
  | .object es (some k) :: fs => some (.object ((k, d) :: es) none :: fs)
  | .object es none :: fs => some (.object es none :: fs)

/-- The document of a leaf. -/
def leaf : Option Scalar → Document
  | some v => .scalar v none
  | none => .unreadable

/-- The document of a string. -/
def stringLeaf : Option String → Document
  | some s => .ofText s
  | none => .unreadable

/-- One step of the assembly: the next token either finishes a value, changes what is wanted, or
does not fit. -/
inductive Move where
  /-- A value is finished, with the given frames around it. -/
  | finish (d : Document) (frames : List Frame)
  /-- The assembly goes on. -/
  | go (want : Want) (frames : List Frame)
  /-- The token does not fit. -/
  | misfit

/-- What a token does where a value may start. -/
def startValue (frames : List Frame) : Token → Move
  | .leaf v => .finish (leaf v) frames
  | .string s => .finish (stringLeaf s) frames
  | .openArray => .go .firstItem (.array [] :: frames)
  | .openObject => .go .firstKey (.object [] none :: frames)
  | _ => .misfit

/-- What a token does where a key must stand. -/
def startKey : List Frame → Token → Move
  | .object es _ :: fs, .string (some k) => .go .colon (.object es (some k) :: fs)
  | _, _ => .misfit

/-- What a token does. -/
def move : Want → List Frame → Token → Move
  | .value, fs, t => startValue fs t
  | .firstItem, .array items :: fs, .closeArray => .finish (nested (.seq items.reverse true) fs) fs
  | .firstItem, fs, t => startValue fs t
  | .afterValue, .array items :: fs, .closeArray => .finish (nested (.seq items.reverse true) fs) fs
  | .afterValue, .array items :: fs, .comma => .go .value (.array items :: fs)
  | .afterValue, .object es _ :: fs, .closeObject => .finish (nested (.map es.reverse true) fs) fs
  | .afterValue, .object es _ :: fs, .comma => .go .key (.object es none :: fs)
  | .afterValue, _, _ => .misfit
  | .firstKey, .object es _ :: fs, .closeObject => .finish (nested (.map es.reverse true) fs) fs
  | .firstKey, fs, t => startKey fs t
  | .key, fs, t => startKey fs t
  | .colon, fs, .colon => .go .value fs
  | .colon, _, _ => .misfit

/-- Builds the first value of a token list; what follows it is handed back. -/
def assemble : List Token → Want → List Frame → Document × List Token
  | [], _, frames => (abandon frames .broken, [])
  | t :: ts, want, frames =>
    match move want frames t with
    | .misfit => (abandon frames .broken, [])
    | .go want' frames' => assemble ts want' frames'
    | .finish d frames' =>
      match place d frames' with
      | none => (d, ts)
      | some frames'' => assemble ts .afterValue frames''

/-- The first value of a text as a document; whatever follows it is not looked at. -/
def readFirst (bytes : List UInt8) : Document :=
  (assemble (tokens bytes) .value []).1

/-- A typed value from a text that holds nothing else. -/
def decode {α : Type} (read : Reader α) (bytes : List UInt8) : Reading α :=
  match assemble (tokens bytes) .value [] with
  | (d, rest) => do
    let a ← read d
    if rest.isEmpty then .ok a else .error .malformed

/-- **The value of a text.** -/
def parse (bytes : List UInt8) : Reading Json :=
  decode ofDocument bytes

end IncidentMemory.Json
