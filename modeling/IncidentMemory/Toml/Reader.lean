import IncidentMemory.Number.Decimal
import IncidentMemory.Time.Calendar
import IncidentMemory.Toml.Table

/-!
# Reading TOML

TOML 1.0, read line by line: headers, `key = value` pairs, comments. Each function takes the
characters that are left and hands back those it did not use. Values nest by way of `value`, which
counts how much deeper they may go.

A date or time becomes a map with the single entry `dateTimeKey`, because no reader of another type
takes it.
-/

namespace IncidentMemory.Toml

open Number (isDigit)

/-! ## Layout -/

/-- Drops spaces and tabs. -/
def dropBlanks (cs : List Char) : List Char :=
  cs.dropWhile fun c => c = ' ' || c = '\t'

/-- What follows a line break at the start. -/
def lineBreak? : List Char → Option (List Char)
  | '\n' :: r => some r
  | '\r' :: '\n' :: r => some r
  | _ => none

/-- Whether a character may stand in a comment or, apart from delimiters, in a string. -/
def isPrintable (c : Char) : Bool :=
  c = '\t' || (0x20 ≤ c.toNat && c.toNat ≠ 0x7F)

/-- Drops a comment, if there is one. -/
def dropComment : List Char → List Char
  | '#' :: r => r.dropWhile isPrintable
  | cs => cs

/-- What follows the end of a line that may still hold blanks and a comment. -/
def lineEnd? (cs : List Char) : Option (List Char) :=
  match dropComment (dropBlanks cs) with
  | [] => some []
  | r => lineBreak? r

/-- Drops blanks, comments and line breaks. -/
def dropGapUpTo : Nat → List Char → List Char
  | 0, cs => cs
  | fuel + 1, cs =>
    let r := dropComment (dropBlanks cs)
    match lineBreak? r with
    | some r => dropGapUpTo fuel r
    | none => r

/-- Drops blanks, comments and line breaks. -/
def dropGap (cs : List Char) : List Char :=
  dropGapUpTo (cs.length + 1) cs

/-! ## Strings -/

/-- The character of a code point given by its hexadecimal digits. -/
def scalarOf (digits : List Char) : Option Char := do
  let n ← Number.readBase 16 digits
  if n < 0xD800 || (0xE000 ≤ n && n < 0x110000) then some (Char.ofNat n) else none

/-- The characters of the short escapes. -/
def escapes : List (Char × Char) :=
  [('b', '\x08'), ('t', '\t'), ('n', '\n'), ('f', '\x0c'), ('r', '\r'), ('"', '"'), ('\\', '\\')]

/-- The character that an escape stands for, given what follows the reverse solidus. -/
def escaped : List Char → Option (Char × List Char)
  | 'u' :: r => do
    if r.length < 4 then none
    else some (← scalarOf (r.take 4), r.drop 4)
  | 'U' :: r => do
    if r.length < 8 then none
    else some (← scalarOf (r.take 8), r.drop 8)
  | e :: r => (escapes.lookup e).map fun c => (c, r)
  | [] => none

/-- The rest of a basic string of one line, its text so far in reverse. -/
def basicString : Nat → List Char → List Char → Option (String × List Char)
  | 0, _, _ => none
  | fuel + 1, acc, cs =>
    match cs with
    | '"' :: r => some (String.ofList acc.reverse, r)
    | '\\' :: r => do
      let (c, r) ← escaped r
      basicString fuel (c :: acc) r
    | c :: r => if isPrintable c then basicString fuel (c :: acc) r else none
    | [] => none

/-- The rest of a literal string of one line. -/
def literalString (cs : List Char) : Option (String × List Char) :=
  let (inner, r) := cs.span fun c => c ≠ '\'' && isPrintable c
  match r with
  | '\'' :: r => some (String.ofList inner, r)
  | _ => none

/-- The end of a string of several lines: three delimiters, of which up to two more may precede that
belong to the text. -/
def tripleEnd? (q : Char) (cs : List Char) : Option (List Char × List Char) :=
  let n := (cs.takeWhile (· = q)).length
  if n < 3 then none
  else
    let extra := min (n - 3) 2
    some (List.replicate extra q, cs.drop (extra + 3))

/-- Drops blanks and line breaks. -/
def dropFold : Nat → List Char → List Char
  | 0, cs => cs
  | fuel + 1, cs =>
    match lineBreak? (dropBlanks cs) with
    | some r => dropFold fuel r
    | none => dropBlanks cs

/-- What follows a reverse solidus that hides the line's end. -/
def hiddenBreak? (cs : List Char) : Option (List Char) :=
  (lineBreak? (dropBlanks cs)).map fun r => dropFold (r.length + 1) r

/-- The rest of a string of several lines between threefold delimiters. -/
def longString (q : Char) : Nat → List Char → List Char → Option (String × List Char)
  | 0, _, _ => none
  | fuel + 1, acc, cs =>
    match tripleEnd? q cs with
    | some (more, r) => some (String.ofList (acc.reverse ++ more), r)
    | none =>
      match lineBreak? cs with
      | some r => longString q fuel ('\n' :: acc) r
      | none =>
        match cs with
        | '\\' :: r =>
          if q = '"' then
            match hiddenBreak? r with
            | some r => longString q fuel acc r
            | none =>
              match escaped r with
              | some (c, r) => longString q fuel (c :: acc) r
              | none => none
          else longString q fuel ('\\' :: acc) r
        | c :: r => if isPrintable c then longString q fuel (c :: acc) r else none
        | [] => none

/-- A string of several lines; a line break right after the opening is not part of it. -/
def longBody (q : Char) (cs : List Char) : Option (String × List Char) :=
  longString q (cs.length + 1) [] ((lineBreak? cs).getD cs)

/-- A string of any kind. -/
def string : List Char → Option (String × List Char)
  | '"' :: '"' :: '"' :: r => longBody '"' r
  | '\'' :: '\'' :: '\'' :: r => longBody '\'' r
  | '"' :: r => basicString (r.length + 1) [] r
  | '\'' :: r => literalString r
  | _ => none

/-! ## Keys -/

/-- Whether a character may stand in a key without quotation marks. -/
def isBare (c : Char) : Bool :=
  isDigit c || ('a' ≤ c && c ≤ 'z') || ('A' ≤ c && c ≤ 'Z') || c = '-' || c = '_'

/-- One part of a key. -/
def simpleKey (cs : List Char) : Option (String × List Char) :=
  match cs with
  | '"' :: r => basicString (r.length + 1) [] r
  | '\'' :: r => literalString r
  | cs =>
    let (word, r) := cs.span isBare
    if word.isEmpty then none else some (String.ofList word, r)

/-- How many parts a key may have, and how deep values may nest, less one. -/
def nestingLimit : Nat := 80

/-- A key of at most so many parts, with points between them. -/
def dottedKey : Nat → List Char → Option (List String × List Char)
  | 0, _ => none
  | n + 1, cs => do
    let (part, r) ← simpleKey (dropBlanks cs)
    match dropBlanks r with
    | '.' :: r => do
      let (more, r) ← dottedKey n r
      some (part :: more, r)
    | r => some ([part], r)

/-- A key. -/
def key (cs : List Char) : Option (List String × List Char) :=
  dottedKey (nestingLimit - 1) cs

/-! ## Numbers -/

/-- Digits with single underscores between them; the underscores are dropped. -/
def digitsBy (ok : Char → Bool) : List Char → List Char × List Char
  | [] => ([], [])
  | c :: r =>
    if ok c then
      match r with
      | '_' :: d :: r' =>
        if ok d then
          let (ds, rest) := digitsBy ok (d :: r')
          (c :: ds, rest)
        else ([c], r)
      | r =>
        let (ds, rest) := digitsBy ok r
        (c :: ds, rest)
    else ([], c :: r)

/-- A sign, if there is one: whether it is a minus. -/
def sign : List Char → Option Char × List Char
  | '+' :: r => (some '+', r)
  | '-' :: r => (some '-', r)
  | r => (none, r)

/-- The whole part of a number: no superfluous zero in front. -/
def whole (cs : List Char) : Option (List Char × List Char) :=
  match cs with
  | '0' :: r => some (['0'], r)
  | cs =>
    let (ds, r) := digitsBy isDigit cs
    if ds.isEmpty then none else some (ds, r)

/-- An integer, which must fit 64 bits with sign. -/
def inRange (i : Int) : Option Document :=
  if -9223372036854775808 ≤ i ∧ i < 9223372036854775808 then some (.scalar (.int i) none) else none

/-- Digits of another base after its mark. -/
def based (base : Nat) (cs : List Char) : Option (Document × List Char) := do
  let ok := fun c => match Number.hexValue c with | some d => d < base | none => false
  let (ds, r) := digitsBy ok cs
  let n ← Number.readBase base ds
  some (← inRange n, r)

/-- The exponent of a number, as characters. -/
def exponent (cs : List Char) : Option (List Char × List Char) :=
  match cs with
  | c :: r =>
    if c = 'e' || c = 'E' then
      let (s, r) := sign r
      let (ds, r) := digitsBy isDigit r
      if ds.isEmpty then none else some ('e' :: (s.toList ++ ds), r)
    else some ([], c :: r)
  | [] => some ([], [])

/-- The fraction of a number, as characters. -/
def fraction (cs : List Char) : Option (List Char × List Char) :=
  match cs with
  | '.' :: r =>
    let (ds, r) := digitsBy isDigit r
    if ds.isEmpty then none else some ('.' :: ds, r)
  | r => some ([], r)

/-- A decimal number: an integer, or a float if it has a fraction or an exponent. -/
def decimal (cs : List Char) : Option (Document × List Char) := do
  let (s, r) := sign cs
  let (ds, r) ← whole r
  let (fs, r) ← fraction r
  let (es, r) ← exponent r
  if fs.isEmpty && es.isEmpty then
    let n : Int := Number.ofDigits ds
    some (← inRange (if s = some '-' then -n else n), r)
  else
    let x ← Number.readFloat (s.toList ++ ds ++ fs ++ es)
    if x.isInf && 0 < x then none else some (.scalar (.real x) none, r)

/-- The words for special floats. -/
def special (cs : List Char) : Option (Document × List Char) := do
  let (s, r) := sign cs
  let word := r.take 3
  if word = "inf".toList || word = "nan".toList then
    let x ← Number.readFloat (s.toList ++ word)
    some (.scalar (.real x) none, r.drop 3)
  else none

/-! ## Dates and times -/

/-- The key under which a date or time is kept. -/
def dateTimeKey : String := "$__toml_private_datetime"

/-- A number of exactly so many digits, not above a bound. -/
def fixed (width low high : Nat) (cs : List Char) : Option (Nat × List Char) :=
  let ds := cs.take width
  if ds.length = width && ds.all isDigit then
    let n := Number.ofDigits ds
    if low ≤ n && n ≤ high then some (n, cs.drop width) else none
  else none

/-- What follows an expected character. -/
def expect (c : Char) : List Char → Option (List Char)
  | d :: r => if c = d then some r else none
  | [] => none

/-- A date, as it is written. -/
def date (cs : List Char) : Option (String × List Char) := do
  let (y, r) ← fixed 4 0 9999 cs
  let (m, r) ← fixed 2 1 12 (← expect '-' r)
  let (d, r) ← fixed 2 1 31 (← expect '-' r)
  if Date.isValid ⟨y, m, d⟩ then
    some (s!"{Text.padded 4 y}-{Text.padded 2 m}-{Text.padded 2 d}", r)
  else none

/-- The digits of a second's fraction without closing zeros, at most nine of them. -/
def secondFraction (cs : List Char) : Option (String × List Char) :=
  match cs with
  | '.' :: r =>
    let (ds, r) := r.span isDigit
    let kept := ((ds.take 9).reverse.dropWhile (· = '0')).reverse
    if ds.isEmpty then none
    else some (if kept.isEmpty then "" else "." ++ String.ofList kept, r)
  | r => some ("", r)

/-- A time of day. -/
def time (cs : List Char) : Option (String × List Char) := do
  let (h, r) ← fixed 2 0 23 cs
  let (m, r) ← fixed 2 0 59 (← expect ':' r)
  let (s, r) ← fixed 2 0 60 (← expect ':' r)
  let (f, r) ← secondFraction r
  some (s!"{Text.padded 2 h}:{Text.padded 2 m}:{Text.padded 2 s}" ++ f, r)

/-- The distance from universal time, if one is given. -/
def offset (cs : List Char) : Option (String × List Char) :=
  match cs with
  | c :: r =>
    if c = 'Z' || c = 'z' then some ("Z", r)
    else if c = '+' || c = '-' then do
      let (h, r) ← fixed 2 0 23 r
      let (m, r) ← fixed 2 0 59 (← expect ':' r)
      some (s!"{c}{Text.padded 2 h}:{Text.padded 2 m}", r)
    else some ("", c :: r)
  | [] => some ("", [])

/-- The time that may follow a date. -/
def timeAfterDate (cs : List Char) : Option (String × List Char) :=
  match cs with
  | c :: r =>
    if c = 'T' || c = 't' || c = ' ' then
      match time r with
      | some (t, r) => (offset r).map fun (o, r) => ("T" ++ t ++ o, r)
      | none => if c = ' ' then some ("", c :: r) else none
    else some ("", c :: r)
  | [] => some ("", [])

/-- A date, a time, or both. -/
def dateTime (cs : List Char) : Option (Document × List Char) :=
  let found : Option (String × List Char) :=
    match date cs with
    | some (d, r) => (timeAfterDate r).map fun (t, r) => (d ++ t, r)
    | none => time cs
  found.map fun (text, r) => (.map [(dateTimeKey, .ofText text)] true, r)

/-- A value that starts with a digit or a sign. -/
def numeric (cs : List Char) : Option (Document × List Char) :=
  match cs with
  | '0' :: 'x' :: r => based 16 r
  | '0' :: 'o' :: r => based 8 r
  | '0' :: 'b' :: r => based 2 r
  | cs =>
    match dateTime cs with
    | some found => some found
    | none =>
      match special cs with
      | some found => some found
      | none => decimal cs

/-! ## Values -/

/-- The words for truth values. -/
def truthValue (cs : List Char) : Option (Document × List Char) :=
  match Text.dropLiteral? "true".toList cs, Text.dropLiteral? "false".toList cs with
  | some r, _ => some (.scalar (.bool true) none, r)
  | none, some r => some (.scalar (.bool false) none, r)
  | none, none => none

/-- The rest of an array, its items so far in reverse; they may be spread over lines, and a comma
may follow the last one. -/
def arrayItems (item : List Char → Option (Document × List Char)) :
    Nat → List Document → List Char → Option (Document × List Char)
  | 0, _, _ => none
  | fuel + 1, acc, cs =>
    match dropGap cs with
    | ']' :: r => some (.seq acc.reverse true, r)
    | cs => do
      let (d, r) ← item cs
      match dropGap r with
      | ',' :: r => arrayItems item fuel (d :: acc) r
      | ']' :: r => some (.seq (d :: acc).reverse true, r)
      | _ => none

/-- The rest of an inline table that has a pair to come. -/
def inlinePairs (item : List Char → Option (Document × List Char)) :
    Nat → Entries → List Char → Option (Document × List Char)
  | 0, _, _ => none
  | fuel + 1, es, cs => do
    let (path, r) ← key cs
    let r ← expect '=' (dropBlanks r)
    let (d, r) ← item (dropBlanks r)
    let es ← es.assign (.value d) path
    match dropBlanks r with
    | ',' :: r => inlinePairs item fuel es r
    | '\x7d' :: r => some ((Node.table .header es).document, r)
    | _ => none

/-- **A value**, with arrays and inline tables nested at most so deep. -/
def value : Nat → List Char → Option (Document × List Char)
  | depth, cs =>
    match cs with
    | '"' :: _ | '\'' :: _ => (string cs).map fun (s, r) => (.ofText s, r)
    | '[' :: r =>
      match depth with
      | 0 => none
      | depth + 1 => arrayItems (value depth) (r.length + 1) [] r
    | '\x7b' :: r =>
      match depth with
      | 0 => none
      | depth + 1 =>
        match dropBlanks r with
        | '\x7d' :: r => some (.map [] true, r)
        | r => inlinePairs (value depth) (r.length + 1) [] r
    | 't' :: _ | 'f' :: _ => truthValue cs
    | cs => numeric cs

/-! ## The text -/

/-- The tables so far, and the header under which keys are set: its path, and whether it is a row of
an array of tables. -/
structure State where
  /-- Everything defined so far. -/
  root : Entries := []
  /-- The path of the open table. -/
  path : List String := []

/-- A header's path and what follows its brackets. -/
def headerPath (closing : List Char) (cs : List Char) : Option (List String × List Char) := do
  let (path, r) ← key cs
  let r ← Text.dropLiteral? closing (dropBlanks r)
  some (path, r)

/-- One line: a header, a pair, or nothing. -/
def line (st : State) (cs : List Char) : Option (State × List Char) :=
  match dropBlanks cs with
  | '[' :: '[' :: r => do
    let (path, r) ← headerPath [']', ']'] r
    some (⟨← st.root.openRow path, path⟩, r)
  | '[' :: r => do
    let (path, r) ← headerPath [']'] r
    some (⟨← st.root.openTable path, path⟩, r)
  | [] => some (st, [])
  | c :: r =>
    if c = '#' || c = '\n' || c = '\r' then some (st, c :: r)
    else do
      let (path, r) ← key (c :: r)
      let r ← expect '=' (dropBlanks r)
      let (d, r) ← value (nestingLimit - 1) (dropBlanks r)
      let root ← st.root.within (Entries.assign (.value d) path) st.path
      some ({ st with root }, r)

/-- All lines. -/
def lines : Nat → State → List Char → Option State
  | 0, st, _ => some st
  | fuel + 1, st, cs =>
    match cs with
    | [] => some st
    | cs => do
      let (st, r) ← line st cs
      lines fuel st (← lineEnd? r)

/-- The text without a byte order mark. -/
def withoutMark : List Char → List Char
  | '\uFEFF' :: r => r
  | cs => cs

/-- **The document of a TOML text**; broken if it is not well formed. -/
def read (text : String) : Document :=
  let cs := withoutMark text.toList
  match lines (cs.length + 1) {} cs with
  | some st => (Node.table .header st.root).document
  | none => .broken

end IncidentMemory.Toml
