import IncidentMemory.Number.Single
import IncidentMemory.Text.Blank

/-!
# Decimal numerals

Reading numbers written in decimal. `readNat` takes the digits of a natural and refuses one above
its bound. `Decimal` is a numeral with point and exponent, and `Decimal.bits` the nearest float of
any binary format. `readFloat` adds the words for infinity and not-a-number.
-/

namespace IncidentMemory.Number

/-- Whether a character is one of the ten ASCII digits. -/
def isDigit (c : Char) : Bool :=
  '0' ≤ c && c ≤ '9'

/-- The value of an ASCII digit. -/
def digitValue (c : Char) : Nat :=
  c.toNat - '0'.toNat

/-- The number a run of decimal digits denotes. -/
def ofDigits (ds : List Char) : Nat :=
  ds.foldl (fun n c => 10 * n + digitValue c) 0

/-- Digits alone, at least one, with a value of at most `bound`. -/
def readDigits (bound : Nat) (s : List Char) : Option Nat :=
  if s.isEmpty || !s.all isDigit then none
  else
    let n := ofDigits s
    if n ≤ bound then some n else none

/-- **A natural of at most `bound`**: decimal digits, after a plus sign if there is one. -/
def readNat (bound : Nat) : List Char → Option Nat
  | '+' :: ds => readDigits bound ds
  | ds => readDigits bound ds

/-- The largest unsigned number of 64 bits. -/
def maxWord : Nat := 18446744073709551615

/-- An unsigned number of 64 bits. -/
def readWord (s : List Char) : Option Nat :=
  readNat maxWord s

/-- A decimal numeral without its sign: `digits · 10 ^ exponent`. -/
structure Decimal where
  /-- All digits, those after the point included. -/
  digits : Nat
  /-- The power of ten they are scaled by. -/
  exponent : Int

/-- The number of decimal digits of a number; none for zero. -/
def digitCount (n : Nat) : Nat :=
  if n = 0 then 0 else (Nat.toDigits 10 n).length

/-- **The nearest float**, as magnitude bits. Numerals that are certainly beyond the range of the
format are not expanded. -/
def Decimal.bits (f : Format) (d : Decimal) : Nat :=
  let magnitude := (digitCount d.digits : Int) + d.exponent
  if d.digits = 0 then 0
  else if magnitude < -400 then 0
  else if 400 < magnitude then f.infinityBits
  else if 0 ≤ d.exponent then f.nearest (d.digits * Nat.pow 10 d.exponent.toNat) 1
  else f.nearest d.digits (Nat.pow 10 (-d.exponent).toNat)

/-- An exponent's digits, cut off where the value no longer matters. -/
def readExponent (s : List Char) : Option Int :=
  let (negative, ds) :=
    match s with
    | '-' :: ds => (true, ds)
    | '+' :: ds => (false, ds)
    | ds => (false, ds)
  if ds.isEmpty || !ds.all isDigit then none
  else
    let n : Nat := ds.foldl (fun n c => min 1000000 (10 * n + digitValue c)) 0
    some (if negative then -(n : Int) else n)

/-- A numeral without sign: digits around at most one point, at least one of them, and an exponent
if there is one. -/
def readDecimal (s : List Char) : Option Decimal :=
  let (whole, rest) := s.span isDigit
  let (fraction, rest) :=
    match rest with
    | '.' :: r => r.span isDigit
    | r => ([], r)
  if whole.isEmpty && fraction.isEmpty then none
  else
    let digits := ofDigits (whole ++ fraction)
    match rest with
    | [] => some ⟨digits, -(fraction.length : Int)⟩
    | c :: r =>
      if c = 'e' || c = 'E' then
        (readExponent r).map fun e => ⟨digits, e - fraction.length⟩
      else none

/-- What a floating-point numeral denotes, before it is rounded. -/
inductive Numeral where
  /-- A finite number. -/
  | finite (negative : Bool) (value : Decimal)
  /-- An infinity. -/
  | infinite (negative : Bool)
  /-- Not a number. -/
  | nan (negative : Bool)

/-- **A floating-point numeral**: a sign if there is one, then a decimal numeral or one of the words
`inf`, `infinity` and `nan` in any case. -/
def readNumeral (s : List Char) : Option Numeral :=
  let (negative, body) :=
    match s with
    | '-' :: r => (true, r)
    | '+' :: r => (false, r)
    | r => (false, r)
  let word := String.ofList (body.map Text.lowerAscii)
  if word = "inf" || word = "infinity" then some (.infinite negative)
  else if word = "nan" then some (.nan negative)
  else (readDecimal body).map (.finite negative)

/-- The nearest double. -/
def Numeral.toFloat : Numeral → Float
  | .finite negative d => float64 negative (d.bits binary64)
  | .infinite negative => float64 negative binary64.infinityBits
  | .nan _ => nan64

/-- The nearest single, rounded once. -/
def Numeral.toSingle : Numeral → Single
  | .finite negative d => .ofMagnitude negative (d.bits binary32)
  | .infinite negative => .infinity negative
  | .nan negative => .nan negative

/-- A double from its numeral. -/
def readFloat (s : List Char) : Option Float :=
  (readNumeral s).map Numeral.toFloat

/-- A single from its numeral. -/
def readSingle (s : List Char) : Option Single :=
  (readNumeral s).map Numeral.toSingle

/-- The value of a hexadecimal digit. -/
def hexValue (c : Char) : Option Nat :=
  if '0' ≤ c ∧ c ≤ '9' then some (c.toNat - '0'.toNat)
  else if 'a' ≤ c ∧ c ≤ 'f' then some (c.toNat - 'a'.toNat + 10)
  else if 'A' ≤ c ∧ c ≤ 'F' then some (c.toNat - 'A'.toNat + 10)
  else none

/-- The number that digits denote in a base of at most sixteen; `none` for an empty run or a
character that is no digit of that base. -/
def readBase (base : Nat) (s : List Char) : Option Nat :=
  if s.isEmpty then none
  else
    s.foldlM (fun n c => do
      let d ← hexValue c
      if d < base then some (base * n + d) else none) 0

/-- The digits of a number in base sixteen, in lower case. -/
def hexDigits (width n : Nat) : String :=
  let ds := Nat.toDigits 16 n
  String.ofList (List.replicate (width - ds.length) '0' ++ ds)

end IncidentMemory.Number
