import IncidentMemory.Number.Decimal

/-!
# Durations

A duration is a count of nanoseconds below `2 ^ 64` seconds. `Duration.parse` reads the notations a
setting may use: a clock time `H:M:S`, with days in front as `D.H:M:S`, or a number with a unit.
Only positive durations are accepted.
-/

namespace IncidentMemory

/-- Nanoseconds per second. -/
def nanosPerSecond : Nat := 1000000000

/-- A span of time in whole nanoseconds. -/
structure Duration where
  /-- Its length in nanoseconds. -/
  nanos : Nat
  deriving DecidableEq, Repr

namespace Duration

/-- The longest duration has `2 ^ 64 - 1` whole seconds. -/
def isRepresentable (nanos : Nat) : Bool :=
  nanos < (Number.maxWord + 1) * nanosPerSecond

/-- The whole seconds of a duration. -/
def seconds (d : Duration) : Nat :=
  d.nanos / nanosPerSecond

/-- What is left beside the whole seconds. -/
def subsecNanos (d : Duration) : Nat :=
  d.nanos % nanosPerSecond

/-- A number of whole seconds. -/
def ofSeconds (s : Nat) : Duration :=
  ⟨s * nanosPerSecond⟩

/-- The nearest duration to a number of seconds, half a nanosecond going to the even neighbour;
`none` for a negative number, for not-a-number, and beyond the longest duration. -/
def ofFloat? (x : Float) : Option Duration :=
  if x.isNaN || !x.isFinite || x < 0 then none
  else
    let (m, e) := Number.binary64.decode x.toBits.toNat
    let (n, d) := Number.Format.scaled (m * nanosPerSecond) 1 e
    let nanos := Number.Format.roundHalfEven n d
    if isRepresentable nanos then some ⟨nanos⟩ else none

/-- The sum of two durations, unless it is too long. -/
def add? (a b : Duration) : Option Duration :=
  if isRepresentable (a.nanos + b.nanos) then some ⟨a.nanos + b.nanos⟩ else none

/-- A product that fits 64 bits. -/
def mulWord? (a b : Nat) : Option Nat :=
  if a * b ≤ Number.maxWord then some (a * b) else none

/-- The last 64 bits of a product, whether it fits or not. -/
def mulWord (a b : Nat) : Nat :=
  a * b % (Number.maxWord + 1)

/-- A sum that fits 64 bits. -/
def addWord? (a b : Nat) : Option Nat :=
  if a + b ≤ Number.maxWord then some (a + b) else none

/-- Days and hours: `D.H`, or `H` alone. -/
def parseDayHour (head : List Char) : Option (Nat × Nat) :=
  match Text.splitOnce '.' head with
  | some (days, hours) => do
    let d ← Number.readWord days
    let h ← Number.readWord hours
    some (d, h)
  | none => (Number.readWord head).map fun h => (0, h)

/-- **A clock time** `H:M:S` or `D.H:M:S`. Minutes and seconds are below sixty; hours are below 24
when days are given and not zero; seconds may have a fraction. -/
def parseClock (raw : List Char) : Option Duration :=
  match Text.splitAt ':' raw with
  | [head, minutes, seconds] => do
    let (days, hours) ← parseDayHour head
    let minutes ← Number.readWord minutes
    let seconds ← Number.readFloat seconds
    if (24 ≤ hours ∧ 0 < days) ∨ 60 ≤ minutes then none
    else if !(0 ≤ seconds && seconds < 60) then none
    else
      let byDays ← mulWord? days 86400
      let byHours ← mulWord? hours 3600
      let whole ← addWord? byDays byHours
      let whole ← addWord? whole (mulWord minutes 60)
      let fraction ← ofFloat? seconds
      (ofSeconds whole).add? fraction
  | _ => none

/-- The number of seconds that a value with a unit denotes; seconds if there is no unit. -/
def inSeconds (value : Float) (unit : String) : Option Float :=
  match unit with
  | "" | "s" => some value
  | "ms" => some (value / 1000)
  | "m" => some (value * 60)
  | "h" => some (value * 3600)
  | "d" => some (value * 86400)
  | _ => none

/-- **A number with a unit**: digits and points, then the unit, which may stand apart. -/
def parseWithUnit (raw : List Char) : Option Duration := do
  let isNumberChar := fun c => Number.isDigit c || c = '.'
  let value ← Number.readFloat (raw.takeWhile isNumberChar)
  if !value.isFinite then none
  else
    let unit := Text.trimChars (raw.dropWhile isNumberChar)
    let seconds ← inSeconds value (String.ofList unit)
    ofFloat? seconds

/-- **Reads a positive duration**; white space around it is ignored. -/
def parse (raw : String) : Option Duration :=
  let s := Text.trimChars raw.toList
  let parsed := if s.contains ':' then parseClock s else parseWithUnit s
  parsed.filter fun d => 0 < d.nanos

end Duration

end IncidentMemory
