import IncidentMemory.Number.Binary

/-!
# The shortest decimal of a float

`shortest` gives, for a finite positive float, the decimal with the fewest digits that reads back
as the same float, and of those the one nearest to it. Everything is exact arithmetic on naturals:
the float and the two ends of the interval that rounds to it are brought to one denominator, and
for one digit, two digits, … the float's two neighbours on that decimal grid are tested.

`layout` writes digits and a power of ten positionally or with an exponent.
-/

namespace IncidentMemory.Number

/-- A float and the interval that rounds to it, over one denominator. -/
structure Rounding where
  /-- The float. -/
  value : Nat
  /-- Lower end of the interval. -/
  low : Nat
  /-- Upper end of the interval. -/
  high : Nat
  /-- The common denominator. -/
  den : Nat
  /-- Whether the ends belong to the interval, as they do for an even significand. -/
  closed : Bool

/-- The rounding interval of finite positive bits. The lower half is narrower where the significand
is the least of its binade. -/
def Format.rounding (f : Format) (bits : Nat) : Rounding :=
  let (m, e) := f.decode bits
  let (unit, den) := Format.scaled 1 1 (e - 2)
  let least := m = f.hidden ∧ f.hidden ≤ bits - f.hidden
  ⟨4 * m * unit, (4 * m - (if least then 1 else 2)) * unit, (4 * m + 2) * unit, den, m % 2 = 0⟩

/-- Whether `n / d`, given as `n` over `den · d`, lies in the interval. -/
def Rounding.holds (r : Rounding) (n d : Nat) : Bool :=
  -- compares `n / d` with `low / den` and `high / den`
  if r.closed then r.low * d ≤ n * r.den && n * r.den ≤ r.high * d
  else r.low * d < n * r.den && n * r.den < r.high * d

/-- The power `10 ^ p` as a numerator and a denominator. -/
def powerOfTen (p : Int) : Nat × Nat :=
  if 0 ≤ p then (Nat.pow 10 p.toNat, 1) else (1, Nat.pow 10 (-p).toNat)

/-- Of a float's two neighbours on the grid of multiples of `10 ^ p`, the nearer that rounds to
it. -/
def Rounding.onGrid (r : Rounding) (p : Int) : Option Nat :=
  let (n, d) := powerOfTen p
  -- the float is `value / den`; one step of the grid is `n / d`
  let q := r.value * d / (r.den * n)
  let below := r.holds (q * n) d
  let above := r.holds ((q + 1) * n) d
  let rest := r.value * d % (r.den * n)
  if below && above then
    if 2 * rest < r.den * n then some q
    else if r.den * n < 2 * rest then some (q + 1)
    else if q % 2 = 0 then some q else some (q + 1)
  else if below then some q
  else if above then some (q + 1)
  else none

/-- The power of ten of the leading digit of `value / den`. -/
def leadingPower (value den : Nat) : Int :=
  if den ≤ value then ((Nat.toDigits 10 (value / den)).length : Int) - 1
  else -((Nat.toDigits 10 ((den - 1) / value)).length : Int)

/-- Tries grids of growing fineness. -/
def Rounding.search (r : Rounding) (p : Int) : Nat → Nat × Int
  | 0 => (0, 0)
  | fuel + 1 =>
    match r.onGrid p with
    | some q => (q, p)
    | none => r.search (p - 1) fuel

/-- **Digits and power of ten of the shortest decimal** that reads back as the given finite positive
float. Seventeen digits always suffice for the formats used here. -/
def shortest (f : Format) (bits : Nat) : Nat × Int :=
  let r := f.rounding bits
  r.search (leadingPower r.value r.den) 18

/-- Drops the zeros at the end of the digits, and moves the power of ten with them. -/
def dropTrailingZeros (digits : List Char) (p : Int) : List Char × Int :=
  let kept := (digits.reverse.dropWhile (· = '0')).reverse
  (kept, p + (digits.length - kept.length : Nat))

/-- **A number's text**: positional with at least one digit on either side of the point while the
point stands within sixteen digits of the first digit, or within five zeros before it; otherwise
one digit, the others after a point if there are any, and an exponent. -/
def layout (digits : Nat) (p : Int) : String :=
  let (ds, p) := dropTrailingZeros (Nat.toDigits 10 digits) p
  let point : Int := ds.length + p
  let text : List Char :=
    if 0 ≤ p ∧ point ≤ 16 then ds ++ List.replicate p.toNat '0' ++ ['.', '0']
    else if 0 < point ∧ point ≤ 16 then ds.take point.toNat ++ '.' :: ds.drop point.toNat
    else if -5 < point ∧ point ≤ 0 then '0' :: '.' :: List.replicate (-point).toNat '0' ++ ds
    else
      let e := point - 1
      let mantissa := match ds with
        | d :: r@(_ :: _) => d :: '.' :: r
        | ds => ds
      mantissa ++ 'e' :: (toString e).toList
  String.ofList text

/-- The text of a finite double: the shortest decimal that reads back. -/
def renderFloat (x : Float) : String :=
  let bits := x.toBits.toNat
  let magnitude := binary64.magnitude bits
  let body :=
    if magnitude = 0 then "0.0"
    else
      let (digits, p) := shortest binary64 magnitude
      layout digits p
  if binary64.isNegative bits then "-" ++ body else body

end IncidentMemory.Number
