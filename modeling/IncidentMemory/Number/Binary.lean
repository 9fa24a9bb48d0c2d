/-!
# Binary floating-point formats

A format is given by the width of its two fields. `Format.nearest` is the rounding that everything
else here rests on: the bits of the float nearest to a ratio of naturals, a half going to the even
neighbour, with infinity beyond the largest finite value. `Format.decode` reads finite bits back as
`m · 2 ^ e`.
-/

namespace IncidentMemory.Number

/-- A binary interchange format: one sign bit, `exponentBits`, then `fractionBits`. -/
structure Format where
  /-- Width of the stored fraction. -/
  fractionBits : Nat
  /-- Width of the exponent field. -/
  exponentBits : Nat

/-- Single precision. -/
def binary32 : Format := ⟨23, 8⟩

/-- Double precision. -/
def binary64 : Format := ⟨52, 11⟩

namespace Format

/-- The format's least positive number is `2 ^ (- leastExponent)`. -/
def leastExponent (f : Format) : Nat :=
  Nat.pow 2 (f.exponentBits - 1) - 2 + f.fractionBits

/-- The weight of the leading bit of a significand, which is not written. -/
def hidden (f : Format) : Nat :=
  Nat.pow 2 f.fractionBits

/-- The bits of infinity. -/
def infinityBits (f : Format) : Nat :=
  (Nat.pow 2 f.exponentBits - 1) * f.hidden

/-- Where the sign bit stands. -/
def signBit (f : Format) : Nat :=
  Nat.pow 2 (f.exponentBits + f.fractionBits)

/-- The integer nearest to a ratio, a half going to the even neighbour. -/
def roundHalfEven (num den : Nat) : Nat :=
  let q := num / den
  let r := num % den
  if 2 * r < den then q
  else if den < 2 * r then q + 1
  else if q % 2 = 0 then q else q + 1

/-- The ratio `num / den · 2 ^ s` as a numerator and a denominator. -/
def scaled (num den : Nat) (s : Int) : Nat × Nat :=
  if 0 ≤ s then (num * Nat.pow 2 s.toNat, den) else (num, den * Nat.pow 2 (-s).toNat)

/-- **The bits of the float nearest to `num / den`** (a non-negative ratio, `den` positive).

The ratio is scaled so that its integer part has `fractionBits + 1` binary digits, or fewer where
the least exponent stops it; the logarithms of numerator and denominator give that scale up to one.
The exponent field counts from the least exponent, and a significand that rounds up to the next
power of two carries into it, so one addition packs subnormal and normal numbers alike. -/
def nearest (f : Format) (num den : Nat) : Nat :=
  if num = 0 then 0
  else
    let least : Int := -(f.leastExponent : Int)
    let guess : Int := (num.log2 : Int) - (den.log2 : Int) - (f.fractionBits : Int) - 1
    let e₀ := max least guess
    let (n₀, d₀) := scaled num den (-e₀)
    let e := if 2 * f.hidden ≤ n₀ / d₀ then e₀ + 1 else e₀
    let (n, d) := scaled num den (-e)
    let bits := (e - least).toNat * f.hidden + roundHalfEven n d
    min bits f.infinityBits

/-- A finite float as `m · 2 ^ e`; the sign bit is ignored. -/
def decode (f : Format) (bits : Nat) : Nat × Int :=
  let fraction := bits % f.hidden
  let exponent := bits / f.hidden % Nat.pow 2 f.exponentBits
  let least : Int := -(f.leastExponent : Int)
  if exponent = 0 then (fraction, least)
  else (fraction + f.hidden, least + (exponent : Int) - 1)

/-- Whether the sign bit is set. -/
def isNegative (f : Format) (bits : Nat) : Bool :=
  bits / f.signBit % 2 = 1

/-- The bits without the sign. -/
def magnitude (f : Format) (bits : Nat) : Nat :=
  bits % f.signBit

/-- The bits with the sign set or not. -/
def withSign (f : Format) (negative : Bool) (magnitude : Nat) : Nat :=
  if negative then f.signBit + magnitude else magnitude

end Format

/-- A double from its magnitude bits and its sign. -/
def float64 (negative : Bool) (magnitude : Nat) : Float :=
  Float.ofBits (UInt64.ofNat (binary64.withSign negative magnitude))

/-- The quiet not-a-number of double precision. -/
def nan64 : Float := Float.ofBits 0x7FF8000000000000

/-- The double nearest to an integer. -/
def double (i : Int) : Float :=
  float64 (i < 0) (binary64.nearest i.natAbs 1)

end IncidentMemory.Number
