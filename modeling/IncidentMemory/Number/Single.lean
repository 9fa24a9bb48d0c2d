import IncidentMemory.Number.Binary

/-!
# Single-precision numbers

Components of embeddings, scores and thresholds. A number is its 32 bits, so that also a
not-a-number has a sign. Sums, products, quotients and roots are those of IEEE arithmetic, rounded
once. Where the result is no number, it is left open which not-a-number stands for it, and
processors differ; so the operations are those of an `Arithmetic`, which settles it.
`Arithmetic.usual` passes on the left one of the not-a-numbers that go into an operation, and makes
a negative one out of numbers.

There are two orders, both read off the bits as integers. `≤` is the order of the values, in which
zeros of either sign are equal and nothing compares with a not-a-number. `totalLe` is the IEEE total
order: negative not-a-numbers, then the numbers from negative infinity up with `-0.0` before `0.0`,
then positive not-a-numbers.
-/

namespace IncidentMemory

/-- **A single-precision number**, given by its bits. -/
structure Single where
  /-- Sign, exponent and fraction. -/
  bits : UInt32
  deriving DecidableEq, Repr, Inhabited

namespace Single

open Number (binary32 binary64)

/-- The bits without the sign, as a natural. -/
def magnitude (x : Single) : Nat :=
  x.bits.toNat % 2147483648

/-- Whether the sign bit is set. -/
def isNegative (x : Single) : Bool :=
  2147483648 ≤ x.bits.toNat

/-- Whether the bits denote no number. -/
def isNaN (x : Single) : Bool :=
  binary32.infinityBits < x.magnitude

/-- A number from its magnitude bits and its sign. -/
def ofMagnitude (negative : Bool) (magnitude : Nat) : Single :=
  ⟨UInt32.ofNat (binary32.withSign negative magnitude)⟩

/-- Zero. -/
def zero : Single := ⟨0⟩

/-- One. -/
def one : Single := ⟨0x3F800000⟩

/-- The negative zero. -/
def negZero : Single := ⟨0x80000000⟩

/-- An infinity. -/
def infinity (negative : Bool) : Single :=
  ofMagnitude negative binary32.infinityBits

/-- The not-a-number of the given sign. -/
def nan (negative : Bool) : Single :=
  ⟨if negative then 0xFFC00000 else 0x7FC00000⟩

/-! ## Conversions -/

/-- The machine's number of the same bits. -/
def toFloat32 (x : Single) : Float32 :=
  Float32.ofBits x.bits

/-- The result of an operation: its bits, or the given not-a-number if it is none. -/
def ofResult (none : Single) (x : Float32) : Single :=
  if x.isNaN then none else ⟨x.toBits⟩

/-- **A double rounded to single precision.** -/
def ofFloat (x : Float) : Single :=
  if x.isNaN then nan false
  else
    let bits := x.toBits.toNat
    let negative := binary64.isNegative bits
    if binary64.magnitude bits = binary64.infinityBits then infinity negative
    else
      let (m, e) := binary64.decode bits
      let (n, d) := Number.Format.scaled m 1 e
      ofMagnitude negative (binary32.nearest n d)

/-- The double of the same value. -/
def toFloat (x : Single) : Float :=
  if x.isNaN then Number.nan64
  else if x.magnitude = binary32.infinityBits then
    Number.float64 x.isNegative binary64.infinityBits
  else
    let (m, e) := binary32.decode x.bits.toNat
    let (n, d) := Number.Format.scaled m 1 e
    Number.float64 x.isNegative (binary64.nearest n d)

/-- The number nearest to an integer. -/
def ofInt (i : Int) : Single :=
  ofMagnitude (i < 0) (binary32.nearest i.natAbs 1)

/-! ## Orders -/

/-- The value as an integer that orders like it: the magnitude bits, with the sign. -/
def orderKey (x : Single) : Int :=
  if x.isNegative then -(x.magnitude : Int) else x.magnitude

/-- **The order of values**; false when either side is not a number. -/
def le (x y : Single) : Bool :=
  !x.isNaN && !y.isNaN && decide (x.orderKey ≤ y.orderKey)

/-- The strict order of values; false when either side is not a number. -/
def lt (x y : Single) : Bool :=
  !x.isNaN && !y.isNaN && decide (x.orderKey < y.orderKey)

instance : LE Single := ⟨fun x y => x.le y = true⟩
instance : LT Single := ⟨fun x y => x.lt y = true⟩

instance (x y : Single) : Decidable (x ≤ y) := inferInstanceAs (Decidable (x.le y = true))
instance (x y : Single) : Decidable (x < y) := inferInstanceAs (Decidable (x.lt y = true))

/-- The place in the total order: like the magnitude from zero up, and below zero backwards. -/
def totalKey (x : Single) : Int :=
  if x.isNegative then -(x.magnitude : Int) - 1 else x.magnitude

/-- **IEEE total order.** -/
def totalLe (x y : Single) : Bool :=
  x.totalKey ≤ y.totalKey

end Single

/-- **What a processor makes of an operation whose result is not a number.** -/
structure Arithmetic where
  /-- The not-a-number that comes of two operands; a root has one operand, which counts twice. -/
  nan : Single → Single → Single
  /-- It is none. -/
  isNaN_nan : ∀ x y, (nan x y).isNaN = true

namespace Arithmetic

/-- Passes on the left one of the operands that are not numbers, and makes the negative one of
numbers. -/
def usual : Arithmetic where
  nan x y := if x.isNaN then x else if y.isNaN then y else .nan true
  isNaN_nan x y := by
    split
    · assumption
    · split
      · assumption
      · rfl

variable (a : Arithmetic)

/-- An operation on two operands. -/
def lift₂ (op : Float32 → Float32 → Float32) (x y : Single) : Single :=
  if x.isNaN || y.isNaN then a.nan x y else .ofResult (a.nan x y) (op x.toFloat32 y.toFloat32)

/-- The sum. -/
def add : Single → Single → Single := a.lift₂ (· + ·)

/-- The difference. -/
def sub : Single → Single → Single := a.lift₂ (· - ·)

/-- The product. -/
def mul : Single → Single → Single := a.lift₂ (· * ·)

/-- The quotient. -/
def div : Single → Single → Single := a.lift₂ (· / ·)

/-- The square root. -/
def sqrt (x : Single) : Single :=
  if x.isNaN then a.nan x x else .ofResult (a.nan x x) x.toFloat32.sqrt

end Arithmetic

end IncidentMemory
