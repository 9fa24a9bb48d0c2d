import IncidentMemory.Document.Basic

/-!
# JSON numerals

The value of a number in a JSON text. An integer that fits 64 bits keeps its exact value. Anything
else is a double, computed in the usual quick way: the digits go into a 64-bit significand until it
is full, later digits only move the power of ten, and the significand is then multiplied or divided
by that power in double precision. For short numerals that is the nearest double; for long ones the
last bit may differ, and this module is the definition of which double is meant.
-/

namespace IncidentMemory.Json

/-- A numeral as it stands in the text; digits are their values. -/
structure Numeral where
  /-- Whether there is a minus sign. -/
  negative : Bool
  /-- The digits before the point. -/
  whole : List Nat
  /-- The digits after the point, if there is one. -/
  fraction : Option (List Nat)
  /-- The exponent, if there is one: whether it is negative, and its digits. -/
  exponent : Option (Bool × List Nat)

namespace Numeral

/-- Adds digits to a significand while it stays below `2 ^ 64`; the digits that no longer fit are
handed back. -/
def fill : Nat → List Nat → Nat × List Nat
  | acc, [] => (acc, [])
  | acc, d :: ds =>
    if 10 * acc + d < 18446744073709551616 then fill (10 * acc + d) ds else (acc, d :: ds)

/-- Significand and power of ten: whole digits that no longer fit raise the power, and fraction
digits that no longer fit are dropped. -/
def significand (n : Numeral) : Nat × Int :=
  let (acc, dropped) := fill 0 n.whole
  let digits := n.fraction.getD []
  let (acc', unused) := fill acc digits
  (acc', (dropped.length : Int) - ((digits.length - unused.length : Nat) : Int))

/-- The exponent's value, or `none` when it does not fit 32 bits. -/
def exponentValue (ds : List Nat) : Option Nat :=
  ds.foldlM (fun n d => if 10 * n + d < 2147483648 then some (10 * n + d) else none) 0

/-- The double `10 ^ n`. -/
def tenTo (n : Nat) : Float :=
  Number.float64 false (Number.binary64.nearest (Nat.pow 10 n) 1)

/-- A significand scaled by a power of ten, in double precision; `none` beyond the largest double.
Powers below `10 ^ -308` are divided out in two steps. -/
def scale (significand : Nat) (p : Int) : Option Float :=
  let f := Number.double significand
  if 0 ≤ p then
    if 308 < p then (if significand = 0 then some f else none)
    else
      let product := f * tenTo p.toNat
      if product.isFinite then some product else none
  else if -308 ≤ p then some (f / tenTo (-p).toNat)
  else if significand = 0 then some f
  else if -616 ≤ p then some (f / tenTo 308 / tenTo (-(p + 308)).toNat)
  else some (Number.double 0)

/-- A double with the given sign. -/
def signed (negative : Bool) (x : Float) : Float :=
  if negative then -x else x

/-- Whether the numeral is written as an integer. -/
def isInteger (n : Numeral) : Bool :=
  n.fraction.isNone && n.exponent.isNone

/-- **The value of a numeral**, or `none` when it lies beyond the largest double. -/
def value (n : Numeral) : Option Scalar :=
  let (s, p) := n.significand
  match n.exponent with
  | none =>
    if n.isInteger && p = 0 then
      if !n.negative then some (.int s)
      else if s = 0 || 9223372036854775808 < s then some (.real (-(Number.double s)))
      else some (.int (-(s : Int)))
    else (scale s p).map fun x => .real (signed n.negative x)
  | some (down, ds) =>
    match exponentValue ds with
    | some e => (scale s (if down then p - e else p + e)).map fun x => .real (signed n.negative x)
    | none =>
      if s ≠ 0 ∧ down = false then none
      else some (.real (signed n.negative (Number.double 0)))

end Numeral

end IncidentMemory.Json
