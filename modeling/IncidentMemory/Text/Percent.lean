import IncidentMemory.Number.Decimal
import IncidentMemory.Text.Utf8

/-!
# Percent escapes

In addresses a byte may be written as a percent sign and two hexadecimal digits. A percent sign that
no two digits follow stands for itself.
-/

namespace IncidentMemory.Text

/-- The value of a byte that is a hexadecimal digit. -/
def hexByteValue (b : UInt8) : Option UInt8 :=
  (Number.hexValue (Char.ofNat b.toNat)).map Nat.toUInt8

/-- **The bytes that a text with percent escapes denotes.** -/
def unescapePercent : List UInt8 → List UInt8
  | [] => []
  | b :: rest =>
    if b = '%'.toNat.toUInt8 then
      match rest with
      | h :: l :: rest' =>
        match hexByteValue h, hexByteValue l with
        | some h', some l' => (16 * h' + l') :: unescapePercent rest'
        | _, _ => b :: unescapePercent (h :: l :: rest')
      | rest => b :: unescapePercent rest
    else b :: unescapePercent rest

/-- The text that a text with percent escapes denotes, if its bytes are UTF-8. -/
def percentDecoded? (text : String) : Option String :=
  decode? (unescapePercent (encode text))

end IncidentMemory.Text
