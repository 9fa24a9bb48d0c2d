import IncidentMemory.Number.Decimal
import IncidentMemory.Number.Sha1
import IncidentMemory.Text.Utf8

/-!
# UUIDs

A UUID is sixteen bytes. It is written with hyphens after the fourth, sixth, eighth and tenth byte,
or without, or in braces, or as a URN. Any text has a UUID of its own, made from its digest inside a
namespace.
-/

namespace IncidentMemory

/-- **A UUID.** -/
structure Uuid where
  /-- Its bytes, as a number below `2 ^ 128`. -/
  value : Nat
  deriving DecidableEq, Repr

namespace Uuid

/-- The lengths of the groups between hyphens. -/
def groupLengths : List Nat := [8, 4, 4, 4, 12]

/-- Thirty-two hexadecimal digits. -/
def ofDigits? (cs : List Char) : Option Uuid :=
  if cs.length = 32 then (Number.readBase 16 cs).map Uuid.mk else none

/-- Groups of digits with hyphens between them. -/
def ofGroups? (cs : List Char) : Option Uuid :=
  let groups := Text.splitAt '-' cs
  if groups.map List.length = groupLengths then ofDigits? groups.flatten else none

/-- What stands between braces. -/
def inBraces? : List Char → Option (List Char)
  | '\x7b' :: r => if r.getLast? = some '\x7d' then some r.dropLast else none
  | _ => none

/-- **Reads a UUID.** -/
def parse? (text : String) : Option Uuid :=
  let cs := text.toList
  ofDigits? cs <|> ofGroups? cs <|> ((inBraces? cs).bind ofGroups?)
    <|> ((Text.dropLiteral? "urn:uuid:".toList cs).bind ofGroups?)

/-- The hyphenated form in lower case. -/
def render (u : Uuid) : String :=
  let ds := (Number.hexDigits 32 u.value).toList
  let part := fun (start n : Nat) => String.ofList ((ds.drop start).take n)
  s!"{part 0 8}-{part 8 4}-{part 12 4}-{part 16 4}-{part 20 12}"

/-- The number that bytes denote, most significant first. -/
def ofBytes (bytes : List UInt8) : Uuid :=
  ⟨bytes.foldl (fun n b => 256 * n + b.toNat) 0⟩

/-- **The UUID of a text inside a namespace**, marked as one that was made from a digest. -/
def ofName (space : Uuid) (text : String) : Uuid :=
  let digest := Number.Sha1.digest (Number.Sha1.bigEndian 16 space.value ++ Text.encode text)
  ofBytes ((digest.take 16).mapIdx fun i b =>
    if i = 6 then (b &&& 0x0F) ||| 0x50
    else if i = 8 then (b &&& 0x3F) ||| 0x80
    else b)

end Uuid

end IncidentMemory
