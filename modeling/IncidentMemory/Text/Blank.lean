/-!
# Blank characters

The characters that count as white space wherever this library skips or trims it: the code points
with the Unicode property `White_Space`. `trim` removes them at both ends of a text.
-/

namespace IncidentMemory.Text

/-- The code points with the property `White_Space`, as inclusive ranges in increasing order. -/
def blankRanges : List (Nat × Nat) :=
  [(0x09, 0x0D), (0x20, 0x20), (0x85, 0x85), (0xA0, 0xA0), (0x1680, 0x1680), (0x2000, 0x200A),
   (0x2028, 0x2029), (0x202F, 0x202F), (0x205F, 0x205F), (0x3000, 0x3000)]

/-- Whether a character is white space. -/
def isBlank (c : Char) : Bool :=
  blankRanges.any fun r => r.1 ≤ c.toNat && c.toNat ≤ r.2

/-- **The characters without white space at either end.** -/
def trimChars (s : List Char) : List Char :=
  ((s.dropWhile isBlank).reverse.dropWhile isBlank).reverse

/-- The text without white space at either end. -/
def trim (s : String) : String :=
  String.ofList (trimChars s.toList)

/-- Whether a text holds nothing but white space. -/
def allBlank (s : String) : Bool :=
  s.toList.all isBlank

/-- The ASCII lower-case form of a character; all others stay as they are. -/
def lowerAscii (c : Char) : Char :=
  if 'A' ≤ c ∧ c ≤ 'Z' then Char.ofNat (c.toNat + 32) else c

/-- Whether two texts are equal when the case of ASCII letters is ignored. -/
def eqIgnoringCase (s t : String) : Bool :=
  s.toList.map lowerAscii == t.toList.map lowerAscii

/-- Splits at every occurrence of a character; always at least one part. -/
def splitAt (sep : Char) : List Char → List (List Char)
  | [] => [[]]
  | c :: rest =>
    if c = sep then [] :: splitAt sep rest
    else
      match splitAt sep rest with
      | [] => [[c]]
      | part :: parts => (c :: part) :: parts

/-- Splits at the first occurrence of a character, which is dropped. -/
def splitOnce (sep : Char) (s : List Char) : Option (List Char × List Char) :=
  match s.span (· ≠ sep) with
  | (_, []) => none
  | (before, _ :: after) => some (before, after)

/-- Whether the text starts with the given characters, and what follows them. -/
def dropLiteral? : List Char → List Char → Option (List Char)
  | [], s => some s
  | _ :: _, [] => none
  | p :: ps, c :: cs => if p = c then dropLiteral? ps cs else none

/-- What precedes and what follows the first occurrence of a (non-empty) run of characters. -/
def splitAtLiteral (lit : List Char) : List Char → Option (List Char × List Char)
  | [] => (dropLiteral? lit []).map fun rest => ([], rest)
  | c :: cs =>
    match dropLiteral? lit (c :: cs) with
    | some rest => some ([], rest)
    | none => (splitAtLiteral lit cs).map fun (before, after) => (c :: before, after)

/-- Whether one text occurs somewhere inside another. -/
def contains (needle text : String) : Bool :=
  (splitAtLiteral needle.toList text.toList).isSome

/-- The decimal digits of a number, padded with zeros on the left to the given width. -/
def padded (width n : Nat) : String :=
  let digits := (Nat.repr n).toList
  String.ofList (List.replicate (width - digits.length) '0' ++ digits)

end IncidentMemory.Text
