/-!
# Text from bytes

Bytes that are meant to be UTF-8. `decode?` accepts well-formed text only; `decodeLossy` replaces
what is not text by `U+FFFD`: one replacement for every longest run of bytes that starts a
well-formed sequence and then breaks off, one for every byte that can start none.
-/

namespace IncidentMemory.Text

/-- One step of reading UTF-8: a character, or a run of bytes that is not one, and the rest. -/
inductive Utf8Step where
  /-- A well-formed character. -/
  | char (c : Char) (rest : List UInt8)
  /-- An ill-formed run. -/
  | illFormed (rest : List UInt8)

/-- Whether a byte may continue a character. -/
def isContinuation (b : UInt8) : Bool :=
  0x80 ≤ b && b ≤ 0xBF

/-- The bytes that may follow a leading byte: how many continuation bytes the character has, and
the range its second byte must lie in (which excludes long forms, surrogates and code points
above `U+10FFFF`). `none` for a byte that starts no character of two bytes or more. -/
def leadingByte (b : UInt8) : Option (Nat × UInt8 × UInt8) :=
  if 0xC2 ≤ b && b ≤ 0xDF then some (1, 0x80, 0xBF)
  else if b == 0xE0 then some (2, 0xA0, 0xBF)
  else if b == 0xED then some (2, 0x80, 0x9F)
  else if 0xE1 ≤ b && b ≤ 0xEF then some (2, 0x80, 0xBF)
  else if b == 0xF0 then some (3, 0x90, 0xBF)
  else if 0xF1 ≤ b && b ≤ 0xF3 then some (3, 0x80, 0xBF)
  else if b == 0xF4 then some (3, 0x80, 0x8F)
  else none

/-- The low six bits of a continuation byte. -/
def payloadBits (b : UInt8) : Nat :=
  b.toNat % 64

/-- Reads one character from a leading byte and the bytes after it. -/
def utf8Step (b : UInt8) (rest : List UInt8) : Utf8Step :=
  if b < 0x80 then .char (Char.ofNat b.toNat) rest
  else
    match leadingByte b with
    | none => .illFormed rest
    | some (n, lo, hi) =>
      match rest with
      | [] => .illFormed []
      | b₁ :: rest₁ =>
        if !(lo ≤ b₁ && b₁ ≤ hi) then .illFormed rest
        else if n == 1 then
          .char (Char.ofNat ((b.toNat % 32) * 64 + payloadBits b₁)) rest₁
        else
          match rest₁ with
          | [] => .illFormed []
          | b₂ :: rest₂ =>
            if !isContinuation b₂ then .illFormed rest₁
            else if n == 2 then
              .char (Char.ofNat (((b.toNat % 16) * 64 + payloadBits b₁) * 64 + payloadBits b₂))
                rest₂
            else
              match rest₂ with
              | [] => .illFormed []
              | b₃ :: rest₃ =>
                if !isContinuation b₃ then .illFormed rest₂
                else
                  .char (Char.ofNat ((((b.toNat % 8) * 64 + payloadBits b₁) * 64
                    + payloadBits b₂) * 64 + payloadBits b₃)) rest₃

/-- What is left after a step. -/
def Utf8Step.rest : Utf8Step → List UInt8
  | .char _ rest => rest
  | .illFormed rest => rest

theorem length_utf8Step_le (b : UInt8) (rest : List UInt8) :
    (utf8Step b rest).rest.length ≤ rest.length := by
  unfold utf8Step
  repeat' split
  all_goals simp_all [Utf8Step.rest] <;> omega

/-- The characters of a byte string, `none` standing for each ill-formed run. -/
def decodeRuns (bytes : List UInt8) : List (Option Char) :=
  match bytes with
  | [] => []
  | b :: rest =>
    have := length_utf8Step_le b rest
    match _h : utf8Step b rest with
    | .char c after => some c :: decodeRuns after
    | .illFormed after => none :: decodeRuns after
termination_by bytes.length
decreasing_by all_goals exact Nat.lt_succ_of_le (by rw [_h] at this; exact this)

/-- The text of well-formed UTF-8. -/
def decode? (bytes : List UInt8) : Option String :=
  ((decodeRuns bytes).mapM id).map String.ofList

/-- **The text of any bytes**, each ill-formed run replaced by `U+FFFD`. -/
def decodeLossy (bytes : List UInt8) : String :=
  String.ofList ((decodeRuns bytes).map (·.getD '\uFFFD'))

/-- The UTF-8 bytes of a text. -/
def encode (s : String) : List UInt8 :=
  s.toUTF8.toList

end IncidentMemory.Text
