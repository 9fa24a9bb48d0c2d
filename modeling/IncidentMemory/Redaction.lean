import IncidentMemory.Text.Blank

/-!
# Redaction

A *secret assignment* is a secret key, a separator and a value, as in `password = hunter2`,
`"token": "abc"` or `:api_key=>x`. `redact` replaces the value of every assignment by a marker and
leaves everything else as it was.

A text is read from the left. At each place `Assignment.at?` says whether an assignment starts
there, and which one: its parts are as long as they can be. `split` cuts a text into the assignments
and the characters between them, so that `redact` and the question whether anything was masked are
both read off the same pieces, and `render_split` says that the pieces are the text.
-/

namespace IncidentMemory.Redaction

open IncidentMemory.Text (isBlank)

/-- The keys whose values are secret. -/
def secretKeys : List String :=
  ["api_key", "token", "secret", "password", "connection_string", "auth_token"]

/-- What a secret value is replaced by. -/
def marker : String := "[REDACTED]"

/-- Whether a character of a text is a letter of a key, in either case. The Kelvin sign is a case
form of `k` and the long s one of `s`. -/
def matchesLetter (letter c : Char) : Bool :=
  c == letter || Text.lowerAscii c == letter || (letter == 'k' && c == '\u212A')
    || (letter == 's' && c == '\u017F')

/-- The part of a text that spells a key, and the rest. -/
def spelled? : List Char → List Char → Option (List Char × List Char)
  | [], s => some ([], s)
  | _ :: _, [] => none
  | k :: ks, c :: cs =>
    if matchesLetter k c then (spelled? ks cs).map fun (used, rest) => (c :: used, rest) else none

/-- Whether a character may be part of a value: anything but white space, quotes, a reverse solidus
and the characters that end a value in the usual notations. -/
def isValueChar (c : Char) : Bool :=
  !(isBlank c || c == '"' || c == '\'' || c == '\\' || c == ',' || c == ';' || c == '&'
    || c == '\x7d' || c == ']')

/-- A quote at the start of a text, possibly after a reverse solidus; nothing if there is none. -/
def openingQuote : List Char → List Char × List Char
  | '\\' :: '"' :: s => (['\\', '"'], s)
  | '\\' :: '\'' :: s => (['\\', '\''], s)
  | '"' :: s => (['"'], s)
  | '\'' :: s => (['\''], s)
  | s => ([], s)

/-- White space, then a quote if there is one, then a value: what stands before the value, the
value, and the rest. -/
def valuePart? (s : List Char) : Option (List Char × List Char × List Char) :=
  let gap := s.takeWhile isBlank
  let (quote, rest) := openingQuote (s.dropWhile isBlank)
  let value := rest.takeWhile isValueChar
  if value.isEmpty then none else some (gap ++ quote, value, rest.dropWhile isValueChar)

/-- **A secret assignment** in a text. -/
structure Assignment where
  /-- The key as it is spelled. -/
  key : List Char
  /-- Quotes, blanks and the sign between key and value. -/
  separator : List Char
  /-- The value. -/
  value : List Char
  deriving DecidableEq

namespace Assignment

/-- The sign of an assignment with everything up to the value, the value, and the rest. The sign
`=>` is preferred to `=`; where no value follows `=>`, its second character starts the value. -/
def fromSign? : List Char → Option (List Char × List Char × List Char)
  | '=' :: '>' :: s =>
    match valuePart? s with
    | some (mid, value, rest) => some ('=' :: '>' :: mid, value, rest)
    | none => (valuePart? ('>' :: s)).map fun (mid, value, rest) => ('=' :: mid, value, rest)
  | '=' :: s => (valuePart? s).map fun (mid, value, rest) => ('=' :: mid, value, rest)
  | ':' :: s => (valuePart? s).map fun (mid, value, rest) => (':' :: mid, value, rest)
  | _ => none

/-- The separator and the value after a key, and the rest. -/
def afterKey? (s : List Char) : Option (List Char × List Char × List Char) :=
  let (quote, s) := openingQuote s
  let gap := s.takeWhile isBlank
  (fromSign? (s.dropWhile isBlank)).map fun (sep, value, rest) => (quote ++ gap ++ sep, value, rest)

/-- **The assignment that starts at the beginning of a text**, if one does, and the rest. -/
def at? (s : List Char) : Option (Assignment × List Char) :=
  secretKeys.findSome? fun name =>
    match spelled? name.toList s with
    | none => none
    | some (key, rest) => (afterKey? rest).map fun (sep, value, rest) => (⟨key, sep, value⟩, rest)

/-- The assignment as it stood in the text. -/
def render (a : Assignment) : List Char :=
  a.key ++ a.separator ++ a.value

/-- The assignment with its value masked. -/
def masked (a : Assignment) : List Char :=
  a.key ++ a.separator ++ marker.toList

end Assignment

/-- A piece of a text: a character outside every assignment, or an assignment. -/
inductive Piece where
  /-- A character that no assignment covers. -/
  | plain (c : Char)
  /-- An assignment. -/
  | secret (a : Assignment)
  deriving DecidableEq

/-- A piece as it stood in the text. -/
def Piece.render : Piece → List Char
  | .plain c => [c]
  | .secret a => a.render

/-- A piece with its value masked, if it has one. -/
def Piece.masked : Piece → List Char
  | .plain c => [c]
  | .secret a => a.masked

/-- Whether a piece is an assignment. -/
def Piece.isSecret : Piece → Bool
  | .plain _ => false
  | .secret _ => true

/-! ## Every part is a part of the text -/

theorem openingQuote_append (s : List Char) :
    (openingQuote s).1 ++ (openingQuote s).2 = s := by
  unfold openingQuote
  split <;> rfl

theorem spelled?_append {k s used rest : List Char} (h : spelled? k s = some (used, rest)) :
    used ++ rest = s := by
  induction k generalizing s used rest with
  | nil => simp_all [spelled?]
  | cons k ks ih =>
    cases s with
    | nil => simp [spelled?] at h
    | cons c cs =>
      simp only [spelled?] at h
      split at h
      · simp only [Option.map_eq_some_iff, Prod.mk.injEq, Prod.exists] at h
        obtain ⟨u, r, hu, rfl, rfl⟩ := h
        simp [ih hu]
      · simp at h

theorem valuePart?_append {s mid value rest : List Char}
    (h : valuePart? s = some (mid, value, rest)) : mid ++ value ++ rest = s := by
  simp only [valuePart?] at h
  split at h
  · simp at h
  · simp only [Option.some.injEq, Prod.mk.injEq] at h
    obtain ⟨rfl, rfl, rfl⟩ := h
    have hq := openingQuote_append (s.dropWhile isBlank)
    have hs := s.takeWhile_append_dropWhile (p := isBlank)
    simp only [List.append_assoc, List.takeWhile_append_dropWhile]
    rw [hq, hs]

theorem valuePart?_ne_nil {s mid value rest : List Char}
    (h : valuePart? s = some (mid, value, rest)) : value ≠ [] := by
  simp only [valuePart?] at h
  split at h
  · simp at h
  · simp only [Option.some.injEq, Prod.mk.injEq] at h
    obtain ⟨_, rfl, _⟩ := h
    simp_all

theorem Assignment.fromSign?_append {s sep value rest : List Char}
    (h : fromSign? s = some (sep, value, rest)) : sep ++ value ++ rest = s ∧ value ≠ [] := by
  unfold fromSign? at h
  split at h
  · split at h
    · rename_i hv
      simp only [Option.some.injEq, Prod.mk.injEq] at h
      obtain ⟨rfl, rfl, rfl⟩ := h
      exact ⟨by simp [← valuePart?_append hv], valuePart?_ne_nil hv⟩
    · simp only [Option.map_eq_some_iff, Prod.mk.injEq, Prod.exists] at h
      obtain ⟨mid, v, r, hv, rfl, rfl, rfl⟩ := h
      exact ⟨by simp [← valuePart?_append hv], valuePart?_ne_nil hv⟩
  · simp only [Option.map_eq_some_iff, Prod.mk.injEq, Prod.exists] at h
    obtain ⟨mid, v, r, hv, rfl, rfl, rfl⟩ := h
    exact ⟨by simp [← valuePart?_append hv], valuePart?_ne_nil hv⟩
  · simp only [Option.map_eq_some_iff, Prod.mk.injEq, Prod.exists] at h
    obtain ⟨mid, v, r, hv, rfl, rfl, rfl⟩ := h
    exact ⟨by simp [← valuePart?_append hv], valuePart?_ne_nil hv⟩
  · simp at h

theorem Assignment.afterKey?_append {s sep value rest : List Char}
    (h : afterKey? s = some (sep, value, rest)) : sep ++ value ++ rest = s ∧ value ≠ [] := by
  have hq := openingQuote_append s
  simp only [afterKey?, Option.map_eq_some_iff, Prod.mk.injEq, Prod.exists] at h
  obtain ⟨sep', v, r, hv, rfl, rfl, rfl⟩ := h
  obtain ⟨happ, hne⟩ := fromSign?_append hv
  refine ⟨?_, hne⟩
  conv => rhs; rw [← hq, ← (openingQuote s).2.takeWhile_append_dropWhile (p := isBlank), ← happ]
  simp

theorem Assignment.at?_append {s rest : List Char} {a : Assignment}
    (h : at? s = some (a, rest)) : a.render ++ rest = s ∧ a.value ≠ [] := by
  simp only [at?] at h
  obtain ⟨name, _, hn⟩ := List.exists_of_findSome?_eq_some h
  split at hn
  · simp at hn
  · rename_i key r hk
    simp only [Option.map_eq_some_iff, Prod.mk.injEq, Prod.exists] at hn
    obtain ⟨sep, v, r', hv, rfl, rfl⟩ := hn
    obtain ⟨happ, hne⟩ := afterKey?_append hv
    refine ⟨?_, hne⟩
    rw [← spelled?_append hk, ← happ]
    simp [render]

theorem Assignment.length_at? {s rest : List Char} {a : Assignment}
    (h : at? s = some (a, rest)) : rest.length < s.length := by
  obtain ⟨happ, hne⟩ := at?_append h
  have := List.length_pos_iff.mpr hne
  rw [← happ]
  simp [render]
  omega

/-! ## Splitting and masking -/

/-- **The pieces of a text**: the assignment that starts at a place is taken whole, and the search
goes on after it; where none starts, the character stands for itself. -/
def split (s : List Char) : List Piece :=
  match s with
  | [] => []
  | c :: cs =>
    match _h : Assignment.at? (c :: cs) with
    | some (a, rest) => .secret a :: split rest
    | none => .plain c :: split cs
termination_by s.length
decreasing_by
  · exact Assignment.length_at? _h
  · simp

/-- The characters of a text with all secret values masked. -/
def redactChars (s : List Char) : List Char :=
  (split s).flatMap Piece.masked

/-- **A text with the value of every secret assignment replaced by the marker.** -/
def redact (s : String) : String :=
  String.ofList (redactChars s.toList)

/-- Whether a text holds a secret assignment. -/
def hasSecret (s : String) : Bool :=
  (split s.toList).any Piece.isSecret

theorem render_split (s : List Char) : (split s).flatMap Piece.render = s := by
  fun_induction split s with
  | case1 => rfl
  | case2 c cs a rest h ih =>
    simp only [List.flatMap_cons, Piece.render, ih]
    exact (Assignment.at?_append h).1
  | case3 c cs _ ih => simp [List.flatMap_cons, Piece.render, ih]

end IncidentMemory.Redaction
