import IncidentMemory.Proofs.Escape
import IncidentMemory.Number.Decimal

/-!
# JSON texts

What a JSON text is, apart from any reader of it. A text is a sequence of lexemes
(`Lexeme`): white space, the six structural characters, strings, numbers and the
three literals. What matters of them for the nesting of a document are the tokens,
and a grammar on tokens says which sequences are a value, and of which outline
(`IsValue`). There is no bound on numbers or on the depth, and any two members of
an object count as two, whether their names differ or not.

Where a string begins and ends is found by going through the text from the left
(`Zone`). This is possible without the grammar, and so for any text.
-/

namespace IncidentMemory.JsonText

open IncidentMemory.Redaction (IsControl isPlain isPlain_iff)
open scoped IncidentMemory.Redaction

/-! ## Lexemes -/

/-- A hexadecimal digit. -/
def isHex (c : Char) : Bool :=
  (Number.hexValue c).isSome

/-- What may follow a reverse solidus, and nothing else of the escape. -/
def shortEscapes : List Char :=
  ['"', '\\', '/', 'b', 'f', 'n', 'r', 't']

/-- **The inside of a string.** -/
inductive IsBody : List Char → Prop where
  /-- The end. -/
  | nil : IsBody []
  /-- A character that stands for itself. -/
  | plain {c : Char} {b : List Char} (plain : isPlain c = true) (rest : IsBody b) : IsBody (c :: b)
  /-- An escape of two characters. -/
  | short {c : Char} {b : List Char} (short : c ∈ shortEscapes) (rest : IsBody b) :
      IsBody ('\\' :: c :: b)
  /-- A code unit of four digits. -/
  | code {p q r s : Char} {b : List Char} (hex : ∀ c ∈ [p, q, r, s], isHex c = true)
      (rest : IsBody b) : IsBody ('\\' :: 'u' :: p :: q :: r :: s :: b)

/-- Digits, at least one. -/
def IsDigits (s : List Char) : Prop :=
  s ≠ [] ∧ ∀ c ∈ s, c.isDigit = true

/-- **A number**: a sign, an integer without zeros in front, a fraction and an
exponent. -/
def IsNumber (s : List Char) : Prop :=
  ∃ sign int fraction exponent, s = sign ++ int ++ fraction ++ exponent
    ∧ sign ∈ [[], ['-']]
    ∧ (int = ['0'] ∨ IsDigits int ∧ int.head? ≠ some '0')
    ∧ (fraction = [] ∨ ∃ ds, fraction = '.' :: ds ∧ IsDigits ds)
    ∧ (exponent = [] ∨ ∃ e ∈ ['e', 'E'], ∃ sign ∈ [[], ['+'], ['-']], ∃ ds,
        exponent = e :: sign ++ ds ∧ IsDigits ds)

/-- The literals. -/
def literals : List String :=
  ["null", "true", "false"]

/-- The structural characters. -/
inductive Mark where
  /-- The beginning of an array. -/
  | openArray
  /-- The end of an array. -/
  | closeArray
  /-- The beginning of an object. -/
  | openObject
  /-- The end of an object. -/
  | closeObject
  /-- Between two entries. -/
  | comma
  /-- Between the name of a member and its value. -/
  | colon

/-- A structural character as it is written. -/
def Mark.char : Mark → Char
  | openArray => '['
  | closeArray => ']'
  | openObject => '\x7b'
  | closeObject => '\x7d'
  | comma => ','
  | colon => ':'

/-- **A lexeme of JSON.** -/
inductive Lexeme where
  /-- White space. -/
  | gap (c : Char) (isGap : c ∈ [' ', '\n', '\t', '\r'])
  /-- A structural character. -/
  | mark (m : Mark)
  /-- A string, by what is inside its quotation marks. -/
  | string (body : List Char) (isBody : IsBody body)
  /-- A number. -/
  | number (s : List Char) (isNumber : IsNumber s)
  /-- A literal. -/
  | literal (s : String) (isLiteral : s ∈ literals)

/-- A lexeme as it is written. -/
def Lexeme.text : Lexeme → List Char
  | gap c _ => [c]
  | mark m => [m.char]
  | string body _ => '"' :: (body ++ ['"'])
  | number s _ => s
  | literal s _ => s.toList

/-! ## The grammar -/

/-- A lexeme but for what it says. -/
inductive Token where
  /-- A structural character. -/
  | mark (m : Mark)
  /-- A string. -/
  | string
  /-- A number or a literal. -/
  | atom

/-- The token of a lexeme, unless it is white space. -/
def Lexeme.token? : Lexeme → Option Token
  | gap _ _ => none
  | mark m => some (.mark m)
  | string _ _ => some .string
  | number _ _ => some .atom
  | literal _ _ => some .atom

/-- **The nesting of a document**, with the number of entries of every array and
object. -/
inductive Outline where
  /-- A string, a number or a literal. -/
  | leaf
  /-- An array. -/
  | array (items : List Outline)
  /-- An object. -/
  | object (members : List Outline)

mutual

/-- **The tokens of a value**, and its outline. -/
inductive IsValue : List Token → Outline → Prop where
  /-- A string. -/
  | string : IsValue [.string] .leaf
  /-- A number or a literal. -/
  | atom : IsValue [.atom] .leaf
  /-- An array. -/
  | array {ts : List Token} {os : List Outline} (items : IsItems ts os) :
      IsValue (.mark .openArray :: (ts ++ [.mark .closeArray])) (.array os)
  /-- An object. -/
  | object {ts : List Token} {os : List Outline} (members : IsMembers ts os) :
      IsValue (.mark .openObject :: (ts ++ [.mark .closeObject])) (.object os)

/-- What stands in an array. -/
inductive IsItems : List Token → List Outline → Prop where
  /-- Nothing. -/
  | nil : IsItems [] []
  /-- The last item. -/
  | last {ts : List Token} {o : Outline} (item : IsValue ts o) : IsItems ts [o]
  /-- An item and further ones. -/
  | cons {ts us : List Token} {o o' : Outline} {os : List Outline} (item : IsValue ts o)
      (rest : IsItems us (o' :: os)) : IsItems (ts ++ .mark .comma :: us) (o :: o' :: os)

/-- What stands in an object. -/
inductive IsMembers : List Token → List Outline → Prop where
  /-- Nothing. -/
  | nil : IsMembers [] []
  /-- The last member. -/
  | last {ts : List Token} {o : Outline} (value : IsValue ts o) :
      IsMembers (.string :: .mark .colon :: ts) [o]
  /-- A member and further ones. -/
  | cons {ts us : List Token} {o o' : Outline} {os : List Outline} (value : IsValue ts o)
      (rest : IsMembers us (o' :: os)) :
      IsMembers (.string :: .mark .colon :: (ts ++ .mark .comma :: us)) (o :: o' :: os)

end

/-- **A JSON document**, with its outline. -/
def IsJson (t : String) (o : Outline) : Prop :=
  ∃ ls : List Lexeme, t.toList = ls.flatMap Lexeme.text ∧ IsValue (ls.filterMap Lexeme.token?) o

/-! ## Zones -/

/-- **Where in a text a character stands.** -/
inductive Zone where
  /-- Outside all strings. -/
  | outside
  /-- Inside a string, but for its escapes. -/
  | inside
  /-- Behind a reverse solidus. -/
  | escaped
  /-- Before so many digits of a code unit. -/
  | code (left : Nat)
  deriving DecidableEq

namespace Zone

/-- Where the character after a given one stands. -/
def next : Zone → Char → Zone
  | outside, c => if c = '"' then inside else outside
  | inside, c => if c = '"' then outside else if c = '\\' then escaped else inside
  | escaped, c => if c = 'u' then code 4 else inside
  | code left, c => if isHex c = true ∧ 1 < left then code (left - 1) else inside

/-- Where what follows a text stands. -/
def after (z : Zone) (s : List Char) : Zone :=
  s.foldl next z

@[simp] theorem after_nil (z : Zone) : z.after [] = z :=
  rfl

@[simp] theorem after_cons (z : Zone) (c : Char) (s : List Char) :
    z.after (c :: s) = (z.next c).after s :=
  rfl

theorem after_append (z : Zone) (s t : List Char) : z.after (s ++ t) = (z.after s).after t :=
  List.foldl_append

theorem next_of_isPlain {c : Char} (h : isPlain c = true) : inside.next c = inside := by
  obtain ⟨hquote, hsolidus, -⟩ := isPlain_iff.mp h
  simp [next, hquote, hsolidus]

/-- Characters that neither end a string nor begin an escape stay inside it. -/
theorem inside_after {s : List Char} (h : ∀ c ∈ s, c ≠ '"' ∧ c ≠ '\\') : inside.after s = inside := by
  induction s with
  | nil => rfl
  | cons c s ih =>
    obtain ⟨hquote, hsolidus⟩ := h c List.mem_cons_self
    rw [after_cons, show inside.next c = inside by simp [next, hquote, hsolidus]]
    exact ih fun d hd => h d (List.mem_cons_of_mem c hd)

/-- Without a quotation mark no string begins. -/
theorem outside_after {s : List Char} (h : '"' ∉ s) : outside.after s = outside := by
  induction s with
  | nil => rfl
  | cons c s ih =>
    rw [List.mem_cons, not_or] at h
    obtain ⟨hc, hs⟩ := h
    rw [after_cons, show outside.next c = outside by simp [next, Ne.symm hc]]
    exact ih hs

theorem code_next {c : Char} (h : isHex c = true) (left : Nat) :
    (code (left + 2)).next c = code (left + 1) := by
  simp [next, h]

theorem code_one_next (c : Char) : (code 1).next c = inside := by
  simp [next]

/-- **After what is neither part of an escape nor begins one**, no escape goes on. -/
theorem next_eq {c : Char} (hsolidus : c ≠ '\\') (hu : c ≠ 'u') (hhex : isHex c = false) (z : Zone) :
    z.next c = outside ∨ z.next c = inside := by
  cases z with
  | outside => simp only [next]; split <;> simp
  | inside => simp only [next, hsolidus, if_false]; split <;> simp
  | escaped => simp [next, hu]
  | code left => simp [next, hhex]

end Zone

/-! ## What stands outside strings -/

/-- Whether a character stands outside all strings somewhere in a text. -/
def showsOutside (c : Char) : Zone → List Char → Bool
  | _, [] => false
  | z, d :: s => (z == .outside && d == c) || showsOutside c (z.next d) s

theorem showsOutside_append (c : Char) (z : Zone) (s t : List Char) :
    showsOutside c z (s ++ t) = (showsOutside c z s || showsOutside c (z.after s) t) := by
  induction s generalizing z with
  | nil => rfl
  | cons d s ih =>
    simp only [List.cons_append, showsOutside, ih, Zone.after_cons, Bool.or_assoc]

/-- A text without a character does not show it. -/
theorem showsOutside_of_not_mem {c : Char} {s : List Char} (h : c ∉ s) (z : Zone) :
    showsOutside c z s = false := by
  induction s generalizing z with
  | nil => rfl
  | cons d s ih =>
    rw [List.mem_cons, not_or] at h
    simp [showsOutside, ih h.2, Ne.symm h.1]

/-- **Nothing inside a string stands outside.** -/
theorem IsBody.not_showsOutside {b : List Char} (h : IsBody b) (c : Char) :
    showsOutside c .inside b = false ∧ Zone.inside.after b = .inside := by
  induction h with
  | nil => exact ⟨rfl, rfl⟩
  | plain plain rest ih =>
    rw [showsOutside, Zone.after_cons, Zone.next_of_isPlain plain, ih.1, ih.2]
    exact ⟨rfl, rfl⟩
  | @short d b short rest ih =>
    have hnext : Zone.escaped.next d = .inside :=
      (by decide : ∀ d ∈ shortEscapes, Zone.escaped.next d = .inside) d short
    rw [showsOutside, showsOutside, Zone.after_cons, Zone.after_cons,
      show Zone.inside.next '\\' = .escaped from rfl, hnext, ih.1, ih.2]
    exact ⟨rfl, rfl⟩
  | @code p q r s b hex rest ih =>
    have hp : (Zone.code 4).next p = .code 3 := Zone.code_next (hex p (by simp)) 2
    have hq : (Zone.code 3).next q = .code 2 := Zone.code_next (hex q (by simp)) 1
    have hr : (Zone.code 2).next r = .code 1 := Zone.code_next (hex r (by simp)) 0
    simp only [showsOutside, Zone.after_cons, show Zone.inside.next '\\' = .escaped from rfl,
      show Zone.escaped.next 'u' = .code 4 from rfl, hp, hq, hr, Zone.code_one_next, ih]
    exact ⟨rfl, trivial⟩

/-- The characters of numbers. -/
theorem IsNumber.mem {s : List Char} (h : IsNumber s) :
    ∀ c ∈ s, c.isDigit = true ∨ c ∈ ['-', '.', 'e', 'E', '+'] := by
  obtain ⟨sign, int, fraction, exponent, rfl, hsign, hint, hfraction, hexponent⟩ := h
  intro c hc
  rw [List.mem_append, List.mem_append, List.mem_append] at hc
  rcases hc with ((hc | hc) | hc) | hc
  · exact .inr ((by decide : ∀ sign ∈ [[], ['-']], ∀ c ∈ sign, c ∈ ['-', '.', 'e', 'E', '+'])
      sign hsign c hc)
  · rcases hint with rfl | ⟨hdigits, -⟩
    · obtain rfl := List.mem_singleton.mp hc
      exact .inl rfl
    · exact .inl (hdigits.2 c hc)
  · rcases hfraction with rfl | ⟨ds, rfl, hdigits⟩
    · exact nomatch hc
    · rcases List.mem_cons.mp hc with rfl | hc
      · exact .inr (by decide)
      · exact .inl (hdigits.2 c hc)
  · rcases hexponent with rfl | ⟨e, he, sign, hsign, ds, rfl, hdigits⟩
    · exact nomatch hc
    · rcases List.mem_append.mp hc with hc | hc
      · exact .inr ((by decide : ∀ e ∈ ['e', 'E'], ∀ sign ∈ [[], ['+'], ['-']], ∀ c ∈ e :: sign,
          c ∈ ['-', '.', 'e', 'E', '+']) e he sign hsign c hc)
      · exact .inl (hdigits.2 c hc)

/-- **Outside strings there is neither a quotation mark nor any letter but those of
the literals and the exponent.** -/
theorem Lexeme.string_or_bare (l : Lexeme) :
    (∃ body isBody, l = .string body isBody) ∨ ('"' ∉ l.text ∧ 'R' ∉ l.text) := by
  cases l with
  | gap c isGap =>
    exact .inr ((by decide : ∀ c ∈ [' ', '\n', '\t', '\r'], '"' ∉ [c] ∧ 'R' ∉ [c]) c isGap)
  | mark m => exact .inr (by cases m <;> decide)
  | string body isBody => exact .inl ⟨body, isBody, rfl⟩
  | number s isNumber =>
    refine .inr ⟨fun hc => ?_, fun hc => ?_⟩
    · exact absurd (isNumber.mem _ hc) (by decide)
    · exact absurd (isNumber.mem _ hc) (by decide)
  | literal s isLiteral =>
    exact .inr ((by decide : ∀ s ∈ literals, '"' ∉ s.toList ∧ 'R' ∉ s.toList) s isLiteral)

theorem Lexeme.not_showsOutside (l : Lexeme) :
    showsOutside 'R' .outside l.text = false ∧ Zone.outside.after l.text = .outside := by
  obtain ⟨body, isBody, rfl⟩ | ⟨hquote, hR⟩ := l.string_or_bare
  · obtain ⟨hbody, hafter⟩ := isBody.not_showsOutside 'R'
    simp only [Lexeme.text, showsOutside, Zone.after_cons,
      show Zone.outside.next '"' = .inside from rfl, showsOutside_append, Zone.after_append, hbody,
      hafter]
    exact ⟨rfl, rfl⟩
  · exact ⟨showsOutside_of_not_mem hR _, Zone.outside_after hquote⟩

/-- **A JSON document shows no capital `R` outside its strings.** -/
theorem IsJson.not_showsOutside {t : String} {o : Outline} (h : IsJson t o) :
    showsOutside 'R' .outside t.toList = false := by
  obtain ⟨ls, hls, -⟩ := h
  have hall : ∀ ls : List Lexeme, showsOutside 'R' .outside (ls.flatMap Lexeme.text) = false := by
    intro ls
    induction ls with
    | nil => rfl
    | cons l ls ih =>
      rw [List.flatMap_cons, showsOutside_append, l.not_showsOutside.1, l.not_showsOutside.2, ih]
      rfl
  rw [hls]
  exact hall ls

end IncidentMemory.JsonText
