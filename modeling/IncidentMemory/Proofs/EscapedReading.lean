import IncidentMemory.Proofs.Escape
import IncidentMemory.Proofs.Masking

/-!
# Reading a text through its escapes

What is read after a key in a written text is what could be read in the text
itself by someone who takes every escape for the end of what he reads, save for
that of the quotation mark (`Reading.throughEscapes`, `Reading.afterKey?_escape`).
Such a reader finds a separator and a value only where they are without escapes
as well, and the same ones if there is nothing to escape in them
(`Reading.exists_afterKey?`, `Reading.throughEscapes_afterKey?`).
-/

namespace IncidentMemory.Redaction

open IncidentMemory.Text (isBlank)
open IncidentMemory.Json (escape escapeChar)

/-! ## What is read after a key in a written text -/

/-- **A way of reading what follows a key**: what is a blank, what may be part of a
value, and what is a quote at the start of a text. -/
structure Reading where
  /-- The blanks. -/
  blank : Char → Bool
  /-- The characters of values. -/
  value : Char → Bool
  /-- A quote at the start of a text, and the rest. -/
  quote : List Char → List Char × List Char

/-- A quote at the start of a text, without a reverse solidus. -/
def plainQuote : List Char → List Char × List Char
  | '"' :: s => (['"'], s)
  | '\'' :: s => (['\''], s)
  | s => ([], s)

namespace Reading

/-- How a text is read. -/
def ordinary : Reading :=
  ⟨isBlank, isValueChar, openingQuote⟩

/-- **How a text is read once it is written**: only plain characters are blanks or
in a value. A quotation mark is not, but it is written with the reverse solidus
that may stand before a quote. -/
def throughEscapes : Reading :=
  ⟨fun c => isBlank c && isPlain c, fun c => isValueChar c && isPlain c, plainQuote⟩

/-- Blanks, a quote if there is one, and a value. -/
def valuePart? (R : Reading) (s : List Char) : Option (List Char × List Char × List Char) :=
  let gap := s.takeWhile R.blank
  let (quote, rest) := R.quote (s.dropWhile R.blank)
  let value := rest.takeWhile R.value
  if value.isEmpty then none else some (gap ++ quote, value, rest.dropWhile R.value)

/-- A sign, and what stands before a value. -/
def fromSign? (R : Reading) : List Char → Option (List Char × List Char × List Char)
  | '=' :: '>' :: s =>
    match R.valuePart? s with
    | some (mid, value, rest) => some ('=' :: '>' :: mid, value, rest)
    | none => (R.valuePart? ('>' :: s)).map fun (mid, value, rest) => ('=' :: mid, value, rest)
  | '=' :: s => (R.valuePart? s).map fun (mid, value, rest) => ('=' :: mid, value, rest)
  | ':' :: s => (R.valuePart? s).map fun (mid, value, rest) => (':' :: mid, value, rest)
  | _ => none

/-- The separator and the value after a key, and the rest. -/
def afterKey? (R : Reading) (s : List Char) : Option (List Char × List Char × List Char) :=
  let (quote, s) := R.quote s
  let gap := s.takeWhile R.blank
  (R.fromSign? (s.dropWhile R.blank)).map fun (sep, value, rest) => (quote ++ gap ++ sep, value, rest)

theorem afterKey?_eq (R : Reading) (s : List Char) :
    R.afterKey? s = (R.fromSign? ((R.quote s).2.dropWhile R.blank)).map fun (sep, value, rest) =>
      ((R.quote s).1 ++ (R.quote s).2.takeWhile R.blank ++ sep, value, rest) :=
  rfl

theorem ordinary_valuePart? (s : List Char) : ordinary.valuePart? s = Redaction.valuePart? s :=
  rfl

theorem ordinary_fromSign? (s : List Char) : ordinary.fromSign? s = Assignment.fromSign? s := by
  fun_cases Assignment.fromSign? s <;> simp_all [fromSign?, ordinary_valuePart?]

/-- A text is read as it is. -/
theorem ordinary_afterKey? (s : List Char) : ordinary.afterKey? s = Assignment.afterKey? s := by
  simp only [afterKey?, ordinary_fromSign?]
  rfl

theorem valuePart?_eq_some_iff {R : Reading} {s before value rest : List Char} :
    R.valuePart? s = some (before, value, rest)
      ↔ value ≠ [] ∧ before = s.takeWhile R.blank ++ (R.quote (s.dropWhile R.blank)).1
        ∧ value = (R.quote (s.dropWhile R.blank)).2.takeWhile R.value
        ∧ rest = (R.quote (s.dropWhile R.blank)).2.dropWhile R.value := by
  simp only [valuePart?]
  split
  · next hempty =>
    refine iff_of_false (fun h => nomatch h) fun ⟨hne, _, hvalue, _⟩ => hne ?_
    rw [hvalue]
    exact List.isEmpty_iff.mp hempty
  · next hne =>
    rw [Option.some.injEq, Prod.mk.injEq, Prod.mk.injEq]
    constructor
    · rintro ⟨rfl, rfl, rfl⟩
      exact ⟨by simpa using hne, rfl, rfl, rfl⟩
    · rintro ⟨-, rfl, rfl, rfl⟩
      exact ⟨rfl, rfl, rfl⟩

/-- A sign in front of what stands before a value. -/
theorem map_sign_eq_some_iff {x before value rest : List Char}
    {o : Option (List Char × List Char × List Char)} :
    (o.map fun (mid, value, rest) => (x ++ mid, value, rest)) = some (before, value, rest)
      ↔ ∃ mid, before = x ++ mid ∧ o = some (mid, value, rest) := by
  rw [Option.map_eq_some_iff]
  constructor
  · rintro ⟨⟨mid, v, r⟩, ho, heq⟩
    obtain ⟨rfl, rfl, rfl⟩ : x ++ mid = before ∧ v = value ∧ r = rest := by simpa using heq
    exact ⟨mid, rfl, ho⟩
  · rintro ⟨mid, rfl, rfl⟩
    exact ⟨_, rfl, rfl⟩

/-- **What is read as a sign, and what stands before a value.** The short sign is read
where the long one stands only if no value follows that. -/
theorem fromSign?_eq_some_iff {R : Reading} {s before value rest : List Char} :
    R.fromSign? s = some (before, value, rest)
      ↔ ∃ sign ∈ signs, ∃ t mid, s = sign ++ t ∧ before = sign ++ mid
        ∧ R.valuePart? t = some (mid, value, rest)
        ∧ (sign = ['='] → ∀ u, t = '>' :: u → R.valuePart? u = none) := by
  constructor
  · intro h
    fun_cases fromSign? R s with
    | case1 t mid v r hv =>
      rw [fromSign?, hv] at h
      obtain ⟨rfl, rfl, rfl⟩ : '=' :: '>' :: mid = before ∧ v = value ∧ r = rest := by simpa using h
      exact ⟨['=', '>'], by decide, t, mid, rfl, rfl, hv, fun h => absurd h (by decide)⟩
    | case2 t hv =>
      rw [fromSign?, hv] at h
      obtain ⟨mid, rfl, hm⟩ := (map_sign_eq_some_iff (x := ['='])).mp h
      exact ⟨['='], by decide, '>' :: t, mid, rfl, rfl, hm, fun _ u hu => (List.cons.inj hu).2 ▸ hv⟩
    | case3 t hne =>
      rw [fromSign?] at h
      · obtain ⟨mid, rfl, hm⟩ := (map_sign_eq_some_iff (x := ['='])).mp h
        exact ⟨['='], by decide, t, mid, rfl, rfl, hm, fun _ u hu => absurd hu (hne u)⟩
      · exact hne
    | case4 t =>
      rw [fromSign?] at h
      obtain ⟨mid, rfl, hm⟩ := (map_sign_eq_some_iff (x := [':'])).mp h
      exact ⟨[':'], by decide, t, mid, rfl, rfl, hm, fun h => absurd h (by decide)⟩
    | case5 s h₁ h₂ h₃ =>
      rw [fromSign?] at h
      · cases h
      · exact h₁
      · exact h₂
      · exact h₃
  · rintro ⟨sign, hsign, t, mid, rfl, rfl, hm, hnone⟩
    simp only [signs, List.mem_cons, List.not_mem_nil, or_false] at hsign
    rcases hsign with rfl | rfl | rfl
    · rw [List.singleton_append]
      by_cases harrow : ∃ u, t = '>' :: u
      · obtain ⟨u, rfl⟩ := harrow
        rw [fromSign?, hnone rfl u rfl, hm]
        rfl
      · rw [fromSign?, hm]
        · rfl
        · exact fun u hu => harrow ⟨u, hu⟩
    · rw [List.singleton_append, fromSign?, hm]
      rfl
    · rw [List.cons_append, List.singleton_append, fromSign?, hm]
      rfl

/-- Where a sign and a value stand, one is read. -/
theorem exists_fromSign?_of_valuePart? {R : Reading} {sign t : List Char} (hsign : sign ∈ signs)
    (h : ∃ x, R.valuePart? t = some x) : ∃ x, R.fromSign? (sign ++ t) = some x := by
  obtain ⟨⟨mid, v, r⟩, hm⟩ := h
  by_cases hlong : sign = ['='] ∧ ∃ u, t = '>' :: u ∧ R.valuePart? u ≠ none
  · obtain ⟨rfl, u, rfl, hu⟩ := hlong
    obtain ⟨⟨mid', v', r'⟩, hm'⟩ := Option.ne_none_iff_exists'.mp hu
    exact ⟨_, fromSign?_eq_some_iff.mpr ⟨['=', '>'], by decide, u, mid', rfl, rfl, hm',
      fun h => absurd h (by decide)⟩⟩
  · refine ⟨_, fromSign?_eq_some_iff.mpr ⟨sign, hsign, t, mid, rfl, rfl, hm, fun hs u hu => ?_⟩⟩
    by_contra hne
    exact hlong ⟨hs, u, hu, hne⟩

/-! ### What is read -/

/-- A character that may stand before a value. -/
def IsBefore (R : Reading) (c : Char) : Prop :=
  R.blank c = true ∨ (∃ s, c ∈ (R.quote s).1) ∨ c ∈ ['=', ':', '>']

/-- **What a text is read as**: what stands before a value, the value, and the
rest. -/
structure IsRead (R : Reading) (s before value rest : List Char) : Prop where
  append : s = before ++ (value ++ rest)
  value_ne_nil : value ≠ []
  value_mem : ∀ c ∈ value, R.value c = true
  rest_head : ∀ c ∈ rest.head?, R.value c = false
  before_mem : ∀ c ∈ before, R.IsBefore c

variable {R : Reading} {s before value rest : List Char}

/-- More may stand before a value. -/
theorem IsRead.front (h : R.IsRead s before value rest) {x : List Char}
    (hx : ∀ c ∈ x, R.IsBefore c) : R.IsRead (x ++ s) (x ++ before) value rest where
  append := by rw [h.append, List.append_assoc]
  value_ne_nil := h.value_ne_nil
  value_mem := h.value_mem
  rest_head := h.rest_head
  before_mem c hc := (List.mem_append.mp hc).elim (hx c) (h.before_mem c)

section

variable (happend : ∀ s, (R.quote s).1 ++ (R.quote s).2 = s)

include happend

theorem valuePart?_isRead (h : R.valuePart? s = some (before, value, rest)) :
    R.IsRead s before value rest := by
  obtain ⟨hne, rfl, rfl, rfl⟩ := valuePart?_eq_some_iff.mp h
  refine ⟨?_, hne, fun c hc => List.mem_takeWhile_imp hc, fun c hc => ?_, fun c hc => ?_⟩
  · rw [List.takeWhile_append_dropWhile, List.append_assoc, happend,
      List.takeWhile_append_dropWhile]
  · have hhead := List.head?_dropWhile_not R.value (R.quote (s.dropWhile R.blank)).2
    rw [hc] at hhead
    exact hhead
  · rcases List.mem_append.mp hc with hc | hc
    · exact .inl (List.mem_takeWhile_imp hc)
    · exact .inr (.inl ⟨_, hc⟩)

theorem fromSign?_isRead (h : R.fromSign? s = some (before, value, rest)) :
    R.IsRead s before value rest := by
  obtain ⟨sign, hsign, t, mid, rfl, rfl, hm, -⟩ := fromSign?_eq_some_iff.mp h
  refine (valuePart?_isRead happend hm).front fun c hc => .inr (.inr ?_)
  exact (by decide : ∀ sign ∈ signs, ∀ c ∈ sign, c ∈ ['=', ':', '>']) sign hsign c hc

/-- **What is read after a key.** -/
theorem afterKey?_isRead (h : R.afterKey? s = some (before, value, rest)) :
    R.IsRead s before value rest := by
  obtain ⟨sep, rfl, hsign⟩ := map_sign_eq_some_iff.mp ((afterKey?_eq R s).symm.trans h)
  have hs : ((R.quote s).1 ++ (R.quote s).2.takeWhile R.blank) ++ (R.quote s).2.dropWhile R.blank
      = s := by
    rw [List.append_assoc, List.takeWhile_append_dropWhile, happend]
  have hread := (fromSign?_isRead happend hsign).front (x := (R.quote s).1 ++ (R.quote s).2.takeWhile
    R.blank) fun c hc => (List.mem_append.mp hc).elim (fun h => .inr (.inl ⟨_, h⟩))
      fun h => .inl (List.mem_takeWhile_imp h)
  rwa [hs] at hread

end

/-! ### Written texts -/

/-- What was read, as it is written; the value is plain. -/
def written (x : List Char × List Char × List Char) : List Char × List Char × List Char :=
  (escape x.1, x.2.1, escape x.2.2)

theorem openingQuote_escape (s : List Char) :
    openingQuote (escape s) = (escape (plainQuote s).1, escape (plainQuote s).2) := by
  fun_cases plainQuote s with
  | case1 s => rfl
  | case2 s => rfl
  | case3 s hdouble hsingle =>
    show openingQuote (escape s) = ([], escape s)
    cases s with
    | nil => rfl
    | cons c s =>
      have hc : c ≠ '"' := fun h => hdouble s (by rw [h])
      have hc' : c ≠ '\'' := fun h => hsingle s (by rw [h])
      rw [escape_cons]
      cases hplain : isPlain c with
      | true =>
        rw [escapeChar_of_isPlain hplain]
        refine openingQuote_of_head fun d hd => ?_
        obtain rfl := Option.some.inj hd
        have hsolidus := (isPlain_iff.mp hplain).2.1
        simp [hc, hc', hsolidus]
      | false =>
        obtain ⟨d, w, hw, hd, hd'⟩ := escapeChar_of_not_isPlain hplain
        rw [hw]
        refine openingQuote.eq_5 _ (fun r heq => ?_) (fun r heq => ?_) (fun r heq => ?_)
          (fun r heq => ?_)
        · exact hc (hd' (List.cons.inj (List.cons.inj heq).2).1)
        · exact hd (List.cons.inj (List.cons.inj heq).2).1
        · exact absurd (List.cons.inj heq).1 (by decide)
        · exact absurd (List.cons.inj heq).1 (by decide)

theorem escape_takeWhile_isPlain (p : Char → Bool) (s : List Char) :
    escape (s.takeWhile fun c => p c && isPlain c) = s.takeWhile fun c => p c && isPlain c := by
  refine escape_of_isPlain fun c hc => ?_
  have hpc := List.mem_takeWhile_imp hc
  simp only [Bool.and_eq_true] at hpc
  exact hpc.2

/-- A sign in front of what is read is written as it is. -/
theorem map_written_sign {x : List Char} (hx : escape x = x)
    (o : Option (List Char × List Char × List Char)) :
    (o.map written).map (fun (mid, value, rest) => (x ++ mid, value, rest))
      = (o.map fun (mid, value, rest) => (x ++ mid, value, rest)).map written := by
  rw [Option.map_map, Option.map_map]
  refine Option.map_congr fun y _ => ?_
  simp only [Function.comp, written, escape_append, hx]

theorem valuePart?_escape (s : List Char) :
    ordinary.valuePart? (escape s) = (throughEscapes.valuePart? s).map written := by
  obtain ⟨hgap, hrest⟩ := takeWhile_escape (p := isBlank) (by decide) s
  simp only [valuePart?, ordinary, throughEscapes, hgap, hrest, openingQuote_escape]
  obtain ⟨hvalue, hrest'⟩ := takeWhile_escape (p := isValueChar) (by decide)
    (plainQuote (s.dropWhile fun c => isBlank c && isPlain c)).2
  rw [hvalue, hrest']
  by_cases hempty : ((plainQuote (s.dropWhile fun c => isBlank c && isPlain c)).2.takeWhile
      fun c => isValueChar c && isPlain c).isEmpty = true
  · rw [if_pos hempty]
    show Option.map written none = _
    exact (congrArg (Option.map written) (if_pos hempty)).symm
  · rw [if_neg hempty]
    refine Eq.trans ?_ (congrArg (Option.map written) (if_neg hempty)).symm
    rw [Option.map_some, written, escape_append, escape_takeWhile_isPlain]

theorem fromSign?_escape (s : List Char) :
    ordinary.fromSign? (escape s) = (throughEscapes.fromSign? s).map written := by
  fun_cases fromSign? throughEscapes s with
  | case1 s mid value rest hv =>
    show ordinary.fromSign? ('=' :: '>' :: escape s) = _
    rw [fromSign?, valuePart?_escape, hv]
    rfl
  | case2 s hv =>
    show ordinary.fromSign? ('=' :: '>' :: escape s) = _
    rw [fromSign?, valuePart?_escape, hv,
      show '>' :: escape s = escape ('>' :: s) from rfl, valuePart?_escape]
    exact map_written_sign (x := ['=']) rfl _
  | case3 s hne =>
    show ordinary.fromSign? ('=' :: escape s) = _
    rw [fromSign?, valuePart?_escape]
    · exact map_written_sign (x := ['=']) rfl _
    · intro r heq
      obtain ⟨s', rfl, -⟩ := eq_cons_of_escape (by decide) heq
      exact hne s' rfl
  | case4 s =>
    show ordinary.fromSign? (':' :: escape s) = _
    rw [fromSign?, valuePart?_escape]
    exact map_written_sign (x := [':']) rfl _
  | case5 s h₁ h₂ h₃ =>
    rw [fromSign?]
    · rfl
    · intro r heq
      obtain ⟨s', rfl, htail, -⟩ := eq_cons_of_escape (by decide) heq
      obtain ⟨s', rfl, -⟩ := eq_cons_of_escape (by decide) htail.symm
      exact h₁ s' rfl
    · intro r heq
      obtain ⟨s', rfl, -⟩ := eq_cons_of_escape (by decide) heq
      exact h₂ s' rfl
    · intro r heq
      obtain ⟨s', rfl, -⟩ := eq_cons_of_escape (by decide) heq
      exact h₃ s' rfl

/-- **What is read after a key in a written text** is what is read through the
escapes in the text. -/
theorem afterKey?_escape (s : List Char) :
    Assignment.afterKey? (escape s) = (throughEscapes.afterKey? s).map written := by
  rw [← ordinary_afterKey?]
  simp only [afterKey?, ordinary, throughEscapes, openingQuote_escape]
  generalize plainQuote s = x
  obtain ⟨hgap, hrest⟩ := takeWhile_escape (p := isBlank) (by decide) x.2
  have hsign := fromSign?_escape (x.2.dropWhile fun c => isBlank c && isPlain c)
  simp only [ordinary, throughEscapes] at hsign
  rw [hgap, hrest, hsign, Option.map_map, Option.map_map]
  refine Option.map_congr fun y _ => ?_
  simp only [Function.comp, written, escape_append, escape_takeWhile_isPlain]

/-! ### With escapes and without -/

section

variable {p q : Char → Bool} {s : List Char}

/-- A smaller class takes as much if all that is taken is in it. -/
theorem takeWhile_eq_of_forall (hqp : ∀ c, q c = true → p c = true)
    (h : ∀ c ∈ s.takeWhile p, q c = true) :
    s.takeWhile q = s.takeWhile p ∧ s.dropWhile q = s.dropWhile p := by
  induction s with
  | nil => exact ⟨rfl, rfl⟩
  | cons c s ih =>
    cases hp : p c with
    | false =>
      have hq : q c = false := Bool.eq_false_iff.mpr fun hq => Bool.false_ne_true (hp.symm.trans (hqp c hq))
      simp [hp, hq]
    | true =>
      rw [List.takeWhile_cons, if_pos hp] at h
      have hq := h c List.mem_cons_self
      simp [hp, hq, ih fun d hd => h d (List.mem_cons_of_mem c hd)]

/-- A smaller class takes as much if what ends it is not in the larger one. -/
theorem takeWhile_eq_of_head (hqp : ∀ c, q c = true → p c = true)
    (h : ∀ c ∈ (s.dropWhile q).head?, p c = false) :
    s.takeWhile q = s.takeWhile p ∧ s.dropWhile q = s.dropWhile p := by
  induction s with
  | nil => exact ⟨rfl, rfl⟩
  | cons c s ih =>
    cases hq : q c with
    | false =>
      rw [List.dropWhile_cons, if_neg (by simp [hq])] at h
      simp [hq, h c rfl]
    | true =>
      rw [List.dropWhile_cons, if_pos hq] at h
      simp [hq, hqp c hq, ih h]

/-- A larger class takes something where a smaller one does. -/
theorem takeWhile_ne_nil_of_le (hqp : ∀ c, q c = true → p c = true) (h : s.takeWhile q ≠ []) :
    s.takeWhile p ≠ [] := by
  cases s with
  | nil => exact h
  | cons c s =>
    cases hq : q c with
    | false => exact absurd (by rw [List.takeWhile_cons, if_neg (by simp [hq])]) h
    | true =>
      rw [List.takeWhile_cons, if_pos (hqp c hq)]
      exact List.cons_ne_nil _ _

end

theorem throughEscapes_quote_append (s : List Char) :
    (throughEscapes.quote s).1 ++ (throughEscapes.quote s).2 = s := by
  show (plainQuote s).1 ++ (plainQuote s).2 = s
  fun_cases plainQuote s <;> rfl

/-- Where there is no reverse solidus, a quote is read alike. -/
theorem plainQuote_eq {s : List Char} (h : s.head? ≠ some '\\') : plainQuote s = openingQuote s := by
  fun_cases openingQuote s with
  | case1 s => exact absurd rfl h
  | case2 s => exact absurd rfl h
  | case3 s => rfl
  | case4 s => rfl
  | case5 s h₁ h₂ h₃ h₄ => exact plainQuote.eq_3 s h₃ h₄

theorem throughEscapes_blank {c : Char} (h : throughEscapes.blank c = true) :
    isBlank c = true ∧ isPlain c = true :=
  Bool.and_eq_true_iff.mp h

theorem throughEscapes_value {c : Char} (h : throughEscapes.value c = true) :
    isValueChar c = true ∧ isPlain c = true :=
  Bool.and_eq_true_iff.mp h

/-- A value that is read through the escapes starts, with its quote, with no blank
and no reverse solidus. -/
theorem head?_of_takeWhile_plainQuote {s : List Char} {p : Char → Bool}
    (hp : ∀ c, p c = true → isValueChar c = true) (h : (plainQuote s).2.takeWhile p ≠ []) :
    ∀ c ∈ s.head?, isBlank c = false ∧ c ≠ '\\' := by
  fun_cases plainQuote s with
  | case1 s =>
    intro c hc
    obtain rfl := Option.some.inj hc
    decide
  | case2 s =>
    intro c hc
    obtain rfl := Option.some.inj hc
    decide
  | case3 s h₃ h₄ =>
    rw [plainQuote.eq_3 s h₃ h₄] at h
    intro c hc
    obtain ⟨r, rfl⟩ := List.head?_eq_some_iff.mp hc
    have hpc : isValueChar c = true := by
      refine hp c ?_
      by_contra hpc
      rw [List.takeWhile_cons, if_neg hpc] at h
      exact h rfl
    simp only [isValueChar, Bool.not_eq_true', Bool.or_eq_false_iff, beq_eq_false_iff_ne] at hpc
    exact ⟨hpc.1.1.1.1.1.1.1.1, hpc.1.1.1.1.1.2⟩

/-- **What is read through the escapes is also read without them**, though the
value may then be longer. -/
theorem exists_valuePart? (h : throughEscapes.valuePart? s = some (before, value, rest)) :
    ∃ x, ordinary.valuePart? s = some x := by
  obtain ⟨hne, -, rfl, -⟩ := valuePart?_eq_some_iff.mp h
  have hhead := head?_of_takeWhile_plainQuote (fun c hc => (throughEscapes_value hc).1) hne
  obtain ⟨-, hrest⟩ := takeWhile_eq_of_head (p := isBlank) (q := throughEscapes.blank)
    (fun c hc => (throughEscapes_blank hc).1) fun c hc => (hhead c hc).1
  have hquote : ordinary.quote (s.dropWhile isBlank)
      = throughEscapes.quote (s.dropWhile throughEscapes.blank) := by
    rw [← hrest]
    exact (plainQuote_eq fun hsolidus => (hhead _ hsolidus).2 rfl).symm
  refine ⟨_, valuePart?_eq_some_iff.mpr ⟨?_, rfl, rfl, rfl⟩⟩
  show (ordinary.quote (s.dropWhile isBlank)).2.takeWhile isValueChar ≠ []
  rw [hquote]
  exact takeWhile_ne_nil_of_le (fun c hc => (throughEscapes_value hc).1) hne

/-- A character that is not written with a reverse solidus of its own, unless it is
a quotation mark. -/
def IsUnescaped (c : Char) : Prop :=
  c ≠ '\\' ∧ ¬ IsControl c

instance (c : Char) : Decidable (IsUnescaped c) :=
  inferInstanceAs (Decidable (_ ∧ _))

theorem isPlain_of_isBlank {c : Char} (h : isBlank c = true) (hc : IsUnescaped c) :
    isPlain c = true := by
  refine isPlain_iff.mpr ⟨?_, hc⟩
  rintro rfl
  exact absurd h (by decide)

theorem isPlain_of_isValueChar {c : Char} (h : isValueChar c = true) (hc : IsUnescaped c) :
    isPlain c = true := by
  refine isPlain_iff.mpr ⟨?_, hc⟩
  rintro rfl
  exact absurd h (by decide)

/-- A value with a quote that is no reverse solidus does not start with one
either. -/
theorem head?_ne_of_openingQuote {s : List Char} (hne : (openingQuote s).2.takeWhile isValueChar ≠ [])
    (hquote : ∀ c ∈ (openingQuote s).1, c ≠ '\\') : s.head? ≠ some '\\' := by
  fun_cases openingQuote s with
  | case1 s => exact absurd rfl (hquote '\\' List.mem_cons_self)
  | case2 s => exact absurd rfl (hquote '\\' List.mem_cons_self)
  | case3 s => exact fun h => absurd (Option.some.inj h) (by decide)
  | case4 s => exact fun h => absurd (Option.some.inj h) (by decide)
  | case5 s h₁ h₂ h₃ h₄ =>
    intro h
    obtain ⟨r, rfl⟩ := List.head?_eq_some_iff.mp h
    rw [openingQuote.eq_5 _ h₁ h₂ h₃ h₄] at hne
    exact hne rfl

/-- **What is read without the escapes is also read through them**, if it has
none. -/
theorem throughEscapes_valuePart? (h : ordinary.valuePart? s = some (before, value, rest))
    (hplain : ∀ c ∈ before ++ value, IsUnescaped c) :
    throughEscapes.valuePart? s = some (before, value, rest) := by
  obtain ⟨hne, rfl, rfl, rfl⟩ := valuePart?_eq_some_iff.mp h
  have hbefore := fun c hc => hplain c (List.mem_append_left _ hc)
  obtain ⟨hgap, hrest⟩ := takeWhile_eq_of_forall (p := isBlank) (q := throughEscapes.blank) (s := s)
    (fun c hc => (throughEscapes_blank hc).1) fun c hc => Bool.and_eq_true_iff.mpr
      ⟨List.mem_takeWhile_imp hc,
        isPlain_of_isBlank (List.mem_takeWhile_imp hc) (hbefore c (List.mem_append_left _ hc))⟩
  have hquote : throughEscapes.quote (s.dropWhile throughEscapes.blank)
      = ordinary.quote (s.dropWhile isBlank) := by
    rw [hrest]
    exact plainQuote_eq (head?_ne_of_openingQuote hne fun c hc =>
      (hbefore c (List.mem_append_right _ hc)).1)
  obtain ⟨hvalue, hend⟩ := takeWhile_eq_of_forall (p := isValueChar) (q := throughEscapes.value)
    (s := (ordinary.quote (s.dropWhile isBlank)).2)
    (fun c hc => (throughEscapes_value hc).1) fun c hc => Bool.and_eq_true_iff.mpr
      ⟨List.mem_takeWhile_imp hc,
        isPlain_of_isValueChar (List.mem_takeWhile_imp hc) (hplain c (List.mem_append_right _ hc))⟩
  refine valuePart?_eq_some_iff.mpr ⟨hne, ?_, ?_, ?_⟩
  · rw [hquote, hgap]
    rfl
  · rw [hquote, hvalue]
    rfl
  · rw [hquote, hend]
    rfl

theorem exists_fromSign? (h : throughEscapes.fromSign? s = some (before, value, rest)) :
    ∃ x, ordinary.fromSign? s = some x := by
  obtain ⟨sign, hsign, t, mid, rfl, rfl, hm, -⟩ := fromSign?_eq_some_iff.mp h
  exact exists_fromSign?_of_valuePart? hsign (exists_valuePart? hm)

theorem throughEscapes_fromSign? (h : ordinary.fromSign? s = some (before, value, rest))
    (hplain : ∀ c ∈ before ++ value, IsUnescaped c) :
    throughEscapes.fromSign? s = some (before, value, rest) := by
  obtain ⟨sign, hsign, t, mid, rfl, rfl, hm, hnone⟩ := fromSign?_eq_some_iff.mp h
  rw [List.append_assoc] at hplain
  refine fromSign?_eq_some_iff.mpr ⟨sign, hsign, t, mid, rfl, rfl,
    throughEscapes_valuePart? hm fun c hc => hplain c (List.mem_append_right _ hc), ?_⟩
  refine fun hs u hu => Option.eq_none_iff_forall_ne_some.mpr fun x hx => ?_
  obtain ⟨y, hy⟩ := exists_valuePart? hx
  rw [hnone hs u hu] at hy
  cases hy

/-- What is read as a sign starts with one. -/
theorem head?_of_fromSign? {R : Reading} (h : R.fromSign? s = some (before, value, rest)) :
    ∀ c ∈ s.head?, c = '=' ∨ c = ':' := by
  obtain ⟨sign, hsign, t, mid, rfl, -⟩ := fromSign?_eq_some_iff.mp h
  simp only [signs, List.mem_cons, List.not_mem_nil, or_false] at hsign
  rcases hsign with rfl | rfl | rfl <;> simp

/-- The text up to a sign does not start with a reverse solidus, unless a quote
does. -/
theorem head?_ne_of_fromSign? {R : Reading} {p : Char → Bool} {s : List Char}
    (hp : p '\\' = false) (h : R.fromSign? (s.dropWhile p) = some (before, value, rest)) :
    s.head? ≠ some '\\' := by
  intro hs
  obtain ⟨r, rfl⟩ := List.head?_eq_some_iff.mp hs
  rw [List.dropWhile_cons, if_neg (by simp [hp])] at h
  exact (head?_of_fromSign? h '\\' rfl).elim (by decide) (by decide)

/-- What a text up to a sign starts with is read alike as a quote. -/
theorem plainQuote_eq_of_fromSign?
    (h : throughEscapes.fromSign? ((plainQuote s).2.dropWhile throughEscapes.blank)
      = some (before, value, rest)) : plainQuote s = openingQuote s := by
  refine plainQuote_eq fun hs => ?_
  obtain ⟨r, rfl⟩ := List.head?_eq_some_iff.mp hs
  exact head?_ne_of_fromSign? (by decide) h rfl

/-- **What is read after a key through the escapes is also read without them.** -/
theorem exists_afterKey? (h : throughEscapes.afterKey? s = some (before, value, rest)) :
    ∃ x, ordinary.afterKey? s = some x := by
  obtain ⟨sep, -, hsign⟩ := map_sign_eq_some_iff.mp ((afterKey?_eq _ s).symm.trans h)
  have hquote : plainQuote s = openingQuote s := plainQuote_eq_of_fromSign? hsign
  obtain ⟨-, hrest⟩ := takeWhile_eq_of_head (p := isBlank) (q := throughEscapes.blank)
    (s := (plainQuote s).2) (fun c hc => (throughEscapes_blank hc).1)
    fun c hc => by obtain rfl | rfl := head?_of_fromSign? hsign c hc <;> decide
  obtain ⟨x, hx⟩ := exists_fromSign? hsign
  have hordinary : ordinary.fromSign? ((ordinary.quote s).2.dropWhile ordinary.blank) = some x := by
    show ordinary.fromSign? ((openingQuote s).2.dropWhile isBlank) = some x
    rw [← hquote, ← hrest]
    exact hx
  rw [afterKey?_eq, hordinary]
  exact ⟨_, rfl⟩

/-- A quote before a sign is no reverse solidus, unless one is read. -/
theorem head?_ne_of_quote {sep : List Char}
    (h : ordinary.fromSign? ((openingQuote s).2.dropWhile isBlank) = some (sep, value, rest))
    (hquote : ∀ c ∈ (openingQuote s).1, c ≠ '\\') : s.head? ≠ some '\\' := by
  intro hs
  have happ := openingQuote_append s
  cases hfirst : (openingQuote s).1 with
  | nil =>
    rw [hfirst, List.nil_append] at happ
    rw [happ] at h
    exact head?_ne_of_fromSign? (by decide) h hs
  | cons c q =>
    rw [hfirst, List.cons_append] at happ
    rw [← happ] at hs
    obtain rfl := Option.some.inj hs
    exact hquote '\\' (hfirst ▸ List.mem_cons_self) rfl

/-- **What is read after a key without the escapes is also read through them**, if
it has none. -/
theorem throughEscapes_afterKey? (h : ordinary.afterKey? s = some (before, value, rest))
    (hplain : ∀ c ∈ before ++ value, IsUnescaped c) :
    throughEscapes.afterKey? s = some (before, value, rest) := by
  obtain ⟨sep, hbefore, hsign⟩ := map_sign_eq_some_iff.mp ((afterKey?_eq _ s).symm.trans h)
  have hfirst : ∀ c ∈ (openingQuote s).1 ++ (openingQuote s).2.takeWhile isBlank, IsUnescaped c :=
    fun c hc => hplain c (List.mem_append_left _ (hbefore ▸ List.mem_append_left _ hc))
  have hquote : plainQuote s = openingQuote s :=
    plainQuote_eq (head?_ne_of_quote hsign fun c hc => (hfirst c (List.mem_append_left _ hc)).1)
  obtain ⟨hgap, hrest⟩ := takeWhile_eq_of_forall (p := isBlank) (q := throughEscapes.blank)
    (s := (openingQuote s).2) (fun c hc => (throughEscapes_blank hc).1)
    fun c hc => Bool.and_eq_true_iff.mpr ⟨List.mem_takeWhile_imp hc,
      isPlain_of_isBlank (List.mem_takeWhile_imp hc) (hfirst c (List.mem_append_right _ hc))⟩
  have hthrough : throughEscapes.fromSign? ((plainQuote s).2.dropWhile throughEscapes.blank)
      = some (sep, value, rest) := by
    rw [hquote, hrest]
    refine throughEscapes_fromSign? hsign fun c hc => hplain c ?_
    rw [hbefore, List.append_assoc]
    exact List.mem_append_right _ hc
  refine (afterKey?_eq _ s).trans (map_sign_eq_some_iff.mpr ⟨sep, ?_, hthrough⟩)
  rw [hbefore]
  show _ = (plainQuote s).1 ++ (plainQuote s).2.takeWhile throughEscapes.blank ++ sep
  rw [hquote, hgap]
  rfl

end Reading

end IncidentMemory.Redaction
