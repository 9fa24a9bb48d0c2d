import IncidentMemory.Redaction
import Mathlib.Data.Bool.AllAny
import Mathlib.Data.List.TakeWhile

/-!
# Where a secret assignment stands

`Assignment.at?` tries one key after the other. No key is the beginning of
another one, so their order is of no importance, and an assignment stands at the
beginning of a text exactly if the text is a spelling of a key and what follows
it is read as a separator and a value (`Assignment.at?_eq_some_iff`).

How much of a text has to be known for that? A key is spelled with word
characters, and no separator has one. So of a text that ends in a word character
it is known what is read at its beginning, whatever comes after it, with two
exceptions: a value that reaches the end of the text goes on with what comes,
and a text that is a key itself may yet be given a value
(`Assignment.at?_append_text`).
-/

namespace IncidentMemory.Redaction

open IncidentMemory.Text (isBlank lowerAscii)

/-! ## Letters of keys -/

/-- The letter that a character is a form of. -/
def letterOf (c : Char) : Char :=
  if c = '\u212A' then 'k' else if c = '\u017F' then 's' else lowerAscii c

/-- A character that keys are written with. -/
def IsKeyLetter (l : Char) : Prop :=
  97 ≤ l.toNat ∧ l.toNat ≤ 122 ∨ l.toNat = 95

instance (l : Char) : Decidable (IsKeyLetter l) :=
  inferInstanceAs (Decidable (_ ∨ _))

theorem isKeyLetter_of_mem {name : String} (hname : name ∈ secretKeys) :
    ∀ l ∈ name.toList, IsKeyLetter l := by
  have hall : ∀ l ∈ secretKeys.flatMap String.toList, IsKeyLetter l :=
    List.all_iff_forall_prop.mp (by decide)
  exact fun l hl => hall l (List.mem_flatMap.mpr ⟨name, hname, hl⟩)

/-- What is not a capital has no other lower case. -/
theorem lowerAscii_cases (c : Char) :
    (65 ≤ c.toNat ∧ c.toNat ≤ 90) ∨ lowerAscii c = c := by
  unfold lowerAscii
  split
  · next h => exact Or.inl h
  · exact Or.inr rfl

/-- The lower case of a key letter is the letter itself. -/
theorem lowerAscii_of_isKeyLetter {l : Char} (hl : IsKeyLetter l) : lowerAscii l = l := by
  rcases lowerAscii_cases l with ⟨hlow, hhigh⟩ | h
  · rcases hl with ⟨h, -⟩ | h
    · omega
    · omega
  · exact h

theorem letterOf_of_isKeyLetter {l : Char} (hl : IsKeyLetter l) : letterOf l = l := by
  unfold letterOf
  rw [if_neg, if_neg, lowerAscii_of_isKeyLetter hl]
  · rintro rfl
    revert hl
    decide
  · rintro rfl
    revert hl
    decide

/-- **A character matches a key letter** exactly if it is a form of it. -/
theorem matchesLetter_iff {l c : Char} (hl : IsKeyLetter l) :
    matchesLetter l c = true ↔ letterOf c = l := by
  unfold matchesLetter
  simp only [Bool.or_eq_true, Bool.and_eq_true, beq_iff_eq]
  constructor
  · rintro (((rfl | h) | ⟨rfl, rfl⟩) | ⟨rfl, rfl⟩)
    · exact letterOf_of_isKeyLetter hl
    · -- neither of the two special forms is a key letter in lower case
      unfold letterOf
      rw [if_neg, if_neg, h]
      · rintro rfl
        subst h
        revert hl
        decide
      · rintro rfl
        subst h
        revert hl
        decide
    · rfl
    · rfl
  · intro h
    unfold letterOf at h
    split at h
    · next hc => exact Or.inl (Or.inr ⟨h.symm, hc⟩)
    · split at h
      · next hc => exact Or.inr ⟨h.symm, hc⟩
      · exact Or.inl (Or.inl (Or.inr h))

/-! ## Word characters -/

/-- **A word character** may stand in a value, and in no sign. -/
def IsWordChar (c : Char) : Prop :=
  isValueChar c = true ∧ c ≠ '=' ∧ c ≠ ':' ∧ c ≠ '>'

instance (c : Char) : Decidable (IsWordChar c) :=
  inferInstanceAs (Decidable (_ ∧ _))

/-- Letters and digits, the low line, and the two other forms of letters are
word characters. -/
theorem isWordChar_of_toNat {c : Char}
    (h : 48 ≤ c.toNat ∧ c.toNat ≤ 57 ∨ 65 ≤ c.toNat ∧ c.toNat ≤ 90 ∨ c.toNat = 95
      ∨ 97 ≤ c.toNat ∧ c.toNat ≤ 122 ∨ c.toNat = 0x212A ∨ c.toNat = 0x017F) :
    IsWordChar c := by
  have hne : ∀ d : Char, d ∈ ['"', '\'', '\\', ',', ';', '&', '\x7d', ']', '=', ':', '>'] →
      c ≠ d := by
    rintro d hd rfl
    simp only [List.mem_cons, List.not_mem_nil, or_false] at hd
    rcases hd with rfl | rfl | rfl | rfl | rfl | rfl | rfl | rfl | rfl | rfl | rfl <;>
      revert h <;> decide
  have hblank : isBlank c = false := by
    simp only [isBlank, Text.blankRanges, List.any_cons, List.any_nil, Bool.or_eq_false_iff,
      Bool.and_eq_false_iff, decide_eq_false_iff_not, and_true]
    omega
  refine ⟨?_, hne _ (by simp), hne _ (by simp), hne _ (by simp)⟩
  unfold isValueChar
  simp [hblank, hne]

theorem isWordChar_of_letterOf {c : Char} (h : IsKeyLetter (letterOf c)) : IsWordChar c := by
  refine isWordChar_of_toNat ?_
  unfold letterOf at h
  split at h
  · next hc => subst hc; decide
  · split at h
    · next hc => subst hc; decide
    · rcases lowerAscii_cases c with ⟨hlow, hhigh⟩ | hc
      · exact Or.inr (Or.inl ⟨hlow, hhigh⟩)
      · rw [hc] at h
        rcases h with h | h
        · exact Or.inr (Or.inr (Or.inr (Or.inl h)))
        · exact Or.inr (Or.inr (Or.inl h))

theorem isWordChar_of_isAlphanum {c : Char} (h : c.isAlphanum = true) : IsWordChar c := by
  refine isWordChar_of_toNat ?_
  unfold Char.isAlphanum Char.isAlpha Char.isUpper Char.isLower Char.isDigit at h
  simp only [Bool.or_eq_true, Bool.and_eq_true, decide_eq_true_eq] at h
  rcases h with (h | h) | h
  · exact Or.inr (Or.inl h)
  · exact Or.inr (Or.inr (Or.inr (Or.inl h)))
  · exact Or.inl h

/-- A text that ends in a word character. -/
def EndsInWord (s : List Char) : Prop :=
  ∃ c ∈ s.getLast?, IsWordChar c

theorem EndsInWord.ne_nil {s : List Char} (h : EndsInWord s) : s ≠ [] := by
  rintro rfl
  obtain ⟨c, hc, -⟩ := h
  exact nomatch hc

/-- Another beginning makes no difference to the end. -/
theorem endsInWord_append {s : List Char} (hs : s ≠ []) (p : List Char) :
    EndsInWord (p ++ s) ↔ EndsInWord s := by
  unfold EndsInWord
  rw [List.getLast?_append, List.getLast?_eq_some_getLast hs]
  rfl

/-- Whatever is taken from the beginning, without taking the whole, leaves the
end. -/
theorem EndsInWord.tail {c : Char} {s : List Char} (h : EndsInWord (c :: s))
    (hc : ¬ IsWordChar c) : EndsInWord s := by
  cases s with
  | nil =>
    obtain ⟨d, hd, hword⟩ := h
    obtain rfl := Option.some.inj hd
    exact absurd hword hc
  | cons d s => exact (endsInWord_append (List.cons_ne_nil d s) [c]).mp h

/-- Skipping characters that are no word characters ends before the end. -/
theorem EndsInWord.dropWhile {s : List Char} (h : EndsInWord s) {p : Char → Bool}
    (hp : ∀ c, IsWordChar c → p c = false) : EndsInWord (s.dropWhile p) := by
  induction s with
  | nil => exact absurd rfl h.ne_nil
  | cons c s ih =>
    rw [List.dropWhile_cons]
    split
    · next hc => exact ih (h.tail fun hword => by rw [hp c hword] at hc; exact nomatch hc)
    · exact h

theorem EndsInWord.exists_mem {s : List Char} (h : EndsInWord s) : ∃ c ∈ s, IsWordChar c := by
  obtain ⟨c, hc, hword⟩ := h
  exact ⟨c, List.mem_of_getLast? hc, hword⟩

/-! ## Keys -/

/-- **A spelling of a key.** -/
def IsKey (k : List Char) : Prop :=
  ∃ name ∈ secretKeys, k.map letterOf = name.toList

theorem IsKey.isWordChar {k : List Char} (h : IsKey k) : ∀ c ∈ k, IsWordChar c := by
  obtain ⟨name, hname, hk⟩ := h
  intro c hc
  exact isWordChar_of_letterOf (isKeyLetter_of_mem hname _ (hk ▸ List.mem_map_of_mem hc))

theorem IsKey.ne_nil {k : List Char} (h : IsKey k) : k ≠ [] := by
  rintro rfl
  obtain ⟨name, hname, hk⟩ := h
  revert name
  decide

theorem IsKey.endsInWord {k : List Char} (h : IsKey k) (p : List Char) : EndsInWord (p ++ k) := by
  rw [endsInWord_append h.ne_nil]
  exact ⟨k.getLast h.ne_nil, List.getLast?_eq_some_getLast h.ne_nil,
    h.isWordChar _ (List.getLast_mem h.ne_nil)⟩

/-- **No key is the beginning of another one.** -/
theorem eq_of_begins : ∀ name ∈ secretKeys, ∀ other ∈ secretKeys,
    name.toList <+: other.toList → name = other := by
  decide

/-- **At most one key stands at the beginning of a text.** -/
theorem IsKey.eq_of_append_eq {k k' t t' : List Char} (hk : IsKey k) (hk' : IsKey k')
    (h : k ++ t = k' ++ t') : k = k' := by
  obtain ⟨name, hname, hn⟩ := hk
  obtain ⟨other, hother, ho⟩ := hk'
  have hlength : ∀ {a b : List Char}, a.map letterOf = b.map letterOf → a.length = b.length := by
    intro a b hab
    simpa using congrArg List.length hab
  -- the shorter of the two is the beginning of the longer one
  have hname : name = other := by
    rcases List.append_eq_append_iff.mp h with ⟨x, rfl, -⟩ | ⟨x, rfl, -⟩
    · refine eq_of_begins name hname other hother ⟨x.map letterOf, ?_⟩
      rw [← hn, ← ho, List.map_append]
    · refine (eq_of_begins other hother name hname ⟨x.map letterOf, ?_⟩).symm
      rw [← hn, ← ho, List.map_append]
  exact (List.append_inj h (hlength (hn.trans ((congrArg _ hname).trans ho.symm)))).1

/-- Spelling letters of keys takes what is a form of them. -/
theorem spelled?_eq_some_iff {k s used rest : List Char} (hk : ∀ l ∈ k, IsKeyLetter l) :
    spelled? k s = some (used, rest) ↔ used ++ rest = s ∧ used.map letterOf = k := by
  induction k generalizing s used rest with
  | nil =>
    rw [List.map_eq_nil_iff]
    constructor
    · intro h
      obtain ⟨rfl, rfl⟩ := Prod.mk.inj (Option.some.inj h)
      exact ⟨rfl, rfl⟩
    · rintro ⟨rfl, rfl⟩
      rfl
  | cons l k ih =>
    have hl := hk l List.mem_cons_self
    have hk := fun l h => hk l (List.mem_cons_of_mem _ h)
    cases s with
    | nil =>
      constructor
      · intro h
        cases h
      · rintro ⟨happ, hmap⟩
        rw [(List.append_eq_nil_iff.mp happ).1] at hmap
        cases hmap
    | cons c s =>
      rw [spelled?]
      constructor
      · intro h
        split at h
        · next hc =>
          obtain ⟨⟨u, r⟩, hu, heq⟩ := Option.map_eq_some_iff.mp h
          obtain ⟨rfl, rfl⟩ := Prod.mk.inj heq
          obtain ⟨rfl, hmap⟩ := (ih hk).mp hu
          exact ⟨rfl, by rw [List.map_cons, (matchesLetter_iff hl).mp hc, hmap]⟩
        · cases h
      · rintro ⟨happ, hmap⟩
        cases used with
        | nil => cases hmap
        | cons d used =>
          obtain ⟨rfl, htail⟩ := List.cons.inj happ
          obtain ⟨hd, hmap⟩ := List.cons.inj hmap
          rw [if_pos ((matchesLetter_iff hl).mpr hd), (ih hk).mpr ⟨htail, hmap⟩]
          rfl

namespace Assignment

/-- The assignment with one of the keys that stands at the beginning of a text. -/
def withKey? (s : List Char) (name : String) : Option (Assignment × List Char) :=
  match spelled? name.toList s with
  | none => none
  | some (key, rest) => (afterKey? rest).map fun (sep, value, rest) => (⟨key, sep, value⟩, rest)

theorem at?_eq (s : List Char) : at? s = secretKeys.findSome? (withKey? s) :=
  rfl

theorem withKey?_eq_some_iff {s rest : List Char} {name : String} (hname : name ∈ secretKeys)
    {a : Assignment} :
    withKey? s name = some (a, rest)
      ↔ ∃ t, a.key ++ t = s ∧ a.key.map letterOf = name.toList
        ∧ afterKey? t = some (a.separator, a.value, rest) := by
  have hspelled : ∀ used t, spelled? name.toList s = some (used, t)
      ↔ used ++ t = s ∧ used.map letterOf = name.toList :=
    fun _ _ => spelled?_eq_some_iff (isKeyLetter_of_mem hname)
  unfold withKey?
  constructor
  · intro h
    split at h
    · exact nomatch h
    · next key t hk =>
      obtain ⟨⟨sep, value, r⟩, hv, heq⟩ := Option.map_eq_some_iff.mp h
      obtain ⟨rfl, rfl⟩ := Prod.mk.inj heq
      obtain ⟨happ, hmap⟩ := (hspelled _ _).mp hk
      exact ⟨t, happ, hmap, hv⟩
  · rintro ⟨t, happ, hmap, hv⟩
    simp only [(hspelled _ _).mpr ⟨happ, hmap⟩, hv, Option.map_some]

/-- **An assignment stands at the beginning of a text** exactly if this is a
key, followed by what is read as a separator and a value. -/
theorem at?_eq_some_iff {s rest : List Char} {a : Assignment} :
    at? s = some (a, rest)
      ↔ IsKey a.key ∧ ∃ t, a.key ++ t = s ∧ afterKey? t = some (a.separator, a.value, rest) := by
  rw [at?_eq]
  constructor
  · intro h
    obtain ⟨name, hname, hn⟩ := List.exists_of_findSome?_eq_some h
    obtain ⟨t, happ, hmap, hv⟩ := (withKey?_eq_some_iff hname).mp hn
    exact ⟨⟨name, hname, hmap⟩, t, happ, hv⟩
  · rintro ⟨⟨name, hname, hmap⟩, t, happ, hv⟩
    have hn := (withKey?_eq_some_iff hname).mpr ⟨t, happ, hmap, hv⟩
    -- some key is found, and only one can be
    obtain ⟨⟨b, r⟩, hfind⟩ : ∃ found, secretKeys.findSome? (withKey? s) = some found := by
      refine Option.ne_none_iff_exists'.mp fun hnone => ?_
      rw [List.findSome?_eq_none_iff.mp hnone name hname] at hn
      exact nomatch hn
    obtain ⟨other, hother, ho⟩ := List.exists_of_findSome?_eq_some hfind
    obtain ⟨t', happ', hmap', hv'⟩ := (withKey?_eq_some_iff hother).mp ho
    have hkey : a.key = b.key :=
      IsKey.eq_of_append_eq ⟨name, hname, hmap⟩ ⟨other, hother, hmap'⟩ (happ.trans happ'.symm)
    have hnames : name = other := String.toList_inj.mp (by rw [← hmap, ← hmap', hkey])
    rw [hfind, ← ho, ← hnames, hn]

end Assignment

/-! ## Texts that go on -/

theorem IsWordChar.isBlank {c : Char} (h : IsWordChar c) : isBlank c = false := by
  have hvalue := h.1
  unfold isValueChar at hvalue
  simp only [Bool.not_eq_true', Bool.or_eq_false_iff, and_assoc] at hvalue
  exact hvalue.1

/-- **The parts that are read when the text goes on**, given those that are read
of the text: the value goes on if it was the last there was. -/
def goOn (t : List Char) :
    List Char × List Char × List Char → List Char × List Char × List Char
  | (before, value, []) => (before, value ++ t.takeWhile isValueChar, t.dropWhile isValueChar)
  | (before, value, c :: rest) => (before, value, c :: rest ++ t)

variable {s : List Char}

theorem takeWhile_isBlank_append (h : EndsInWord s) (t : List Char) :
    (s ++ t).takeWhile isBlank = s.takeWhile isBlank := by
  obtain ⟨c, hc, hword⟩ := h.exists_mem
  rw [List.takeWhile_append, if_neg]
  intro hlength
  have hall := List.takeWhile_eq_self_iff.mp ((List.takeWhile_sublist _).eq_of_length hlength)
  exact Bool.false_ne_true (hword.isBlank.symm.trans (hall c hc))

theorem dropWhile_isBlank_append (h : EndsInWord s) (t : List Char) :
    (s ++ t).dropWhile isBlank = s.dropWhile isBlank ++ t := by
  have hrest := h.dropWhile fun _ => IsWordChar.isBlank
  rw [List.dropWhile_append, if_neg (by simpa using hrest.ne_nil)]

theorem not_isWordChar_of_mem : ∀ c ∈ ['\\', '"', '\'', '=', ':', '>'], ¬ IsWordChar c :=
  List.all_iff_forall_prop.mp (by decide)

/-- What follows an opening quote, if there is one, ends as before. -/
theorem EndsInWord.openingQuote (h : EndsInWord s) : EndsInWord (openingQuote s).2 := by
  unfold Redaction.openingQuote
  split
  · exact (h.tail (not_isWordChar_of_mem _ (by decide))).tail (not_isWordChar_of_mem _ (by decide))
  · exact (h.tail (not_isWordChar_of_mem _ (by decide))).tail (not_isWordChar_of_mem _ (by decide))
  · exact h.tail (not_isWordChar_of_mem _ (by decide))
  · exact h.tail (not_isWordChar_of_mem _ (by decide))
  · exact h

/-- A text that ends in a word character begins with the same few characters as
it does when it goes on, as far as these are no word characters. -/
theorem EndsInWord.eq_cons (h : EndsInWord s) {t r : List Char} {c : Char}
    (hc : ¬ IsWordChar c) (heq : s ++ t = c :: r) : ∃ s', s = c :: s' ∧ s' ++ t = r := by
  cases s with
  | nil => exact absurd rfl h.ne_nil
  | cons d s' =>
    obtain ⟨rfl, hr⟩ := List.cons.inj heq
    exact ⟨s', rfl, hr⟩

theorem openingQuote_append_text (h : EndsInWord s) (t : List Char) :
    openingQuote (s ++ t) = ((openingQuote s).1, (openingQuote s).2 ++ t) := by
  fun_cases Redaction.openingQuote s with
  | case5 s h₁ h₂ h₃ h₄ =>
    -- neither is there a quote at the beginning when the text goes on
    have hsolidus := not_isWordChar_of_mem '\\' (by decide)
    have hdouble := not_isWordChar_of_mem '"' (by decide)
    have hsingle := not_isWordChar_of_mem '\'' (by decide)
    refine openingQuote.eq_5 _ (fun r heq => ?_) (fun r heq => ?_) (fun r heq => ?_)
      (fun r heq => ?_)
    · obtain ⟨s', rfl, htail⟩ := h.eq_cons hsolidus heq
      obtain ⟨s', rfl, -⟩ := (h.tail hsolidus).eq_cons hdouble htail
      exact h₁ _ rfl
    · obtain ⟨s', rfl, htail⟩ := h.eq_cons hsolidus heq
      obtain ⟨s', rfl, -⟩ := (h.tail hsolidus).eq_cons hsingle htail
      exact h₂ _ rfl
    · obtain ⟨s', rfl, -⟩ := h.eq_cons hdouble heq
      exact h₃ _ rfl
    · obtain ⟨s', rfl, -⟩ := h.eq_cons hsingle heq
      exact h₄ _ rfl
  | _ => rfl

theorem valuePart?_append_text (h : EndsInWord s) (t : List Char) :
    valuePart? (s ++ t) = (valuePart? s).map (goOn t) := by
  have hrest := (h.dropWhile fun _ => IsWordChar.isBlank).openingQuote
  simp only [valuePart?, takeWhile_isBlank_append h, dropWhile_isBlank_append h,
    openingQuote_append_text (h.dropWhile fun _ => IsWordChar.isBlank)]
  generalize (openingQuote (s.dropWhile isBlank)).2 = r at hrest ⊢
  by_cases hall : ∀ c ∈ r, isValueChar c = true
  · -- the value reaches the end
    rw [List.takeWhile_append_of_pos hall, List.dropWhile_append_of_pos hall,
      List.takeWhile_eq_self_iff.mpr hall, List.dropWhile_eq_nil_iff.mpr hall,
      if_neg (by simpa using fun h => absurd h hrest.ne_nil), if_neg (by simpa using hrest.ne_nil)]
    rfl
  · have hne := mt List.dropWhile_eq_nil_iff.mp hall
    obtain ⟨c, x, hcx⟩ := List.exists_cons_of_ne_nil hne
    have hlength : (r.takeWhile isValueChar).length ≠ r.length := fun hlength =>
      hall (List.takeWhile_eq_self_iff.mp ((List.takeWhile_sublist _).eq_of_length hlength))
    rw [List.takeWhile_append, if_neg hlength, List.dropWhile_append, hcx,
      if_neg (show ¬ (c :: x).isEmpty = true from Bool.false_ne_true)]
    split
    · rfl
    · rfl

namespace Assignment

theorem fromSign?_append_text (h : EndsInWord s) (t : List Char) :
    fromSign? (s ++ t) = (fromSign? s).map (goOn t) := by
  have hequals := not_isWordChar_of_mem '=' (by decide)
  have hcolon := not_isWordChar_of_mem ':' (by decide)
  have hgreater := not_isWordChar_of_mem '>' (by decide)
  -- a part before the value is carried along
  have hcarry : ∀ (x : List Char) (o : Option (List Char × List Char × List Char)),
      (o.map (goOn t)).map (fun (mid, value, rest) => (x ++ mid, value, rest))
        = (o.map fun (mid, value, rest) => (x ++ mid, value, rest)).map (goOn t) := by
    intro x o
    rw [Option.map_map, Option.map_map]
    refine Option.map_congr fun y _ => ?_
    obtain ⟨mid, value, _ | ⟨c, rest⟩⟩ := y
    · rfl
    · rfl
  fun_cases fromSign? s with
  | case1 s mid value rest hv =>
    have hs := (h.tail hequals).tail hgreater
    rw [List.cons_append, List.cons_append, fromSign?, valuePart?_append_text hs, hv]
    cases rest <;> rfl
  | case2 s hv =>
    have hs := (h.tail hequals).tail hgreater
    rw [List.cons_append, List.cons_append, fromSign?, valuePart?_append_text hs, hv,
      ← List.cons_append, valuePart?_append_text (h.tail hequals)]
    exact hcarry ['='] _
  | case3 s hne =>
    have hs := h.tail hequals
    rw [List.cons_append, fromSign?, valuePart?_append_text hs]
    · exact hcarry ['='] _
    · intro r heq
      obtain ⟨s', rfl, -⟩ := hs.eq_cons hgreater heq
      exact hne _ rfl
  | case4 s =>
    rw [List.cons_append, fromSign?, valuePart?_append_text (h.tail hcolon)]
    exact hcarry [':'] _
  | case5 s h₁ h₂ h₃ =>
    -- neither is there a sign at the beginning when the text goes on
    rw [fromSign?]
    · rfl
    · intro r heq
      obtain ⟨s', rfl, htail⟩ := h.eq_cons hequals heq
      obtain ⟨s', rfl, -⟩ := (h.tail hequals).eq_cons hgreater htail
      exact h₁ _ rfl
    · intro r heq
      obtain ⟨s', rfl, -⟩ := h.eq_cons hequals heq
      exact h₂ _ rfl
    · intro r heq
      obtain ⟨s', rfl, -⟩ := h.eq_cons hcolon heq
      exact h₃ _ rfl

theorem afterKey?_append_text (h : EndsInWord s) (t : List Char) :
    afterKey? (s ++ t) = (afterKey? s).map (goOn t) := by
  have hquote := h.openingQuote
  simp only [afterKey?, openingQuote_append_text h, takeWhile_isBlank_append hquote,
    dropWhile_isBlank_append hquote,
    fromSign?_append_text (hquote.dropWhile fun _ => IsWordChar.isBlank), Option.map_map]
  refine Option.map_congr fun x _ => ?_
  obtain ⟨sep, value, _ | ⟨c, rest⟩⟩ := x
  · rfl
  · rfl

/-- **The assignment that is read when the text goes on**, given the one that is
read of the text. -/
def further (t : List Char) (x : Assignment × List Char) : Assignment × List Char :=
  let (separator, value, rest) := goOn t (x.1.separator, x.1.value, x.2)
  (⟨x.1.key, separator, value⟩, rest)

/-- **What is read of a text that ends in a word character** is read of it when
it goes on, unless the text is a key. What comes must not go on with the word
itself. -/
theorem at?_append_text (h : EndsInWord s) (hkey : ¬ IsKey s) {t : List Char}
    (ht : ∀ c ∈ t.head?, ¬ IsWordChar c) : at? (s ++ t) = (at? s).map (further t) := by
  -- a key does not take the whole text, so what follows it ends as the text does
  have hrest : ∀ k y, IsKey k → s = k ++ y → EndsInWord y := by
    rintro k y hk rfl
    refine (endsInWord_append ?_ k).mp h
    rintro rfl
    rw [List.append_nil] at hkey
    exact hkey hk
  -- and a key does not reach into what comes
  have hinside : ∀ k x, IsKey k → k ++ x = s ++ t → ∃ y, s = k ++ y ∧ x = y ++ t := by
    intro k x hk hx
    rcases List.append_eq_append_iff.mp hx with ⟨y, rfl, rfl⟩ | ⟨_ | ⟨c, y⟩, rfl, rfl⟩
    · exact ⟨y, rfl, rfl⟩
    · exact ⟨[], by simp, rfl⟩
    · exact absurd (hk.isWordChar c (by simp)) (ht c rfl)
  refine Option.ext fun ⟨a, rest⟩ => ?_
  rw [at?_eq_some_iff, Option.map_eq_some_iff]
  constructor
  · rintro ⟨hk, x, hx, hv⟩
    obtain ⟨y, hy, rfl⟩ := hinside _ _ hk hx
    rw [afterKey?_append_text (hrest _ _ hk hy), Option.map_eq_some_iff] at hv
    obtain ⟨⟨sep, value, r⟩, hv, heq⟩ := hv
    refine ⟨(⟨a.key, sep, value⟩, r), at?_eq_some_iff.mpr ⟨hk, y, hy.symm, hv⟩, ?_⟩
    unfold further
    rw [heq]
  · rintro ⟨⟨b, r⟩, hb, heq⟩
    obtain ⟨hk, y, hy, hv⟩ := at?_eq_some_iff.mp hb
    have hreads := (afterKey?_append_text (hrest _ _ hk hy.symm) t).trans
      (congrArg (Option.map (goOn t)) hv)
    obtain ⟨rfl, rfl⟩ := Prod.mk.inj heq
    exact ⟨hk, y ++ t, by rw [← hy]; exact (List.append_assoc _ _ _).symm, hreads⟩

end Assignment

/-! ## Reading an assignment -/

/-- A value takes all value characters there are. -/
theorem valuePart?_rest {s mid value rest : List Char}
    (h : valuePart? s = some (mid, value, rest)) : ∀ c ∈ rest.head?, isValueChar c = false := by
  simp only [valuePart?] at h
  split at h
  · cases h
  · obtain ⟨-, h⟩ := Prod.mk.inj (Option.some.inj h)
    obtain ⟨-, rfl⟩ := Prod.mk.inj h
    intro c hc
    have hhead := List.head?_dropWhile_not isValueChar (openingQuote (s.dropWhile isBlank)).2
    rw [hc] at hhead
    exact hhead

namespace Assignment

theorem fromSign?_rest {s sep value rest : List Char}
    (h : fromSign? s = some (sep, value, rest)) : ∀ c ∈ rest.head?, isValueChar c = false := by
  have hmap : ∀ {x : List Char} {o : Option (List Char × List Char × List Char)},
      (o.map fun (mid, value, rest) => (x ++ mid, value, rest)) = some (sep, value, rest) →
        ∃ mid, o = some (mid, value, rest) := by
    intro x o ho
    obtain ⟨⟨mid, v, r⟩, rfl, heq⟩ := Option.map_eq_some_iff.mp ho
    obtain ⟨-, rfl, rfl⟩ : x ++ mid = sep ∧ v = value ∧ r = rest := by simpa using heq
    exact ⟨mid, rfl⟩
  unfold fromSign? at h
  split at h
  · split at h
    · next hv =>
      obtain ⟨-, rfl, rfl⟩ : _ = sep ∧ _ = value ∧ _ = rest := by simpa using h
      exact valuePart?_rest hv
    · obtain ⟨mid, hv⟩ := hmap (x := ['=']) h
      exact valuePart?_rest hv
  · obtain ⟨mid, hv⟩ := hmap (x := ['=']) h
    exact valuePart?_rest hv
  · obtain ⟨mid, hv⟩ := hmap (x := [':']) h
    exact valuePart?_rest hv
  · exact nomatch h

/-- **What follows an assignment** could not have been in its value. -/
theorem at?_rest {s rest : List Char} {a : Assignment} (h : at? s = some (a, rest)) :
    ∀ c ∈ rest.head?, isValueChar c = false := by
  obtain ⟨-, t, -, hv⟩ := at?_eq_some_iff.mp h
  obtain ⟨⟨sep, value, r⟩, hsign, heq⟩ := Option.map_eq_some_iff.mp hv
  obtain ⟨-, rfl, rfl⟩ : _ = a.separator ∧ value = a.value ∧ r = rest := by simpa using heq
  exact fromSign?_rest hsign

end Assignment

theorem split_of_at? {s rest : List Char} {a : Assignment} (h : Assignment.at? s = some (a, rest)) :
    split s = .secret a :: split rest := by
  cases s with
  | nil => exact absurd (Assignment.length_at? h) (Nat.not_lt_zero _)
  | cons c s =>
    rw [split]
    split
    · next h' =>
      obtain ⟨rfl, rfl⟩ := Prod.mk.inj (Option.some.inj (h.symm.trans h'))
      rfl
    · next h' => cases h.symm.trans h'

theorem split_cons_of_at? {c : Char} {s : List Char} (h : Assignment.at? (c :: s) = none) :
    split (c :: s) = .plain c :: split s := by
  rw [split]
  split
  · next h' => cases h.symm.trans h'
  · rfl

end IncidentMemory.Redaction
