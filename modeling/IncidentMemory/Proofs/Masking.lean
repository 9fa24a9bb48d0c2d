import IncidentMemory.Proofs.Assignment
import Mathlib.Data.List.Basic

/-!
# When the value of a secret is masked

A text that holds a key, a separator and a value is read from the left, and the
value is masked if the reading comes to the key. It does, unless the value of an
assignment further to the left reaches the key: no blank has to stand between
the two, as in `secret: password: hunter2`, where `password:` is what is taken
for the value of `secret`. The key is then gone, and what follows it is read as
ordinary text.

Even so nothing is lost if the separator has no blank, because the value to the
left then takes up the separator and the secret value as well. So there is one
way in which a secret value can be seen in a masked text, and `redact_eq_iff`
says that it is the only one.
-/

namespace IncidentMemory.Redaction

open IncidentMemory.Text (isBlank lowerAscii)

/-! ## Keys, separators and values -/

/-- **A secret key**, in any case. -/
def IsKeyName (k : String) : Prop :=
  ∃ name ∈ secretKeys, Text.eqIgnoringCase k name = true

/-- The signs between a key and its value. -/
def signs : List (List Char) :=
  [['='], [':'], ['=', '>']]

/-- **A separator**: a sign, possibly with blanks before and after it. -/
def IsSeparator (s : String) : Prop :=
  ∃ before after : List Char, ∃ sign ∈ signs, s.toList = before ++ sign ++ after
    ∧ (∀ c ∈ before, isBlank c = true) ∧ ∀ c ∈ after, isBlank c = true

/-- **A plain value**: letters and digits, at least one. -/
def IsPlainValue (v : String) : Prop :=
  v.toList ≠ [] ∧ ∀ c ∈ v.toList, c.isAlphanum = true

/-- A text that is empty or starts with a blank. -/
def StartsBlank (s : List Char) : Prop :=
  ∀ c ∈ s.head?, isBlank c = true

/-- A separator without blanks. -/
def IsTight (s : String) : Prop :=
  ∀ c ∈ s.toList, isBlank c = false

/-- **Whether a text ends in the value of an assignment.** -/
def endsInValue (s : String) : Bool :=
  (split s.toList).getLast?.any Piece.isSecret

theorem IsKeyName.isKey {k : String} (h : IsKeyName k) : IsKey k.toList := by
  obtain ⟨name, hname, hk⟩ := h
  have hletters := isKeyLetter_of_mem hname
  have hlower : k.toList.map lowerAscii = name.toList := by
    rw [eq_of_beq hk]
    exact (List.map_congr_left fun l hl => lowerAscii_of_isKeyLetter (hletters l hl)).trans
      (List.map_id _)
  refine ⟨name, hname, ?_⟩
  rw [← hlower]
  refine List.map_congr_left fun c hc => ?_
  -- neither of the two special forms has a key letter as its lower case
  have hc := hletters _ (hlower ▸ List.mem_map_of_mem hc)
  unfold letterOf
  rw [if_neg, if_neg]
  · rintro rfl
    revert hc
    decide
  · rintro rfl
    revert hc
    decide

theorem not_isWordChar_of_isBlank {c : Char} (h : isBlank c = true) : ¬ IsWordChar c :=
  fun hword => Bool.false_ne_true (hword.isBlank.symm.trans h)

theorem IsSeparator.not_isWordChar {s : String} (h : IsSeparator s) :
    ∀ c ∈ s.toList, ¬ IsWordChar c := by
  obtain ⟨before, after, sign, hsign, hs, hbefore, hafter⟩ := h
  intro c hc
  rw [hs, List.mem_append, List.mem_append] at hc
  rcases hc with (hc | hc) | hc
  · exact not_isWordChar_of_isBlank (hbefore c hc)
  · have hsigns : ∀ c ∈ signs.flatten, ¬ IsWordChar c := List.all_iff_forall_prop.mp (by decide)
    exact hsigns c (List.mem_flatten.mpr ⟨sign, hsign, hc⟩)
  · exact not_isWordChar_of_isBlank (hafter c hc)

theorem IsPlainValue.isWordChar {v : String} (h : IsPlainValue v) : ∀ c ∈ v.toList, IsWordChar c :=
  fun c hc => isWordChar_of_isAlphanum (h.2 c hc)

/-! ## What is read after a key -/

theorem StartsBlank.not_isValueChar {q : List Char} (h : StartsBlank q) :
    ∀ c ∈ q.head?, isValueChar c = false := by
  intro c hc
  unfold isValueChar
  rw [h c hc]
  rfl

theorem StartsBlank.not_isWordChar {q : List Char} (h : StartsBlank q) :
    ∀ c ∈ q.head?, ¬ IsWordChar c :=
  fun c hc => not_isWordChar_of_isBlank (h c hc)

/-- What a class of characters takes ends where a character outside it stands. -/
theorem takeWhile_append_of_head {p : Char → Bool} {s r : List Char} (hs : ∀ c ∈ s, p c = true)
    (hr : ∀ c ∈ r.head?, p c = false) : (s ++ r).takeWhile p = s ∧ (s ++ r).dropWhile p = r := by
  rw [List.takeWhile_append_of_pos hs, List.dropWhile_append_of_pos hs]
  cases r with
  | nil => simp
  | cons c r =>
    have hc := hr c rfl
    simp [hc]

/-- Where there is no quote, none is taken. -/
theorem openingQuote_of_head {s : List Char} (h : ∀ c ∈ s.head?, c ∉ ['\\', '"', '\'']) :
    openingQuote s = ([], s) := by
  refine openingQuote.eq_5 _ ?_ ?_ ?_ ?_
  · rintro r rfl
    exact h _ rfl (by decide)
  · rintro r rfl
    exact h _ rfl (by decide)
  · rintro r rfl
    exact h _ rfl (by decide)
  · rintro r rfl
    exact h _ rfl (by decide)

theorem isBlank_not_mem_quotes {c : Char} (h : isBlank c = true) : c ∉ ['\\', '"', '\''] := by
  intro hc
  have hquotes : ∀ d ∈ ['\\', '"', '\''], isBlank d = false :=
    List.all_iff_forall_prop.mp (by decide)
  exact Bool.false_ne_true ((hquotes c hc).symm.trans h)

theorem IsWordChar.not_mem_quotes {c : Char} (h : IsWordChar c) : c ∉ ['\\', '"', '\''] :=
  fun hc => not_isWordChar_of_mem c (List.mem_append_left ['=', ':', '>'] hc) h

/-- **Blanks and a word** are read as a value, which is the word. -/
theorem valuePart?_word {gap v q : List Char} (hgap : ∀ c ∈ gap, isBlank c = true) (hv : v ≠ [])
    (hword : ∀ c ∈ v, IsWordChar c) (hq : ∀ c ∈ q.head?, isValueChar c = false) :
    valuePart? (gap ++ (v ++ q)) = some (gap, v, q) := by
  have hhead : ∀ c ∈ (v ++ q).head?, IsWordChar c := by
    rw [List.head?_append_of_ne_nil _ hv]
    exact fun c hc => hword c (List.mem_of_mem_head? hc)
  obtain ⟨htake, hdrop⟩ := takeWhile_append_of_head hgap fun c hc => (hhead c hc).isBlank
  obtain ⟨hvalue, hrest⟩ := takeWhile_append_of_head (fun c hc => (hword c hc).1) hq
  unfold valuePart?
  simp only [htake, hdrop, openingQuote_of_head fun c hc => (hhead c hc).not_mem_quotes, hvalue,
    hrest]
  rw [if_neg (by simpa using hv), List.append_nil]

/-- **A sign, blanks and a word** are read as a separator and a value. -/
theorem Assignment.fromSign?_word {sign gap v q : List Char} (hsign : sign ∈ signs)
    (hgap : ∀ c ∈ gap, isBlank c = true) (hv : v ≠ []) (hword : ∀ c ∈ v, IsWordChar c)
    (hq : ∀ c ∈ q.head?, isValueChar c = false) :
    fromSign? (sign ++ (gap ++ (v ++ q))) = some (sign ++ gap, v, q) := by
  have hvalue := valuePart?_word hgap hv hword hq
  simp only [signs, List.mem_cons, List.not_mem_nil, or_false] at hsign
  rcases hsign with rfl | rfl | rfl
  · -- what follows the sign is not the second character of the long one
    rw [List.singleton_append, fromSign?, hvalue]
    · rfl
    · intro r heq
      cases gap with
      | nil =>
        obtain ⟨c, v', rfl⟩ := List.exists_cons_of_ne_nil hv
        obtain ⟨rfl, -⟩ := List.cons.inj heq
        exact absurd (hword '>' List.mem_cons_self) (by decide)
      | cons c gap =>
        obtain ⟨rfl, -⟩ := List.cons.inj heq
        exact absurd (hgap '>' List.mem_cons_self) (by decide)
  · rw [List.singleton_append, fromSign?, hvalue]
    rfl
  · rw [List.cons_append, List.singleton_append, fromSign?, hvalue]
    rfl

/-- **A separator and a plain value** are read as what they are. -/
theorem afterKey?_plain {s v : String} (hs : IsSeparator s) (hv : IsPlainValue v)
    {q : List Char} (hq : StartsBlank q) :
    Assignment.afterKey? (s.toList ++ (v.toList ++ q)) = some (s.toList, v.toList, q) := by
  obtain ⟨before, after, sign, hsign, hs, hbefore, hafter⟩ := hs
  have hfirst : ∀ t, ∀ c ∈ (sign ++ t).head?, isBlank c = false ∧ c ∉ ['\\', '"', '\''] := by
    intro t c hc
    simp only [signs, List.mem_cons, List.not_mem_nil, or_false] at hsign
    rcases hsign with rfl | rfl | rfl <;> obtain rfl := Option.some.inj hc <;> decide
  have hquote : ∀ t, openingQuote (before ++ (sign ++ t)) = ([], before ++ (sign ++ t)) := by
    refine fun t => openingQuote_of_head fun c hc => ?_
    cases before with
    | nil => exact (hfirst t c hc).2
    | cons b before =>
      obtain rfl := Option.some.inj hc
      exact isBlank_not_mem_quotes (hbefore b List.mem_cons_self)
  obtain ⟨htake, hdrop⟩ := takeWhile_append_of_head hbefore fun c hc =>
    (hfirst (after ++ (v.toList ++ q)) c hc).1
  rw [hs]
  unfold Assignment.afterKey?
  simp only [List.append_assoc, hquote, htake, hdrop,
    Assignment.fromSign?_word hsign hafter hv.1 hv.isWordChar hq.not_isValueChar]
  rfl

/-! ## Reading up to a key -/

/-- A separator is not empty. -/
theorem Assignment.afterKey?_ne_nil {t sep value rest : List Char}
    (h : afterKey? t = some (sep, value, rest)) : sep ≠ [] := by
  obtain ⟨⟨x, v, r⟩, hx, heq⟩ := Option.map_eq_some_iff.mp h
  obtain ⟨rfl, -⟩ := Prod.mk.inj heq
  have hne : x ≠ [] := by
    rintro rfl
    unfold fromSign? at hx
    split at hx
    · split at hx
      · simp at hx
      · simp at hx
    · simp at hx
    · simp at hx
    · exact nomatch hx
  exact List.append_ne_nil_of_right_ne_nil _ hne

/-- No separator starts with a word character. -/
theorem Assignment.afterKey?_of_isWordChar {c : Char} (hc : IsWordChar c) (t : List Char) :
    afterKey? (c :: t) = none := by
  have hquote : openingQuote (c :: t) = ([], c :: t) := by
    refine openingQuote_of_head fun d hd => ?_
    obtain rfl := Option.some.inj hd
    exact hc.not_mem_quotes
  unfold afterKey?
  simp only [hquote, List.dropWhile_cons, hc.isBlank, Bool.false_eq_true, if_false,
    Option.map_eq_none_iff]
  unfold fromSign?
  split
  · next heq => exact absurd (List.cons.inj heq).1 hc.2.1
  · next heq => exact absurd (List.cons.inj heq).1 hc.2.1
  · next heq => exact absurd (List.cons.inj heq).1 hc.2.2.1
  · rfl

/-- No assignment starts with a character that is no word character. -/
theorem Assignment.at?_of_not_isWordChar {c : Char} (hc : ¬ IsWordChar c) (t : List Char) :
    at? (c :: t) = none := by
  refine Option.eq_none_iff_forall_ne_some.mpr fun ⟨a, rest⟩ h => ?_
  obtain ⟨hk, x, hx, -⟩ := at?_eq_some_iff.mp h
  obtain ⟨d, k, hd⟩ := List.exists_cons_of_ne_nil hk.ne_nil
  rw [hd] at hx
  obtain ⟨rfl, -⟩ := List.cons.inj hx
  exact hc (hk.isWordChar d (hd ▸ List.mem_cons_self))

/-- Texts that do not go on with a word. -/
def StartsApart (t : List Char) : Prop :=
  ∀ c ∈ t.head?, ¬ IsWordChar c

/-- However `s` goes on, the reading comes to `key` and what comes. -/
def ComesTo (s key : List Char) : Prop :=
  ∃ ps, ∀ t, StartsApart t → split (s ++ t) = ps ++ split (key ++ t)

/-- However `s` goes on, its end and the beginning of what comes are in the
value of `a`. -/
def EndsInside (s : List Char) (a : Assignment) : Prop :=
  ∃ ps, ∀ t, StartsApart t → split (s ++ t)
    = ps ++ .secret ⟨a.key, a.separator, a.value ++ t.takeWhile isValueChar⟩
      :: split (t.dropWhile isValueChar)

theorem ComesTo.cons {s s' key : List Char} {piece : Piece} (h : ComesTo s' key)
    (hfirst : ∀ t, StartsApart t → split (s ++ t) = piece :: split (s' ++ t)) :
    ComesTo s key := by
  obtain ⟨ps, hps⟩ := h
  exact ⟨piece :: ps, fun t ht => by rw [hfirst t ht, hps t ht, List.cons_append]⟩

theorem EndsInside.cons {s s' : List Char} {a : Assignment} {piece : Piece}
    (h : EndsInside s' a)
    (hfirst : ∀ t, StartsApart t → split (s ++ t) = piece :: split (s' ++ t)) :
    EndsInside s a := by
  obtain ⟨ps, hps⟩ := h
  exact ⟨piece :: ps, fun t ht => by rw [hfirst t ht, hps t ht, List.cons_append]⟩

/-- **Reading a text that ends in a key.** The reading comes to a key at the
end, or it takes the end into the value of an assignment further to the left. -/
theorem comesTo_or_endsInside (p : List Char) {k : List Char} (hk : IsKey k) :
    (∃ key, IsKey key ∧ ComesTo (p ++ k) key) ∨ ∃ a, EndsInside (p ++ k) a := by
  induction hn : p.length using Nat.strongRecOn generalizing p with
  | ind n ih =>
    -- what is read first is put in front of what is read of the rest
    have hstep : ∀ piece p', p'.length < n →
        (∀ t, StartsApart t → split (p ++ k ++ t) = piece :: split (p' ++ k ++ t)) →
          (∃ key, IsKey key ∧ ComesTo (p ++ k) key) ∨ ∃ a, EndsInside (p ++ k) a := by
      intro piece p' hp' hfirst
      rcases ih p'.length hp' p' rfl with ⟨key, hkey, hcomes⟩ | ⟨a, hends⟩
      · exact Or.inl ⟨key, hkey, hcomes.cons hfirst⟩
      · exact Or.inr ⟨a, hends.cons hfirst⟩
    by_cases hwhole : IsKey (p ++ k)
    · exact Or.inl ⟨p ++ k, hwhole, [], fun t _ => rfl⟩
    · have hat : ∀ t, StartsApart t → _ := fun t ht =>
        Assignment.at?_append_text (hk.endsInWord p) hwhole ht
      rcases hread : Assignment.at? (p ++ k) with _ | ⟨a, _ | ⟨d, rest⟩⟩
      · -- nothing starts here
        cases p with
        | nil => exact absurd hk hwhole
        | cons c p =>
          refine hstep (.plain c) p (hn ▸ Nat.lt_succ_self _) fun t ht => ?_
          have hnone := hat t ht
          rw [hread, Option.map_none] at hnone
          exact split_cons_of_at? hnone
      · -- the value reaches the end
        refine Or.inr ⟨a, [], fun t ht => ?_⟩
        refine split_of_at? ?_
        rw [hat t ht, hread]
        rfl
      · -- what ends the value stands before the key, as no key has such a character
        have hd := Assignment.at?_rest hread d rfl
        obtain ⟨hrender, hne⟩ := Assignment.at?_append hread
        obtain ⟨x, rfl, hx⟩ : ∃ x, p = a.render ++ x ∧ d :: rest = x ++ k := by
          rcases List.append_eq_append_iff.mp hrender with ⟨x, rfl, hx⟩ | ⟨x, -, hx⟩
          · exact ⟨x, rfl, hx⟩
          · have hmem : d ∈ k := hx ▸ List.mem_append_right x List.mem_cons_self
            exact absurd (hk.isWordChar d hmem).1 (by rw [hd]; exact Bool.false_ne_true)
        have hpos : a.render ≠ [] := List.append_ne_nil_of_right_ne_nil _ hne
        refine hstep (.secret a) x ?_ fun t ht => ?_
        · rw [← hn, List.length_append]
          have := List.length_pos_iff.mpr hpos
          omega
        · rw [← hx]
          refine split_of_at? ?_
          rw [hat t ht, hread]
          rfl

/-- A text of word characters has no assignment. -/
theorem split_of_isWordChar {s : List Char} (hs : ∀ c ∈ s, IsWordChar c) :
    split s = s.map .plain := by
  induction s with
  | nil => rw [split]; rfl
  | cons c s ih =>
    rw [split_cons_of_at?, ih fun d hd => hs d (List.mem_cons_of_mem c hd), List.map_cons]
    refine Option.eq_none_iff_forall_ne_some.mpr fun found h => ?_
    obtain ⟨a, rest⟩ := found
    obtain ⟨-, x, hx, hv⟩ := Assignment.at?_eq_some_iff.mp h
    cases x with
    | nil =>
      exact absurd (Assignment.afterKey?_append hv).1 (by simp [Assignment.afterKey?_ne_nil hv])
    | cons d x =>
      have hd : IsWordChar d := hs d (hx ▸ List.mem_append_right _ List.mem_cons_self)
      cases (Assignment.afterKey?_of_isWordChar hd x).symm.trans hv

/-! ## What is left of a value that is not masked -/

theorem redactChars_cons {c : Char} {s : List Char} (h : Assignment.at? (c :: s) = none) :
    redactChars (c :: s) = c :: redactChars s := by
  unfold redactChars
  rw [split_cons_of_at? h]
  rfl

theorem redactChars_of_at? {s rest : List Char} {a : Assignment}
    (h : Assignment.at? s = some (a, rest)) : redactChars s = a.masked ++ redactChars rest := by
  unfold redactChars
  rw [split_of_at? h]
  rfl

/-- Characters that are no word characters stay. -/
theorem redactChars_append {s : List Char} (hs : ∀ c ∈ s, ¬ IsWordChar c) (t : List Char) :
    redactChars (s ++ t) = s ++ redactChars t := by
  induction s with
  | nil => rfl
  | cons c s ih =>
    rw [List.cons_append, redactChars_cons, ih fun d hd => hs d (List.mem_cons_of_mem c hd)]
    · rfl
    · exact Assignment.at?_of_not_isWordChar (hs c List.mem_cons_self) _

theorem StartsBlank.redactChars {q : List Char} (h : StartsBlank q) :
    StartsBlank (redactChars q) := by
  cases q with
  | nil =>
    unfold Redaction.redactChars
    rw [split]
    exact h
  | cons c q =>
    have hc := not_isWordChar_of_isBlank (h c rfl)
    rw [redactChars_cons (Assignment.at?_of_not_isWordChar hc q)]
    exact h

/-- **A word before a blank stays.** It may end in a key, whose value is then
masked. -/
theorem redactChars_word {v q : List Char} (hv : ∀ c ∈ v, IsWordChar c) (hq : StartsBlank q) :
    ∃ r, redactChars (v ++ q) = v ++ r ∧ StartsBlank r := by
  induction v with
  | nil => exact ⟨redactChars q, rfl, hq.redactChars⟩
  | cons c v ih =>
    rcases hread : Assignment.at? (c :: (v ++ q)) with _ | ⟨a, rest⟩
    · obtain ⟨r, hr, hblank⟩ := ih fun d hd => hv d (List.mem_cons_of_mem c hd)
      exact ⟨r, by rw [List.cons_append, redactChars_cons hread, hr]; rfl, hblank⟩
    · obtain ⟨hk, t, ht, hsep⟩ := Assignment.at?_eq_some_iff.mp hread
      -- the key is the whole word: no separator starts inside it, and no key has a blank
      have hwhole : a.key = c :: v ∧ t = q := by
        rcases List.append_eq_append_iff.mp (show a.key ++ t = (c :: v) ++ q from ht) with
          ⟨_ | ⟨d, x⟩, hx, rfl⟩ | ⟨_ | ⟨d, x⟩, hx, hq'⟩
        · exact ⟨by simpa using hx.symm, rfl⟩
        · have hd := hv d (hx ▸ List.mem_append_right _ List.mem_cons_self)
          exact nomatch (Assignment.afterKey?_of_isWordChar hd _).symm.trans hsep
        · exact ⟨by simpa using hx, hq'.symm⟩
        · have hd := hk.isWordChar d (hx ▸ List.mem_append_right _ List.mem_cons_self)
          exact absurd hd (hq.not_isWordChar d (hq' ▸ rfl))
      obtain ⟨hkey, rfl⟩ := hwhole
      obtain ⟨b, sep, hb⟩ := List.exists_cons_of_ne_nil (Assignment.afterKey?_ne_nil hsep)
      refine ⟨a.separator ++ marker.toList ++ redactChars rest, ?_, ?_⟩
      · rw [List.cons_append, redactChars_of_at? hread]
        unfold Assignment.masked
        simp only [hkey, List.append_assoc]
      · rw [hb]
        intro d hd
        obtain rfl := Option.some.inj hd
        refine hq b ?_
        rw [← (Assignment.afterKey?_append hsep).1, hb]
        rfl

/-- Different words stay different. -/
theorem redactChars_word_inj {v w q : List Char} (hv : ∀ c ∈ v, IsWordChar c)
    (hw : ∀ c ∈ w, IsWordChar c) (hq : StartsBlank q)
    (h : redactChars (v ++ q) = redactChars (w ++ q)) : v = w := by
  obtain ⟨r, hr, hrblank⟩ := redactChars_word hv hq
  obtain ⟨r', hr', hrblank'⟩ := redactChars_word hw hq
  have htake := (takeWhile_append_of_head (fun c hc => (hv c hc).1) hrblank.not_isValueChar).1
  have htake' := (takeWhile_append_of_head (fun c hc => (hw c hc).1) hrblank'.not_isValueChar).1
  rw [← htake, ← htake', ← hr, ← hr', h]

/-! ## The two ways to read a secret value -/

/-- Of the characters of a separator only the blanks end a value. -/
theorem IsSeparator.dropWhile_eq_nil_iff {s : String} (h : IsSeparator s) :
    s.toList.dropWhile isValueChar = [] ↔ IsTight s := by
  obtain ⟨before, after, sign, hsign, hs, hbefore, hafter⟩ := h
  have hblank : ∀ c, isBlank c = true → isValueChar c = false := by
    intro c hc
    unfold isValueChar
    rw [hc]
    rfl
  have hchar : ∀ c ∈ s.toList, isValueChar c = true ↔ isBlank c = false := by
    intro c hc
    rw [hs, List.mem_append, List.mem_append] at hc
    rcases hc with (hc | hc) | hc
    · rw [hblank c (hbefore c hc), hbefore c hc]
      decide
    · have hsigns : ∀ c ∈ signs.flatten, isValueChar c = true ↔ isBlank c = false :=
        List.all_iff_forall_prop.mp (by decide)
      exact hsigns c (List.mem_flatten.mpr ⟨sign, hsign, hc⟩)
    · rw [hblank c (hafter c hc), hafter c hc]
      decide
  rw [List.dropWhile_eq_nil_iff]
  exact forall₂_congr hchar

theorem ComesTo.redactChars {s key : List Char} (h : ComesTo s key) :
    ∃ x, ∀ t, StartsApart t →
      Redaction.redactChars (s ++ t) = x ++ Redaction.redactChars (key ++ t) := by
  obtain ⟨ps, hps⟩ := h
  refine ⟨ps.flatMap Piece.masked, fun t ht => ?_⟩
  unfold Redaction.redactChars
  rw [hps t ht, List.flatMap_append]

theorem EndsInside.redactChars {s : List Char} {a : Assignment} (h : EndsInside s a) :
    ∃ x, ∀ t, StartsApart t →
      Redaction.redactChars (s ++ t) = x ++ Redaction.redactChars (t.dropWhile isValueChar) := by
  obtain ⟨ps, hps⟩ := h
  refine ⟨ps.flatMap Piece.masked ++ a.masked, fun t ht => ?_⟩
  unfold Redaction.redactChars
  rw [hps t ht, List.flatMap_append, List.flatMap_cons, List.append_assoc]
  rfl

theorem ComesTo.endsInValue {s : String} {key : List Char} (h : ComesTo s.toList key)
    (hkey : IsKey key) : endsInValue s = false := by
  obtain ⟨ps, hps⟩ := h
  have hsplit := hps [] nofun
  rw [List.append_nil, List.append_nil, split_of_isWordChar hkey.isWordChar] at hsplit
  unfold Redaction.endsInValue
  rw [hsplit, List.getLast?_append_of_ne_nil _ (by simpa using hkey.ne_nil), List.getLast?_map]
  cases key.getLast? <;> rfl

theorem EndsInside.endsInValue {s : String} {a : Assignment} (h : EndsInside s.toList a) :
    endsInValue s = true := by
  obtain ⟨ps, hps⟩ := h
  have hsplit := hps [] nofun
  rw [List.append_nil, List.dropWhile_nil, split] at hsplit
  unfold Redaction.endsInValue
  rw [hsplit, List.getLast?_append_of_ne_nil _ (List.cons_ne_nil _ _)]
  rfl

variable {k s v w : String}

theorem IsSeparator.startsApart (h : IsSeparator s) (t : List Char) :
    StartsApart (s.toList ++ t) := by
  intro c hc
  refine h.not_isWordChar c ?_
  obtain ⟨before, after, sign, hsign, hs, -, -⟩ := h
  have hne : s.toList ≠ [] := by
    rw [hs]
    refine List.append_ne_nil_of_left_ne_nil (List.append_ne_nil_of_right_ne_nil _ ?_) _
    exact (by decide : ∀ sign ∈ signs, sign ≠ []) sign hsign
  rw [List.head?_append_of_ne_nil _ hne] at hc
  exact List.mem_of_mem_head? hc

/-- **What is left of a value whose key was read as a key**: nothing. -/
theorem redactChars_key {key : List Char} (hkey : IsKey key) (hs : IsSeparator s)
    (hv : IsPlainValue v) {q : List Char} (hq : StartsBlank q) :
    redactChars (key ++ (s.toList ++ (v.toList ++ q)))
      = key ++ s.toList ++ marker.toList ++ redactChars q := by
  have hat : Assignment.at? (key ++ (s.toList ++ (v.toList ++ q)))
      = some (⟨key, s.toList, v.toList⟩, q) :=
    Assignment.at?_eq_some_iff.mpr ⟨hkey, _, rfl, afterKey?_plain hs hv hq⟩
  rw [redactChars_of_at? hat]
  rfl

/-- **What is left of a value whose key was read as part of a value** is told
apart from what is left of another one, unless the separator has no blank. -/
theorem redactChars_dropWhile_eq_iff (hs : IsSeparator s) (hv : IsPlainValue v)
    (hw : IsPlainValue w) {q : List Char} (hq : StartsBlank q) :
    redactChars ((s.toList ++ (v.toList ++ q)).dropWhile isValueChar)
        = redactChars ((s.toList ++ (w.toList ++ q)).dropWhile isValueChar)
      ↔ v = w ∨ IsTight s := by
  by_cases htight : IsTight s
  · -- the separator and the value go on with the value to the left
    have hdrop : ∀ u : String, IsPlainValue u →
        (s.toList ++ (u.toList ++ q)).dropWhile isValueChar = q := by
      intro u hu
      rw [List.dropWhile_append, hs.dropWhile_eq_nil_iff.mpr htight, if_pos List.isEmpty_nil]
      exact (takeWhile_append_of_head (fun c hc => (hu.isWordChar c hc).1) hq.not_isValueChar).2
    rw [hdrop v hv, hdrop w hw]
    exact iff_of_true rfl (Or.inr htight)
  · have hne : ¬ (s.toList.dropWhile isValueChar).isEmpty = true := fun h =>
      htight (hs.dropWhile_eq_nil_iff.mp (List.isEmpty_iff.mp h))
    rw [List.dropWhile_append, if_neg hne, List.dropWhile_append, if_neg hne]
    -- from its first blank on the separator is left as it was, and so is the value
    have hrest : ∀ c ∈ s.toList.dropWhile isValueChar, ¬ IsWordChar c := fun c hc =>
      hs.not_isWordChar c (List.dropWhile_subset _ hc)
    rw [redactChars_append hrest, redactChars_append hrest, List.append_cancel_left_eq]
    constructor
    · intro h
      exact Or.inl (String.toList_inj.mp (redactChars_word_inj hv.isWordChar hw.isWordChar hq h))
    · rintro (rfl | h)
      · rfl
      · exact absurd h htight

/-- **Whether a secret value can be seen in the masked text.** Two texts that
differ in the plain value after a key are masked alike in exactly two cases: the
text up to the key does not end in the value of an assignment further to the
left, or the separator has no blank. -/
theorem redact_eq_iff (p : String) {q : String} (hk : IsKeyName k) (hs : IsSeparator s)
    (hv : IsPlainValue v) (hw : IsPlainValue w) (hq : StartsBlank q.toList) :
    redact (p ++ k ++ s ++ v ++ q) = redact (p ++ k ++ s ++ w ++ q)
      ↔ v = w ∨ endsInValue (p ++ k) = false ∨ IsTight s := by
  have hparts : ∀ u : String, (p ++ k ++ s ++ u ++ q).toList
      = (p ++ k).toList ++ (s.toList ++ (u.toList ++ q.toList)) := by
    intro u
    simp only [String.toList_append, List.append_assoc]
  unfold redact
  rw [String.ofList_inj, hparts v, hparts w]
  have hread := comesTo_or_endsInside p.toList hk.isKey
  rw [← String.toList_append] at hread
  rcases hread with ⟨key, hkey, hcomes⟩ | ⟨a, hends⟩
  · obtain ⟨x, hx⟩ := hcomes.redactChars
    rw [hx _ (hs.startsApart _), hx _ (hs.startsApart _), redactChars_key hkey hs hv hq,
      redactChars_key hkey hs hw hq, hcomes.endsInValue hkey]
    simp
  · obtain ⟨x, hx⟩ := hends.redactChars
    rw [hx _ (hs.startsApart _), hx _ (hs.startsApart _), List.append_cancel_left_eq,
      redactChars_dropWhile_eq_iff hs hv hw hq, hends.endsInValue]
    simp

/-- After another assignment that is over, nothing of the value is seen. -/
theorem redact_eq_iff_afterAnotherSecret :
    (IsKeyName "Password" ∧ IsSeparator " => " ∧ IsPlainValue "hunter2" ∧ IsPlainValue "s3same"
        ∧ StartsBlank " now".toList ∧ endsInValue ("token: a1, " ++ "Password") = false)
      ∧ redact ("token: a1, " ++ "Password" ++ " => " ++ "hunter2" ++ " now")
        = redact ("token: a1, " ++ "Password" ++ " => " ++ "s3same" ++ " now") := by
  have hk : IsKeyName "Password" := ⟨"password", by decide, by decide⟩
  have hblank : ∀ c ∈ [' '], isBlank c = true := List.all_iff_forall_prop.mp (by decide)
  have hs : IsSeparator " => " :=
    ⟨[' '], [' '], ['=', '>'], by decide, by decide, hblank, hblank⟩
  have hv : IsPlainValue "hunter2" := ⟨by decide, List.all_iff_forall_prop.mp (by decide)⟩
  have hw : IsPlainValue "s3same" := ⟨by decide, List.all_iff_forall_prop.mp (by decide)⟩
  have hq : StartsBlank " now".toList := by
    intro c hc
    obtain rfl := Option.some.inj hc
    decide
  have hend : endsInValue ("token: a1, " ++ "Password") = false := by decide +kernel
  exact ⟨⟨hk, hs, hv, hw, hq, hend⟩,
    (redact_eq_iff "token: a1, " hk hs hv hw hq).mpr (Or.inr (Or.inl hend))⟩

/-- **A key that is taken for the value of another one leaves its own value in
the text.** -/
theorem redact_keyTakenForValue :
    (IsKeyName "password" ∧ IsSeparator ": " ∧ IsPlainValue "hunter2" ∧ IsPlainValue "s3same"
        ∧ StartsBlank "".toList)
      ∧ redact ("failed to read secret: " ++ "password" ++ ": " ++ "hunter2" ++ "")
        = "failed to read secret: [REDACTED] hunter2"
      ∧ redact ("failed to read secret: " ++ "password" ++ ": " ++ "hunter2" ++ "")
        ≠ redact ("failed to read secret: " ++ "password" ++ ": " ++ "s3same" ++ "") := by
  have hk : IsKeyName "password" := ⟨"password", by decide, by decide⟩
  have hblank : ∀ c ∈ [' '], isBlank c = true := List.all_iff_forall_prop.mp (by decide)
  have hs : IsSeparator ": " := ⟨[], [' '], [':'], by decide, by decide, nofun, hblank⟩
  have hv : IsPlainValue "hunter2" := ⟨by decide, List.all_iff_forall_prop.mp (by decide)⟩
  have hw : IsPlainValue "s3same" := ⟨by decide, List.all_iff_forall_prop.mp (by decide)⟩
  have hq : StartsBlank "".toList := nofun
  exact ⟨⟨hk, hs, hv, hw, hq⟩, by decide +kernel, by decide +kernel⟩

end IncidentMemory.Redaction
