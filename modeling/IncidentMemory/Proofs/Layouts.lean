import IncidentMemory.Proofs.EscapedReading
import IncidentMemory.Proofs.Maskings

/-!
# Masking a text and masking what it is written as

A message goes into the log as it is, or as a string of a JSON object, and what is
masked is the line. Is the same masked in both? A written text holds a separator
and a value only where there is nothing to escape in them, save for quotation
marks: a tab between the sign and the value is no blank any more, but a reverse
solidus and a letter. And it may hold a key that is not in the text, as the letter
of an escape may be the first one of a key.

`redact_encoded_iff` says that these are the only two differences. Masking the text
and masking what it is written as come to the same exactly if the assignments of
the text have nothing to escape behind their keys, and no escape completes a key.
-/

namespace IncidentMemory.Redaction

open IncidentMemory.Text (isBlank)
open IncidentMemory.Json (escape escapeChar)

/-! ## The two readings -/

/-- **What is found in a text as it is.** -/
def AsText : Finds := fun x before value rest =>
  ∃ key sep t, x = key ++ t ∧ IsKey key ∧ Assignment.afterKey? t = some (sep, value, rest)
    ∧ before = key ++ sep

/-- The characters that are written with the first letter of a key at the end, and
what is missing of the key. -/
def joins : List (Char × String) :=
  [('\t', "oken"), ('\x1a', "pi_key"), ('\x1c', "onnection_string")]

/-- What makes a key of the last letter that a character is written with. -/
def Joins (c : Char) (k : List Char) : Prop :=
  ∃ ending, (c, ending) ∈ joins ∧ k.map letterOf = ending.toList

/-- **What is found in a text once it is written.** -/
def AsWritten : Finds := fun x before value rest =>
  ∃ front sep t, x = front ++ t ∧ (IsKey front ∨ ∃ c k, front = c :: k ∧ Joins c k)
    ∧ Reading.throughEscapes.afterKey? t = some (sep, value, rest) ∧ before = front ++ sep

theorem asText_iff {x before value rest : List Char} :
    AsText x before value rest
      ↔ ∃ a, Assignment.at? x = some (a, rest) ∧ before = a.key ++ a.separator ∧ value = a.value := by
  constructor
  · rintro ⟨key, sep, t, rfl, hkey, hread, rfl⟩
    exact ⟨⟨key, sep, value⟩, Assignment.at?_eq_some_iff.mpr ⟨hkey, t, rfl, hread⟩, rfl, rfl⟩
  · rintro ⟨a, ha, rfl, rfl⟩
    obtain ⟨hkey, t, rfl, hread⟩ := Assignment.at?_eq_some_iff.mp ha
    exact ⟨a.key, a.separator, t, rfl, hkey, hread, rfl⟩

/-! ### Where no key starts -/

/-- Letters that no key starts with, neither the whole key nor a part of it. -/
def NoKey (w : List Char) : Prop :=
  ∀ name ∈ secretKeys, ¬ name.toList <+: w ∧ ¬ w <+: name.toList

instance (w : List Char) : Decidable (NoKey w) :=
  inferInstanceAs (Decidable (∀ _ ∈ _, _))

/-- **A text that starts with no key, nor with the beginning of one,** has no
assignment at its beginning. -/
theorem at?_of_noKey {w : List Char} (hw : NoKey (w.map letterOf)) (x : List Char) :
    Assignment.at? (w ++ x) = none := by
  refine Option.eq_none_iff_forall_ne_some.mpr fun ⟨a, rest⟩ h => ?_
  obtain ⟨⟨name, hname, hk⟩, t, ht, -⟩ := Assignment.at?_eq_some_iff.mp h
  rcases List.append_eq_append_iff.mp ht with ⟨y, rfl, -⟩ | ⟨y, hy, -⟩
  · exact (hw name hname).1 ⟨y.map letterOf, by rw [← hk, List.map_append]⟩
  · exact (hw name hname).2 ⟨y.map letterOf, by rw [← hk, hy, List.map_append]⟩

/-- Characters that no key starts with stay. -/
theorem redactChars_append_of_noKey {w : List Char} (hw : ∀ c ∈ w, NoKey [letterOf c])
    (x : List Char) : redactChars (w ++ x) = w ++ redactChars x := by
  induction w with
  | nil => rfl
  | cons c w ih =>
    have hnone := at?_of_noKey (w := [c]) (hw c List.mem_cons_self) (w ++ x)
    rw [List.singleton_append] at hnone
    rw [List.cons_append, redactChars_cons hnone, ih fun d hd => hw d (List.mem_cons_of_mem c hd)]
    rfl

/-- What stands before a key stays, if no key starts in it. -/
theorem redactChars_append_of_noKey_drop {w k : List Char}
    (h : ∀ n < w.length, NoKey (((w ++ k).map letterOf).drop n)) (x : List Char) :
    redactChars (w ++ (k ++ x)) = w ++ redactChars (k ++ x) := by
  induction w with
  | nil => rfl
  | cons c w ih =>
    have hnone := at?_of_noKey (h 0 (Nat.succ_pos _)) x
    rw [List.append_assoc, List.cons_append] at hnone
    rw [List.cons_append, redactChars_cons hnone, ih fun n hn => h (n + 1) (Nat.succ_lt_succ hn)]
    rfl

/-- **A key that ends in another one**: the value is masked also where the beginning
is missing. -/
theorem redactChars_authToken {l : Char} {x rest : List Char} {a : Assignment}
    (h : Assignment.at? (l :: x) = some (a, rest))
    (ha : a.key.map letterOf = "auth_token".toList) :
    redactChars (l :: x) = l :: redactChars x := by
  obtain ⟨-, t, ht, hread⟩ := Assignment.at?_eq_some_iff.mp h
  obtain ⟨l', k, hkey, -, hk⟩ := List.map_eq_cons_iff.mp
    (show a.key.map letterOf = 'a' :: "uth_token".toList from ha)
  rw [hkey] at ht
  obtain ⟨rfl, rfl⟩ : l' = l ∧ k ++ t = x := List.cons.inj ht
  have hlength : k.length = 9 := by simpa using congrArg List.length hk
  have htoken : IsKey (k.drop 4) := ⟨"token", by decide, by rw [List.map_drop, hk]; rfl⟩
  have hat : Assignment.at? (k.drop 4 ++ t) = some (⟨k.drop 4, a.separator, a.value⟩, rest) :=
    Assignment.at?_eq_some_iff.mpr ⟨htoken, t, rfl, hread⟩
  -- no key starts before the inner one
  have hskip : redactChars (k.take 4 ++ (k.drop 4 ++ t)) = k.take 4 ++ redactChars (k.drop 4 ++ t) := by
    refine redactChars_append_of_noKey_drop (fun n hn => ?_) t
    rw [List.length_take, hlength] at hn
    rw [List.take_append_drop, hk]
    exact (by decide : ∀ n < 4, NoKey ("uth_token".toList.drop n)) n hn
  rw [← List.append_assoc, List.take_append_drop, redactChars_of_at? hat] at hskip
  rw [redactChars_of_at? h, hskip]
  unfold Assignment.masked
  simp only [hkey, List.cons_append, ← List.append_assoc, List.take_append_drop]

/-! ### What keys are made of -/

theorem IsKey.isPlain {k : List Char} (h : IsKey k) : ∀ c ∈ k, isPlain c = true := by
  obtain ⟨name, hname, hk⟩ := h
  intro c hc
  have hletter := isKeyLetter_of_mem hname _ (hk ▸ List.mem_map_of_mem hc)
  have hall : ∀ d ∈ escaped, ¬ IsKeyLetter (letterOf d) := by decide +kernel
  by_contra hplain
  exact hall c (mem_escaped_of_not_isPlain (by simpa using hplain)) hletter

theorem IsKey.not_mem_brackets {k : List Char} (h : IsKey k) : '[' ∉ k ∧ ']' ∉ k := by
  obtain ⟨name, hname, hk⟩ := h
  have hletter := fun c hc => isKeyLetter_of_mem hname _ (hk ▸ List.mem_map_of_mem (a := c) hc)
  exact ⟨fun hc => absurd (hletter _ hc) (by decide), fun hc => absurd (hletter _ hc) (by decide)⟩

/-- **A character that completes a key** is written with the first letter of the key,
after characters that no key starts with. -/
theorem Joins.exists_letter {c : Char} {k : List Char} (h : Joins c k) :
    ∃ w l, escapeChar c = w ++ [l] ∧ (∀ d ∈ w, NoKey [letterOf d]) ∧ IsKey (l :: k) := by
  obtain ⟨ending, hmem, hk⟩ := h
  simp only [joins, List.mem_cons, Prod.mk.injEq, List.not_mem_nil, or_false] at hmem
  rcases hmem with ⟨rfl, rfl⟩ | ⟨rfl, rfl⟩ | ⟨rfl, rfl⟩
  · refine ⟨['\\'], 't', rfl, by decide, "token", by decide, ?_⟩
    rw [List.map_cons, hk]
    decide
  · refine ⟨['\\', 'u', '0', '0', '1'], 'a', rfl, by decide, "api_key", by decide, ?_⟩
    rw [List.map_cons, hk]
    decide
  · refine ⟨['\\', 'u', '0', '0', '1'], 'c', rfl, by decide, "connection_string", by decide, ?_⟩
    rw [List.map_cons, hk]
    decide

theorem Joins.isControl {c : Char} {k : List Char} (h : Joins c k) : IsControl c := by
  obtain ⟨ending, hmem, -⟩ := h
  exact (by decide : ∀ e ∈ joins, IsControl e.1) _ hmem

/-- No key ends where another one does, save for one that begins before it. -/
theorem Joins.not_isKey {c : Char} {k p key : List Char} (h : Joins c k) (hk : k = p ++ key) :
    ¬ IsKey key := by
  rintro ⟨name, hname, hkey⟩
  obtain ⟨ending, hmem, hending⟩ := h
  refine (by decide : ∀ e ∈ joins, ∀ name ∈ secretKeys, ¬ name.toList <:+ e.2.toList) _ hmem
    name hname ⟨p.map letterOf, ?_⟩
  rw [← hending, hk, List.map_append, hkey]

/-! ### What stands around values -/

theorem ordinary_isBefore {c : Char} (h : Reading.ordinary.IsBefore c) :
    ¬ IsWordChar c ∧ c ≠ ']' := by
  rcases h with h | ⟨s, h⟩ | h
  · refine ⟨not_isWordChar_of_isBlank h, ?_⟩
    rintro rfl
    exact absurd h (by decide)
  · have hmem : c ∈ ['\\', '"', '\''] := by
      change c ∈ (openingQuote s).1 at h
      revert h
      fun_cases openingQuote s <;> simp <;> tauto
    exact (by decide : ∀ d ∈ ['\\', '"', '\''], ¬ IsWordChar d ∧ d ≠ ']') c hmem
  · exact (by decide : ∀ d ∈ ['=', ':', '>'], ¬ IsWordChar d ∧ d ≠ ']') c h

theorem throughEscapes_isBefore {c : Char} (h : Reading.throughEscapes.IsBefore c) :
    Reading.ordinary.IsBefore c ∧ Reading.IsUnescaped c := by
  rcases h with h | ⟨s, h⟩ | h
  · obtain ⟨hblank, hplain⟩ := Reading.throughEscapes_blank h
    exact ⟨.inl hblank, (isPlain_iff.mp hplain).2⟩
  · have hmem : c = '"' ∨ c = '\'' := by
      change c ∈ (plainQuote s).1 at h
      revert h
      fun_cases plainQuote s <;> simp +contextual
    rcases hmem with rfl | rfl
    · exact ⟨.inr (.inl ⟨['"'], List.mem_cons_self⟩), by decide⟩
    · exact ⟨.inr (.inl ⟨['\''], List.mem_cons_self⟩), by decide⟩
  · exact ⟨.inr (.inr h), (by decide : ∀ d ∈ ['=', ':', '>'], Reading.IsUnescaped d) c h⟩

/-- **What is found behind a key cannot be mistaken for the marker.** -/
theorem sound_of_isRead {F : Finds}
    (h : ∀ {x before value rest}, F x before value rest → ∃ R : Reading, ∃ front sep t,
      x = front ++ t ∧ before = front ++ sep ∧ '[' ∉ front ∧ ']' ∉ front
        ∧ R.IsRead t sep value rest ∧ sep ≠ []
        ∧ (∀ c, R.IsBefore c → Reading.ordinary.IsBefore c)
        ∧ R.value ']' = false ∧ ∀ c ∈ opened, R.value c = true) : Sound F where
  append found := by
    obtain ⟨R, front, sep, t, rfl, rfl, -, -, hread, -⟩ := h found
    rw [hread.append, List.append_assoc]
  before_mem found := by
    obtain ⟨R, front, sep, t, rfl, rfl, hopen, hclose, hread, -, hbefore, -⟩ := h found
    rw [List.mem_append, List.mem_append]
    refine ⟨not_or.mpr ⟨hopen, fun hc => ?_⟩, not_or.mpr ⟨hclose, fun hc => ?_⟩⟩
    · exact (ordinary_isBefore (hbefore _ (hread.before_mem _ hc))).1 (by decide)
    · exact (ordinary_isBefore (hbefore _ (hread.before_mem _ hc))).2 rfl
  before_last found := by
    obtain ⟨R, front, sep, t, rfl, rfl, -, -, hread, hne, hbefore, -⟩ := h found
    refine ⟨sep.getLast hne, ?_, fun hc => ?_⟩
    · rw [List.getLast?_append_of_ne_nil _ hne, List.getLast?_eq_some_getLast hne]
    · exact (ordinary_isBefore (hbefore _ (hread.before_mem _ (List.getLast_mem hne)))).1
        ((by decide : ∀ d ∈ opened, IsWordChar d) _ hc)
  value_ne_nil found := by
    obtain ⟨R, front, sep, t, rfl, rfl, -, -, hread, -⟩ := h found
    exact hread.value_ne_nil
  value_mem found hc := by
    obtain ⟨R, front, sep, t, rfl, rfl, -, -, hread, -, -, hvalue, -⟩ := h found
    exact Bool.false_ne_true (hvalue.symm.trans (hread.value_mem _ hc))
  rest_head found c hc hmem := by
    obtain ⟨R, front, sep, t, rfl, rfl, -, -, hread, -, -, -, hopened⟩ := h found
    exact Bool.false_ne_true ((hread.rest_head c hc).symm.trans (hopened c hmem))

theorem asText_sound : Sound AsText := by
  refine sound_of_isRead fun {x before value rest} found => ?_
  obtain ⟨key, sep, t, rfl, hkey, hread, rfl⟩ := found
  rw [← Reading.ordinary_afterKey?] at hread
  refine ⟨.ordinary, key, sep, t, rfl, rfl, hkey.not_mem_brackets.1, hkey.not_mem_brackets.2,
    Reading.afterKey?_isRead openingQuote_append hread, ?_, fun c hc => hc, by decide, by decide⟩
  rw [Reading.ordinary_afterKey?] at hread
  exact Assignment.afterKey?_ne_nil hread

theorem Reading.throughEscapes_ne_nil {t sep value rest : List Char}
    (h : throughEscapes.afterKey? t = some (sep, value, rest)) : sep ≠ [] := by
  have hwritten := afterKey?_escape t
  rw [h] at hwritten
  rintro rfl
  exact Assignment.afterKey?_ne_nil hwritten rfl

theorem asWritten_sound : Sound AsWritten := by
  refine sound_of_isRead fun {x before value rest} found => ?_
  obtain ⟨front, sep, t, rfl, hfront, hread, rfl⟩ := found
  have hbrackets : '[' ∉ front ∧ ']' ∉ front := by
    rcases hfront with hkey | ⟨c, k, rfl, hjoins⟩
    · exact hkey.not_mem_brackets
    · obtain ⟨w, l, -, -, hkey⟩ := hjoins.exists_letter
      have hcontrol := hjoins.isControl
      obtain ⟨hopen, hclose⟩ := hkey.not_mem_brackets
      rw [List.mem_cons, List.mem_cons]
      refine ⟨not_or.mpr ⟨?_, fun h => hopen (List.mem_cons_of_mem _ h)⟩,
        not_or.mpr ⟨?_, fun h => hclose (List.mem_cons_of_mem _ h)⟩⟩
      · rintro rfl
        exact absurd hcontrol (by decide)
      · rintro rfl
        exact absurd hcontrol (by decide)
  exact ⟨.throughEscapes, front, sep, t, rfl, rfl, hbrackets.1, hbrackets.2,
    Reading.afterKey?_isRead Reading.throughEscapes_quote_append hread,
    Reading.throughEscapes_ne_nil hread, fun c hc => (throughEscapes_isBefore hc).1,
    by decide, by decide⟩

/-! ## What is masked in a written text -/

/-- What has no reverse solidus at the start of a written text stands at the start of
the text. -/
theorem eq_append_of_escape {k s r : List Char} (hk : ∀ d ∈ k, d ≠ '\\')
    (h : escape s = k ++ r) : ∃ s', s = k ++ s' ∧ r = escape s' := by
  induction k generalizing s with
  | nil => exact ⟨s, rfl, h.symm⟩
  | cons d k ih =>
    obtain ⟨s', rfl, hs', -⟩ := eq_cons_of_escape (hk d List.mem_cons_self) h
    obtain ⟨s'', rfl, hr⟩ := ih (fun e he => hk e (List.mem_cons_of_mem d he)) hs'.symm
    exact ⟨s'', rfl, hr⟩

/-- **What is found in a text once it is written is masked there.** -/
theorem AsWritten.redactChars_escape {x before value rest : List Char}
    (found : AsWritten x before value rest) :
    redactChars (escape x) = escape (before ++ marker.toList) ++ redactChars (escape rest) := by
  obtain ⟨front, sep, t, rfl, hfront, hread, rfl⟩ := found
  have hafter : Assignment.afterKey? (escape t) = some (escape sep, value, escape rest) := by
    rw [Reading.afterKey?_escape, hread]
    rfl
  have hmasked : ∀ k, IsKey k → redactChars (k ++ escape t)
      = k ++ (escape sep ++ (marker.toList ++ redactChars (escape rest))) := by
    intro k hk
    have hat : Assignment.at? (k ++ escape t) = some (⟨k, escape sep, value⟩, escape rest) :=
      Assignment.at?_eq_some_iff.mpr ⟨hk, _, rfl, hafter⟩
    rw [redactChars_of_at? hat]
    simp only [Assignment.masked, List.append_assoc]
  have hmarker : escape marker.toList = marker.toList := by decide
  simp only [escape_append, hmarker, List.append_assoc]
  rcases hfront with hkey | ⟨c, k, rfl, hjoins⟩
  · rw [escape_of_isPlain hkey.isPlain, hmasked front hkey]
  · obtain ⟨w, l, hw, hnone, hkey⟩ := hjoins.exists_letter
    have hk : escape k = k :=
      escape_of_isPlain fun d hd => hkey.isPlain d (List.mem_cons_of_mem l hd)
    simp only [escape_cons, hw, hk, List.append_assoc, List.singleton_append]
    rw [redactChars_append_of_noKey hnone, hmasked _ hkey]

/-- No key starts in what a character is written as, save for its last letter, and
then the text goes on as the key does, unless a shorter key starts there. -/
theorem exists_lastLetter (c : Char) : ∃ w l, escapeChar c = w ++ [l]
    ∧ (∀ d ∈ w, NoKey [letterOf d])
    ∧ ∀ name ∈ secretKeys, name.toList.head? = some (letterOf l) → c = l ∨ name = "auth_token"
        ∨ ∃ e ∈ joins, e.1 = c ∧ name.toList.tail = e.2.toList := by
  cases hc : isPlain c with
  | true => exact ⟨[], c, escapeChar_of_isPlain hc, by simp, fun name _ _ => .inl rfl⟩
  | false =>
    have hall : ∀ c ∈ escaped, (∀ d ∈ (escapeChar c).dropLast, NoKey [letterOf d])
        ∧ ∀ name ∈ secretKeys, name.toList.head? = (escapeChar c).getLast?.map letterOf →
          name = "auth_token" ∨ ∃ e ∈ joins, e.1 = c ∧ name.toList.tail = e.2.toList := by
      decide +kernel
    obtain ⟨hnone, hlast⟩ := hall c (mem_escaped_of_not_isPlain hc)
    have hne := escapeChar_ne_nil c
    refine ⟨_, _, (List.dropLast_append_getLast hne).symm, hnone, fun name hname hhead =>
      .inr (hlast name hname ?_)⟩
    rw [List.getLast?_eq_some_getLast hne]
    exact hhead

/-- **Where nothing is found in a text once it is written**, nothing is masked
there. -/
theorem redactChars_escape_cons {c : Char} {s : List Char}
    (none : ∀ before value rest, ¬ AsWritten (c :: s) before value rest) :
    redactChars (escape (c :: s)) = escapeChar c ++ redactChars (escape s) := by
  obtain ⟨w, l, hw, hnone, hlast⟩ := exists_lastLetter c
  rw [escape_cons, hw, List.append_assoc, List.append_assoc, redactChars_append_of_noKey hnone,
    List.append_cancel_left_eq, List.singleton_append, List.singleton_append]
  cases hat : Assignment.at? (l :: escape s) with
  | none => exact redactChars_cons hat
  | some found =>
    obtain ⟨a, rest⟩ := found
    obtain ⟨⟨name, hname, hmap⟩, t, ht, hread⟩ := Assignment.at?_eq_some_iff.mp hat
    have hkey : IsKey a.key := ⟨name, hname, hmap⟩
    obtain ⟨l', k, hk⟩ := List.exists_cons_of_ne_nil hkey.ne_nil
    rw [hk] at ht hkey hmap
    obtain ⟨rfl, hs⟩ : l' = l ∧ k ++ t = escape s := List.cons.inj ht
    obtain ⟨s', rfl, rfl⟩ := eq_append_of_escape
      (fun d hd => (isPlain_iff.mp (hkey.isPlain d (List.mem_cons_of_mem _ hd))).2.1) hs.symm
    rw [Reading.afterKey?_escape] at hread
    obtain ⟨⟨sep, value, r⟩, hthrough, -⟩ := Option.map_eq_some_iff.mp hread
    rw [List.map_cons] at hmap
    rcases hlast name hname (hmap ▸ rfl) with rfl | rfl | ⟨⟨d, ending⟩, he, hd, htail⟩
    · exact absurd ⟨c :: k, sep, s', rfl, .inl hkey, hthrough, rfl⟩ (none _ value r)
    · exact redactChars_authToken hat (by rw [hk, List.map_cons, hmap])
    · obtain rfl : d = c := hd
      have hjoins : Joins d k := ⟨ending, he, by rw [← htail, ← hmap, List.tail_cons]⟩
      exact absurd ⟨d :: k, sep, s', rfl, .inr ⟨d, k, rfl, hjoins⟩, hthrough, rfl⟩ (none _ value r)

/-- **What is masked in a written text** is what is found in the text once it is
written. -/
theorem Masked.redactChars_escape {t y : List Char} (h : Masked AsWritten t y) :
    redactChars (escape t) = escape y := by
  induction h with
  | nil =>
    show redactChars [] = []
    unfold redactChars
    rw [split]
    rfl
  | value found masked ih =>
    rw [found.redactChars_escape, ih, ← escape_append, List.append_assoc]
  | plain none masked ih => rw [redactChars_escape_cons none, ih, escape_cons]

/-- What is masked in a text is what is found in it. -/
theorem masked_asText (t : List Char) : Masked AsText t (redactChars t) := by
  unfold redactChars
  fun_induction split t with
  | case1 => exact .nil
  | case2 c s a rest h ih =>
    have hmasked := Masked.value (asText_iff.mpr ⟨a, h, rfl, rfl⟩) ih
    simpa [Piece.masked, Assignment.masked] using hmasked
  | case3 c s h ih =>
    refine .plain (fun before value rest found => ?_) ih
    obtain ⟨a, ha, -⟩ := asText_iff.mp found
    cases h.symm.trans ha

theorem redactChars_escape_iff (t : List Char) :
    redactChars (escape t) = escape (redactChars t) ↔ Masked AsWritten t (redactChars t) := by
  refine ⟨fun h => ?_, Masked.redactChars_escape⟩
  obtain ⟨y, hy⟩ := exists_masked asWritten_sound t
  rw [hy.redactChars_escape] at h
  exact escape_inj.mp h ▸ hy

/-! ## Where both come to the same -/

/-- **Nothing has to be escaped behind the keys** of a text, neither in the
separators nor in the values, but for quotation marks. -/
def HasPlainSecrets (t : List Char) : Prop :=
  ∀ a, Piece.secret a ∈ split t → ∀ c ∈ a.separator ++ a.value, Reading.IsUnescaped c

/-- **No escape completes a key** of which only the rest is in a text, with a
separator and a value after it. -/
def CompletesNoKey (t : List Char) : Prop :=
  ∀ p c k s, t = p ++ c :: (k ++ s) → Joins c k → Assignment.afterKey? (escape s) = none

theorem HasPlainSecrets.of_found {x before value rest : List Char}
    (found : AsText x before value rest) :
    ∃ key sep t, x = key ++ t ∧ before = key ++ sep ∧ IsKey key
      ∧ Reading.ordinary.afterKey? t = some (sep, value, rest)
      ∧ (HasPlainSecrets x
        ↔ (∀ c ∈ sep ++ value, Reading.IsUnescaped c) ∧ HasPlainSecrets rest) := by
  obtain ⟨key, sep, t, rfl, hkey, hread, rfl⟩ := found
  have hat : Assignment.at? (key ++ t) = some (⟨key, sep, value⟩, rest) :=
    Assignment.at?_eq_some_iff.mpr ⟨hkey, t, rfl, hread⟩
  rw [← Reading.ordinary_afterKey?] at hread
  refine ⟨key, sep, t, rfl, rfl, hkey, hread, ?_⟩
  unfold HasPlainSecrets
  rw [split_of_at? hat]
  simp only [List.mem_cons, Piece.secret.injEq, forall_eq_or_imp]

theorem HasPlainSecrets.cons {c : Char} {s : List Char} (h : Assignment.at? (c :: s) = none) :
    HasPlainSecrets (c :: s) ↔ HasPlainSecrets s := by
  unfold HasPlainSecrets
  rw [split_cons_of_at? h]
  simp only [List.mem_cons, reduceCtorEq, false_or]

theorem CompletesNoKey.cons {c : Char} {s : List Char} :
    CompletesNoKey (c :: s)
      ↔ (∀ k t, s = k ++ t → Joins c k → Assignment.afterKey? (escape t) = none)
        ∧ CompletesNoKey s := by
  constructor
  · intro h
    refine ⟨fun k t hs => h [] c k t (by rw [hs]; rfl), fun p d k t hs => h (c :: p) d k t ?_⟩
    rw [hs]
    rfl
  · rintro ⟨hfirst, hrest⟩ (_ | ⟨d, p⟩) e k t hs hjoins
    · obtain ⟨rfl, rfl⟩ := List.cons.inj hs
      exact hfirst k t rfl hjoins
    · exact hrest p e k t (List.cons.inj hs).2 hjoins

/-- Only a control character completes a key. -/
theorem CompletesNoKey.append {p s : List Char} (hp : ∀ c ∈ p, ¬ IsControl c) :
    CompletesNoKey (p ++ s) ↔ CompletesNoKey s := by
  induction p with
  | nil => rfl
  | cons c p ih =>
    rw [List.cons_append, CompletesNoKey.cons, ih fun d hd => hp d (List.mem_cons_of_mem c hd)]
    exact and_iff_right fun k t _ hjoins => absurd hjoins.isControl (hp c List.mem_cons_self)

/-- Two words, each followed by characters that are in no word, are the same if the
texts are. -/
theorem eq_of_endsInWord {u v a b : List Char} (hu : EndsInWord u) (hv : EndsInWord v)
    (ha : ∀ c ∈ a, ¬ IsWordChar c) (hb : ∀ c ∈ b, ¬ IsWordChar c) (h : u ++ a = v ++ b) :
    u = v ∧ a = b := by
  have hnil : ∀ {u w a : List Char}, EndsInWord (u ++ w) → (∀ c ∈ w ++ a, ¬ IsWordChar c) →
      w = [] := by
    intro u w a hword hno
    by_contra hne
    obtain ⟨c, hc, hcword⟩ := ((endsInWord_append hne u).mp hword).exists_mem
    exact hno c (List.mem_append_left _ hc) hcword
  rcases List.append_eq_append_iff.mp h with ⟨w, rfl, rfl⟩ | ⟨w, rfl, rfl⟩
  · obtain rfl := hnil hv ha
    exact ⟨(List.append_nil u).symm, rfl⟩
  · obtain rfl := hnil hu hb
    exact ⟨List.append_nil v, rfl⟩

theorem Joins.endsInWord {c : Char} {k : List Char} (h : Joins c k) : EndsInWord (c :: k) := by
  obtain ⟨w, l, -, -, hkey⟩ := h.exists_letter
  have hne : k ≠ [] := by
    rintro rfl
    obtain ⟨ending, hmem, hending⟩ := h
    exact (by decide : ∀ e ∈ joins, [] ≠ e.2.toList) _ hmem hending
  exact (endsInWord_append hne [c]).mpr ((endsInWord_append hne [l]).mp (hkey.endsInWord []))

theorem isBefore_not_isWordChar {R : Reading} {s before value rest : List Char}
    (hR : ∀ c, R.IsBefore c → Reading.ordinary.IsBefore c) (h : R.IsRead s before value rest) :
    ∀ c ∈ before, ¬ IsWordChar c :=
  fun c hc => (ordinary_isBefore (hR c (h.before_mem c hc))).1

/-- **The value that is masked in both is the same**: neither of the two is longer, as
the character after the shorter one would be in the rest of one of them only. -/
theorem value_eq {value rest value' rest' y : List Char}
    (happ : value' ++ rest' = value ++ rest)
    (hvalue : ∀ c ∈ value, isValueChar c = true) (hrest : ∀ c ∈ rest.head?, isValueChar c = false)
    (hvalue' : ∀ c ∈ value', isValueChar c = true)
    (masked : Masked AsText rest y) (masked' : Masked AsWritten rest' y) :
    value' = value ∧ rest' = rest := by
  have hend : ∀ d, rest.head? = some d → d ∈ value ∨ d ∈ value' → False := by
    intro d hd hmem
    exact Bool.false_ne_true ((hrest d hd).symm.trans (hmem.elim (hvalue d) (hvalue' d)))
  rcases List.append_eq_append_iff.mp happ with ⟨w, rfl, rfl⟩ | ⟨w, rfl, rfl⟩
  · cases w with
    | nil => exact ⟨(List.append_nil value').symm, rfl⟩
    | cons d w =>
      have hhead : rest.head? = some d := by
        rw [← masked.head? asText_sound, masked'.head? asWritten_sound]
        rfl
      exact (hend d hhead (.inl (List.mem_append_right _ List.mem_cons_self))).elim
  · cases w with
    | nil => exact ⟨List.append_nil value, rfl⟩
    | cons d w => exact (hend d rfl (.inr (List.mem_append_right _ List.mem_cons_self))).elim

/-- **Where nothing is found in a text as it is**, nothing is found in it once it is
written either, if both leave the same. -/
theorem not_asWritten_of_masked {c : Char} {s y : List Char}
    (none : ∀ before value rest, ¬ AsText (c :: s) before value rest) (masked : Masked AsText s y)
    (h : Masked AsWritten (c :: s) (c :: y)) :
    (∀ before value rest, ¬ AsWritten (c :: s) before value rest) ∧ Masked AsWritten s y := by
  generalize hx : c :: s = x at h
  generalize hz : c :: y = z at h
  cases h with
  | nil => exact nomatch hx
  | plain none' masked' =>
    obtain ⟨rfl, rfl⟩ := List.cons.inj hx
    obtain ⟨-, rfl⟩ := List.cons.inj hz
    exact ⟨none', masked'⟩
  | @value x before value rest y' found' masked' =>
    exfalso
    have hmasked := Masked.plain none masked
    rw [hx, hz] at hmasked
    obtain ⟨p, before₂, value₂, rest₂, hp, -, found₂, -⟩ :=
      Masked.same asWritten_sound asText_sound found' masked' hmasked
    obtain ⟨front, sep, t, rfl, hfront, hread, rfl⟩ := found'
    rcases hfront with hkey | ⟨d, k, rfl, hjoins⟩
    · obtain ⟨⟨sep', value', rest'⟩, hread'⟩ := Reading.exists_afterKey? hread
      rw [Reading.ordinary_afterKey?] at hread'
      exact none (front ++ sep') value' rest' (hx ▸ ⟨front, sep', t, rfl, hkey, hread', rfl⟩)
    · obtain ⟨key, sep', t', -, rfl, hkey, hread₂, -⟩ := HasPlainSecrets.of_found found₂
      have hisRead₂ := Reading.afterKey?_isRead openingQuote_append hread₂
      have hisRead := Reading.afterKey?_isRead Reading.throughEscapes_quote_append hread
      rw [← List.append_assoc] at hp
      obtain ⟨hfront, -⟩ := eq_of_endsInWord (hkey.endsInWord p) hjoins.endsInWord
        (isBefore_not_isWordChar (fun _ h => h) hisRead₂)
        (isBefore_not_isWordChar (fun _ h => (throughEscapes_isBefore h).1) hisRead) hp
      cases p with
      | nil =>
        rw [List.nil_append] at hfront
        have hplain := hkey.isPlain d (hfront ▸ List.mem_cons_self)
        exact (isPlain_iff.mp hplain).2.2 hjoins.isControl
      | cons e p => exact hjoins.not_isKey (List.cons.inj hfront).2.symm hkey

/-- **If both readings leave the same**, nothing has to be escaped behind the keys, and
no escape completes a key. -/
theorem Masked.conditions {t y : List Char} (h : Masked AsText t y) (h' : Masked AsWritten t y) :
    HasPlainSecrets t ∧ CompletesNoKey t := by
  induction h with
  | nil =>
    refine ⟨fun a ha => ?_, fun p c k s hs => ?_⟩
    · rw [split] at ha
      cases ha
    · exact absurd hs.symm (List.append_ne_nil_of_right_ne_nil _ (List.cons_ne_nil _ _))
  | @value x before value rest y found masked ih =>
    obtain ⟨key, sep, t, -, rfl, hkey, hordinary, hiff⟩ := HasPlainSecrets.of_found found
    have hread := Reading.afterKey?_isRead openingQuote_append hordinary
    obtain ⟨p, before', value', rest', hp, hvalues, found', masked'⟩ :=
      Masked.same asText_sound asWritten_sound found masked h'
    obtain ⟨front, sep', t', -, hfront, hread', rfl⟩ := found'
    have hisRead := Reading.afterKey?_isRead Reading.throughEscapes_quote_append hread'
    have hword : EndsInWord front := by
      rcases hfront with hkey' | ⟨c, k, rfl, hjoins⟩
      · exact hkey'.endsInWord []
      · exact hjoins.endsInWord
    rw [← List.append_assoc] at hp
    obtain ⟨-, rfl⟩ := eq_of_endsInWord ((endsInWord_append hword.ne_nil p).mpr hword)
      (hkey.endsInWord [])
      (isBefore_not_isWordChar (fun _ h => (throughEscapes_isBefore h).1) hisRead)
      (isBefore_not_isWordChar (fun _ h => h) hread) hp
    obtain ⟨rfl, rfl⟩ := value_eq hvalues hread.value_mem hread.rest_head
      (fun c hc => (Reading.throughEscapes_value (hisRead.value_mem c hc)).1) masked masked'
    have hplain : ∀ c ∈ sep' ++ value', Reading.IsUnescaped c := by
      intro c hc
      rcases List.mem_append.mp hc with hc | hc
      · exact (throughEscapes_isBefore (hisRead.before_mem c hc)).2
      · exact (isPlain_iff.mp (Reading.throughEscapes_value (hisRead.value_mem c hc)).2).2
    obtain ⟨hsecrets, hkeys⟩ := ih masked'
    refine ⟨hiff.mpr ⟨hplain, hsecrets⟩, ?_⟩
    rw [asText_sound.append found, ← List.append_assoc, List.append_assoc key]
    refine (CompletesNoKey.append fun c hc => ?_).mpr hkeys
    rcases List.mem_append.mp hc with hc | hc
    · exact (isPlain_iff.mp (hkey.isPlain c hc)).2.2
    · exact (hplain c hc).2
  | @plain c s y none masked ih =>
    obtain ⟨none', masked'⟩ := not_asWritten_of_masked none masked h'
    obtain ⟨hsecrets, hkeys⟩ := ih masked'
    refine ⟨(HasPlainSecrets.cons ?_).mpr hsecrets, CompletesNoKey.cons.mpr ⟨?_, hkeys⟩⟩
    · refine Option.eq_none_iff_forall_ne_some.mpr ?_
      rintro ⟨a, rest⟩ ha
      exact none _ _ _ (asText_iff.mpr ⟨a, ha, rfl, rfl⟩)
    · rintro k t rfl hjoins
      rw [Reading.afterKey?_escape, Option.map_eq_none_iff]
      refine Option.eq_none_iff_forall_ne_some.mpr ?_
      rintro ⟨sep, v, rest⟩ hread
      exact none' _ _ _ ⟨c :: k, sep, t, rfl, .inr ⟨c, k, rfl, hjoins⟩, hread, rfl⟩

/-- **If nothing has to be escaped behind the keys, and no escape completes a key**,
both readings leave the same. -/
theorem Masked.asWritten {t y : List Char} (h : Masked AsText t y) (hsecrets : HasPlainSecrets t)
    (hkeys : CompletesNoKey t) : Masked AsWritten t y := by
  induction h with
  | nil => exact .nil
  | @value x before value rest y found masked ih =>
    obtain ⟨key, sep, t, rfl, rfl, hkey, hread, hiff⟩ := HasPlainSecrets.of_found found
    obtain ⟨hplain, hrest⟩ := hiff.mp hsecrets
    have hthrough := Reading.throughEscapes_afterKey? hread hplain
    refine .value ⟨key, sep, t, rfl, .inl hkey, hthrough, rfl⟩ (ih hrest ?_)
    intro p c k s hs hjoins
    refine hkeys (key ++ sep ++ value ++ p) c k s ?_ hjoins
    rw [asText_sound.append found, hs]
    simp only [List.append_assoc]
  | @plain c s y none masked ih =>
    have hnone : Assignment.at? (c :: s) = Option.none := by
      refine Option.eq_none_iff_forall_ne_some.mpr fun ⟨a, rest⟩ ha => ?_
      exact none _ _ _ (asText_iff.mpr ⟨a, ha, rfl, rfl⟩)
    obtain ⟨hfirst, hkeys⟩ := CompletesNoKey.cons.mp hkeys
    refine .plain ?_ (ih ((HasPlainSecrets.cons hnone).mp hsecrets) hkeys)
    rintro before v rest ⟨front, sep, t, ht, hkey | ⟨d, k, rfl, hjoins⟩, hread, rfl⟩
    · obtain ⟨⟨sep', v', rest'⟩, hread'⟩ := Reading.exists_afterKey? hread
      rw [Reading.ordinary_afterKey?] at hread'
      exact none _ _ _ ⟨front, sep', t, ht, hkey, hread', rfl⟩
    · obtain ⟨rfl, rfl⟩ := List.cons.inj ht
      have hafter := hfirst k t rfl hjoins
      rw [Reading.afterKey?_escape, hread] at hafter
      exact nomatch hafter

/-! ## The two layouts of a log -/

/-- **A text inside a string of a JSON document**, as it is written there. -/
def encoded (t : String) : String :=
  String.ofList (escape t.toList)

/-- **When the same is masked in a text and in what it is written as.** Both come to the
same exactly if nothing has to be escaped in the separators and values of the
assignments of the text, save for quotation marks, and no escape completes a key
that was not in the text. -/
theorem redact_encoded_iff (t : String) :
    redact (encoded t) = encoded (redact t)
      ↔ HasPlainSecrets t.toList ∧ CompletesNoKey t.toList := by
  unfold redact encoded
  rw [String.ofList_inj, String.toList_ofList, String.toList_ofList, redactChars_escape_iff]
  exact ⟨(masked_asText _).conditions, fun ⟨hsecrets, hkeys⟩ =>
    (masked_asText _).asWritten hsecrets hkeys⟩

/-- A tab before the rest of a key makes a key of it, and more is masked in the
written text. -/
example : redact "\token: a1" = "\token: a1" ∧ redact (encoded "\token: a1") = "\\token: [REDACTED]" := by
  decide +kernel

/-- **A tab before the value shows the secret in the written text.** -/
theorem redact_encoded_tab :
    redact "password:\thunter2" = "password:\t[REDACTED]"
      ∧ encoded "password:\thunter2" = "password:\\thunter2"
      ∧ redact (encoded "password:\thunter2") = "password:\\thunter2"
      ∧ redact (encoded "password:\thunter2") ≠ encoded (redact "password:\thunter2") := by
  decide +kernel

end IncidentMemory.Redaction
