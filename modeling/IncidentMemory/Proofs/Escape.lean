import IncidentMemory.Json.Basic
import IncidentMemory.Text.Blank
import Mathlib.Data.List.TakeWhile

/-!
# The code of escapes

A string literal is written character by character: most characters stand for
themselves, the others are written with a reverse solidus in front
(`Json.escape`). No escape is the beginning of another one, so different texts
are written differently (`escape_inj`), and a class of characters that the reverse
solidus is not in takes of a written text exactly what is plain in it
(`takeWhile_escape`).
-/

namespace IncidentMemory.Redaction

open IncidentMemory.Json (escape escapeChar)

/-- What is said of a list of characters is decided by going through the list, and not
through all characters. -/
scoped instance (priority := high) decidableForallMem (p : Char → Prop) [DecidablePred p]
    (l : List Char) : Decidable (∀ c ∈ l, p c) :=
  List.decidableBAll p l

/-! ## The code of an escape -/

/-- A control character. -/
def IsControl (c : Char) : Prop :=
  c.toNat < 0x20

instance (c : Char) : Decidable (IsControl c) :=
  inferInstanceAs (Decidable (_ < _))

/-- Whether a character is written as it is. -/
def isPlain (c : Char) : Bool :=
  c != '"' && c != '\\' && !decide (IsControl c)

theorem isPlain_iff {c : Char} : isPlain c = true ↔ c ≠ '"' ∧ c ≠ '\\' ∧ ¬ IsControl c := by
  simp [isPlain, and_assoc]

/-- All characters that are not written as they are. -/
def escaped : List Char :=
  '"' :: '\\' :: (List.range 32).map Char.ofNat

theorem mem_escaped_of_isControl {c : Char} (h : IsControl c) : c ∈ escaped :=
  List.mem_cons_of_mem _ (List.mem_cons_of_mem _
    (List.mem_map.mpr ⟨c.toNat, List.mem_range.mpr h, Char.ofNat_toNat c⟩))

theorem mem_escaped_of_not_isPlain {c : Char} (h : isPlain c = false) : c ∈ escaped := by
  by_contra hmem
  refine Bool.false_ne_true (h.symm.trans (isPlain_iff.mpr ⟨?_, ?_, ?_⟩))
  · rintro rfl
    exact hmem (by decide)
  · rintro rfl
    exact hmem (by decide)
  · exact fun hcontrol => hmem (mem_escaped_of_isControl hcontrol)

theorem escapeChar_of_isPlain {c : Char} (h : isPlain c = true) : escapeChar c = [c] := by
  obtain ⟨hquote, hsolidus, hcontrol⟩ := isPlain_iff.mp h
  have hne : ∀ d : Char, IsControl d → c ≠ d := by
    rintro d hd rfl
    exact hcontrol hd
  unfold escapeChar
  rw [if_neg hquote, if_neg hsolidus, if_neg (hne _ (by decide)), if_neg (hne _ (by decide)),
    if_neg (hne _ (by decide)), if_neg (hne _ (by decide)), if_neg (hne _ (by decide))]
  exact if_neg hcontrol

/-- What is not written as it is starts with a reverse solidus, and goes on with
another character: no quote, save for the quotation mark itself. -/
theorem escapeChar_of_not_isPlain {c : Char} (h : isPlain c = false) :
    ∃ d w, escapeChar c = '\\' :: d :: w ∧ d ≠ '\'' ∧ (d = '"' → c = '"') := by
  have hall : ∀ c ∈ escaped, (escapeChar c)[0]? = some '\\' ∧ (escapeChar c)[1]?.isSome
      ∧ (escapeChar c)[1]? ≠ some '\'' ∧ ((escapeChar c)[1]? = some '"' → c = '"') := by
    decide +kernel
  obtain ⟨hfirst, hsome, hsingle, hdouble⟩ := hall c (mem_escaped_of_not_isPlain h)
  match hw : escapeChar c with
  | [] => simp [hw] at hfirst
  | [d] => simp [hw] at hsome
  | b :: d :: w =>
    obtain rfl : b = '\\' := by simpa [hw] using hfirst
    exact ⟨d, w, rfl, by simpa [hw] using hsingle, by simpa [hw] using hdouble⟩

/-- **No escape is the beginning of another one.** -/
theorem eq_of_escapeChar_begins {c d : Char} (h : escapeChar c <+: escapeChar d) : c = d := by
  have hall : ∀ c ∈ escaped, ∀ d ∈ escaped, escapeChar c <+: escapeChar d → c = d := by
    decide +kernel
  have hlong : ∀ c ∈ escaped, 2 ≤ (escapeChar c).length := by decide +kernel
  cases hc : isPlain c <;> cases hd : isPlain d
  · exact hall c (mem_escaped_of_not_isPlain hc) d (mem_escaped_of_not_isPlain hd) h
  · have hlength := h.length_le
    rw [escapeChar_of_isPlain hd] at hlength
    exact absurd (hlong c (mem_escaped_of_not_isPlain hc)) (Nat.not_le.mpr (Nat.lt_succ_of_le hlength))
  · obtain ⟨x, w, hw, -⟩ := escapeChar_of_not_isPlain hd
    rw [escapeChar_of_isPlain hc, hw, List.cons_prefix_cons] at h
    exact absurd h.1 (isPlain_iff.mp hc).2.1
  · rw [escapeChar_of_isPlain hc, escapeChar_of_isPlain hd, List.cons_prefix_cons] at h
    exact h.1

theorem escapeChar_append_inj {c d : Char} {s t : List Char}
    (h : escapeChar c ++ s = escapeChar d ++ t) : c = d ∧ s = t := by
  have hcd : c = d := by
    obtain ⟨x, hx, -⟩ | ⟨x, hx, -⟩ := List.append_eq_append_iff.mp h
    · exact eq_of_escapeChar_begins ⟨x, hx.symm⟩
    · exact (eq_of_escapeChar_begins ⟨x, hx.symm⟩).symm
  subst hcd
  exact ⟨rfl, List.append_cancel_left h⟩

theorem escape_cons (c : Char) (s : List Char) : escape (c :: s) = escapeChar c ++ escape s :=
  List.flatMap_cons

theorem escape_append (s t : List Char) : escape (s ++ t) = escape s ++ escape t :=
  List.flatMap_append

theorem escapeChar_ne_nil (c : Char) : escapeChar c ≠ [] := by
  cases hc : isPlain c with
  | false =>
    obtain ⟨d, w, hw, -⟩ := escapeChar_of_not_isPlain hc
    exact hw ▸ List.cons_ne_nil _ _
  | true => exact escapeChar_of_isPlain hc ▸ List.cons_ne_nil _ _

/-- **Different texts are written differently.** -/
theorem escape_inj {s t : List Char} : escape s = escape t ↔ s = t := by
  refine ⟨fun h => ?_, congrArg _⟩
  induction s generalizing t with
  | nil =>
    cases t with
    | nil => rfl
    | cons d t =>
      rw [escape_cons] at h
      exact absurd (List.append_eq_nil_iff.mp h.symm).1 (escapeChar_ne_nil d)
  | cons c s ih =>
    cases t with
    | nil =>
      rw [escape_cons] at h
      exact absurd (List.append_eq_nil_iff.mp h).1 (escapeChar_ne_nil c)
    | cons d t =>
      rw [escape_cons, escape_cons] at h
      obtain ⟨rfl, hst⟩ := escapeChar_append_inj h
      rw [ih hst]

/-- A text of plain characters is written as it is. -/
theorem escape_of_isPlain {s : List Char} (h : ∀ c ∈ s, isPlain c = true) : escape s = s := by
  induction s with
  | nil => rfl
  | cons c s ih =>
    rw [escape_cons, escapeChar_of_isPlain (h c List.mem_cons_self),
      ih fun d hd => h d (List.mem_cons_of_mem c hd)]
    rfl

/-- A character other than the reverse solidus at the start of a written text stands
at the start of the text, and is plain. -/
theorem eq_cons_of_escape {s r : List Char} {d : Char} (hd : d ≠ '\\')
    (h : escape s = d :: r) : ∃ s', s = d :: s' ∧ r = escape s' ∧ isPlain d = true := by
  cases s with
  | nil => exact nomatch h
  | cons c s =>
    rw [escape_cons] at h
    cases hc : isPlain c with
    | false =>
      obtain ⟨x, w, hw, -⟩ := escapeChar_of_not_isPlain hc
      rw [hw] at h
      exact absurd (List.cons.inj h).1.symm hd
    | true =>
      rw [escapeChar_of_isPlain hc] at h
      obtain ⟨rfl, rfl⟩ := List.cons.inj h
      exact ⟨s, rfl, rfl, hc⟩

/-- **A class of characters without the reverse solidus** takes of a written text
what is plain in it. -/
theorem takeWhile_escape {p : Char → Bool} (hp : p '\\' = false) (s : List Char) :
    (escape s).takeWhile p = s.takeWhile (fun c => p c && isPlain c)
      ∧ (escape s).dropWhile p = escape (s.dropWhile fun c => p c && isPlain c) := by
  induction s with
  | nil => exact ⟨rfl, rfl⟩
  | cons c s ih =>
    rw [escape_cons]
    cases hc : isPlain c with
    | false =>
      obtain ⟨d, w, hw, -⟩ := escapeChar_of_not_isPlain hc
      simp [hw, hp, hc, escape_cons]
    | true =>
      rw [escapeChar_of_isPlain hc]
      cases hpc : p c with
      | false => simp [hpc, escape_cons, escapeChar_of_isPlain hc]
      | true => simp [hpc, hc, ih]

end IncidentMemory.Redaction
