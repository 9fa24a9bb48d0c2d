import IncidentMemory.Proofs.Layouts
import Mathlib.Logic.Function.Iterate

/-!
# Masking what is masked

A masked text is a text, and it can be masked again. What is found in it? Each
assignment is found again, since its key and its separator are still there and the
marker starts with a character that can be in a value; but the marker ends with a
bracket that cannot, so that the value which is found is the marker up to there
(`split_redactChars`). Nothing else is found, as a place where no assignment starts
is followed by the same text up to the next value.

So masking again puts a marker in front of a bracket that is left over, and a text
that holds an assignment gets longer each time (`redact_iterate`).
-/

namespace IncidentMemory.Redaction

open IncidentMemory.Text (isBlank)

/-! ## Another value in place of one that was read -/

variable {s t before sep value rest w r : List Char}

/-- A quote does not depend on what follows it, if that is no quote. -/
theorem openingQuote_replace (h : ∀ c ∈ r.head?, c ∉ ['\\', '"', '\'']) (s : List Char) :
    openingQuote ((openingQuote s).1 ++ r) = ((openingQuote s).1, r) := by
  fun_cases openingQuote s with
  | case5 => exact openingQuote_of_head h
  | _ => rfl

/-- A quote starts with a character that is not blank. -/
theorem openingQuote_head (s : List Char) : ∀ c ∈ (openingQuote s).1.head?, isBlank c = false := by
  fun_cases openingQuote s with
  | case5 => exact fun c hc => absurd hc (Option.some_ne_none c).symm
  | _ =>
    refine fun c hc => Bool.eq_false_iff.mpr fun hblank => isBlank_not_mem_quotes hblank ?_
    rw [← Option.some.inj hc]
    decide

/-- **What may be put in the place of a value and what follows it**: a value that
starts like a word, and nothing that can be added to it. -/
structure Replaces (w r : List Char) : Prop where
  head : ∃ c w', w = c :: w' ∧ IsWordChar c
  value : ∀ c ∈ w, isValueChar c = true
  rest : ∀ c ∈ r.head?, isValueChar c = false

namespace Replaces

theorem head?_append (h : Replaces w r) : ∀ c ∈ (w ++ r).head?, IsWordChar c := by
  obtain ⟨c, w', rfl, hc⟩ := h.head
  intro d hd
  obtain rfl := Option.some.inj hd
  exact hc

theorem ne_nil (h : Replaces w r) : w ≠ [] := by
  obtain ⟨c, w', rfl, -⟩ := h.head
  exact List.cons_ne_nil c w'

/-- A quote, and what may be put in the place of a value, do not start with a blank. -/
theorem head?_quote (h : Replaces w r) (s : List Char) :
    ∀ c ∈ ((openingQuote s).1 ++ (w ++ r)).head?, isBlank c = false := by
  intro c hc
  rw [List.head?_append] at hc
  rcases Option.or_eq_some_iff.mp hc with hc | ⟨-, hc⟩
  · exact openingQuote_head s c hc
  · exact (h.head?_append c hc).isBlank

theorem valuePart? (h : Replaces w r) (hread : valuePart? s = some (before, value, rest)) :
    Redaction.valuePart? (before ++ (w ++ r)) = some (before, w, r) := by
  obtain ⟨-, rfl, -⟩ := Reading.valuePart?_eq_some_iff.mp
    ((Reading.ordinary_valuePart? s).trans hread)
  show Redaction.valuePart? (s.takeWhile isBlank ++ (openingQuote (s.dropWhile isBlank)).1
    ++ (w ++ r)) = some (s.takeWhile isBlank ++ (openingQuote (s.dropWhile isBlank)).1, w, r)
  obtain ⟨hgap, hdrop⟩ := takeWhile_append_of_head (fun c => List.mem_takeWhile_imp)
    (h.head?_quote (s.dropWhile isBlank)) (s := s.takeWhile isBlank)
  obtain ⟨hvalue, hrest⟩ := takeWhile_append_of_head h.value h.rest
  have hquote := openingQuote_replace (fun c hc => (h.head?_append c hc).not_mem_quotes)
    (s.dropWhile isBlank)
  rw [List.append_assoc]
  simp only [Redaction.valuePart?, hgap, hdrop, hquote, hvalue, hrest]
  rw [if_neg (by simpa using h.ne_nil)]

/-- Nothing stands before a value that starts with the second character of the long
sign. -/
theorem eq_nil_of_greater {u mid v x : List Char}
    (hread : Redaction.valuePart? ('>' :: u) = some (mid, v, x)) : mid = [] := by
  obtain ⟨-, rfl, -⟩ := Reading.valuePart?_eq_some_iff.mp
    ((Reading.ordinary_valuePart? _).trans hread)
  have hblank : isBlank '>' = false := by decide
  show ('>' :: u).takeWhile isBlank ++ (openingQuote (('>' :: u).dropWhile isBlank)).1 = []
  rw [List.takeWhile_cons, List.dropWhile_cons, hblank]
  rfl

theorem fromSign? (h : Replaces w r)
    (hread : Assignment.fromSign? s = some (before, value, rest)) :
    Assignment.fromSign? (before ++ (w ++ r)) = some (before, w, r) := by
  rw [← Reading.ordinary_fromSign?] at hread ⊢
  obtain ⟨sign, hsign, t, mid, rfl, rfl, hmid, -⟩ := Reading.fromSign?_eq_some_iff.mp hread
  have hmid' := h.valuePart? hmid
  refine Reading.fromSign?_eq_some_iff.mpr
    ⟨sign, hsign, mid ++ (w ++ r), mid, List.append_assoc _ _ _, rfl, hmid', fun _ u hu => ?_⟩
  -- the short sign is not followed by the rest of the long one
  obtain rfl := eq_nil_of_greater (hu ▸ hmid')
  exact absurd rfl (h.head?_append '>' (by rw [← List.nil_append (w ++ r), hu]; rfl)).2.2.2

theorem afterKey? (h : Replaces w r)
    (hread : Assignment.afterKey? t = some (sep, value, rest)) :
    Assignment.afterKey? (sep ++ (w ++ r)) = some (sep, w, r) := by
  rw [← Reading.ordinary_afterKey?, Reading.afterKey?_eq] at hread
  obtain ⟨before, rfl, hsign⟩ := Reading.map_sign_eq_some_iff.mp hread
  have hsign' := h.fromSign? ((Reading.ordinary_fromSign? _).symm.trans hsign)
  have hhead : ∀ c ∈ (before ++ (w ++ r)).head?, isBlank c = false ∧ c ∉ ['\\', '"', '\''] := by
    intro c hc
    rcases Reading.head?_of_fromSign? ((Reading.ordinary_fromSign? _).trans hsign') c hc
      with rfl | rfl <;> decide
  obtain ⟨hgap, hdrop⟩ := takeWhile_append_of_head (s := (openingQuote t).2.takeWhile isBlank)
    (fun c => List.mem_takeWhile_imp) fun c hc => (hhead c hc).1
  have hquote : openingQuote ((openingQuote t).1
      ++ ((openingQuote t).2.takeWhile isBlank ++ (before ++ (w ++ r))))
        = ((openingQuote t).1, (openingQuote t).2.takeWhile isBlank ++ (before ++ (w ++ r))) := by
    refine openingQuote_replace (fun c hc => ?_) t
    rw [List.head?_append] at hc
    rcases Option.or_eq_some_iff.mp hc with hc | ⟨-, hc⟩
    · exact isBlank_not_mem_quotes (List.mem_takeWhile_imp (List.mem_of_mem_head? hc))
    · exact (hhead c hc).2
  show Assignment.afterKey? ((openingQuote t).1 ++ (openingQuote t).2.takeWhile isBlank ++ before
    ++ (w ++ r)) = some ((openingQuote t).1 ++ (openingQuote t).2.takeWhile isBlank ++ before, w, r)
  rw [List.append_assoc, List.append_assoc]
  simp only [Assignment.afterKey?, hquote, hgap, hdrop, hsign', Option.map_some]

end Replaces

/-! ## What is found in a masked text -/

/-- The marker can be put in the place of a value. -/
theorem replaces_opened (t : List Char) : Replaces opened (']' :: t) where
  head := ⟨'[', "REDACTED".toList, by decide, by decide⟩
  value := List.all_iff_forall_prop.mp (by decide)
  rest c hc := Option.some.inj hc ▸ by decide

/-- **A masked assignment is found again**, with the marker for its value. -/
theorem Assignment.at?_masked {a : Assignment} (h : at? s = some (a, rest)) (t : List Char) :
    at? (a.masked ++ t) = some (⟨a.key, a.separator, opened⟩, ']' :: t) := by
  obtain ⟨hkey, x, -, hread⟩ := at?_eq_some_iff.mp h
  refine at?_eq_some_iff.mpr ⟨hkey, _, ?_, (replaces_opened t).afterKey? hread⟩
  unfold masked
  rw [marker_eq]
  simp only [List.append_assoc, List.singleton_append]

/-- What comes before a value starts apart from the word before it. -/
theorem startsApart_of_afterKey? (h : Assignment.afterKey? t = some (sep, value, rest))
    (x : List Char) : StartsApart (sep ++ x) := by
  have hread := Reading.afterKey?_isRead openingQuote_append
    ((Reading.ordinary_afterKey? t).trans h)
  intro c hc
  rw [List.head?_append_of_ne_nil _ (Assignment.afterKey?_ne_nil h)] at hc
  exact isBefore_not_isWordChar (fun _ h => h) hread c (List.mem_of_mem_head? hc)

/-- **Where no assignment starts, none starts when what follows is masked.** -/
theorem at?_cons_redactChars {c : Char} (h : Assignment.at? (c :: s) = none) :
    Assignment.at? (c :: redactChars s) = none := by
  rcases (masked_asText s).first asText_sound with ⟨heq, -⟩ |
    ⟨p, before, value, rest, y, hs, ⟨key, sep, t, ht, hkey, hread, rfl⟩, -, heq, -⟩
  · rw [heq]
    exact h
  -- up to the key of the first assignment the text is the same
  have hsame : ∀ x, StartsApart x →
      Assignment.at? (c :: p ++ key ++ x)
        = (Assignment.at? (c :: p ++ key)).map (Assignment.further x) := by
    refine fun x hx => Assignment.at?_append_text (hkey.endsInWord _) (fun hwhole => ?_) hx
    -- it is no key as a whole, or an assignment would start here
    have hfound : Assignment.at? (c :: s) = some (⟨c :: p ++ key, sep, value⟩, rest) :=
      Assignment.at?_eq_some_iff.mpr ⟨hwhole, t, by rw [hs, ht]; simp, hread⟩
    cases h.symm.trans hfound
  have hnone := hsame (sep ++ (value ++ rest)) (startsApart_of_afterKey? hread _)
  rw [show c :: p ++ key ++ (sep ++ (value ++ rest)) = c :: s by rw [hs]; simp, h] at hnone
  have hmasked := hsame (sep ++ (marker.toList ++ y)) (startsApart_of_afterKey? hread _)
  rw [Option.map_eq_none_iff.mp hnone.symm] at hmasked
  rw [heq]
  simpa using hmasked

/-- **What becomes of a piece** when the text is masked several times: an assignment has
the marker for its value, but for the bracket, and is followed by that bracket and by
one more for each time after the first. -/
def Piece.again (n : Nat) : Piece → List Piece
  | .plain c => [.plain c]
  | .secret a => .secret ⟨a.key, a.separator, opened⟩ :: List.replicate n (.plain ']')

/-- **The pieces of a masked text.** -/
theorem split_redactChars (s : List Char) :
    split (redactChars s) = (split s).flatMap (Piece.again 1) := by
  fun_induction split s with
  | case1 =>
    unfold redactChars
    simp [split]
  | case2 c s a rest h ih =>
    have hbracket : ¬ IsWordChar ']' := by decide
    rw [redactChars_of_at? h, split_of_at? (Assignment.at?_masked h _),
      split_cons_of_at? (Assignment.at?_of_not_isWordChar hbracket _), ih]
    rfl
  | case3 c s h ih =>
    rw [redactChars_cons h, split_cons_of_at? (at?_cons_redactChars h), ih]
    rfl

/-! ## Masking again and again -/

/-- A piece as it stands in a text that was masked, and then masked `n` times more. -/
def Piece.maskedAgain (n : Nat) : Piece → List Char
  | .plain c => [c]
  | .secret a => a.masked ++ List.replicate n ']'

theorem Piece.again_again (n : Nat) (p : Piece) :
    (p.again n).flatMap (Piece.again 1) = p.again (n + 1) := by
  cases p with
  | plain c => rfl
  | secret a =>
    have hbrackets : (List.replicate n (Piece.plain ']')).flatMap (Piece.again 1)
        = List.replicate n (.plain ']') := by
      induction n with
      | zero => rfl
      | succ n ih => rw [List.replicate_succ, List.flatMap_cons, ih]; rfl
    rw [Piece.again, List.flatMap_cons, hbrackets]
    rfl

theorem Piece.render_again (n : Nat) (p : Piece) :
    (p.again (n + 1)).flatMap Piece.render = p.maskedAgain n := by
  cases p with
  | plain c => rfl
  | secret a =>
    have hbrackets : ∀ m, (List.replicate m (Piece.plain ']')).flatMap Piece.render
        = List.replicate m ']' := by
      intro m
      induction m with
      | zero => rfl
      | succ m ih => rw [List.replicate_succ, List.flatMap_cons, ih]; rfl
    rw [Piece.again, List.flatMap_cons, hbrackets, Piece.maskedAgain, Assignment.masked, marker_eq,
      Piece.render, Assignment.render, List.replicate_succ]
    simp

/-- The pieces of a text that was masked several times. -/
theorem split_iterate (n : Nat) (s : List Char) :
    split (redactChars^[n + 1] s) = (split s).flatMap (Piece.again (n + 1)) := by
  induction n with
  | zero => exact split_redactChars s
  | succ n ih =>
    rw [Function.iterate_succ_apply', split_redactChars, ih, List.flatMap_assoc]
    exact congrArg (List.flatMap · (split s)) (funext fun p => p.again_again (n + 1))

theorem redactChars_iterate (n : Nat) (s : List Char) :
    redactChars^[n + 1] s = (split s).flatMap (Piece.maskedAgain n) := by
  rw [← render_split (redactChars^[n + 1] s), split_iterate, List.flatMap_assoc]
  exact congrArg (List.flatMap · (split s)) (funext fun p => p.render_again n)

theorem toList_redact_iterate (n : Nat) (t : String) :
    (redact^[n] t).toList = redactChars^[n] t.toList := by
  induction n with
  | zero => rfl
  | succ n ih =>
    rw [Function.iterate_succ_apply', Function.iterate_succ_apply', ← ih, redact,
      String.toList_ofList]

/-- Every assignment has one bracket more each time. -/
theorem length_maskedAgain (n : Nat) (ps : List Piece) :
    (ps.flatMap (Piece.maskedAgain n)).length
      = (ps.flatMap (Piece.maskedAgain 0)).length + n * ps.countP Piece.isSecret := by
  induction ps with
  | nil => simp
  | cons p ps ih =>
    rw [List.flatMap_cons, List.flatMap_cons, List.length_append, List.length_append, ih,
      List.countP_cons]
    cases p with
    | plain c => simp [Piece.maskedAgain, Piece.isSecret]; omega
    | secret a => simp [Piece.maskedAgain, Piece.isSecret, Nat.mul_add]; omega

/-- **What masking a text again and again makes of it.** The first time the marker is put
in the place of every value; each further time one more bracket is put behind every
marker, and nothing else is changed. So masking a masked text leaves it as it is only
if it holds no assignment. -/
theorem redact_iterate (t : String) :
    (∀ n, (redact^[n + 1] t).toList = (split t.toList).flatMap (Piece.maskedAgain n))
      ∧ (redact (redact t) = redact t ↔ hasSecret t = false) := by
  have hmasked : ∀ n, (redact^[n + 1] t).toList = (split t.toList).flatMap (Piece.maskedAgain n) :=
    fun n => (toList_redact_iterate (n + 1) t).trans (redactChars_iterate n t.toList)
  refine ⟨hmasked, ?_⟩
  rw [← String.toList_inj, show (redact (redact t)).toList = _ from hmasked 1,
    show (redact t).toList = _ from hmasked 0, hasSecret, List.any_eq_false]
  constructor
  · intro h p hp
    have hlength := congrArg List.length h
    rw [length_maskedAgain 1] at hlength
    exact List.countP_eq_zero.mp (by omega) p hp
  · intro h
    refine List.flatMap_congr fun p hp => ?_
    cases p with
    | plain c => rfl
    | secret a => exact absurd rfl (h _ hp)

/-- **A text that is masked already is changed**: the bracket of the marker is taken for
what follows a value. -/
theorem redact_markerAgain :
    redact "token=abc" = "token=[REDACTED]"
      ∧ redact (redact "token=abc") = "token=[REDACTED]]"
      ∧ redact (redact "token=abc") ≠ redact "token=abc" := by
  decide +kernel

end IncidentMemory.Redaction
