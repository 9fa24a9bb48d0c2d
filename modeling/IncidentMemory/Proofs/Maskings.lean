import IncidentMemory.Redaction
import Mathlib.Data.List.Basic

/-!
# Two ways of masking one text

A text is masked by a reading that finds values in it. When do two readings leave
the same masked text? Where both find the same values they do, and the converse is
what is proved here: a masked text tells what was masked in it (`Masked.same`).

The difficulty is a text that holds the marker already. If one reading masks a
value where the other leaves the text as it is, then this value and the bracket
after it must be the marker themselves, and what one of them makes of the rest of
the text has a bracket more than what the other makes of it. That cannot be, by
induction on the rest (`Masked.ne_bracket`).
-/

namespace IncidentMemory.Redaction

/-- **What a reading finds at the beginning of a text**: what stands before a value,
the value, and the rest. -/
abbrev Finds := List Char → List Char → List Char → List Char → Prop

/-- **A text and what is left of it** when all values that are found in it, from the
left, are masked. -/
inductive Masked (F : Finds) : List Char → List Char → Prop where
  /-- The end. -/
  | nil : Masked F [] []
  /-- A value is masked. -/
  | value {x before value rest y : List Char} (found : F x before value rest)
      (masked : Masked F rest y) : Masked F x (before ++ (marker.toList ++ y))
  /-- Where none is found, the character stands for itself. -/
  | plain {c : Char} {s y : List Char} (none : ∀ before value rest, ¬ F (c :: s) before value rest)
      (masked : Masked F s y) : Masked F (c :: s) (c :: y)

/-- The marker but for the bracket at its end. -/
def opened : List Char :=
  "[REDACTED".toList

theorem marker_eq : marker.toList = opened ++ [']'] := by
  decide

/-- **Values that cannot be mistaken for the marker**, nor what stands around
them. -/
structure Sound (F : Finds) : Prop where
  append : ∀ {x before value rest}, F x before value rest → x = before ++ (value ++ rest)
  before_mem : ∀ {x before value rest}, F x before value rest → '[' ∉ before ∧ ']' ∉ before
  before_last : ∀ {x before value rest}, F x before value rest →
    ∃ c, before.getLast? = some c ∧ c ∉ opened
  value_ne_nil : ∀ {x before value rest}, F x before value rest → value ≠ []
  value_mem : ∀ {x before value rest}, F x before value rest → ']' ∉ value
  rest_head : ∀ {x before value rest}, F x before value rest → ∀ c ∈ rest.head?, c ∉ opened

namespace Sound

variable {F : Finds} {x before value rest : List Char}

theorem before_ne_nil (hF : Sound F) (h : F x before value rest) : before ≠ [] := by
  rintro rfl
  obtain ⟨c, hc, -⟩ := hF.before_last h
  exact nomatch hc

/-- Nothing is found at a bracket. -/
theorem not_bracket (hF : Sound F) (s : List Char) : ¬ F (']' :: s) before value rest := by
  intro h
  obtain ⟨c, b, hb⟩ := List.exists_cons_of_ne_nil (hF.before_ne_nil h)
  have happ := hF.append h
  rw [hb] at happ
  obtain ⟨rfl, -⟩ := List.cons.inj happ
  exact (hF.before_mem h).2 (hb ▸ List.mem_cons_self)

end Sound

variable {F G : Finds}

/-- **Every text can be masked.** -/
theorem exists_masked (hF : Sound F) (x : List Char) : ∃ y, Masked F x y := by
  induction hn : x.length using Nat.strongRecOn generalizing x with
  | ind n ih =>
    subst hn
    by_cases hfound : ∃ before value rest, F x before value rest
    · obtain ⟨before, value, rest, found⟩ := hfound
      have hlength : rest.length < x.length := by
        have hpos := List.length_pos_iff.mpr (hF.before_ne_nil found)
        rw [hF.append found, List.length_append, List.length_append]
        omega
      obtain ⟨y, hy⟩ := ih _ hlength rest rfl
      exact ⟨_, .value found hy⟩
    · cases x with
      | nil => exact ⟨[], .nil⟩
      | cons c s =>
        obtain ⟨y, hy⟩ := ih _ (Nat.lt_succ_self _) s rfl
        exact ⟨_, .plain (fun before value rest found => hfound ⟨before, value, rest, found⟩) hy⟩

/-- A masked text starts as the text does. -/
theorem Masked.head? (hF : Sound F) {x y : List Char} (h : Masked F x y) : y.head? = x.head? := by
  cases h with
  | nil => rfl
  | value found masked =>
    rw [hF.append found, List.head?_append_of_ne_nil _ (hF.before_ne_nil found),
      List.head?_append_of_ne_nil _ (hF.before_ne_nil found)]
  | plain none masked => rfl

/-- A bracket that a text starts with is left. -/
theorem Masked.bracket (hF : Sound F) {s y : List Char} (h : Masked F (']' :: s) y) :
    ∃ y', y = ']' :: y' ∧ Masked F s y' := by
  generalize hx : ']' :: s = x at h
  cases h with
  | nil => exact nomatch hx
  | value found => exact absurd (hx ▸ found) (hF.not_bracket s)
  | plain none masked =>
    obtain ⟨rfl, rfl⟩ := List.cons.inj hx
    exact ⟨_, rfl, masked⟩

/-- **No reading leaves a bracket more than another one.** -/
theorem Masked.ne_bracket (hF : Sound F) (hG : Sound G) {x y z : List Char} (h : Masked F x y)
    (h' : Masked G x z) : y ≠ ']' :: z := by
  induction h generalizing z with
  | nil => exact List.cons_ne_nil _ _ ∘ Eq.symm
  | value found masked ih =>
    intro heq
    obtain ⟨c, b, hb⟩ := List.exists_cons_of_ne_nil (hF.before_ne_nil found)
    rw [hb] at heq
    obtain ⟨rfl, -⟩ := List.cons.inj heq
    exact (hF.before_mem found).2 (hb ▸ List.mem_cons_self)
  | plain none masked ih =>
    intro heq
    obtain ⟨rfl, rfl⟩ := List.cons.inj heq
    obtain ⟨z', rfl, hz⟩ := h'.bracket hG
    exact ih hz rfl

/-- **The first value that is found**, if there is one. Before it, and everywhere if
there is none, the text is left as it is. -/
theorem Masked.first (hG : Sound G) {x z : List Char} (h : Masked G x z) :
    (z = x ∧ ∀ p s, x = p ++ s → Masked G s s)
      ∨ ∃ p before value rest y, x = p ++ (before ++ (value ++ rest))
        ∧ G (before ++ (value ++ rest)) before value rest ∧ Masked G rest y
        ∧ z = p ++ (before ++ (marker.toList ++ y))
        ∧ ∀ p₁ p₂, p = p₁ ++ p₂ → Masked G (p₂ ++ (before ++ (value ++ rest)))
          (p₂ ++ (before ++ (marker.toList ++ y))) := by
  induction h with
  | nil =>
    refine .inl ⟨rfl, fun p s hx => ?_⟩
    obtain ⟨-, rfl⟩ := List.append_eq_nil_iff.mp hx.symm
    exact .nil
  | @value x before value rest y found masked ih =>
    have happ := hG.append found
    rw [happ] at found
    refine .inr ⟨[], before, value, rest, y, happ, found, masked, rfl, fun p₁ p₂ hp => ?_⟩
    obtain ⟨-, rfl⟩ := List.append_eq_nil_iff.mp hp.symm
    exact .value found masked
  | @plain c s y none masked ih =>
    rcases ih with ⟨rfl, hall⟩ | ⟨p, before, value, rest, y', rfl, found, masked', rfl, hall⟩
    · refine .inl ⟨rfl, fun p t hx => ?_⟩
      cases p with
      | nil =>
        obtain rfl : c :: y = t := hx
        exact .plain none masked
      | cons d p => exact hall p t (List.cons.inj hx).2
    · refine .inr ⟨c :: p, before, value, rest, y', rfl, found, masked', rfl, fun p₁ p₂ hp => ?_⟩
      cases p₁ with
      | nil =>
        obtain rfl : c :: p = p₂ := hp
        exact .plain none masked
      | cons d p₁ => exact hall p₁ p₂ (List.cons.inj hp).2

/-- **A value that looks like the marker**: it is the marker but for the bracket,
which follows it. -/
theorem Sound.eq_opened (hF : Sound F) {x before value rest y : List Char}
    (h : F x before value rest) (heq : value ++ rest = marker.toList ++ y) :
    value = opened ∧ rest = ']' :: y := by
  rw [marker_eq, List.append_assoc] at heq
  rcases List.append_eq_append_iff.mp heq with ⟨w, hopened, rfl⟩ | ⟨w, rfl, hrest⟩
  · cases w with
    | nil => exact ⟨by simpa using hopened.symm, rfl⟩
    | cons c w =>
      refine absurd ?_ (hF.rest_head h c rfl)
      rw [hopened]
      exact List.mem_append_right _ List.mem_cons_self
  · cases w with
    | nil => exact ⟨List.append_nil _, hrest.symm⟩
    | cons c w =>
      obtain ⟨rfl, -⟩ := List.cons.inj hrest
      exact absurd (List.mem_append_right _ List.mem_cons_self) (hF.value_mem h)

/-- What is the beginning of a marker and more has the marker at its beginning, if
it does not end within the marker. -/
theorem append_of_marker {w y t : List Char} {c : Char} (hw : w.getLast? = some c)
    (hc : c ∉ opened) (hbracket : c ≠ ']') (h : marker.toList ++ y = w ++ t) :
    ∃ u, w = marker.toList ++ u ∧ y = u ++ t := by
  rcases List.append_eq_append_iff.mp h with ⟨u, rfl, rfl⟩ | ⟨u, hmarker, -⟩
  · exact ⟨u, rfl, rfl⟩
  · obtain ⟨w', rfl⟩ : ∃ w', w = w' ++ [c] := List.getLast?_eq_some_iff.mp hw
    have hmem : c ∈ marker.toList := by
      rw [hmarker]
      simp
    rw [marker_eq, List.mem_append, List.mem_singleton] at hmem
    exact absurd hmem (not_or.mpr ⟨hc, hbracket⟩)

/-- Behind a bracket too many, no other reading leaves the same. -/
theorem Masked.not_of_bracket (hF : Sound F) (hG : Sound G) {s y : List Char}
    (h : Masked F (']' :: s) y) : ¬ Masked G s y := by
  intro h'
  obtain ⟨z, rfl, hz⟩ := h.bracket hF
  exact h'.ne_bracket hG hF hz rfl

/-- **A value that is found next does not begin behind the one that is masked first.**
Otherwise this one looked like the marker, and its bracket was too many. -/
theorem Masked.eq_nil_of_behind (hF : Sound F) (hG : Sound G)
    {x x' before value rest y p before' value' rest' y' w : List Char}
    (found : F x before value rest) (masked : Masked F rest y) (found' : G x' before' value' rest')
    (hall : ∀ p₁ p₂, p = p₁ ++ p₂ → Masked G (p₂ ++ (before' ++ (value' ++ rest')))
      (p₂ ++ (before' ++ (marker.toList ++ y'))))
    (hw : p ++ before' = before ++ w) (hx : value ++ rest = w ++ (value' ++ rest'))
    (hy : marker.toList ++ y = w ++ (marker.toList ++ y')) : w = [] := by
  by_contra hne
  obtain ⟨c, hc, hopened⟩ := hG.before_last found'
  have hend := (hG.before_mem found').2
  have hlast : w.getLast? = some c := by
    rw [← hc, ← List.getLast?_append_of_ne_nil p (hG.before_ne_nil found'), hw,
      List.getLast?_append_of_ne_nil _ hne]
  obtain ⟨u, rfl, rfl⟩ := append_of_marker hlast hopened
    (fun h => hend (h ▸ List.mem_of_getLast? hc)) hy
  rw [List.append_assoc] at hx
  obtain ⟨rfl, rfl⟩ := hF.eq_opened found hx
  have hρ := masked.not_of_bracket hF hG
  rw [← List.append_assoc] at hw
  -- the marker ends where what stands before the next value begins, or earlier
  rcases List.append_eq_append_iff.mp hw with ⟨b, hb, hbefore⟩ | ⟨b, hp, rfl⟩
  · rcases List.eq_nil_or_concat b with rfl | ⟨b, d, rfl⟩
    · have hall' := hall p [] (List.append_nil p).symm
      rw [List.nil_append, List.nil_append, hbefore] at hall'
      exact hρ hall'
    · rw [List.concat_eq_append] at hb hbefore
      rw [marker_eq, ← List.append_assoc, ← List.append_assoc] at hb
      obtain ⟨-, hd⟩ := List.append_inj' hb rfl
      obtain rfl := List.singleton_inj.mp hd
      exact hend (by simp [hbefore])
  · have hall' := hall _ b hp
    rw [← List.append_assoc, ← List.append_assoc b] at hall'
    exact hρ hall'

/-- **Where one reading masks a value, another one that leaves the same masked text
masks a value as well**, and leaves the same of what follows. -/
theorem Masked.same (hF : Sound F) (hG : Sound G) {x before value rest y : List Char}
    (found : F x before value rest) (masked : Masked F rest y)
    (h : Masked G x (before ++ (marker.toList ++ y))) :
    ∃ p before' value' rest', p ++ before' = before ∧ value' ++ rest' = value ++ rest
      ∧ G (before' ++ (value' ++ rest')) before' value' rest' ∧ Masked G rest' y := by
  have happ := hF.append found
  rcases h.first hG with ⟨heq, hall⟩ | ⟨p, before', value', rest', y', hx, found', masked', heq, hall⟩
  · -- nothing is found, so the value looks like the marker
    rw [happ, List.append_cancel_left_eq] at heq
    obtain ⟨rfl, rfl⟩ := hF.eq_opened found heq.symm
    refine absurd (hall (before ++ marker.toList) y ?_) (masked.not_of_bracket hF hG)
    rw [happ, marker_eq]
    simp
  rw [happ, ← List.append_assoc p] at hx
  rw [← List.append_assoc p] at heq
  suffices hp : p ++ before' = before by
    rw [hp, List.append_cancel_left_eq] at hx heq
    obtain rfl := List.append_cancel_left heq
    exact ⟨p, before', value', rest', hp, hx.symm, found', masked'⟩
  rcases List.append_eq_append_iff.mp heq with ⟨w, hw, hy⟩ | ⟨w, hw, hy⟩
  · rw [hw, List.append_assoc, List.append_cancel_left_eq] at hx
    rw [hw, Masked.eq_nil_of_behind hF hG found masked found' hall hw hx hy, List.append_nil]
  · cases w with
    | nil => simpa using hw.symm
    | cons d w =>
      obtain ⟨rfl, -⟩ : '[' = d ∧ _ := List.cons.inj hy
      refine absurd ?_ (hF.before_mem found).1
      rw [hw]
      simp

end IncidentMemory.Redaction
