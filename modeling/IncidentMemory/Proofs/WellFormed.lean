import IncidentMemory.Proofs.JsonText
import IncidentMemory.Proofs.EscapedReading

/-!
# Masking a JSON document

Masking looks at the characters of a text and not at what they are a part of. Inside
a string this does no harm: the string is another one afterwards, and every other
lexeme of the document is as it was (`Replaced.lexemes`). But a value may also be a
number or a literal, or the beginning of an array or object, or even the colon
behind a name that ends in a key. The marker that takes its place is no lexeme: none
but a string can have its letters (`IsJson.not_showsOutside`).

So masking keeps a document well formed exactly if all secret values of its text
begin inside strings, and then it keeps the outline of the document as well
(`isJson_redact_iff`).
-/

namespace IncidentMemory.JsonText

open IncidentMemory.Redaction

/-! ## Replacing what is inside strings -/

/-- **Characters inside strings are replaced**, though no escapes and no ends. -/
inductive Replaced : Zone → List Char → List Char → Prop where
  /-- The end. -/
  | nil {z : Zone} : Replaced z [] []
  /-- A character stays. -/
  | same {z : Zone} {c : Char} {s s' : List Char} (rest : Replaced (z.next c) s s') :
      Replaced z (c :: s) (c :: s')
  /-- Some characters of a string are replaced by others. -/
  | value {v w s s' : List Char} (ne_nil : v ≠ []) (old : ∀ c ∈ v, c ≠ '"' ∧ c ≠ '\\')
      (new : ∀ c ∈ w, isPlain c = true) (rest : Replaced .inside s s') :
      Replaced .inside (v ++ s) (w ++ s')

/-- Whether no character of a text is one that may be replaced. -/
def isFixed : Zone → List Char → Bool
  | _, [] => true
  | z, c :: x => decide (z = .inside → c = '"' ∨ c = '\\') && isFixed (z.next c) x

/-- Outside strings, nothing but what begins one may come before what is replaced. -/
theorem isFixed_of_not_mem {x : List Char} (hx : '"' ∉ x) : isFixed .outside x = true := by
  induction x with
  | nil => rfl
  | cons c x ih =>
    rw [List.mem_cons, not_or] at hx
    simp [isFixed, Zone.next, Ne.symm hx.1, ih hx.2]

namespace Replaced

variable {z : Zone} {c : Char} {x s s' : List Char}

/-- What stays in front makes no difference. -/
theorem front (x : List Char) (h : Replaced (z.after x) s s') : Replaced z (x ++ s) (x ++ s') := by
  induction x generalizing z with
  | nil => exact h
  | cons c x ih => exact .same (ih h)

/-- A character that is not inside a string, or ends it, or begins an escape, stays. -/
theorem of_cons (h : Replaced z (c :: s) s') (hc : z = .inside → c = '"' ∨ c = '\\') :
    ∃ s'', s' = c :: s'' ∧ Replaced (z.next c) s s'' := by
  generalize hx : c :: s = x at h
  cases h with
  | nil => exact nomatch hx
  | same rest =>
    obtain ⟨rfl, rfl⟩ := List.cons.inj hx
    exact ⟨_, rfl, rest⟩
  | value ne_nil old new rest =>
    obtain ⟨d, v, rfl⟩ := List.exists_cons_of_ne_nil ne_nil
    obtain ⟨rfl, -⟩ := List.cons.inj hx
    obtain ⟨hquote, hsolidus⟩ := old c List.mem_cons_self
    exact ((hc rfl).elim hquote hsolidus).elim

/-- Characters none of which can be replaced stay. -/
theorem of_isFixed (h : Replaced z (x ++ s) s') (hx : isFixed z x = true) :
    ∃ s'', s' = x ++ s'' ∧ Replaced (z.after x) s s'' := by
  induction x generalizing z s' with
  | nil => exact ⟨s', rfl, h⟩
  | cons c x ih =>
    simp only [isFixed, Bool.and_eq_true, decide_eq_true_eq] at hx
    obtain ⟨s₁, rfl, h₁⟩ := of_cons h hx.1
    obtain ⟨s'', rfl, h₂⟩ := ih h₁ hx.2
    exact ⟨s'', rfl, h₂⟩

end Replaced

theorem IsBody.append {v b : List Char} (hv : ∀ c ∈ v, isPlain c = true) (h : IsBody b) :
    IsBody (v ++ b) := by
  induction v with
  | nil => exact h
  | cons c v ih =>
    exact .plain (hv c List.mem_cons_self) (ih fun d hd => hv d (List.mem_cons_of_mem c hd))

/-- What is left of the inside of a string behind characters that begin no escape. -/
theorem IsBody.of_append {v b : List Char} (hv : ∀ c ∈ v, c ≠ '"' ∧ c ≠ '\\')
    (h : IsBody (v ++ b)) : IsBody b := by
  induction v with
  | nil => exact h
  | cons c v ih =>
    generalize hx : c :: v ++ b = x at h
    have hsolidus := (hv c List.mem_cons_self).2
    cases h with
    | nil => exact nomatch hx
    | plain plain rest =>
      obtain ⟨-, rfl⟩ := List.cons.inj hx
      exact ih (fun d hd => hv d (List.mem_cons_of_mem c hd)) rest
    | short => exact absurd (List.cons.inj hx).1 hsolidus
    | code => exact absurd (List.cons.inj hx).1 hsolidus

/-- What holds no quotation mark ends before a string does. -/
theorem exists_append_of_quote {v b s t : List Char} (hv : ∀ c ∈ v, c ≠ '"' ∧ c ≠ '\\')
    (h : b ++ '"' :: s = v ++ t) : ∃ b₂, b = v ++ b₂ ∧ b₂ ++ '"' :: s = t := by
  rcases List.append_eq_append_iff.mp h with ⟨y, rfl, hy⟩ | ⟨y, hy, rfl⟩
  · cases y with
    | nil => exact ⟨[], by simp, by simpa using hy⟩
    | cons d y =>
      obtain ⟨rfl, -⟩ := List.cons.inj hy
      exact absurd rfl (hv '"' (by simp)).1
  · exact ⟨y, hy, rfl⟩

/-- No character of an escaped code unit is replaced. -/
theorem isFixed_code {p q r s : Char} (hex : ∀ c ∈ [p, q, r, s], isHex c = true) :
    isFixed .inside ['\\', 'u', p, q, r, s] = true
      ∧ Zone.inside.after ['\\', 'u', p, q, r, s] = .inside := by
  have hp : (Zone.code 4).next p = .code 3 := Zone.code_next (hex p (by simp)) 2
  have hq : (Zone.code 3).next q = .code 2 := Zone.code_next (hex q (by simp)) 1
  have hr : (Zone.code 2).next r = .code 1 := Zone.code_next (hex r (by simp)) 0
  simp [isFixed, show Zone.inside.next '\\' = .escaped from rfl,
    show Zone.escaped.next 'u' = .code 4 from rfl, hp, hq, hr, Zone.code_one_next]

/-- **What replaces the inside of a string** is the inside of a string. -/
theorem Replaced.body {b s s' : List Char} (hb : IsBody b)
    (h : Replaced .inside (b ++ '"' :: s) s') :
    ∃ b' s'', s' = b' ++ '"' :: s'' ∧ IsBody b' ∧ Replaced .outside s s'' := by
  induction hn : b.length using Nat.strongRecOn generalizing b s' with
  | ind n ih =>
    subst hn
    cases hb with
    | nil =>
      obtain ⟨s'', rfl, hs⟩ := of_cons h fun _ => .inl rfl
      exact ⟨[], s'', rfl, .nil, hs⟩
    | @plain c b plain rest =>
      generalize hx : c :: b ++ '"' :: s = x at h
      cases h with
      | nil => exact nomatch hx
      | same hsame =>
        obtain ⟨rfl, rfl⟩ := List.cons.inj hx
        rw [Zone.next_of_isPlain plain] at hsame
        obtain ⟨b', s'', rfl, hb', hs⟩ := ih _ (Nat.lt_succ_self _) rest hsame rfl
        exact ⟨c :: b', s'', rfl, .plain plain hb', hs⟩
      | @value v w s₁ s₁' ne_nil old new hvalue =>
        obtain ⟨b₂, hb₂, rfl⟩ := exists_append_of_quote old hx
        have hrest : IsBody b₂ := IsBody.of_append old (hb₂ ▸ .plain plain rest)
        have hlength : b₂.length < (c :: b).length := by
          have hpos := List.length_pos_iff.mpr ne_nil
          rw [hb₂, List.length_append]
          omega
        obtain ⟨b', s'', rfl, hb', hs⟩ := ih _ hlength hrest hvalue rfl
        exact ⟨w ++ b', s'', (List.append_assoc ..).symm, hb'.append new, hs⟩
    | @short c b short rest =>
      have hnext : Zone.escaped.next c = .inside :=
        (by decide : ∀ d ∈ shortEscapes, Zone.escaped.next d = .inside) c short
      obtain ⟨s₁, rfl, h₁⟩ := of_isFixed (x := ['\\', c]) h (by simp [isFixed, Zone.next])
      rw [show Zone.inside.after ['\\', c] = .inside from hnext] at h₁
      obtain ⟨b', s'', rfl, hb', hs⟩ := ih _ (by simp only [List.length_cons]; omega) rest h₁ rfl
      exact ⟨'\\' :: c :: b', s'', rfl, .short short hb', hs⟩
    | @code p q r t b hex rest =>
      obtain ⟨hfixed, hafter⟩ := isFixed_code hex
      obtain ⟨s₁, rfl, h₁⟩ := of_isFixed (x := ['\\', 'u', p, q, r, t]) h hfixed
      rw [hafter] at h₁
      obtain ⟨b', s'', rfl, hb', hs⟩ := ih _ (by simp only [List.length_cons]; omega) rest h₁ rfl
      exact ⟨'\\' :: 'u' :: p :: q :: r :: t :: b', s'', rfl, .code hex hb', hs⟩

/-- **What replaces a sequence of lexemes** is a sequence of lexemes with the same
tokens. -/
theorem Replaced.lexemes (ls : List Lexeme) {s' : List Char}
    (h : Replaced .outside (ls.flatMap Lexeme.text) s') :
    ∃ ls' : List Lexeme, s' = ls'.flatMap Lexeme.text
      ∧ ls'.filterMap Lexeme.token? = ls.filterMap Lexeme.token? := by
  induction ls generalizing s' with
  | nil =>
    cases h with
    | nil => exact ⟨[], rfl, rfl⟩
  | cons l ls ih =>
    rw [List.flatMap_cons] at h
    obtain ⟨body, isBody, rfl⟩ | ⟨hquote, -⟩ := l.string_or_bare
    · have hstring : Replaced .outside ('"' :: (body ++ '"' :: ls.flatMap Lexeme.text)) s' := by
        simpa [Lexeme.text] using h
      obtain ⟨s₁, rfl, hinside⟩ := of_cons hstring fun hz => absurd hz (by decide)
      obtain ⟨body', s'', rfl, isBody', hrest⟩ := Replaced.body isBody hinside
      obtain ⟨ls', rfl, htokens⟩ := ih hrest
      exact ⟨.string body' isBody' :: ls', by simp [Lexeme.text], by simp [Lexeme.token?, htokens]⟩
    · obtain ⟨s'', rfl, hrest⟩ := of_isFixed h (isFixed_of_not_mem hquote)
      rw [Zone.outside_after hquote] at hrest
      obtain ⟨ls', rfl, htokens⟩ := ih hrest
      exact ⟨l :: ls', rfl, by rw [List.filterMap_cons, List.filterMap_cons, htokens]⟩

/-! ## What stands before a value -/

/-- A character right before a value. -/
def IsBoundary (c : Char) : Prop :=
  Text.isBlank c = true ∨ c ∈ ['"', '\'', '=', ':', '>']

theorem isWordChar_of_isHex {c : Char} (h : isHex c = true) : IsWordChar c := by
  refine isWordChar_of_toNat ?_
  unfold isHex Number.hexValue at h
  simp only [Char.le_def, UInt32.le_iff_toNat_le] at h
  split at h
  · next hc => exact .inl hc
  · split at h
    · next hc => exact .inr (.inr (.inr (.inl ⟨hc.1, hc.2.trans (by decide)⟩)))
    · split at h
      · next hc => exact .inr (.inl ⟨hc.1, hc.2.trans (by decide)⟩)
      · exact nomatch h

/-- No escape goes on behind what stands before a value. -/
theorem IsBoundary.next {c : Char} (h : IsBoundary c) (z : Zone) :
    z.next c = .outside ∨ z.next c = .inside := by
  have hword : ¬ IsWordChar c := by
    rcases h with h | h
    · exact not_isWordChar_of_isBlank h
    · exact (by decide : ∀ d ∈ ['"', '\'', '=', ':', '>'], ¬ IsWordChar d) c h
  refine Zone.next_eq ?_ ?_ ?_ z
  · rintro rfl
    exact h.elim (by decide) (by decide)
  · rintro rfl
    exact hword (by decide)
  · exact Bool.eq_false_iff.mpr fun hhex => hword (isWordChar_of_isHex hhex)

/-- What is read before a value ends in a blank or a quote, if there is anything. -/
theorem isBoundary_of_valuePart? {s mid value rest : List Char}
    (h : Reading.ordinary.valuePart? s = some (mid, value, rest)) :
    ∀ c ∈ mid.getLast?, IsBoundary c := by
  obtain ⟨-, hmid, -⟩ := Reading.valuePart?_eq_some_iff.mp h
  change mid = s.takeWhile Text.isBlank ++ (openingQuote (s.dropWhile Text.isBlank)).1 at hmid
  have hquote : ∀ t, (openingQuote t).1 = []
      ∨ ∃ c ∈ ['"', '\''], (openingQuote t).1.getLast? = some c := by
    intro t
    fun_cases openingQuote t <;> simp
  intro c hc
  rw [hmid, List.getLast?_append] at hc
  rcases hquote (s.dropWhile Text.isBlank) with hnil | ⟨d, hd, hlast⟩
  · rw [hnil] at hc
    exact .inl (List.mem_takeWhile_imp (List.mem_of_getLast? hc))
  · rw [hlast] at hc
    obtain rfl := Option.some.inj hc
    exact .inr ((by decide : ∀ d ∈ ['"', '\''], d ∈ ['"', '\'', '=', ':', '>']) d hd)

theorem exists_isBoundary_of_fromSign? {s sep value rest : List Char}
    (h : Reading.ordinary.fromSign? s = some (sep, value, rest)) :
    ∃ c, sep.getLast? = some c ∧ IsBoundary c := by
  obtain ⟨sign, hsign, t, mid, rfl, rfl, hm, -⟩ := Reading.fromSign?_eq_some_iff.mp h
  rw [List.getLast?_append]
  cases hlast : mid.getLast? with
  | some c => exact ⟨c, rfl, isBoundary_of_valuePart? hm c hlast⟩
  | none =>
    simp only [signs, List.mem_cons, List.not_mem_nil, or_false] at hsign
    rcases hsign with rfl | rfl | rfl
    · exact ⟨'=', rfl, .inr (by decide)⟩
    · exact ⟨':', rfl, .inr (by decide)⟩
    · exact ⟨'>', rfl, .inr (by decide)⟩

/-- **What is read before a value ends in a sign, a blank or a quote.** -/
theorem exists_isBoundary {s sep value rest : List Char}
    (h : Reading.ordinary.afterKey? s = some (sep, value, rest)) :
    ∃ c, sep.getLast? = some c ∧ IsBoundary c := by
  obtain ⟨x, rfl, hx⟩ := Reading.map_sign_eq_some_iff.mp ((Reading.afterKey?_eq _ s).symm.trans h)
  obtain ⟨c, hc, hboundary⟩ := exists_isBoundary_of_fromSign? hx
  exact ⟨c, by rw [List.getLast?_append, hc, Option.some_or], hboundary⟩

/-! ## Masking pieces -/

/-- **What masking needs to know of an assignment**: what its value is made of, and how
its separator ends. -/
structure IsAssigned (a : Assignment) : Prop where
  value_ne_nil : a.value ≠ []
  value_mem : ∀ c ∈ a.value, isValueChar c = true
  separator_last : ∃ c, a.separator.getLast? = some c ∧ IsBoundary c

/-- A value ends no string and begins no escape. -/
theorem IsAssigned.not_mem {a : Assignment} (h : IsAssigned a) :
    ∀ c ∈ a.value, c ≠ '"' ∧ c ≠ '\\' := by
  intro c hc
  have hvalue := h.value_mem c hc
  constructor
  · rintro rfl
    exact absurd hvalue (by decide)
  · rintro rfl
    exact absurd hvalue (by decide)

theorem isAssigned_of_mem_split {s : List Char} {a : Assignment} (h : .secret a ∈ split s) :
    IsAssigned a := by
  fun_induction split s with
  | case1 => cases h
  | case2 c s b rest hat ih =>
    rcases List.mem_cons.mp h with heq | h
    · obtain rfl := Piece.secret.inj heq
      obtain ⟨-, t, -, hread⟩ := Assignment.at?_eq_some_iff.mp hat
      rw [← Reading.ordinary_afterKey?] at hread
      have hisRead := Reading.afterKey?_isRead openingQuote_append hread
      exact ⟨hisRead.value_ne_nil, hisRead.value_mem, exists_isBoundary hread⟩
    · exact ih h
  | case3 c s hat ih =>
    rcases List.mem_cons.mp h with heq | h
    · cases heq
    · exact ih h

/-- Whether all values among pieces begin inside strings. -/
def inStrings : Zone → List Piece → Bool
  | _, [] => true
  | z, .plain c :: ps => inStrings (z.next c) ps
  | z, .secret a :: ps =>
    decide (z.after (a.key ++ a.separator) = .inside) && inStrings (z.after a.render) ps

/-- **All secret values of a text begin inside strings.** -/
def MasksInStrings (t : String) : Prop :=
  ∀ ps a qs, split t.toList = ps ++ .secret a :: qs →
    Zone.outside.after (ps.flatMap Piece.render ++ (a.key ++ a.separator)) = .inside

theorem inStrings_iff (z : Zone) (ps : List Piece) :
    inStrings z ps = true ↔ ∀ qs a rs, ps = qs ++ .secret a :: rs →
      z.after (qs.flatMap Piece.render ++ (a.key ++ a.separator)) = .inside := by
  induction ps generalizing z with
  | nil => exact iff_of_true rfl fun qs a rs h => absurd h.symm (by simp)
  | cons p ps ih =>
    have hcons : (∀ qs a rs, p :: ps = qs ++ .secret a :: rs →
        z.after (qs.flatMap Piece.render ++ (a.key ++ a.separator)) = .inside)
        ↔ (∀ a, p = .secret a → z.after (a.key ++ a.separator) = .inside)
          ∧ inStrings (z.after p.render) ps = true := by
      rw [ih]
      constructor
      · refine fun h => ⟨fun a ha => h [] a ps (by rw [ha]; rfl), fun qs a rs hps => ?_⟩
        rw [← Zone.after_append, ← List.append_assoc]
        exact h (p :: qs) a rs (by rw [hps]; rfl)
      · rintro ⟨hfirst, hrest⟩ (_ | ⟨q, qs⟩) a rs hps
        · obtain ⟨rfl, -⟩ := List.cons.inj hps
          exact hfirst a rfl
        · obtain ⟨rfl, htail⟩ := List.cons.inj hps
          rw [List.flatMap_cons, List.append_assoc, Zone.after_append]
          exact hrest qs a rs htail
    rw [hcons]
    cases p with
    | plain c => simp [inStrings, Piece.render]
    | secret a => simp [inStrings, Piece.render]

instance (t : String) : Decidable (MasksInStrings t) :=
  decidable_of_iff _ (inStrings_iff .outside (split t.toList))

/-- A value begins outside of strings or inside one, but not in an escape. -/
theorem IsAssigned.after_separator {a : Assignment} (h : IsAssigned a) {z : Zone} :
    z.after (a.key ++ a.separator) = .outside ∨ z.after (a.key ++ a.separator) = .inside := by
  obtain ⟨c, hc, hboundary⟩ := h.separator_last
  obtain ⟨sep, hsep⟩ := List.getLast?_eq_some_iff.mp hc
  rw [hsep, ← List.append_assoc, Zone.after_append]
  exact hboundary.next _

/-- A value inside a string leaves what follows inside. -/
theorem IsAssigned.after_value {a : Assignment} (h : IsAssigned a) {z : Zone}
    (hz : z.after (a.key ++ a.separator) = .inside) : z.after a.render = .inside := by
  unfold Assignment.render
  rw [Zone.after_append, hz]
  exact Zone.inside_after fun c hc => h.not_mem c hc

/-- **Masking values inside strings replaces what is inside strings.** -/
theorem replaced_masked {z : Zone} {ps : List Piece} (hps : ∀ a, .secret a ∈ ps → IsAssigned a)
    (h : inStrings z ps = true) :
    Replaced z (ps.flatMap Piece.render) (ps.flatMap Piece.masked) := by
  induction ps generalizing z with
  | nil => exact .nil
  | cons p ps ih =>
    have hps' := fun a ha => hps a (List.mem_cons_of_mem p ha)
    cases p with
    | plain c => exact .same (ih hps' h)
    | secret a =>
      have ha := hps a List.mem_cons_self
      simp only [inStrings, Bool.and_eq_true, decide_eq_true_eq] at h
      obtain ⟨hz, hrest⟩ := h
      rw [ha.after_value hz] at hrest
      simp only [List.flatMap_cons, Piece.render, Piece.masked, Assignment.render,
        Assignment.masked, List.append_assoc (a.key ++ a.separator)]
      refine Replaced.front _ ?_
      rw [hz]
      exact .value ha.value_ne_nil ha.not_mem (by decide) (ih hps' hrest)

/-- **A marker outside of strings shows.** -/
theorem inStrings_of_not_showsOutside {z : Zone} {ps : List Piece}
    (hps : ∀ a, .secret a ∈ ps → IsAssigned a)
    (h : showsOutside 'R' z (ps.flatMap Piece.masked) = false) : inStrings z ps = true := by
  induction ps generalizing z with
  | nil => rfl
  | cons p ps ih =>
    have hps' := fun a ha => hps a (List.mem_cons_of_mem p ha)
    rw [List.flatMap_cons, showsOutside_append, Bool.or_eq_false_iff] at h
    cases p with
    | plain c => exact ih hps' h.2
    | secret a =>
      have ha := hps a List.mem_cons_self
      simp only [Piece.masked, Assignment.masked, showsOutside_append, Bool.or_eq_false_iff,
        Zone.after_append (s := a.key ++ a.separator)] at h
      have hz : z.after (a.key ++ a.separator) = .inside := by
        refine ha.after_separator.resolve_left fun houtside => ?_
        have hmarker := h.1.2
        rw [houtside] at hmarker
        exact absurd hmarker (by decide)
      rw [hz] at h
      simp only [inStrings, hz, ha.after_value hz, decide_true, Bool.true_and]
      exact ih hps' h.2

/-- **What masking does to a JSON document.** The masked text is a document of the same
outline if all secret values begin inside strings, and otherwise it is no document
at all. -/
theorem isJson_redact_iff {t : String} {o : Outline} (h : IsJson t o) :
    (IsJson (redact t) o ↔ MasksInStrings t)
      ∧ ((∃ o', IsJson (redact t) o') ↔ MasksInStrings t) := by
  have hassigned : ∀ a, .secret a ∈ split t.toList → IsAssigned a := fun a =>
    isAssigned_of_mem_split
  have htext : (redact t).toList = (split t.toList).flatMap Piece.masked := String.toList_ofList
  have hkeeps : MasksInStrings t → IsJson (redact t) o := by
    intro hmasks
    obtain ⟨ls, hls, hvalue⟩ := h
    have hreplaced := replaced_masked hassigned ((inStrings_iff _ _).mpr hmasks)
    rw [render_split, hls] at hreplaced
    obtain ⟨ls', hls', htokens⟩ := Replaced.lexemes ls hreplaced
    exact ⟨ls', by rw [htext, hls, hls'], htokens ▸ hvalue⟩
  have hmasks : ∀ o', IsJson (redact t) o' → MasksInStrings t := by
    intro o' h'
    have hshows := h'.not_showsOutside
    rw [htext] at hshows
    exact (inStrings_iff _ _).mp (inStrings_of_not_showsOutside hassigned hshows)
  exact ⟨⟨hmasks o, hkeeps⟩, fun ⟨o', h'⟩ => hmasks o' h', fun hm => ⟨o, hkeeps hm⟩⟩

/-- The inside of a string without escapes. -/
theorem isBody_of_isPlain {s : List Char} (h : ∀ c ∈ s, isPlain c = true) : IsBody s := by
  simpa using IsBody.nil.append h

/-- Two strings in an object, one of them behind a key. -/
theorem isJson_redact_iff_strings :
    IsJson "\x7b\"password\": \"hunter2\",\"user\":\"admin\"\x7d" (.object [.leaf, .leaf])
      ∧ MasksInStrings "\x7b\"password\": \"hunter2\",\"user\":\"admin\"\x7d"
      ∧ IsJson (redact "\x7b\"password\": \"hunter2\",\"user\":\"admin\"\x7d")
          (.object [.leaf, .leaf]) := by
  have hjson : IsJson "\x7b\"password\": \"hunter2\",\"user\":\"admin\"\x7d"
      (.object [.leaf, .leaf]) := by
    refine ⟨[.mark .openObject, .string "password".toList (isBody_of_isPlain (by decide)),
      .mark .colon, .gap ' ' (by decide), .string "hunter2".toList (isBody_of_isPlain (by decide)),
      .mark .comma, .string "user".toList (isBody_of_isPlain (by decide)), .mark .colon,
      .string "admin".toList (isBody_of_isPlain (by decide)), .mark .closeObject], by decide, ?_⟩
    exact @IsValue.object [.string, .mark .colon, .string, .mark .comma, .string, .mark .colon, .string]
      [.leaf, .leaf] (@IsMembers.cons [.string] _ _ _ _ .string (.last .string))
  have hmasks : MasksInStrings "\x7b\"password\": \"hunter2\",\"user\":\"admin\"\x7d" := by
    decide +kernel
  exact ⟨hjson, hmasks, (isJson_redact_iff hjson).1.mpr hmasks⟩

/-- Digits without a zero in front are a number. -/
theorem isNumber_of_isDigits {s : List Char} (h : IsDigits s) (hzero : s.head? ≠ some '0') :
    IsNumber s :=
  ⟨[], s, [], [], by simp, by decide, .inr ⟨h, hzero⟩, .inl rfl, .inl rfl⟩

/-- **A secret that is a number leaves no JSON document.** -/
theorem not_isJson_redact_number :
    IsJson "\x7b\"password\": 12345\x7d" (.object [.leaf])
      ∧ redact "\x7b\"password\": 12345\x7d" = "\x7b\"password\": [REDACTED]\x7d"
      ∧ ∀ o, ¬ IsJson (redact "\x7b\"password\": 12345\x7d") o := by
  refine ⟨⟨[.mark .openObject, .string "password".toList (isBody_of_isPlain (by decide)),
    .mark .colon, .gap ' ' (by decide),
    .number "12345".toList (isNumber_of_isDigits ⟨by decide, by decide⟩ (by decide)),
    .mark .closeObject], by decide, ?_⟩, by decide +kernel, fun o h => ?_⟩
  · exact @IsValue.object [.string, .mark .colon, .atom] [.leaf] (.last .atom)
  · exact absurd h.not_showsOutside (by decide +kernel)

end IncidentMemory.JsonText
