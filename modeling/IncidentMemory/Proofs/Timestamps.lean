import IncidentMemory.Proofs.Calendar
import IncidentMemory.Time.Timestamp
import Mathlib.Data.List.TakeWhile
import Mathlib.Data.Nat.Digits.Defs

/-!
# What is written of a timestamp is read as that timestamp

Every part of a written timestamp has a fixed number of digits, except for the
fraction, which ends where the zone begins. So each reader takes up what was
written for it and leaves the rest (`Timestamp.digits?_padded`,
`Timestamp.fraction?_renderFraction`), and the date leads back to the day.

`Timestamp.parse_render_iff` says for which timestamps this is so: those of the
years from 0 to 9999, which have four digits, in which a leap second, if there is
one, ends a minute. There are no others that could be read at all.
-/

namespace IncidentMemory

namespace Number

theorem isDigit_eq (c : Char) : isDigit c = c.isDigit := by
  show (decide ('0'.val ≤ c.val) && decide (c.val ≤ '9'.val)) = _
  rfl

theorem ofDigits_eq (ds : List Char) : ofDigits ds = Nat.ofDigitChars 10 ds 0 :=
  rfl

/-- Digits denote a number that is bounded by how many there are. -/
theorem ofDigits_lt {ds : List Char} (h : ∀ c ∈ ds, isDigit c = true) :
    ofDigits ds < 10 ^ ds.length := by
  have hfold : ∀ init, Nat.ofDigitChars 10 ds init < (init + 1) * 10 ^ ds.length := by
    induction ds with
    | nil => simp [Nat.ofDigitChars]
    | cons c ds ih =>
      intro init
      have hc : c.toNat - '0'.toNat ≤ 9 := by
        have hle := (Bool.and_eq_true_iff.mp (h c List.mem_cons_self)).2
        have : c.toNat ≤ 57 := of_decide_eq_true hle
        have : '0'.toNat = 48 := rfl
        omega
      rw [Nat.ofDigitChars_cons, List.length_cons, Nat.pow_succ, Nat.mul_comm (10 ^ _),
        ← Nat.mul_assoc]
      refine Nat.lt_of_lt_of_le (ih (fun d hd => h d (List.mem_cons_of_mem c hd)) _) ?_
      exact Nat.mul_le_mul_right _ (by omega)
  simpa [ofDigits_eq] using hfold 0

end Number

namespace Text

variable {width n : Nat}

theorem toList_padded (width n : Nat) :
    (padded width n).toList
      = List.replicate (width - (Nat.toDigits 10 n).length) '0' ++ Nat.toDigits 10 n := by
  unfold padded
  rw [String.toList_ofList, Nat.toList_repr]

/-- A number that fits is written with as many digits as there is room for. -/
theorem length_padded (hwidth : 0 < width) (h : n < 10 ^ width) :
    (padded width n).toList.length = width := by
  have hle := (Nat.length_toDigits_le_iff (b := 10) (by decide) hwidth).mpr h
  rw [toList_padded, List.length_append, List.length_replicate]
  omega

theorem isDigit_of_mem_padded {c : Char} (h : c ∈ (padded width n).toList) :
    Number.isDigit c = true := by
  rw [toList_padded, List.mem_append, List.mem_replicate] at h
  rcases h with ⟨-, rfl⟩ | h
  · rfl
  · rw [Number.isDigit_eq]
    exact Nat.isDigit_of_mem_toDigits (by decide) (by decide) h

/-- **The digits of a padded number denote it.** -/
theorem ofDigits_padded (width n : Nat) : Number.ofDigits (padded width n).toList = n := by
  rw [Number.ofDigits_eq, toList_padded, Nat.ofDigitChars_append,
    Nat.ofDigitChars_replicate_zero, Nat.mul_zero]
  exact Nat.ofDigitChars_toDigits (by decide) (by decide)

end Text

namespace Timestamp

open Text (padded)

/-! ## Parts of the notation -/

/-- **A part of a fixed width** is read as the number it was written for. -/
theorem digits?_padded {width n : Nat} (hwidth : 0 < width) (h : n < 10 ^ width)
    (rest : List Char) : digits? width width ((padded width n).toList ++ rest) = some (n, rest) := by
  have hlength := Text.length_padded hwidth h
  have hall : ((padded width n).toList ++ rest).take width = (padded width n).toList := by
    rw [List.take_append_of_le_length (Nat.le_of_eq hlength.symm),
      List.take_of_length_le (Nat.le_of_eq hlength)]
  have hdigits : (padded width n).toList.takeWhile Number.isDigit = (padded width n).toList :=
    List.takeWhile_eq_self_iff.mpr fun _ hc => Text.isDigit_of_mem_padded hc
  unfold digits?
  dsimp only
  rw [hall, hdigits, if_neg (by omega), Text.ofDigits_padded, List.drop_append_length]

theorem drop?_dash (s : List Char) : drop? '-' ("-".toList ++ s) = some s :=
  rfl

theorem drop?_colon (s : List Char) : drop? ':' (":".toList ++ s) = some s :=
  rfl

theorem dropTimeMark?_letter (s : List Char) : dropTimeMark? ("T".toList ++ s) = some s :=
  rfl

/-- What is read of a fraction is less than a second. -/
theorem fraction?_lt {s rest : List Char} {n : Nat} (h : fraction? s = some (n, rest)) :
    n < secondNanos := by
  unfold fraction? at h
  split at h
  · next s =>
    dsimp only at h
    split at h
    · exact nomatch h
    · obtain ⟨rfl, -⟩ := Prod.mk.inj (Option.some.inj h)
      generalize hkept : (s.takeWhile Number.isDigit).take 9 = kept
      have hlength : kept.length ≤ 9 := by
        rw [← hkept]
        exact List.length_take_le 9 _
      have hlt : Number.ofDigits kept < 10 ^ kept.length := by
        refine Number.ofDigits_lt fun c hc => ?_
        rw [← hkept] at hc
        exact List.mem_takeWhile_imp (List.mem_of_mem_take hc)
      calc Number.ofDigits kept * 10 ^ (9 - kept.length)
          < 10 ^ kept.length * 10 ^ (9 - kept.length) :=
            Nat.mul_lt_mul_of_pos_right hlt (Nat.pow_pos (by decide))
        _ = 10 ^ 9 := by rw [← Nat.pow_add, Nat.add_sub_cancel' hlength]
  · obtain ⟨rfl, -⟩ := Prod.mk.inj (Option.some.inj h)
    decide

/-- The digits of a fraction, and what follows them. -/
theorem fraction?_digits {ds rest : List Char} (hds : ∀ c ∈ ds, Number.isDigit c = true)
    (hne : ds ≠ []) (hnine : ds.length ≤ 9) (hrest : rest.takeWhile Number.isDigit = []) :
    fraction? ('.' :: (ds ++ rest))
      = some (Number.ofDigits ds * 10 ^ (9 - ds.length), rest) := by
  have htake : (ds ++ rest).takeWhile Number.isDigit = ds := by
    rw [List.takeWhile_append_of_pos hds, hrest, List.append_nil]
  have hempty : ds.isEmpty = false := by
    cases ds with
    | nil => exact absurd rfl hne
    | cons c ds => rfl
  rw [fraction?]
  dsimp only
  rw [htake, hempty, if_neg Bool.false_ne_true, List.take_of_length_le hnine,
    List.drop_append_length]
  rfl

/-- A fraction of so many digits is read as the nanoseconds it was written for. -/
theorem fraction?_padded {width n : Nat} (hwidth : 0 < width) (hnine : width ≤ 9)
    (h : n < 10 ^ width) {rest : List Char} (hrest : rest.takeWhile Number.isDigit = []) :
    fraction? (("." ++ padded width n).toList ++ rest) = some (n * 10 ^ (9 - width), rest) := by
  have hlength := Text.length_padded hwidth h
  have hne : (padded width n).toList ≠ [] := fun hnil => by
    rw [hnil, List.length_nil] at hlength
    omega
  rw [String.toList_append]
  refine (fraction?_digits (fun c => Text.isDigit_of_mem_padded) hne (by omega) hrest).trans ?_
  rw [hlength, Text.ofDigits_padded]

/-- What follows a fraction: neither a digit nor a point. -/
def EndsFraction (rest : List Char) : Prop :=
  rest.takeWhile Number.isDigit = [] ∧ fraction? rest = some (0, rest)

/-- **A fraction** is read as the nanoseconds it was written for. -/
theorem fraction?_renderFraction {nanos : Nat} (h : nanos < secondNanos) {rest : List Char}
    (hrest : EndsFraction rest) :
    fraction? ((renderFraction nanos).toList ++ rest) = some (nanos, rest) := by
  unfold secondNanos at h
  unfold renderFraction
  split
  · next hzero =>
    rw [hzero]
    exact hrest.2
  split
  · next hmillis =>
    rw [fraction?_padded (by decide) (by decide) (by omega) hrest.1]
    exact congrArg (fun n => some (n, rest)) (by omega)
  split
  · next hmicros =>
    rw [fraction?_padded (by decide) (by decide) (by omega) hrest.1]
    exact congrArg (fun n => some (n, rest)) (by omega)
  · rw [fraction?_padded (by decide) (by decide) (by omega) hrest.1]
    exact congrArg (fun n => some (n, rest)) (by omega)

theorem endsFraction_zone (zone : ZoneMark) : EndsFraction zone.text.toList := by
  cases zone <;> exact ⟨rfl, rfl⟩

/-- Either mark of universal time is no offset. -/
theorem zone?_text (zone : ZoneMark) : zone? (drop? ':') zone.text.toList = some (0, []) := by
  cases zone <;> rfl

/-! ## The instant -/

/-- **What an instant is**: within a second, or inside a leap second, which ends a
minute. No other timestamp is ever read (`isInstant_of_parse`,
`isInstant_of_parseLenient`). -/
def IsInstant (t : Timestamp) : Prop :=
  t.nanos < secondNanos ∨ t.nanos < 2 * secondNanos ∧ t.seconds % 60 = 59

instance (t : Timestamp) : Decidable t.IsInstant :=
  inferInstanceAs (Decidable (_ ∨ _ ∧ _))

/-- The year of an instant. -/
def year (t : Timestamp) : Int :=
  (Date.ofDayNumber (t.seconds / secondsPerDay)).year

/-- The local time that is written for an instant. -/
def toLocal (t : Timestamp) : Local :=
  let ofDay := (t.seconds % secondsPerDay).toNat
  ⟨Date.ofDayNumber (t.seconds / secondsPerDay), ofDay / 3600, ofDay / 60 % 60,
    ofDay % 60 + (if secondNanos ≤ t.nanos then 1 else 0),
    if secondNanos ≤ t.nanos then t.nanos - secondNanos else t.nanos⟩

/-- A second of a day is an hour, a minute and a second. -/
theorem toLocal_time (t : Timestamp) :
    (Date.ofDayNumber (t.seconds / secondsPerDay)).dayNumber * secondsPerDay
        + (t.toLocal.hour * 3600 + t.toLocal.minute * 60
          + (t.seconds % secondsPerDay).toNat % 60 : Nat)
      = t.seconds := by
  rw [Date.dayNumber_ofDayNumber]
  unfold toLocal secondsPerDay
  dsimp only
  omega

theorem toLocal_mem (t : Timestamp) : t.toLocal.hour < 24 ∧ t.toLocal.minute < 60
    ∧ t.toLocal.second ≤ 60 := by
  unfold toLocal secondsPerDay
  dsimp only
  split <;> omega

/-- **The local time of an instant is that instant.** -/
theorem at?_toLocal {t : Timestamp} (h : t.IsInstant) (hyear : 0 ≤ t.year ∧ t.year ≤ 9999) :
    t.toLocal.at? 0 = some t := by
  have hmem := t.toLocal_mem
  have hinstant : min t.toLocal.second 59 = (t.seconds % secondsPerDay).toNat % 60
      ∧ t.toLocal.nanos + (if t.toLocal.second = 60 then secondNanos else 0) = t.nanos := by
    unfold IsInstant at h
    unfold toLocal secondsPerDay
    dsimp only
    rcases h with hordinary | ⟨-, hlast⟩
    · rw [if_neg (by omega), if_neg (by omega), if_neg (by omega)]
      omega
    · split
      · rw [if_pos (by omega)]
        omega
      · rw [if_neg (by omega)]
        omega
  have htime := t.toLocal_time
  rw [← hinstant.1] at htime
  have hrange : yearRange.1 ≤ t.year ∧ t.year ≤ yearRange.2 :=
    ⟨Int.le_trans (by decide) hyear.1, Int.le_trans hyear.2 (by decide)⟩
  unfold year at hrange
  have hdate : t.toLocal.date = Date.ofDayNumber (t.seconds / secondsPerDay) := rfl
  unfold Local.at?
  dsimp only
  rw [hinstant.2, hdate, htime, Int.sub_zero, Date.isValid_ofDayNumber]
  have hlow := decide_eq_true hrange.1
  have hhigh := decide_eq_true hrange.2
  refine if_pos ?_
  rw [hlow, hhigh]
  simp [hmem, secondsPerDay]

/-- A date has parts of two digits. -/
theorem toLocal_date (t : Timestamp) : t.toLocal.date.month < 100 ∧ t.toLocal.date.day < 100 := by
  have hvalid : t.toLocal.date.isValid = true := Date.isValid_ofDayNumber _
  have hdays : Date.daysInMonth t.toLocal.date.year t.toLocal.date.month ≤ 31 := by
    unfold Date.daysInMonth
    split
    · split <;> decide
    all_goals decide
  unfold Date.isValid at hvalid
  simp only [Bool.and_eq_true, decide_eq_true_eq] at hvalid
  omega

theorem toLocal_nanos {t : Timestamp} (h : t.nanos < 2 * secondNanos) :
    t.toLocal.nanos < secondNanos := by
  unfold toLocal
  dsimp only
  split <;> omega

/-- A part that is read as it was written, before what follows it. -/
theorem bind_of_eq_some {α β : Type} {o : Option α} {a : α} (h : o = some a)
    (f : α → Option β) : (o >>= f) = f a := by
  rw [h]
  rfl

/-- **A local time in four-digit years is read as it was written.** -/
theorem parse_render {t : Timestamp} (hnanos : t.nanos < 2 * secondNanos)
    (hyear : 0 ≤ t.year ∧ t.year ≤ 9999) (zone : ZoneMark) :
    parse (t.render zone) = t.toLocal.at? 0 := by
  have htime := t.toLocal_mem
  have hdate := t.toLocal_date
  have hrender : t.render zone = renderYear t.year ++ "-" ++ padded 2 t.toLocal.date.month ++ "-"
      ++ padded 2 t.toLocal.date.day ++ "T" ++ padded 2 t.toLocal.hour ++ ":"
      ++ padded 2 t.toLocal.minute ++ ":" ++ padded 2 t.toLocal.second
      ++ renderFraction t.toLocal.nanos ++ zone.text := rfl
  have hwritten : renderYear t.year = padded 4 t.year.toNat := if_pos hyear
  have htwo : ∀ {n : Nat} (_ : n < 100) (rest : List Char),
      digits? 2 2 ((padded 2 n).toList ++ rest) = some (n, rest) :=
    fun h rest => digits?_padded (by decide) h rest
  have hfraction := fraction?_renderFraction (toLocal_nanos hnanos) (endsFraction_zone zone)
  rw [hrender, hwritten]
  unfold parse
  simp only [String.toList_append, List.append_assoc]
  refine (bind_of_eq_some (digits?_padded (by decide) (by omega) _) _).trans ?_
  refine (bind_of_eq_some (drop?_dash _) _).trans ?_
  refine (bind_of_eq_some (htwo hdate.1 _) _).trans ?_
  refine (bind_of_eq_some (drop?_dash _) _).trans ?_
  refine (bind_of_eq_some (htwo hdate.2 _) _).trans ?_
  refine (bind_of_eq_some (dropTimeMark?_letter _) _).trans ?_
  refine (bind_of_eq_some (htwo (by omega) _) _).trans ?_
  refine (bind_of_eq_some (drop?_colon _) _).trans ?_
  refine (bind_of_eq_some (htwo (by omega) _) _).trans ?_
  refine (bind_of_eq_some (drop?_colon _) _).trans ?_
  refine (bind_of_eq_some (htwo (by omega) _) _).trans ?_
  refine (bind_of_eq_some hfraction _).trans ?_
  refine (bind_of_eq_some (zone?_text zone) _).trans ?_
  rw [Int.toNat_of_nonneg hyear.1]
  rfl

/-- An offset of a zone is in whole minutes. -/
theorem zone?_minutes {gap : List Char → Option (List Char)} {s rest : List Char} {offset : Int}
    (h : zone? gap s = some (offset, rest)) : offset % 60 = 0 := by
  unfold zone? at h
  split at h
  · cases h
  split at h
  · obtain ⟨rfl, -⟩ := Prod.mk.inj (Option.some.inj h)
    rfl
  split at h
  · simp only [Option.bind_eq_bind, Option.bind_eq_some_iff] at h
    obtain ⟨⟨hours, s⟩, -, s, -, ⟨minutes, s⟩, -, h⟩ := h
    split at h
    · cases h
    · obtain ⟨rfl, -⟩ := Prod.mk.inj (Option.some.inj h)
      split <;> omega
  · cases h

/-- A local time with a fraction of a second, at an offset of whole minutes, is an
instant. -/
theorem isInstant_of_at? {l : Local} {offset : Int} {t : Timestamp} (h : l.at? offset = some t)
    (hnanos : l.nanos < secondNanos) (hoffset : offset % 60 = 0) : t.IsInstant := by
  unfold Local.at? at h
  dsimp only at h
  split at h
  · obtain rfl := Option.some.inj h
    unfold IsInstant secondsPerDay
    dsimp only
    by_cases hleap : l.second = 60
    · rw [if_pos hleap]
      refine .inr ⟨by omega, ?_⟩
      omega
    · rw [if_neg hleap]
      exact .inl hnanos
  · exact nomatch h

/-- Whatever is read is an instant. -/
theorem isInstant_of_parse {text : String} {t : Timestamp} (h : parse text = some t) :
    t.IsInstant := by
  unfold parse at h
  -- what is read before the fraction does not matter
  iterate 11 obtain ⟨_, -, h⟩ := Option.bind_eq_some_iff.mp h
  obtain ⟨⟨nanos, s⟩, hnanos, h⟩ := Option.bind_eq_some_iff.mp h
  obtain ⟨⟨offset, s⟩, hoffset, h⟩ := Option.bind_eq_some_iff.mp h
  obtain ⟨-, h⟩ := Option.ite_none_right_eq_some.mp h
  exact isInstant_of_at? h (fraction?_lt hnanos) (zone?_minutes hoffset)

/-- An offset that is read leniently is in whole minutes, too. -/
theorem lenientZone?_minutes {s rest : List Char} {offset : Int}
    (h : lenientZone? s = some (offset, rest)) : offset % 60 = 0 := by
  unfold lenientZone? at h
  dsimp only at h
  split at h
  · obtain ⟨rfl, -⟩ := Prod.mk.inj (Option.some.inj h)
    rfl
  · exact zone?_minutes h

/-- Whatever is read leniently is an instant, too. -/
theorem isInstant_of_parseLenient {text : String} {t : Timestamp}
    (h : parseLenient text = some t) : t.IsInstant := by
  unfold parseLenient at h
  iterate 11 obtain ⟨_, -, h⟩ := Option.bind_eq_some_iff.mp h
  obtain ⟨⟨nanos, s⟩, hnanos, h⟩ := Option.bind_eq_some_iff.mp h
  obtain ⟨⟨offset, s⟩, hoffset, h⟩ := Option.bind_eq_some_iff.mp h
  obtain ⟨-, h⟩ := Option.ite_none_right_eq_some.mp h
  exact isInstant_of_at? h (fraction?_lt hnanos) (lenientZone?_minutes hoffset)

/-- A year that is written with a sign is not read. -/
theorem parse_render_of_signed {t : Timestamp} (h : ¬ (0 ≤ t.year ∧ t.year ≤ 9999))
    (zone : ZoneMark) : parse (t.render zone) = none := by
  obtain ⟨sign, rest, hsign, hrender⟩ : ∃ sign rest, Number.isDigit sign = false
      ∧ (t.render zone).toList = sign :: rest := by
    have hwritten : renderYear t.year
        = (if t.year < 0 then "-" else "+") ++ padded 4 t.year.natAbs := if_neg h
    unfold render
    dsimp only
    rw [← year, hwritten]
    simp only [String.toList_append, List.append_assoc]
    split
    · exact ⟨'-', _, rfl, rfl⟩
    · exact ⟨'+', _, rfl, rfl⟩
  have hnone : digits? 4 4 (sign :: rest) = none := by
    unfold digits?
    dsimp only
    rw [List.take_succ_cons, List.takeWhile_cons_of_neg (by simp [hsign])]
    exact if_pos (by decide)
  unfold parse
  rw [hrender, hnone]
  rfl

/-- **The timestamps that are read as they were written** are the instants of the
years from 0 to 9999. -/
theorem parse_render_iff {t : Timestamp} (zone : ZoneMark) :
    parse (t.render zone) = some t ↔ t.IsInstant ∧ 0 ≤ t.year ∧ t.year ≤ 9999 := by
  constructor
  · intro h
    refine ⟨isInstant_of_parse h, ?_⟩
    by_contra hyear
    rw [parse_render_of_signed hyear] at h
    exact nomatch h
  · rintro ⟨hinstant, hyear⟩
    have hnanos : t.nanos < 2 * secondNanos := by
      unfold IsInstant at hinstant
      omega
    rw [parse_render hnanos hyear, at?_toLocal hinstant hyear]

end Timestamp

end IncidentMemory
