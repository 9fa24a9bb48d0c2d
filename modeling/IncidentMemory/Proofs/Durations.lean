import IncidentMemory.Proofs.Splitting
import IncidentMemory.Proofs.Timestamps
import IncidentMemory.Proofs.WholeNumbers

/-!
# What a written duration denotes

A clock time `D.H:M:S` or `H:M:S` denotes a number of seconds, and so does a number with a unit.
`Duration.parse_written` says that this number is what is read, with any zeros in front of the parts
and any white space around the whole, and when it is refused instead.

The two notations are read in different ways. Of a clock time only the seconds are a double, and the
rest is added up in words of 64 bits with a check at every step but one, the product of the minutes,
which are below sixty there (`Duration.bind_sum`). A number with a unit is a double throughout, so
the reading is exact as long as the number of seconds is below `2 ^ 53` (`Number.double_mul`).

A numeral may have any number of digits. It is refused as a word if it is too large for one, and as
a double it is still not below sixty then (`Number.double_lt_double`), even where reading it gives
infinity (`Number.nearest_of_digitCount`).
-/

namespace IncidentMemory

/-! ## White space -/

namespace Text

/-- White space goes as far as it goes. -/
theorem dropWhile_append_of_isBlank {blank core : List Char}
    (hblank : ∀ c ∈ blank, isBlank c = true) (hcore : ∀ c ∈ core, isBlank c = false)
    (hne : core ≠ []) (rest : List Char) :
    (blank ++ (core ++ rest)).dropWhile isBlank = core ++ rest := by
  obtain ⟨c, core, rfl⟩ := List.exists_cons_of_ne_nil hne
  rw [List.dropWhile_append_of_pos hblank, List.cons_append, List.dropWhile_cons_of_neg]
  simp [hcore c List.mem_cons_self]

/-- **White space around a text is taken away**, if there is none inside. -/
theorem trimChars_append {before core after : List Char}
    (hbefore : ∀ c ∈ before, isBlank c = true) (hafter : ∀ c ∈ after, isBlank c = true)
    (hcore : ∀ c ∈ core, isBlank c = false) (hne : core ≠ []) :
    trimChars (before ++ (core ++ after)) = core := by
  have hafter' : ∀ c ∈ after.reverse, isBlank c = true := by simpa using hafter
  have hcore' : ∀ c ∈ core.reverse, isBlank c = false := by simpa using hcore
  have hend := dropWhile_append_of_isBlank hafter' hcore' (by simpa using hne) []
  rw [List.append_nil] at hend
  rw [trimChars, dropWhile_append_of_isBlank hbefore hcore hne, List.reverse_append, hend,
    List.reverse_reverse]

theorem isBlank_of_isDigit {c : Char} (h : Number.isDigit c = true) : isBlank c = false := by
  obtain ⟨hlow, hhigh⟩ := Bool.and_eq_true_iff.mp h
  have hlow' : 48 ≤ c.toNat := of_decide_eq_true hlow
  have hhigh' : c.toNat ≤ 57 := of_decide_eq_true hhigh
  unfold isBlank blankRanges
  simp
  omega

theorem padded_ne_nil (width n : Nat) : (padded width n).toList ≠ [] := by
  rw [toList_padded]
  simp [Nat.toDigits_ne_nil]

end Text

/-! ## Numerals -/

namespace Number

open Text (padded)

variable {ds : List Char}

theorem ne_of_isDigit {c d : Char} (hc : isDigit c = true) (hd : isDigit d = false) : c ≠ d := by
  rintro rfl
  simp [hc] at hd

/-- Digits alone have no sign. -/
theorem readWord_eq (h : ∀ c ∈ ds, isDigit c = true) (hne : ds ≠ []) :
    readWord ds = if ofDigits ds ≤ maxWord then some (ofDigits ds) else none := by
  obtain ⟨c, ds, rfl⟩ := List.exists_cons_of_ne_nil hne
  have hc := ne_of_isDigit (d := '+') (h c List.mem_cons_self) (by decide)
  have hall : (c :: ds).all isDigit = true := List.all_eq_true.mpr h
  have hdigits : readWord (c :: ds) = readDigits maxWord (c :: ds) := by
    unfold readWord readNat
    split
    · next heq => exact absurd (List.cons.inj heq).1 hc
    · rfl
  rw [hdigits, readDigits, hall]
  rfl

theorem readWord_padded (width n : Nat) :
    readWord (padded width n).toList = if n ≤ maxWord then some n else none := by
  rw [readWord_eq (fun c hc => Text.isDigit_of_mem_padded hc) (Text.padded_ne_nil width n),
    Text.ofDigits_padded]

theorem map_lowerAscii (h : ∀ c ∈ ds, isDigit c = true) : ds.map Text.lowerAscii = ds := by
  refine (List.map_congr_left fun c hc => ?_).trans (List.map_id ds)
  have hhigh : c.toNat ≤ 57 := of_decide_eq_true (Bool.and_eq_true_iff.mp (h c hc)).2
  have hupper : ¬ ('A' ≤ c ∧ c ≤ 'Z') := fun hupper => by
    have hlow : 65 ≤ c.toNat := hupper.1
    omega
  rw [Text.lowerAscii, if_neg hupper, id]

/-- Digits are not a word. -/
theorem ofList_ne_of_isDigit (h : ∀ c ∈ ds, isDigit c = true) (word : String) {c : Char}
    (hc : c ∈ word.toList) (hletter : isDigit c = false) :
    String.ofList (ds.map Text.lowerAscii) ≠ word := by
  rintro rfl
  rw [map_lowerAscii h, String.toList_ofList] at hc
  rw [h c hc] at hletter
  exact Bool.noConfusion hletter

theorem readDecimal_eq (h : ∀ c ∈ ds, isDigit c = true) (hne : ds ≠ []) :
    readDecimal ds = some ⟨ofDigits ds, 0⟩ := by
  have hwhole : ds.span isDigit = (ds, []) := by
    rw [List.span_eq_takeWhile_dropWhile, List.takeWhile_eq_self_iff.mpr h,
      List.dropWhile_eq_nil_iff.mpr h]
  have hempty : (ds.isEmpty && ([] : List Char).isEmpty) = false := by
    rw [List.isEmpty_eq_false_iff.mpr hne, Bool.false_and]
  unfold readDecimal
  rw [hwhole]
  dsimp only
  rw [hempty, List.append_nil]
  rfl

/-- A digit takes more than three bits. -/
theorem le_log2_of_lt_digitCount {n k : Nat} (hk : 0 < k) (h : k < digitCount n) :
    n ≠ 0 ∧ 3 * k ≤ n.log2 := by
  have hn : n ≠ 0 := by
    rintro rfl
    simp [digitCount] at h
  rw [digitCount, if_neg hn] at h
  have hlarge : 10 ^ k ≤ n := Nat.le_of_not_lt fun hlt =>
    Nat.not_le_of_lt h ((Nat.length_toDigits_le_iff (by decide) hk).mpr hlt)
  refine ⟨hn, (Nat.le_log2 hn).mpr ?_⟩
  calc 2 ^ (3 * k) = 8 ^ k := Nat.pow_mul 2 3 k
    _ ≤ 10 ^ k := Nat.pow_le_pow_left (by decide) k
    _ ≤ n := hlarge

/-- A number with more than 400 digits is beyond the largest double. -/
theorem nearest_of_digitCount {n : Nat} (h : 400 < digitCount n) :
    binary64.nearest n 1 = binary64.infinityBits := by
  obtain ⟨hn, hlog⟩ := le_log2_of_lt_digitCount (by decide) h
  have hround := Nat.le_trans (le_scaled_div hn 52)
    (le_roundHalfEven (Format.scaled n 1 (52 - n.log2)).1 (Format.scaled n 1 (52 - n.log2)).2)
  have hinf : binary64.infinityBits = 2047 * 4503599627370496 := rfl
  rw [nearest_one hn]
  omega

theorem bits_decimal (n : Nat) : (Decimal.mk n 0).bits binary64 = binary64.nearest n 1 := by
  unfold Decimal.bits
  dsimp only
  by_cases hn : n = 0
  · rw [if_pos hn, hn]
    rfl
  · rw [if_neg hn, if_neg (by omega)]
    split
    · next hcount => exact (nearest_of_digitCount (by omega)).symm
    · simp

theorem readNumeral_eq (h : ∀ c ∈ ds, isDigit c = true) (hne : ds ≠ []) :
    readNumeral ds = some (.finite false ⟨ofDigits ds, 0⟩) := by
  have hinf := ofList_ne_of_isDigit h "inf" (c := 'i') (by decide) (by decide)
  have hinfinity := ofList_ne_of_isDigit h "infinity" (c := 'i') (by decide) (by decide)
  have hnan := ofList_ne_of_isDigit h "nan" (c := 'n') (by decide) (by decide)
  have hread := readDecimal_eq h hne
  obtain ⟨c, ds, rfl⟩ := List.exists_cons_of_ne_nil hne
  have hplus := ne_of_isDigit (d := '+') (h c List.mem_cons_self) (by decide)
  have hminus := ne_of_isDigit (d := '-') (h c List.mem_cons_self) (by decide)
  unfold readNumeral
  split
  · next heq =>
    split at heq
    · next hsign => exact absurd (List.cons.inj hsign).1 hminus
    · next hsign => exact absurd (List.cons.inj hsign).1 hplus
    · obtain ⟨rfl, rfl⟩ := Prod.mk.inj heq
      simp only [hinf, hinfinity, hnan, decide_false, Bool.or_false, Bool.false_eq_true, if_false,
        hread, Option.map_some]

/-- **Digits are read as the double nearest to the number**, however many there are. -/
theorem readFloat_padded (width n : Nat) :
    readFloat (padded width n).toList = some (double n) := by
  rw [readFloat, readNumeral_eq (fun c hc => Text.isDigit_of_mem_padded hc)
    (Text.padded_ne_nil width n), Text.ofDigits_padded, Option.map_some, Numeral.toFloat,
    bits_decimal, double_natCast]

end Number

/-! ## Clock times -/

open Number (isDigit maxWord double)
open Text (padded)

/-- **A time on the clock**, with days in front or without. -/
structure ClockTime where
  /-- The days, if there are any in front. -/
  days : Option Nat
  /-- The hours, of which there may be more than a day has. -/
  hours : Nat
  /-- The minutes. -/
  minutes : Nat
  /-- The seconds. -/
  seconds : Nat

/-- How many digits each part of a notation is filled up to with zeros. -/
structure Widths where
  /-- Width of the days. -/
  days : Nat
  /-- Width of the hours. -/
  hours : Nat
  /-- Width of the minutes. -/
  minutes : Nat
  /-- Width of the seconds. -/
  seconds : Nat

namespace ClockTime

variable (t : ClockTime) (w : Widths)

/-- The number of days; none if they are not given. -/
def dayCount : Nat :=
  t.days.getD 0

/-- **The number of seconds it denotes.** -/
def total : Nat :=
  t.dayCount * 86400 + t.hours * 3600 + t.minutes * 60 + t.seconds

/-- Minutes and seconds are below sixty, and hours below 24 if there are days. -/
def IsRegular : Prop :=
  t.minutes < 60 ∧ t.seconds < 60 ∧ (t.dayCount = 0 ∨ t.hours < 24)

instance : Decidable t.IsRegular :=
  inferInstanceAs (Decidable (_ ∧ _))

/-- Every number of seconds is that of a regular clock time, with days in front and without. -/
theorem exists_isRegular (n : Nat) :
    (∃ t : ClockTime, t.days.isSome ∧ t.IsRegular ∧ t.total = n)
      ∧ ∃ t : ClockTime, t.days = none ∧ t.IsRegular ∧ t.total = n := by
  have hminutes : n / 60 % 60 < 60 := Nat.mod_lt _ (by decide)
  have hseconds : n % 60 < 60 := Nat.mod_lt _ (by decide)
  have hhours : n / 3600 % 24 < 24 := Nat.mod_lt _ (by decide)
  refine ⟨⟨⟨some (n / 86400), n / 3600 % 24, n / 60 % 60, n % 60⟩, rfl,
      ⟨hminutes, hseconds, .inr hhours⟩, ?_⟩,
    ⟨⟨none, n / 3600, n / 60 % 60, n % 60⟩, rfl, ⟨hminutes, hseconds, .inl rfl⟩, ?_⟩⟩
  · show n / 86400 * 86400 + n / 3600 % 24 * 3600 + n / 60 % 60 * 60 + n % 60 = n
    omega
  · show 0 * 86400 + n / 3600 * 3600 + n / 60 % 60 * 60 + n % 60 = n
    omega

/-- **What it should be read as**: that many seconds, if it is regular and they are a positive
number of 64 bits. -/
def duration? : Option Duration :=
  if t.IsRegular ∧ 1 ≤ t.total ∧ t.total ≤ 2 ^ 64 - 1 then some (.ofSeconds t.total) else none

/-- The days and the hours as they are written, `D.H` or `H`. -/
def head : List Char :=
  match t.days with
  | none => (padded w.hours t.hours).toList
  | some d => (padded w.days d).toList ++ '.' :: (padded w.hours t.hours).toList

/-- **The clock time as it is written**, `D.H:M:S` or `H:M:S`. -/
def written : String :=
  String.ofList (t.head w) ++ ":" ++ padded w.minutes t.minutes ++ ":" ++ padded w.seconds t.seconds

theorem toList_written :
    (t.written w).toList = t.head w ++ ':' ::
      ((padded w.minutes t.minutes).toList ++ ':' :: (padded w.seconds t.seconds).toList) := by
  simp [written, String.toList_append]

end ClockTime

theorem not_mem_padded {c : Char} (hc : isDigit c = false) (width n : Nat) :
    c ∉ (padded width n).toList := by
  intro hmem
  rw [Text.isDigit_of_mem_padded hmem] at hc
  exact Bool.noConfusion hc

namespace Duration

variable (t : ClockTime) (w : Widths)

theorem parseDayHour_head :
    parseDayHour (t.head w)
      = if t.dayCount ≤ maxWord ∧ t.hours ≤ maxWord then some (t.dayCount, t.hours) else none := by
  have hpoint : ∀ width n, '.' ∉ (padded width n).toList := not_mem_padded (by decide)
  obtain ⟨days, hours, minutes, seconds⟩ := t
  cases days with
  | none =>
    show parseDayHour (padded w.hours hours).toList = _
    rw [parseDayHour, Text.splitOnce_of_not_mem (hpoint _ _), Number.readWord_padded]
    simp [ClockTime.dayCount]
  | some d =>
    show parseDayHour ((padded w.days d).toList ++ '.' :: (padded w.hours hours).toList) = _
    rw [parseDayHour, Text.splitOnce_append (hpoint _ _)]
    simp only [Number.readWord_padded, ClockTime.dayCount, Option.getD_some]
    by_cases hdays : d ≤ maxWord <;> by_cases hhours : hours ≤ maxWord <;> simp [hdays, hhours]

theorem add?_ofSeconds (a b : Nat) :
    (ofSeconds a).add? (ofSeconds b)
      = if a + b ≤ maxWord then some (ofSeconds (a + b)) else none := by
  have hnanos : (ofSeconds a).nanos + (ofSeconds b).nanos = (ofSeconds (a + b)).nanos :=
    (Nat.add_mul a b nanosPerSecond).symm
  simp only [add?, hnanos, isRepresentable_ofSeconds, decide_eq_true_eq]

/-- **Parts are added up without overflow**, or there is no result. -/
theorem bind_sum {α : Type} (a b c p q : Nat) (f : Nat → Option α) :
    ((mulWord? a p).bind fun x => (mulWord? b q).bind fun y => (addWord? x y).bind fun whole =>
        (addWord? whole c).bind f)
      = if a * p + b * q + c ≤ maxWord then f (a * p + b * q + c) else none := by
  unfold mulWord? addWord?
  -- where a part is too large, so is the sum
  by_cases ha : a * p ≤ maxWord
  · by_cases hb : b * q ≤ maxWord
    · by_cases hboth : a * p + b * q ≤ maxWord
      · by_cases hall : a * p + b * q + c ≤ maxWord <;> simp [ha, hb, hboth, hall]
      · simp [ha, hb, hboth, mt Nat.le_of_add_right_le hboth]
    · have hover : ¬ a * p + b * q + c ≤ maxWord := by omega
      simp [ha, hb, hover]
  · have hover : ¬ a * p + b * q + c ≤ maxWord := by omega
    simp [ha, hover]

theorem bind_seconds {s : Nat} (h : s < 9007199254740992) (whole : Nat) :
    ((ofFloat? (double s)).bind fun fraction => (ofSeconds whole).add? fraction)
      = if whole + s ≤ maxWord then some (ofSeconds (whole + s)) else none := by
  rw [ofFloat?_double h, Option.bind_some, add?_ofSeconds]

theorem bind_ite {α β : Type} (c : Prop) [Decidable c] (a : α) (f : α → Option β) :
    (if c then some a else none).bind f = if c then f a else none := by
  split <;> rfl

/-- What is checked of the parts is that they are regular. -/
theorem checks_eq {α : Type} (x : Option α) :
    (if (24 ≤ t.hours ∧ 0 < t.dayCount) ∨ 60 ≤ t.minutes then none
      else if !((0 : Float) ≤ double t.seconds && double t.seconds < (60 : Float)) then none
      else x) = if t.IsRegular then x else none := by
  have hsixty : (60 : Float) = double 60 := Float.toBits_inj.mp (by decide)
  have hlow : decide ((0 : Float) ≤ double t.seconds) = true := by
    rw [Number.zero_eq]
    exact decide_eq_true (Number.zero_le_double t.seconds)
  have hhigh : decide (double t.seconds < (60 : Float)) = decide (t.seconds < 60) := by
    rw [hsixty]
    exact decide_eq_decide.mpr (Number.double_lt_double (by decide))
  have hregular : t.IsRegular
      ↔ ¬ ((24 ≤ t.hours ∧ 0 < t.dayCount) ∨ 60 ≤ t.minutes) ∧ t.seconds < 60 := by
    unfold ClockTime.IsRegular
    omega
  rw [hlow, hhigh, Bool.true_and]
  by_cases hparts : (24 ≤ t.hours ∧ 0 < t.dayCount) ∨ 60 ≤ t.minutes
  · rw [if_pos hparts, if_neg fun h => (hregular.mp h).1 hparts]
  · rw [if_neg hparts]
    by_cases hseconds : t.seconds < 60
    · rw [decide_eq_true hseconds, if_pos (hregular.mpr ⟨hparts, hseconds⟩)]
      rfl
    · rw [decide_eq_false hseconds, if_neg fun h => hseconds (hregular.mp h).2]
      rfl

theorem not_mem_head {c : Char} (hc : isDigit c = false) (hpoint : c ≠ '.') : c ∉ t.head w := by
  have hnot := not_mem_padded hc
  unfold ClockTime.head
  split
  · exact hnot _ _
  · simp [hnot, hpoint]

/-- No part is larger than the sum. -/
theorem parts_le {bound : Nat} (h : t.total ≤ bound) :
    (t.dayCount ≤ bound ∧ t.hours ≤ bound) ∧ t.minutes ≤ bound
      ∧ t.dayCount * 86400 + t.hours * 3600 + t.minutes * 60 ≤ bound := by
  unfold ClockTime.total at h
  omega

/-- **A written clock time is read**, if it is regular and not too long. -/
theorem parseClock_written :
    parseClock (t.written w).toList
      = if t.IsRegular ∧ t.total ≤ maxWord then some (ofSeconds t.total) else none := by
  have hcolon : ∀ width n, ':' ∉ (padded width n).toList := not_mem_padded (by decide)
  have hsplit : Text.splitAt ':' (t.written w).toList
      = [t.head w, (padded w.minutes t.minutes).toList, (padded w.seconds t.seconds).toList] := by
    rw [ClockTime.toList_written, Text.splitAt_append (not_mem_head t w (by decide) (by decide)),
      Text.splitAt_append (hcolon _ _), Text.splitAt_of_not_mem (hcolon _ _)]
  unfold parseClock
  rw [hsplit]
  dsimp only
  rw [parseDayHour_head, Number.readWord_padded, Number.readFloat_padded]
  simp only [Option.bind_eq_bind, bind_ite]
  rw [Option.bind_some, checks_eq, bind_sum]
  by_cases hregular : t.IsRegular
  · have hproduct : mulWord t.minutes 60 = t.minutes * 60 :=
      Nat.mod_eq_of_lt (Nat.lt_of_lt_of_le
        (Nat.mul_lt_mul_of_pos_right hregular.1 (by decide)) (by decide))
    have htotal : t.dayCount * 86400 + t.hours * 3600 + t.minutes * 60 + t.seconds = t.total := rfl
    rw [if_pos hregular, hproduct, bind_seconds (Nat.lt_trans hregular.2.1 (by decide)), htotal]
    simp only [hregular, true_and]
    by_cases hfits : t.total ≤ maxWord
    · obtain ⟨hhead, hminutes, hwhole⟩ := parts_le t hfits
      rw [if_pos hhead, if_pos hminutes, if_pos hwhole]
    · rw [if_neg hfits]
      simp only [ite_self]
  · rw [if_neg hregular, if_neg fun h : t.IsRegular ∧ _ => hregular h.1]
    simp only [ite_self]

end Duration

/-! ## Numbers with a unit -/

/-- **A unit of time** whose multiples are whole seconds. -/
inductive TimeUnit where
  /-- No unit, which stands for seconds. -/
  | none
  /-- Seconds, `s`. -/
  | seconds
  /-- Minutes, `m`. -/
  | minutes
  /-- Hours, `h`. -/
  | hours
  /-- Days, `d`. -/
  | days

namespace TimeUnit

/-- How the unit is written. -/
def symbol : TimeUnit → String
  | none => ""
  | seconds => "s"
  | minutes => "m"
  | hours => "h"
  | days => "d"

/-- How many seconds it has. -/
def factor : TimeUnit → Nat
  | none => 1
  | seconds => 1
  | minutes => 60
  | hours => 3600
  | days => 86400

/-- **A number with the unit behind it.** -/
def written (u : TimeUnit) (width n : Nat) : String :=
  padded width n ++ u.symbol

theorem factor_mem (u : TimeUnit) : 0 < u.factor ∧ u.factor ≤ 86400 := by
  cases u <;> decide

theorem lt_of_mul_lt (u : TimeUnit) {n bound : Nat} (h : n * u.factor < bound) : n < bound :=
  Nat.lt_of_le_of_lt (Nat.le_mul_of_pos_right n u.factor_mem.1) h

theorem one_le_mul_iff (u : TimeUnit) (n : Nat) : 1 ≤ n * u.factor ↔ n ≠ 0 := by
  rw [Nat.one_le_iff_ne_zero, Nat.mul_ne_zero_iff]
  exact and_iff_left u.factor_mem.1.ne'

theorem mem_symbol (u : TimeUnit) {c : Char} (h : c ∈ u.symbol.toList) :
    c ≠ ':' ∧ Text.isBlank c = false := by
  cases u <;> simp [symbol] at h <;> rw [h] <;> decide

theorem toList_written (u : TimeUnit) (width n : Nat) :
    (u.written width n).toList = (padded width n).toList ++ u.symbol.toList :=
  String.toList_append

end TimeUnit

namespace Duration

variable (u : TimeUnit) (width n : Nat)

/-- A unit multiplies a number by its seconds. -/
theorem inSeconds_double (h : n * u.factor < 9007199254740992) :
    inSeconds (double n) (String.ofList (Text.trimChars u.symbol.toList))
      = some (double (n * u.factor : Nat)) := by
  have hfactor : u.factor < 9007199254740992 := Nat.lt_of_le_of_lt u.factor_mem.2 (by decide)
  have hmul := Number.double_mul (u.lt_of_mul_lt h) hfactor h
  have hminute : (60 : Float) = double 60 := Float.toBits_inj.mp (by decide)
  have hhour : (3600 : Float) = double 3600 := Float.toBits_inj.mp (by decide)
  have hday : (86400 : Float) = double 86400 := Float.toBits_inj.mp (by decide)
  cases u with
  | none =>
    show some (double n) = some (double (n * 1 : Nat))
    rw [Nat.mul_one]
  | seconds =>
    show some (double n) = some (double (n * 1 : Nat))
    rw [Nat.mul_one]
  | minutes =>
    show some (double n * 60) = _
    rw [hminute, ← hmul]
    rfl
  | hours =>
    show some (double n * 3600) = _
    rw [hhour, ← hmul]
    rfl
  | days =>
    show some (double n * 86400) = _
    rw [hday, ← hmul]
    rfl

/-- **A number with a unit is read** as that many seconds. -/
theorem parseWithUnit_written (h : n * u.factor < 9007199254740992) :
    parseWithUnit (u.written width n).toList = some (ofSeconds (n * u.factor)) := by
  have hnumber : ∀ c ∈ (padded width n).toList, (isDigit c || decide (c = '.')) = true :=
    fun c hc => by rw [Text.isDigit_of_mem_padded hc, Bool.true_or]
  have htake : (u.written width n).toList.takeWhile (fun c => isDigit c || decide (c = '.'))
      = (padded width n).toList := by
    rw [u.toList_written, List.takeWhile_append_of_pos hnumber]
    cases u <;> exact List.append_nil _
  have hdrop : (u.written width n).toList.dropWhile (fun c => isDigit c || decide (c = '.'))
      = u.symbol.toList := by
    rw [u.toList_written, List.dropWhile_append_of_pos hnumber]
    cases u <;> rfl
  unfold parseWithUnit
  dsimp only
  rw [htake, hdrop, Number.readFloat_padded, Option.bind_eq_bind, Option.bind_some,
    Number.isFinite_double (u.lt_of_mul_lt h), inSeconds_double u n h]
  simp only [Option.bind_some]
  rw [ofFloat?_double h]
  rfl

end Duration

/-! ## Durations as they are written -/

/-- White space before and after a text. -/
structure Margins where
  /-- What precedes the text. -/
  before : String
  /-- What follows it. -/
  after : String
  /-- All of it is white space. -/
  blank : ∀ c ∈ before.toList ++ after.toList, Text.isBlank c = true

/-- **A text with white space around it.** -/
def Margins.around (b : Margins) (s : String) : String :=
  b.before ++ s ++ b.after

namespace Duration

variable (b : Margins)

theorem nanos_pos_iff (n : Nat) : 0 < (ofSeconds n).nanos ↔ 1 ≤ n :=
  Nat.mul_pos_iff_of_pos_right (by decide)

theorem filter_ofSeconds (n : Nat) :
    (some (ofSeconds n)).filter (fun d => decide (0 < d.nanos))
      = if 1 ≤ n then some (ofSeconds n) else none := by
  rw [Option.filter_some]
  by_cases hn : 1 ≤ n
  · rw [if_pos hn, decide_eq_true ((nanos_pos_iff n).mpr hn), if_pos rfl]
  · rw [if_neg hn, decide_eq_false (mt (nanos_pos_iff n).mp hn), if_neg Bool.false_ne_true]

/-- Only what stands between the white space is looked at. -/
theorem parse_around {s : String} (hs : ∀ c ∈ s.toList, Text.isBlank c = false)
    (hne : s.toList ≠ []) :
    parse (b.around s) = (if s.toList.contains ':' then parseClock s.toList
      else parseWithUnit s.toList).filter fun d => 0 < d.nanos := by
  have htrim : Text.trimChars (b.around s).toList = s.toList := by
    unfold Margins.around
    rw [String.toList_append, String.toList_append, List.append_assoc]
    exact Text.trimChars_append (fun c hc => b.blank c (List.mem_append_left _ hc))
      (fun c hc => b.blank c (List.mem_append_right _ hc)) hs hne
  unfold parse
  dsimp only
  rw [htrim]

theorem isBlank_of_mem_padded {c : Char} {width n : Nat} (h : c ∈ (padded width n).toList) :
    Text.isBlank c = false :=
  Text.isBlank_of_isDigit (Text.isDigit_of_mem_padded h)

theorem isBlank_of_mem_written {t : ClockTime} {w : Widths} {c : Char}
    (h : c ∈ (t.written w).toList) : Text.isBlank c = false := by
  have hhead : ∀ c ∈ t.head w, Text.isBlank c = false := by
    intro c hc
    unfold ClockTime.head at hc
    split at hc
    · exact isBlank_of_mem_padded hc
    · rw [List.mem_append, List.mem_cons] at hc
      obtain hc | rfl | hc := hc
      · exact isBlank_of_mem_padded hc
      · decide
      · exact isBlank_of_mem_padded hc
  rw [t.toList_written, List.mem_append, List.mem_cons, List.mem_append, List.mem_cons] at h
  obtain hc | rfl | hc | rfl | hc := h
  · exact hhead c hc
  · decide
  · exact isBlank_of_mem_padded hc
  · decide
  · exact isBlank_of_mem_padded hc

/-- **A clock time** as it is written. -/
theorem parse_clock (t : ClockTime) (w : Widths) :
    parse (b.around (t.written w)) = t.duration? := by
  have hcolon : ':' ∈ (t.written w).toList := by
    rw [t.toList_written]
    exact List.mem_append_right _ List.mem_cons_self
  have hbound : maxWord = 2 ^ 64 - 1 := by norm_num [maxWord]
  rw [parse_around b (fun c hc => isBlank_of_mem_written hc) (List.ne_nil_of_mem hcolon),
    if_pos (List.contains_iff_mem.mpr hcolon), parseClock_written, hbound]
  unfold ClockTime.duration?
  by_cases hfits : t.IsRegular ∧ t.total ≤ 2 ^ 64 - 1
  · rw [if_pos hfits, filter_ofSeconds]
    simp only [hfits, and_true, true_and]
  · rw [if_neg hfits, if_neg fun h => hfits ⟨h.1, h.2.2⟩]
    rfl

/-- **A number with a unit** as it is written. -/
theorem parse_unit (u : TimeUnit) (width n : Nat) (h : n * u.factor < 9007199254740992) :
    parse (b.around (u.written width n))
      = if n = 0 then none else some (ofSeconds (n * u.factor)) := by
  have hcolon : ':' ∉ (u.written width n).toList := by
    rw [u.toList_written, List.mem_append]
    rintro (hc | hc)
    · exact not_mem_padded (by decide) width n hc
    · exact (u.mem_symbol hc).1 rfl
  have hblank : ∀ c ∈ (u.written width n).toList, Text.isBlank c = false := by
    intro c hc
    rw [u.toList_written, List.mem_append] at hc
    obtain hc | hc := hc
    · exact isBlank_of_mem_padded hc
    · exact (u.mem_symbol hc).2
  have hne : (u.written width n).toList ≠ [] := by
    rw [u.toList_written]
    exact List.append_ne_nil_of_left_ne_nil (Text.padded_ne_nil width n) _
  rw [parse_around b hblank hne, if_neg (mt List.contains_iff_mem.mp hcolon),
    parseWithUnit_written u width n h, filter_ofSeconds]
  simp only [u.one_le_mul_iff, ne_eq, ite_not]

/-- **What a written duration denotes.** With any white space around it and any zeros in front of
its parts, a clock time is read as its number of seconds if it is regular and that number is
positive and has 64 bits, and is refused otherwise; and a number with a unit, as long as it denotes
fewer than `2 ^ 53` seconds, is read as that many unless it is zero, which is what every regular
clock time of as many seconds is read as. -/
theorem parse_written :
    (∀ (b : Margins) (t : ClockTime) (w : Widths), parse (b.around (t.written w)) = t.duration?)
      ∧ ∀ (b : Margins) (u : TimeUnit) (width n : Nat), n * u.factor < 2 ^ 53 →
          parse (b.around (u.written width n))
              = (if n = 0 then none else some (ofSeconds (n * u.factor)))
            ∧ ∀ (b' : Margins) (t : ClockTime) (w : Widths), t.IsRegular →
                t.total = n * u.factor →
                parse (b'.around (t.written w)) = parse (b.around (u.written width n)) := by
  refine ⟨parse_clock, fun b u width n h => ?_⟩
  have hunit := parse_unit b u width n (by norm_num at h; exact h)
  refine ⟨hunit, fun b' t w hregular htotal => ?_⟩
  rw [parse_clock, hunit]
  have hword : n * u.factor ≤ 2 ^ 64 - 1 := Nat.le_of_lt (Nat.lt_of_lt_of_le h (by norm_num))
  unfold ClockTime.duration?
  simp only [htotal, hregular, hword, u.one_le_mul_iff, ne_eq, ite_not, and_true, true_and]

theorem parse_written_minutes :
    90 * TimeUnit.minutes.factor < 2 ^ 53 ∧ parse " 090m\n" = some (ofSeconds 5400)
      ∧ parse "01:30:0" = parse " 090m\n" := by
  have hbound : 90 * TimeUnit.minutes.factor < 2 ^ 53 := by decide
  have hblank : ∀ c ∈ " ".toList ++ "\n".toList, Text.isBlank c = true := by
    simp
    decide
  have hread := parse_written.2 ⟨" ", "\n", hblank⟩ .minutes 3 90 hbound
  have hclock := hread.2 ⟨"", "", nofun⟩ ⟨none, 1, 30, 0⟩ ⟨0, 2, 0, 0⟩ (by decide) rfl
  exact ⟨hbound, hread.1, hclock⟩

end Duration

end IncidentMemory
