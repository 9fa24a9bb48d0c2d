import IncidentMemory.Time.Calendar

/-!
# Dates and days are the same thing

`Date.ofDayNumber` finds the date of every day, before and after 1970 alike, and
`Date.dayNumber` takes it back to the day (`Date.dayNumber_ofDayNumber`).

An era is 400 years, each from the first of March. Its days are counted by
centuries, then by groups of four years, then by years: the last group of a
century may be short of a day, and the last year of a group may have one more than
the others. In these parts (`EraDay`) the quotients that `Date.ofDayNumber`
corrects a day by can be read off.
-/

namespace IncidentMemory

/-- **A day of an era**, by its century, its group of four years, its year and the
day of that year. The first of March is day zero. -/
structure EraDay where
  /-- Which century. -/
  century : Int
  /-- Which group of four years of the century. -/
  group : Int
  /-- Which year of the group. -/
  year : Int
  /-- Which day of the year. -/
  day : Int
  century_mem : 0 ≤ century ∧ century ≤ 3
  group_mem : 0 ≤ group ∧ group ≤ 24
  year_mem : 0 ≤ year ∧ year ≤ 3
  day_nonneg : 0 ≤ day
  /-- Only the last year of a group has a leap day, and that of a century only if it
  is the last of the era. -/
  day_le : day ≤ 364 ∨ day = 365 ∧ year = 3 ∧ (group = 24 → century = 3)

namespace EraDay

/-- Which day of the era it is. -/
def number (e : EraDay) : Int :=
  36524 * e.century + 1461 * e.group + 365 * e.year + e.day

/-- Which year of the era it is in. -/
def yearOfEra (e : EraDay) : Int :=
  100 * e.century + 4 * e.group + e.year

/-- **Every day of an era has these parts.** -/
theorem exists_number {n : Int} (h₀ : 0 ≤ n) (h₁ : n < Date.daysPerEra) :
    ∃ e : EraDay, e.number = n := by
  unfold Date.daysPerEra at h₁
  let century := min (n / 36524) 3
  let group := (n - 36524 * century) / 1461
  let year := min ((n - 36524 * century - 1461 * group) / 365) 3
  refine ⟨⟨century, group, year, n - 36524 * century - 1461 * group - 365 * year, ?_, ?_, ?_, ?_,
    ?_⟩, ?_⟩
  · omega
  · omega
  · omega
  · omega
  · omega
  · unfold number
    dsimp only
    omega

theorem yearOfEra_mem (e : EraDay) : 0 ≤ e.yearOfEra ∧ e.yearOfEra ≤ 399 := by
  obtain ⟨c, q, r, d, hc, hq, hr, hd, hle⟩ := e
  unfold yearOfEra
  dsimp only
  omega

/-- **The year, from the day of the era.** -/
theorem yearOfEra_eq (e : EraDay) :
    (e.number - e.number / 1460 + e.number / 36524 - e.number / 146096) / 365 = e.yearOfEra := by
  obtain ⟨c, q, r, d, hc, hq, hr, hd, hle⟩ := e
  unfold number yearOfEra
  dsimp only
  generalize hn : 36524 * c + 1461 * q + 365 * r + d = n
  -- the last day of the era is the only one after which four centuries have passed
  have hlast : 1461 * q + 365 * r + d ≤ 36523 ∨ n = 146096 ∧ c = 3 := by omega
  have hcenturies : n / 36524 - n / 146096 = c := by omega
  have hgroups : n / 1460 = 25 * c + q + (24 * c + q + 365 * r + d) / 1460 := by omega
  have hday : 0 ≤ d - (24 * c + q + 365 * r + d) / 1460
      ∧ d - (24 * c + q + 365 * r + d) / 1460 ≤ 364 := by omega
  omega

/-- The days of the era before a year. -/
theorem daysBefore_yearOfEra (e : EraDay) :
    365 * e.yearOfEra + e.yearOfEra / 4 - e.yearOfEra / 100 = e.number - e.day := by
  obtain ⟨c, q, r, d, hc, hq, hr, hd, hle⟩ := e
  unfold number yearOfEra
  dsimp only
  omega

theorem day_mem (e : EraDay) : 0 ≤ e.day ∧ e.day ≤ 365 := by
  have := e.day_nonneg
  have := e.day_le
  omega

/-- **A year with a leap day at its end** comes before a leap year. -/
theorem isLeapYear (e : EraDay) (era : Int) (h : e.day = 365) :
    Date.isLeapYear (e.yearOfEra + era * 400 + 1) = true := by
  obtain ⟨c, q, r, d, hc, hq, hr, hd, hle⟩ := e
  unfold Date.isLeapYear yearOfEra
  dsimp only at h ⊢
  have hyear : (100 * c + 4 * q + r + era * 400 + 1) % 4 = 0 := by omega
  have hcentury : (100 * c + 4 * q + r + era * 400 + 1) % 100 ≠ 0
      ∨ (100 * c + 4 * q + r + era * 400 + 1) % 400 = 0 := by omega
  simpa [hyear] using hcentury

end EraDay

namespace Date

/-! ## Years that begin in March -/

/-- **The date of a day of a year that begins in March.** -/
def ofMarch (year day : Int) : Date :=
  let monthFromMarch := (5 * day + 2) / 153
  let month := if monthFromMarch < 10 then monthFromMarch + 3 else monthFromMarch - 9
  ⟨if month ≤ 2 then year + 1 else year, month.toNat,
    (day - (153 * monthFromMarch + 2) / 5 + 1).toNat⟩

/-- **There is such a day**, in a year with as many. -/
theorem isValid_ofMarch {year day : Int} (hday : 0 ≤ day ∧ day ≤ 365)
    (hleap : day = 365 → isLeapYear (year + 1) = true) : (ofMarch year day).isValid = true := by
  unfold isValid ofMarch
  dsimp only
  generalize hm : (5 * day + 2) / 153 = m
  have hmonths : m = 0 ∨ m = 1 ∨ m = 2 ∨ m = 3 ∨ m = 4 ∨ m = 5 ∨ m = 6 ∨ m = 7 ∨ m = 8 ∨ m = 9
      ∨ m = 10 ∨ m = 11 := by omega
  rcases hmonths with rfl | rfl | rfl | rfl | rfl | rfl | rfl | rfl | rfl | rfl | rfl | rfl
  -- the last is February, which ends with the leap day if there is one
  case inr.inr.inr.inr.inr.inr.inr.inr.inr.inr.inr =>
    by_cases hlast : day = 365
    · simp [daysInMonth, hleap hlast, hlast]
    · have : (if isLeapYear (year + 1) = true then 29 else 28) ≥ 28 := by split <;> decide
      simp [daysInMonth]
      omega
  all_goals
    simp [daysInMonth]
    omega

/-- The day number of the first of March of a year. -/
def firstOfMarch (year : Int) : Int :=
  year / 400 * daysPerEra + (year % 400 * 365 + year % 400 / 4 - year % 400 / 100) - epochShift

/-- The day number of a day of a year that begins in March. -/
theorem dayNumber_ofMarch {year day : Int} (hday : 0 ≤ day ∧ day ≤ 365) :
    (ofMarch year day).dayNumber = firstOfMarch year + day := by
  have hmonth : (5 * day + 2) / 153 ≤ 11 ∧ 0 ≤ (5 * day + 2) / 153 := by omega
  have hfirst : (153 * ((5 * day + 2) / 153) + 2) / 5 ≤ day := by omega
  unfold dayNumber ofMarch firstOfMarch
  dsimp only
  generalize (5 * day + 2) / 153 = m at hmonth hfirst ⊢
  split
  · -- a month from March on
    next h =>
    have hyear : ¬ (m + 3).toNat ≤ 2 := by omega
    have hback : (((m + 3).toNat + 9) % 12 : Nat) = m.toNat := by omega
    rw [if_neg hyear, if_neg (by omega), hback]
    omega
  · -- January and February belong to the year before
    next h =>
    have hyear : (m - 9).toNat ≤ 2 := by omega
    have hback : (((m - 9).toNat + 9) % 12 : Nat) = m.toNat := by omega
    rw [if_pos hyear, if_pos (by omega), hback, Int.add_sub_cancel]
    omega

/-! ## Days -/

/-- **Every day is a day of a year that begins in March**, of an era. -/
theorem exists_ofMarch (n : Int) : ∃ (e : EraDay) (era : Int),
    ofDayNumber n = ofMarch (e.yearOfEra + era * 400) e.day
      ∧ n = firstOfMarch (e.yearOfEra + era * 400) + e.day := by
  have hpos : (0 : Int) < daysPerEra := by decide
  obtain ⟨e, he⟩ := EraDay.exists_number (Int.emod_nonneg (n + epochShift) (Int.ne_of_gt hpos))
    (Int.emod_lt_of_pos (n + epochShift) hpos)
  refine ⟨e, (n + epochShift) / daysPerEra, ?_, ?_⟩
  · have hday : e.number
        - (365 * e.yearOfEra + e.yearOfEra / 4 - e.yearOfEra / 100) = e.day := by
      rw [e.daysBefore_yearOfEra]
      omega
    unfold ofDayNumber ofMarch
    dsimp only
    rw [← he, e.yearOfEra_eq, hday]
  · have hsplit := Int.mul_ediv_add_emod (n + epochShift) daysPerEra
    have hyear := e.yearOfEra_mem
    have hbefore := e.daysBefore_yearOfEra
    generalize (n + epochShift) / daysPerEra = era at hsplit ⊢
    rw [← he] at hsplit
    unfold firstOfMarch
    have hera : (e.yearOfEra + era * 400) / 400 = era := by omega
    have hrest : (e.yearOfEra + era * 400) % 400 = e.yearOfEra := by omega
    rw [hera, hrest]
    rw [Int.mul_comm] at hsplit
    omega

/-- **The date of a day is that day.** -/
theorem dayNumber_ofDayNumber (n : Int) : (ofDayNumber n).dayNumber = n := by
  obtain ⟨e, era, hdate, hn⟩ := exists_ofMarch n
  rw [hdate, dayNumber_ofMarch e.day_mem, ← hn]

/-- **There is such a date.** -/
theorem isValid_ofDayNumber (n : Int) : (ofDayNumber n).isValid = true := by
  obtain ⟨e, era, hdate, -⟩ := exists_ofMarch n
  rw [hdate]
  exact isValid_ofMarch e.day_mem (e.isLeapYear era)

end Date

end IncidentMemory
