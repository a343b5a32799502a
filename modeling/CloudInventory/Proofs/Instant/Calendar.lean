import CloudInventory.Instant

/-!
Dates and days. Years are counted from March, and four hundred of them are an era of 146097 days.
Within an era the year of a day is found by taking out the leap days before it, and within a year
the month by the 153 days of five months. So each day has a date, and is the day of this date.
-/

namespace CloudInventory.Instant

/-! ### Years of an era -/

/-- The days of an era before one of its years. -/
def daysBefore (year : Nat) : Nat := 365 * year + year / 4 - year / 100

/-- A day of an era, less the leap days before it. -/
def withoutLeapDays (day : Nat) : Nat := day - day / 1460 + day / 36524 - day / 146096

theorem withoutLeapDays_mono {a b : Nat} (h : a ≤ b) (hb : b < 146097) :
    withoutLeapDays a ≤ withoutLeapDays b := by
  simp only [withoutLeapDays]
  omega

/-- Without leap days, a year begins every 365 days. -/
theorem withoutLeapDays_daysBefore : ∀ year < 400,
    365 * year ≤ withoutLeapDays (daysBefore year) ∧
      (0 < year → withoutLeapDays (daysBefore year - 1) < 365 * year) := by
  decide +kernel

/-- A year has begun by the day when it is not after the year that is found for the day. -/
theorem daysBefore_le_iff {year day : Nat} (hyear : year < 400) (hday : day < 146097) :
    daysBefore year ≤ day ↔ year ≤ withoutLeapDays day / 365 := by
  obtain ⟨hfirst, hlast⟩ := withoutLeapDays_daysBefore year hyear
  rw [Nat.le_div_iff_mul_le (by decide)]
  constructor
  · intro h
    have := withoutLeapDays_mono h hday
    omega
  · refine fun h => Nat.not_lt.1 fun hlt => ?_
    have hbefore : withoutLeapDays day ≤ withoutLeapDays (daysBefore year - 1) :=
      withoutLeapDays_mono (by omega) (by simp only [daysBefore]; omega)
    have := hlast (by simp only [daysBefore] at hlt; omega)
    omega

/-- A year has a leap day when the next one, whose February it has, is a leap year. -/
theorem daysBefore_succ (year : Nat) : daysBefore (year + 1) =
    daysBefore year + if (year + 1) % 4 = 0 ∧ (year + 1) % 100 ≠ 0 then 366 else 365 := by
  have hfour : (year + 1) / 4 = year / 4 + if (year + 1) % 4 = 0 then 1 else 0 := by
    split <;> omega
  have hcentury : (year + 1) / 100 = year / 100 + if (year + 1) % 100 = 0 then 1 else 0 := by
    split <;> omega
  simp only [daysBefore, hfour, hcentury]
  split <;> split <;> split <;> omega

/-! ### Dates -/

/-- The days of a year, counted from March, before one of its months. -/
def daysBeforeMonth (month : Nat) : Nat := (153 * month + 2) / 5

/-- A day by its place in its month, the month by its place in its year, and the year by its place
in its era. The last month has as many days as its year leaves it. -/
structure Place where
  era : Int
  year : Nat
  month : Nat
  day : Nat
  year_lt : year < 400
  month_lt : month < 12
  day_lt : month < 11 → daysBeforeMonth month + day < daysBeforeMonth (month + 1)
  day_le : month = 11 →
    day < 28 ∨ day = 28 ∧ (year = 399 ∨ (year + 1) % 4 = 0 ∧ (year + 1) % 100 ≠ 0)

namespace Place

/-- The date of a day. -/
def date (p : Place) : Date where
  year := p.year + p.era * 400 + if p.month < 10 then 0 else 1
  month := if p.month < 10 then p.month + 3 else p.month - 9
  day := p.day + 1

/-- How many days after 1970-01-01 a day is. -/
def number (p : Place) : Int :=
  p.era * 146097 + daysBefore p.year + daysBeforeMonth p.month + p.day - 719468

/-- Each day has a place. -/
theorem exists_place (days : Int) : ∃ p : Place, p.number = days ∧ p.date = dateOf days := by
  obtain ⟨era, day, hday, hdays⟩ : ∃ (era : Int) (day : Nat), day < 146097 ∧
      days + 719468 = era * 146097 + day :=
    ⟨(days + 719468) / 146097, ((days + 719468) % 146097).toNat, by omega, by omega⟩
  obtain ⟨year, hyear⟩ : ∃ year, year = withoutLeapDays day / 365 := ⟨_, rfl⟩
  have hlt : year < 400 := by simp only [withoutLeapDays] at hyear; omega
  have hfirst : daysBefore year ≤ day := (daysBefore_le_iff hlt hday).2 (Nat.le_of_eq hyear)
  have hlast : year < 399 → day < daysBefore (year + 1) := fun h =>
    Nat.not_le.1 fun hle => absurd ((daysBefore_le_iff (by omega) hday).1 hle) (by omega)
  obtain ⟨ofYear, hofYear⟩ : ∃ ofYear, day = daysBefore year + ofYear :=
    ⟨day - daysBefore year, by omega⟩
  have hle : ofYear ≤ 365 := by simp only [daysBefore] at hfirst hlast hofYear; omega
  obtain ⟨month, hmonth⟩ : ∃ month, month = (5 * ofYear + 2) / 153 := ⟨_, rfl⟩
  have hlong : ofYear < 365 ∨ year = 399 ∨ (year + 1) % 4 = 0 ∧ (year + 1) % 100 ≠ 0 := by
    by_cases h : year = 399
    · exact .inr (.inl h)
    · have := hlast (by omega)
      rw [daysBefore_succ] at this
      split at this
      case isTrue hleap => exact .inr (.inr hleap)
      case isFalse => exact .inl (by omega)
  refine ⟨⟨era, year, month, ofYear - daysBeforeMonth month, hlt, ?_, ?_, ?_⟩, ?_, ?_⟩
  · omega
  · simp only [daysBeforeMonth]; omega
  · simp only [daysBeforeMonth]; omega
  · simp only [number, daysBeforeMonth]; omega
  · have hdiv : (days + 719468) / 146097 = era := by omega
    have hmod : ((days + 719468) % 146097).toNat = day := by omega
    have hpast : day - (365 * year + year / 4 - year / 100) = ofYear := by
      simp only [daysBefore] at hofYear; omega
    have hnext : (if (if month < 10 then month + 3 else month - 9) ≤ 2 then (1 : Int) else 0) =
        if month < 10 then 0 else 1 := by
      split <;> split <;> omega
    simp only [dateOf, hdiv, hmod]
    rw [← withoutLeapDays, ← hyear, hpast, ← hmonth, hnext]
    rfl

theorem daysOf_date (p : Place) : daysOf p.date.year p.date.month p.date.day = p.number := by
  have := p.month_lt
  have hyear : (if p.date.month ≤ 2 then p.date.year - 1 else p.date.year) =
      p.year + p.era * 400 := by
    simp only [date]
    split <;> split <;> omega
  have hera : (p.year + p.era * 400) / 400 = p.era := by have := p.year_lt; omega
  have hofEra : (p.year + p.era * 400 : Int) % 400 = p.year := by have := p.year_lt; omega
  have hmonth : (p.date.month + 9) % 12 = p.month := by simp only [date]; split <;> omega
  simp only [daysOf, hyear, hera, hofEra, hmonth, number, daysBefore, daysBeforeMonth]
  simp only [date]
  omega

theorem month_bounds (p : Place) : 1 ≤ p.date.month ∧ p.date.month ≤ 12 := by
  have := p.month_lt
  simp only [date]
  split <;> omega

/-- The month of a date has the day. -/
theorem day_le_daysIn (p : Place) : p.date.day ≤ daysIn p.date.year p.date.month := by
  obtain ⟨era, year, month, day, hyear, hmonth, hday, hlast⟩ := p
  simp only [date, daysIn, daysBeforeMonth] at hday ⊢
  by_cases hm : month = 11
  · subst hm
    simp only [Nat.reduceLT, if_false, Nat.reduceSub, if_true]
    have hleap : isLeapYear (year + era * 400 + 1) = true ↔
        year = 399 ∨ (year + 1) % 4 = 0 ∧ (year + 1) % 100 ≠ 0 := by
      simp only [isLeapYear, Bool.and_eq_true, Bool.or_eq_true, decide_eq_true_eq]
      omega
    rcases hlast rfl with h | ⟨h, hl⟩
    · split <;> omega
    · rw [hleap.2 hl, if_pos rfl]
      omega
  · have hday := hday (by omega)
    have hfebruary : ¬ (if month < 10 then month + 3 else month - 9) = 2 := by split <;> omega
    rw [if_neg hfebruary]
    split <;> split <;> omega

end Place

/-- Each day is the day of its date. -/
theorem daysOf_dateOf (days : Int) :
    daysOf (dateOf days).year (dateOf days).month (dateOf days).day = days := by
  obtain ⟨p, rfl, hdate⟩ := Place.exists_place days
  rw [← hdate, p.daysOf_date]

/-- The date of a day is one of the calendar. -/
theorem dateOf_bounds (days : Int) : let date := dateOf days
    1 ≤ date.month ∧ date.month ≤ 12 ∧ 1 ≤ date.day ∧ date.day ≤ daysIn date.year date.month := by
  obtain ⟨p, rfl, hdate⟩ := Place.exists_place days
  rw [← hdate]
  exact ⟨p.month_bounds.1, p.month_bounds.2, Nat.succ_pos _, p.day_le_daysIn⟩

end CloudInventory.Instant
