import Mathlib.Tactic.IntervalCases
import RozeDtm.Calendar.Gregorian

/-!
# Dates from days

The date of a day, from the number of days since 1 March of year 0.  A year is taken to begin on
1 March, so that a leap day is its last and all other months have fixed lengths, and 400 such
years are an era.

* `exists_eraDay`: a day of an era in centuries, spans of four years, years and days.
* `civil`, `ordinal_civil`: the date in closed form, and that it is the date of the day.
-/

namespace Calendar

/-- The year of its era that a day of an era lies in. -/
def yearOfEra (dayOfEra : Nat) : Nat :=
  (dayOfEra - dayOfEra / 1460 + dayOfEra / 36524 - dayOfEra / 146096) / 365

/-- The day of its year that a day of an era is. -/
def dayOfYear (dayOfEra : Nat) : Nat :=
  dayOfEra - (365 * yearOfEra dayOfEra + yearOfEra dayOfEra / 4 - yearOfEra dayOfEra / 100)

/-- The month that a day of a year lies in, March being 0. -/
def monthOfDay (day : Nat) : Nat := (5 * day + 2) / 153

/-- The first day of a month. -/
def monthStart (month : Nat) : Nat := (153 * month + 2) / 5

/-! ### Years of an era -/

/-- **The parts of a day of an era.**  The last century and the last year of a span of four are a
day longer than others, but for the last year of a century that is not the last. -/
theorem exists_eraDay {doe : Nat} (h : doe < 146097) : ∃ c k j r, c < 4 ∧ k < 25 ∧ j < 4 ∧
    doe = 36524 * c + 1461 * k + 365 * j + r ∧ r < 366 ∧ (r = 365 → j = 3 ∧ (k = 24 → c = 3)) := by
  obtain ⟨c, rest, hc, hdoe, hrest⟩ : ∃ c rest, c < 4 ∧ doe = 36524 * c + rest ∧
      (rest < 36524 ∨ rest = 36524 ∧ c = 3) := by
    by_cases hlast : doe = 146096
    · exact ⟨3, 36524, by omega, by omega, by omega⟩
    · exact ⟨doe / 36524, doe % 36524, by omega, by omega, by omega⟩
  obtain ⟨j, r, hj, hspan, hr⟩ : ∃ j r, j < 4 ∧ rest % 1461 = 365 * j + r ∧
      (r < 365 ∨ r = 365 ∧ j = 3) := by
    by_cases hlast : rest % 1461 = 1460
    · exact ⟨3, 365, by omega, by omega, by omega⟩
    · exact ⟨rest % 1461 / 365, rest % 1461 % 365, by omega, by omega, by omega⟩
  refine ⟨c, rest / 1461, j, r, hc, by omega, hj, by omega, by omega, ?_⟩
  intro hlong
  refine ⟨by omega, ?_⟩
  intro hk
  omega

variable {doe day : Nat}

/-- The corrections for leap days leave 365 days for each whole year. -/
theorem yearOfEra_parts {c k j r : Nat} (hc : c < 4) (hk : k < 25) (hj : j < 4) (hr : r < 366)
    (hlong : r = 365 → j = 3 ∧ (k = 24 → c = 3)) :
    yearOfEra (36524 * c + 1461 * k + 365 * j + r) = 100 * c + 4 * k + j := by
  generalize hdoe : 36524 * c + 1461 * k + 365 * j + r = doe
  have hspans : doe / 1460 =
      25 * c + k + if 1460 ≤ 24 * c + k + 365 * j + r then 1 else 0 := by
    split_ifs <;> omega
  have hcenturies : doe / 36524 = c + if doe = 146096 then 1 else 0 := by
    split_ifs <;> omega
  have heras : doe / 146096 = if doe = 146096 then 1 else 0 := by
    split_ifs <;> omega
  unfold yearOfEra
  rw [hspans, hcenturies, heras]
  split_ifs <;> omega

/-- **The year and the day of it** that make up a day of an era. -/
theorem yearOfEra_spec (h : doe < 146097) : yearOfEra doe < 400 ∧
    doe + yearOfEra doe / 100 =
      365 * yearOfEra doe + yearOfEra doe / 4 + dayOfYear doe ∧
    dayOfYear doe < 365 + if IsLeap (yearOfEra doe + 1) then 1 else 0 := by
  obtain ⟨c, k, j, r, hc, hk, hj, rfl, hr, hlong⟩ := exists_eraDay h
  have hyear := yearOfEra_parts hc hk hj hr hlong
  have hday : dayOfYear (36524 * c + 1461 * k + 365 * j + r) = r := by
    have hspans : (100 * c + 4 * k + j) / 4 = 25 * c + k := by omega
    have hcenturies : (100 * c + 4 * k + j) / 100 = c := by omega
    unfold dayOfYear
    rw [hyear, hspans, hcenturies]
    omega
  rw [hyear, hday]
  refine ⟨by omega, by omega, ?_⟩
  by_cases hleap : IsLeap (100 * c + 4 * k + j + 1)
  · rw [if_pos hleap]
    omega
  · rw [if_neg hleap]
    unfold IsLeap at hleap
    omega

/-! ### Months of a year -/

theorem monthOfDay_lt (h : day < 366) : monthOfDay day < 12 := by
  unfold monthOfDay
  omega

theorem monthStart_le : monthStart (monthOfDay day) ≤ day := by
  unfold monthStart monthOfDay
  omega

theorem lt_monthStart_succ : day < monthStart (monthOfDay day + 1) := by
  unfold monthStart monthOfDay
  omega

/-- Every month but February is as long as its first day and that of the next one say. -/
theorem monthStart_succ (year month : Nat) (h : month < 11) :
    monthStart (month + 1) =
      monthStart month + monthLength year (if month < 10 then month + 3 else month - 9) := by
  interval_cases month <;> rfl

/-- The days before a month from March on. -/
theorem daysBeforeMonth_march (year : Nat) {month : Nat} (h : month ≤ 10) :
    daysBeforeMonth year (month + 3) =
      59 + (if IsLeap year then 1 else 0) + monthStart month := by
  induction month with
  | zero => exact (daysBeforeMonth_eq year).2.2
  | succ month ih =>
    have hstart := monthStart_succ year month (by omega)
    rw [if_pos (by omega)] at hstart
    rw [show month + 1 + 3 = month + 3 + 1 by omega, daysBeforeMonth_succ year (by omega),
      ih (by omega), hstart, Nat.add_assoc]

/-- The days before 1 March of a year, but for those of January and February. -/
theorem daysBeforeYear_march (year : Nat) :
    daysBeforeYear year + (if IsLeap year then 1 else 0) + year / 100 =
      365 * year + year / 4 + year / 400 + 1 := by
  have hyears := daysBeforeYear_eq year
  have h4 : (year + 3) / 4 = year / 4 + if year % 4 = 0 then 0 else 1 := by
    split_ifs <;> omega
  have h100 : (year + 99) / 100 = year / 100 + if year % 100 = 0 then 0 else 1 := by
    split_ifs <;> omega
  have h400 : (year + 399) / 400 = year / 400 + if year % 400 = 0 then 0 else 1 := by
    split_ifs <;> omega
  rw [h4, h100, h400] at hyears
  by_cases hleap : IsLeap year
  · rw [if_pos hleap]
    unfold IsLeap at hleap
    split_ifs at hyears <;> omega
  · rw [if_neg hleap]
    unfold IsLeap at hleap
    split_ifs at hyears <;> omega

/-- The same for a year of an era. -/
theorem daysBeforeYear_era {year : Nat} (h : year < 400) (era : Nat) :
    daysBeforeYear (year + 400 * era) + (if IsLeap (year + 400 * era) then 1 else 0) +
      year / 100 = 365 * year + year / 4 + 146097 * era + 1 := by
  have hyears := daysBeforeYear_march (year + 400 * era)
  have h4 : (year + 400 * era) / 4 = year / 4 + 100 * era := by omega
  have h100 : (year + 400 * era) / 100 = year / 100 + 4 * era := by omega
  have h400 : (year + 400 * era) / 400 = era := by omega
  rw [h4, h100, h400] at hyears
  omega

/-! ### The date of a day -/

/-- A year that begins on 1 March has a leap day when the next year is a leap year, and eras do
not change that. -/
theorem isLeap_era (era year : Nat) : IsLeap (year + 400 * era) ↔ IsLeap year := by
  unfold IsLeap
  omega

/-- **The date of a day**, counted from 1 March of year 0. -/
def civil (z : Nat) : Date :=
  let day := dayOfYear (z % 146097)
  let month := monthOfDay day
  let year := yearOfEra (z % 146097) + 400 * (z / 146097)
  have hspec := (yearOfEra_spec (Nat.mod_lt z (by decide : 0 < 146097))).2.2
  have hday : day < 366 := by
    split_ifs at hspec <;> omega
  have hmonth : month < 12 := monthOfDay_lt hday
  { year := if month < 10 then year else year + 1
    month := if month < 10 then month + 3 else month - 9
    day := day - monthStart month + 1
    month_pos := by split_ifs <;> omega
    month_le := by split_ifs <;> omega
    day_pos := Nat.succ_pos _
    day_le := by
      have hstart : monthStart month ≤ day := monthStart_le
      have hnext : day < monthStart (month + 1) := lt_monthStart_succ
      by_cases hfebruary : month < 11
      · have hlength := monthStart_succ (if month < 10 then year else year + 1) month hfebruary
        omega
      · -- February, whose last day is the last of the year
        have hmonth' : month = 11 := by omega
        have hstart' : monthStart 11 = 337 := rfl
        have hleap := isLeap_era (z / 146097) (yearOfEra (z % 146097) + 1)
        rw [hmonth'] at hstart ⊢
        rw [if_neg (by decide), if_neg (by decide)]
        show _ ≤ monthLength _ 2
        unfold monthLength
        rw [if_pos rfl, show year + 1 = yearOfEra (z % 146097) + 1 + 400 * (z / 146097) by omega]
        split_ifs at hspec ⊢ <;> grind }

/-- **It is the date of the day**: 1 March of year 0 is day 60 of the calendar. -/
theorem ordinal_civil (z : Nat) : (civil z).ordinal = z + 60 := by
  obtain ⟨hyear, hparts, hday⟩ := yearOfEra_spec (Nat.mod_lt z (by decide : 0 < 146097))
  have hera := Nat.div_add_mod z 146097
  have hstart : monthStart (monthOfDay (dayOfYear (z % 146097))) ≤ dayOfYear (z % 146097) :=
    monthStart_le
  have hmonth : monthOfDay (dayOfYear (z % 146097)) < 12 :=
    monthOfDay_lt (by split_ifs at hday <;> omega)
  unfold Date.ordinal civil
  dsimp only
  generalize dayOfYear (z % 146097) = day at *
  generalize monthOfDay day = month at *
  generalize yearOfEra (z % 146097) = year at *
  generalize z / 146097 = era at *
  by_cases hmarch : month < 10
  · have hyears := daysBeforeYear_era hyear era
    rw [if_pos hmarch, if_pos hmarch, daysBeforeMonth_march _ (Nat.le_of_lt hmarch)]
    omega
  · -- January or February of the next year
    have hyears := daysBeforeYear_era hyear era
    have hlength := daysBeforeYear_succ (year + 400 * era)
    rw [yearLength_eq] at hlength
    obtain ⟨hjanuary, hfebruary, -⟩ := daysBeforeMonth_eq (year + 400 * era + 1)
    have hwinter : month = 10 ∨ month = 11 := by omega
    have h10 : monthStart 10 = 306 := rfl
    have h11 : monthStart 11 = 337 := rfl
    rw [if_neg hmarch, if_neg hmarch]
    rcases hwinter with rfl | rfl
    · rw [hjanuary]
      omega
    · rw [hfebruary]
      omega

end Calendar
