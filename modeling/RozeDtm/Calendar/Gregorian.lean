import Mathlib.Algebra.BigOperators.Intervals
import Mathlib.Algebra.Order.BigOperators.Group.Finset
import Mathlib.Logic.Function.Iterate

/-!
# The proleptic Gregorian calendar

A `Date` is a day of a year of the calendar, extended to all years from 0 on.  `Date.next` is
the day after it, and `Date.ordinal` counts the days from 1 January of year 0, the lengths of
the years and months before it added up.

* `ordinal_next`, `ordinal_injective`: the count goes up by one each day and tells days apart.
* `eq_iterate_next`: a day whose count is `n` more is `n` days later.
* `daysBeforeYear_eq`: the days before a year in closed form.
-/

namespace Calendar

def IsLeap (year : Nat) : Prop := year % 4 = 0 ∧ year % 100 ≠ 0 ∨ year % 400 = 0

instance (year : Nat) : Decidable (IsLeap year) :=
  inferInstanceAs (Decidable (year % 4 = 0 ∧ year % 100 ≠ 0 ∨ year % 400 = 0))

/-- The days of a month, January being 1. -/
def monthLength (year month : Nat) : Nat :=
  if month = 2 then if IsLeap year then 29 else 28
  else if month = 4 ∨ month = 6 ∨ month = 9 ∨ month = 11 then 30
  else 31

@[ext] structure Date where
  year : Nat
  month : Nat
  day : Nat
  month_pos : 0 < month
  month_le : month ≤ 12
  day_pos : 0 < day
  day_le : day ≤ monthLength year month

/-! ### The next day -/

theorem monthLength_pos (year month : Nat) : 0 < monthLength year month := by
  unfold monthLength
  split_ifs <;> omega

namespace Date

/-- The day after. -/
def next (d : Date) : Date :=
  if hday : d.day < monthLength d.year d.month then
    ⟨d.year, d.month, d.day + 1, d.month_pos, d.month_le, Nat.succ_pos _, hday⟩
  else if hmonth : d.month < 12 then
    ⟨d.year, d.month + 1, 1, Nat.succ_pos _, hmonth, Nat.one_pos, monthLength_pos _ _⟩
  else ⟨d.year + 1, 1, 1, Nat.one_pos, by decide, Nat.one_pos, monthLength_pos _ _⟩

end Date

/-! ### Counting days -/

/-- The days of a year before a month. -/
def daysBeforeMonth (year month : Nat) : Nat := ∑ m ∈ Finset.Ico 1 month, monthLength year m

def yearLength (year : Nat) : Nat := daysBeforeMonth year 13

/-- The days before a year, from year 0 on. -/
def daysBeforeYear (year : Nat) : Nat := ∑ y ∈ Finset.range year, yearLength y

/-- The days from 1 January of year 0 to a date. -/
def Date.ordinal (d : Date) : Nat :=
  daysBeforeYear d.year + daysBeforeMonth d.year d.month + (d.day - 1)

theorem daysBeforeMonth_succ (year : Nat) {month : Nat} (h : 0 < month) :
    daysBeforeMonth year (month + 1) = daysBeforeMonth year month + monthLength year month :=
  Finset.sum_Ico_succ_top h _

theorem daysBeforeYear_succ (year : Nat) :
    daysBeforeYear (year + 1) = daysBeforeYear year + yearLength year :=
  Finset.sum_range_succ _ _

theorem daysBeforeMonth_mono (year : Nat) {m n : Nat} (h : m ≤ n) :
    daysBeforeMonth year m ≤ daysBeforeMonth year n :=
  Finset.sum_le_sum_of_subset (Finset.Ico_subset_Ico_right h)

theorem daysBeforeYear_mono {m n : Nat} (h : m ≤ n) : daysBeforeYear m ≤ daysBeforeYear n :=
  Finset.sum_le_sum_of_subset (Finset.range_subset_range.mpr h)

/-- The days before each month, 1 March and later being moved by a leap day. -/
theorem daysBeforeMonth_eq (year : Nat) :
    daysBeforeMonth year 1 = 0 ∧ daysBeforeMonth year 2 = 31 ∧
    daysBeforeMonth year 3 = 59 + if IsLeap year then 1 else 0 := by
  have h1 : daysBeforeMonth year 1 = 0 := Finset.sum_empty
  have h2 : daysBeforeMonth year 2 = daysBeforeMonth year 1 + monthLength year 1 :=
    daysBeforeMonth_succ year (by decide)
  have h3 : daysBeforeMonth year 3 = daysBeforeMonth year 2 + monthLength year 2 :=
    daysBeforeMonth_succ year (by decide)
  have hjanuary : monthLength year 1 = 31 := rfl
  have hfebruary : monthLength year 2 = if IsLeap year then 29 else 28 := rfl
  split_ifs at * <;> omega

namespace Date

variable (d : Date)

/-- **The count goes up by one each day.** -/
theorem ordinal_next : d.next.ordinal = d.ordinal + 1 := by
  have hpos := d.day_pos
  have hle := d.day_le
  unfold next
  split_ifs with hday hmonth
  · show daysBeforeYear d.year + daysBeforeMonth d.year d.month + d.day = _
    unfold ordinal
    omega
  · have hmonths := daysBeforeMonth_succ d.year d.month_pos
    show daysBeforeYear d.year + daysBeforeMonth d.year (d.month + 1) + 0 = _
    unfold ordinal
    omega
  · -- the last day of December
    have hmonth : d.month = 12 := Nat.le_antisymm d.month_le (Nat.not_lt.mp hmonth)
    have hyears := daysBeforeYear_succ d.year
    have hmonths : yearLength d.year = daysBeforeMonth d.year 12 + monthLength d.year 12 :=
      daysBeforeMonth_succ d.year (by decide)
    have hfirst := (daysBeforeMonth_eq (d.year + 1)).1
    show daysBeforeYear (d.year + 1) + daysBeforeMonth (d.year + 1) 1 + 0 = _
    unfold ordinal
    rw [hmonth] at hday hle ⊢
    omega

/-- The count lies among the days of the month. -/
theorem ordinal_lt_month :
    d.ordinal < daysBeforeYear d.year + daysBeforeMonth d.year (d.month + 1) := by
  have hpos := d.day_pos
  have hle := d.day_le
  rw [daysBeforeMonth_succ d.year d.month_pos]
  unfold ordinal
  omega

/-- The count lies among the days of the year. -/
theorem ordinal_lt_year : d.ordinal < daysBeforeYear (d.year + 1) := by
  have hmonth := d.ordinal_lt_month
  have hmonths : daysBeforeMonth d.year (d.month + 1) ≤ yearLength d.year :=
    daysBeforeMonth_mono d.year (Nat.succ_le_succ d.month_le)
  rw [daysBeforeYear_succ]
  omega

variable {d} {e : Date}

theorem ordinal_lt_of_year_lt (h : d.year < e.year) : d.ordinal < e.ordinal := by
  have hlt := d.ordinal_lt_year
  have hyears : daysBeforeYear (d.year + 1) ≤ daysBeforeYear e.year := daysBeforeYear_mono h
  have he : daysBeforeYear e.year ≤ e.ordinal := by
    unfold ordinal
    omega
  omega

theorem ordinal_lt_of_month_lt (hyear : d.year = e.year) (h : d.month < e.month) :
    d.ordinal < e.ordinal := by
  have hlt := d.ordinal_lt_month
  have hmonths : daysBeforeMonth d.year (d.month + 1) ≤ daysBeforeMonth d.year e.month :=
    daysBeforeMonth_mono d.year h
  have he : daysBeforeYear e.year + daysBeforeMonth e.year e.month ≤ e.ordinal :=
    Nat.le_add_right _ _
  rw [← hyear] at he
  omega

/-- **The count tells days apart.** -/
theorem ordinal_injective : Function.Injective ordinal := by
  intro d e h
  have hyear : d.year = e.year := by
    rcases Nat.lt_trichotomy d.year e.year with hlt | heq | hgt
    · exact absurd h (Nat.ne_of_lt (ordinal_lt_of_year_lt hlt))
    · exact heq
    · exact absurd h.symm (Nat.ne_of_lt (ordinal_lt_of_year_lt hgt))
  have hmonth : d.month = e.month := by
    rcases Nat.lt_trichotomy d.month e.month with hlt | heq | hgt
    · exact absurd h (Nat.ne_of_lt (ordinal_lt_of_month_lt hyear hlt))
    · exact heq
    · exact absurd h.symm (Nat.ne_of_lt (ordinal_lt_of_month_lt hyear.symm hgt))
  have hd := d.day_pos
  have he := e.day_pos
  unfold ordinal at h
  rw [hyear, hmonth] at h
  exact Date.ext hyear hmonth (by omega)

theorem ordinal_iterate_next (d : Date) (n : Nat) : (next^[n] d).ordinal = d.ordinal + n := by
  induction n with
  | zero => rfl
  | succ n ih => rw [Function.iterate_succ_apply', ordinal_next, ih, Nat.add_assoc]

/-- **A day whose count is `n` more is `n` days later.** -/
theorem eq_iterate_next {n : Nat} (h : e.ordinal = d.ordinal + n) : e = next^[n] d :=
  ordinal_injective (h.trans (ordinal_iterate_next d n).symm)

end Date

/-! ### Closed forms -/

theorem yearLength_eq (year : Nat) : yearLength year = 365 + if IsLeap year then 1 else 0 := by
  have hmarch := (daysBeforeMonth_eq year).2.2
  have hsucc (month : Nat) (h : 0 < month) :
      daysBeforeMonth year (month + 1) = daysBeforeMonth year month + monthLength year month :=
    daysBeforeMonth_succ year h
  have h4 := hsucc 3 (by decide)
  have h5 := hsucc 4 (by decide)
  have h6 := hsucc 5 (by decide)
  have h7 := hsucc 6 (by decide)
  have h8 := hsucc 7 (by decide)
  have h9 := hsucc 8 (by decide)
  have h10 := hsucc 9 (by decide)
  have h11 := hsucc 10 (by decide)
  have h12 := hsucc 11 (by decide)
  have h13 := hsucc 12 (by decide)
  simp only [monthLength, Nat.reduceEqDiff, Nat.reduceAdd, if_true, if_false, or_true, or_false]
    at h4 h5 h6 h7 h8 h9 h10 h11 h12 h13
  unfold yearLength
  omega

/-- The days before a year: one more for each leap year before it. -/
theorem daysBeforeYear_eq (year : Nat) :
    daysBeforeYear year + (year + 99) / 100 =
      365 * year + (year + 3) / 4 + (year + 399) / 400 := by
  induction year with
  | zero => rfl
  | succ year ih =>
    rw [daysBeforeYear_succ, yearLength_eq]
    by_cases hleap : IsLeap year
    · rw [if_pos hleap]
      unfold IsLeap at hleap
      omega
    · rw [if_neg hleap]
      unfold IsLeap at hleap
      omega

end Calendar
