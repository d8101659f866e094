import RozeDtm.Calendar.Civil
import RozeDtm.Model.Service.Rfc3339

/-!
# The times that the views show

A `u64` of milliseconds holds about 214 billion days, so no operation of `compat_rfc3339` leaves
the range of `i64` and every intermediate value is a natural number.  On natural numbers the
computation is the date of a day in the calendar.
-/

namespace RozeDtm

open Calendar

/-! ### The computation of the date -/

/-- What comes after an operation whose result is a natural number in range. -/
theorem i64_bind {α : Type} {x : Int} {f : Int → Option α} (n : Nat) (h : x = n)
    (hn : n < 2 ^ 63) : (i64 x >>= f) = f n := by
  subst h
  unfold i64
  rw [if_pos (by omega)]
  rfl

/-- **The date is computed without overflow**, on days as far as a million million. -/
theorem compatDateChecked_eq {days : Nat} (h : days < 10 ^ 12) :
    compatDateChecked days =
      some (((civil (days + 719468)).year : Int), ((civil (days + 719468)).month : Int),
        ((civil (days + 719468)).day : Int)) := by
  have hspec := yearOfEra_spec (Nat.mod_lt (days + 719468) (by decide : 0 < 146097))
  have hera := Nat.div_add_mod (days + 719468) 146097
  unfold compatDateChecked civil
  rw [i64_bind (days + 719468) (by omega) (by omega)]
  dsimp only
  generalize hz : days + 719468 = z at *
  generalize hdoe : z % 146097 = doe at *
  generalize he : z / 146097 = era at *
  have hdiv (n k : Nat) : (n : Int).tdiv k = ((n / k : Nat) : Int) := (Int.ofNat_tdiv n k).symm
  rw [if_pos (by omega), Option.bind_eq_bind, Option.bind_some, ← Option.bind_eq_bind]
  rw [i64_bind (x := (z : Int).tdiv 146097) era (he ▸ hdiv z 146097) (by omega),
    i64_bind (era * 146097) (by omega) (by omega), i64_bind doe (by omega) (by omega)]
  -- the year of the era
  rw [i64_bind (x := (doe : Int).tdiv 1460) (doe / 1460) (hdiv doe 1460) (by omega),
    i64_bind (doe - doe / 1460) (by omega) (by omega),
    i64_bind (x := (doe : Int).tdiv 36524) (doe / 36524) (hdiv doe 36524) (by omega),
    i64_bind (doe - doe / 1460 + doe / 36524) (by omega) (by omega),
    i64_bind (x := (doe : Int).tdiv 146096) (doe / 146096) (hdiv doe 146096) (by omega),
    i64_bind (doe - doe / 1460 + doe / 36524 - doe / 146096) (by omega) (by omega),
    i64_bind (x := Int.tdiv _ 365) (yearOfEra doe) (hdiv _ 365) (by omega)]
  rw [i64_bind (era * 400) (by omega) (by omega)]
  generalize hyoe : yearOfEra doe = yoe at *
  rw [i64_bind (yoe + era * 400) (by omega) (by omega)]
  -- the day of the year
  generalize hdoy : dayOfYear doe = day at *
  have hday : day < 366 := by
    have hlt := hspec.2.2
    split_ifs at hlt <;> omega
  rw [i64_bind (x := (yoe : Int).tdiv 4) (yoe / 4) (hdiv yoe 4) (by omega),
    i64_bind (365 * yoe) (by omega) (by omega),
    i64_bind (365 * yoe + yoe / 4) (by omega) (by omega),
    i64_bind (x := (yoe : Int).tdiv 100) (yoe / 100) (hdiv yoe 100) (by omega),
    i64_bind (365 * yoe + yoe / 4 - yoe / 100) (by omega) (by omega),
    i64_bind day (by omega) (by omega)]
  -- the month and the day of it
  have hmonth : monthOfDay day < 12 := monthOfDay_lt hday
  have hstart : monthStart (monthOfDay day) ≤ day := monthStart_le
  rw [i64_bind (5 * day) (by omega) (by omega), i64_bind (5 * day + 2) (by omega) (by omega),
    i64_bind (x := Int.tdiv _ 153) (monthOfDay day) (hdiv _ 153) (by omega)]
  generalize monthOfDay day = month at *
  rw [i64_bind (153 * month) (by omega) (by omega),
    i64_bind (153 * month + 2) (by omega) (by omega),
    i64_bind (x := Int.tdiv _ 5) (monthStart month) (hdiv _ 5) (by omega),
    i64_bind (day - monthStart month) (by omega) (by omega),
    i64_bind (day - monthStart month + 1) (by omega) (by omega)]
  by_cases hmarch : month < 10
  · rw [if_pos (by omega), i64_bind (month + 3) (by omega) (by omega), if_neg (by omega),
      i64_bind (yoe + era * 400) (by omega) (by omega), if_pos hmarch, if_pos hmarch,
      Nat.mul_comm era]
    rfl
  · rw [if_neg (by omega), i64_bind (month - 9) (by omega) (by omega), if_pos (by omega),
      i64_bind (yoe + era * 400 + 1) (by omega) (by omega), if_neg hmarch, if_neg hmarch,
      Nat.mul_comm era]
    rfl

/-! ### The text -/

theorem january_le : 1 ≤ 12 := by decide

/-- 1 January 1970. -/
def unixEpoch : Date := ⟨1970, 1, 1, Nat.one_pos, january_le, Nat.one_pos, monthLength_pos 1970 1⟩

theorem ordinal_unixEpoch : unixEpoch.ordinal = 719528 := by
  have hyears := daysBeforeYear_eq 1970
  have hmonths := (daysBeforeMonth_eq 1970).1
  unfold Date.ordinal unixEpoch
  dsimp only
  omega

/-- The date `days` days after 1 January 1970. -/
theorem civil_eq_iterate_next (days : Nat) : civil (days + 719468) = Date.next^[days] unixEpoch := by
  apply Date.eq_iterate_next
  rw [ordinal_civil, ordinal_unixEpoch]
  omega

/-- A date and a time of day in the format of RFC 3339, without a fraction where it is zero. -/
def rfc3339Text (date : Date) (hour minute second milliseconds : Nat) : String :=
  let date := s!"{zeroPadded 4 date.year}-{zeroPadded 2 date.month}-{zeroPadded 2 date.day}"
  let time := s!"{zeroPadded 2 hour}:{zeroPadded 2 minute}:{zeroPadded 2 second}"
  if milliseconds = 0 then s!"{date}T{time}Z" else s!"{date}T{time}.{zeroPadded 3 milliseconds}Z"

theorem zeroPaddedInt_natCast (width n : Nat) : zeroPaddedInt width n = zeroPadded width n := by
  unfold zeroPaddedInt
  rw [if_neg (by omega), Int.natAbs_natCast]

/-- `as i64` of a number that `i64` holds. -/
theorem toInt_toInt64 {x : UInt64} (h : x.toNat < 2 ^ 63) : x.toInt64.toInt = x.toNat :=
  BitVec.toInt_eq_toNat_of_lt (by simpa using (show 2 * x.toNat < 2 ^ 64 by omega))

/-- The text for a number of milliseconds since 1 January 1970. -/
def rfc3339OfMillis (millis : Nat) : String :=
  rfc3339Text (civil (millis / 86400000 + 719468)) (millis / 3600000 % 24) (millis / 60000 % 60)
    (millis / 1000 % 60) (millis % 1000)

/-- No operation overflows. -/
theorem compatRfc3339Checked_eq (millis : UInt64) :
    compatRfc3339Checked millis = some (rfc3339OfMillis millis.toNat) := by
  have hlt := millis.toNat_lt
  have hdays : (millis / 1000 / 86400).toInt64.toInt = ((millis.toNat / 86400000 : Nat) : Int) := by
    rw [toInt_toInt64]
    · simp only [UInt64.toNat_div, UInt64.reduceToNat, Nat.div_div_eq_div_mul, Nat.reduceMul]
    · simp only [UInt64.toNat_div, UInt64.reduceToNat]
      omega
  have hzero : millis % 1000 = 0 ↔ millis.toNat % 1000 = 0 := by
    rw [← UInt64.toNat_inj, UInt64.toNat_mod]
    rfl
  have hhour : millis.toNat / 1000 % 86400 / 3600 = millis.toNat / 3600000 % 24 := by omega
  have hminute : millis.toNat / 1000 % 86400 % 3600 / 60 = millis.toNat / 60000 % 60 := by omega
  have hsecond : millis.toNat / 1000 % 86400 % 60 = millis.toNat / 1000 % 60 := by omega
  unfold compatRfc3339Checked rfc3339OfMillis rfc3339Text
  dsimp only
  rw [hdays, compatDateChecked_eq (by omega)]
  simp only [Option.bind_eq_bind, Option.bind_some, zeroPaddedInt_natCast, hzero,
    UInt64.toNat_div, UInt64.toNat_mod, UInt64.reduceToNat, hhour, hminute, hsecond]
  split_ifs <;> rfl

/-- The views show the same text. -/
theorem compatRfc3339_eq (millis : Nat) : compatRfc3339 millis = rfc3339OfMillis millis := by
  have hdays : millis / 1000 / 86400 = millis / 86400000 := Nat.div_div_eq_div_mul _ _ _
  have hhour : millis / 1000 % 86400 / 3600 = millis / 3600000 % 24 := by omega
  have hminute : millis / 1000 % 86400 % 3600 / 60 = millis / 60000 % 60 := by omega
  have hsecond : millis / 1000 % 86400 % 60 = millis / 1000 % 60 := by omega
  have hera (z : Nat) : z - z / 146097 * 146097 = z % 146097 := by omega
  have hspec := yearOfEra_spec
    (Nat.mod_lt (millis / 86400000 + 719468) (by decide : 0 < 146097))
  have hmonth : monthOfDay (dayOfYear ((millis / 86400000 + 719468) % 146097)) < 12 :=
    monthOfDay_lt (by have hlt := hspec.2.2; split_ifs at hlt <;> omega)
  unfold compatRfc3339 rfc3339OfMillis rfc3339Text civil
  dsimp only
  rw [hdays, hhour, hminute, hsecond, hera, ← yearOfEra, ← dayOfYear, ← monthOfDay, ← monthStart]
  generalize monthOfDay _ = month at *
  generalize (millis / 86400000 + 719468) / 146097 = era
  have hyear (year : Nat) : (year + era * 400 +
      if (if month < 10 then month + 3 else month - 9) ≤ 2 then 1 else 0) =
      if month < 10 then year + 400 * era else year + 400 * era + 1 := by
    split_ifs <;> omega
  rw [hyear]

/-- **The views print the right calendar time.**  For every `u64` no operation overflows, the date
printed is the one so many whole days after 1 January 1970, and the time of day is what remains. -/
theorem compat_rfc3339_calendar (millis : UInt64) :
    ∃ date hour minute second milliseconds,
      date = Date.next^[millis.toNat / 86400000] unixEpoch ∧
      hour < 24 ∧ minute < 60 ∧ second < 60 ∧ milliseconds < 1000 ∧
      ((hour * 60 + minute) * 60 + second) * 1000 + milliseconds = millis.toNat % 86400000 ∧
      compatRfc3339Checked millis = some (rfc3339Text date hour minute second milliseconds) := by
  refine ⟨_, _, _, _, _, (civil_eq_iterate_next _), Nat.mod_lt _ (by decide),
    Nat.mod_lt _ (by decide), Nat.mod_lt _ (by decide), Nat.mod_lt _ (by decide), ?_,
    compatRfc3339Checked_eq millis⟩
  omega

end RozeDtm
