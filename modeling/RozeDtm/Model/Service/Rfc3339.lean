import RozeDtm.Model.Service.Compat

/-!
# Times in the compatibility views

`compat_rfc3339` with the machine's own arithmetic: an operation on `i64` whose result does not
fit is an overflow, and then there is no text.
-/

namespace RozeDtm

/-- The result of an operation on `i64`. -/
def i64 (x : Int) : Option Int := if -2 ^ 63 ≤ x ∧ x < 2 ^ 63 then some x else none

/-- `{:0width$}` of an `i64`, whose sign takes one place. -/
def zeroPaddedInt (width : Nat) (x : Int) : String :=
  if x < 0 then "-" ++ zeroPadded (width - 1) x.natAbs else zeroPadded width x.natAbs

/-- The year, month and day that `compat_rfc3339` computes from its `days`; `/` rounds towards
zero. -/
def compatDateChecked (days : Int) : Option (Int × Int × Int) := do
  let z ← i64 (days + 719468)
  let fromEra ← if 0 ≤ z then some z else i64 (z - 146096)
  let era ← i64 (fromEra.tdiv 146097)
  let eraStart ← i64 (era * 146097)
  let dayOfEra ← i64 (z - eraStart)
  let withoutSpans ← i64 (dayOfEra - (← i64 (dayOfEra.tdiv 1460)))
  let withCenturies ← i64 (withoutSpans + (← i64 (dayOfEra.tdiv 36524)))
  let withoutEra ← i64 (withCenturies - (← i64 (dayOfEra.tdiv 146096)))
  let yearOfEra ← i64 (withoutEra.tdiv 365)
  let year ← i64 (yearOfEra + (← i64 (era * 400)))
  let leapDays ← i64 (yearOfEra.tdiv 4)
  let yearDays ← i64 ((← i64 (365 * yearOfEra)) + leapDays)
  let yearStart ← i64 (yearDays - (← i64 (yearOfEra.tdiv 100)))
  let dayOfYear ← i64 (dayOfEra - yearStart)
  let scaledDay ← i64 ((← i64 (5 * dayOfYear)) + 2)
  let monthPrime ← i64 (scaledDay.tdiv 153)
  let scaledMonth ← i64 ((← i64 (153 * monthPrime)) + 2)
  let dayOfMonth ← i64 (dayOfYear - (← i64 (scaledMonth.tdiv 5)))
  let day ← i64 (dayOfMonth + 1)
  let month ← i64 (monthPrime + if monthPrime < 10 then 3 else -9)
  let year ← i64 (year + if month ≤ 2 then 1 else 0)
  return (year, month, day)

/-- `compat_rfc3339`. -/
def compatRfc3339Checked (millis : UInt64) : Option String := do
  let seconds := millis / 1000
  let milliseconds := millis % 1000
  let days := (seconds / 86400).toInt64.toInt
  let secondsOfDay := seconds % 86400
  let (year, month, day) ← compatDateChecked days
  let date := s!"{zeroPaddedInt 4 year}-{zeroPaddedInt 2 month}-{zeroPaddedInt 2 day}"
  let hour := zeroPadded 2 (secondsOfDay / 3600).toNat
  let minute := zeroPadded 2 (secondsOfDay % 3600 / 60).toNat
  let second := zeroPadded 2 (secondsOfDay % 60).toNat
  let time := s!"{hour}:{minute}:{second}"
  if milliseconds = 0 then return s!"{date}T{time}Z"
  else return s!"{date}T{time}.{zeroPadded 3 milliseconds.toNat}Z"

end RozeDtm
