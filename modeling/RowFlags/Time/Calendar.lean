/-!
# The calendar

Days are numbered from 1 January 1970 and dated by the Gregorian calendar, extended without end in
both directions. Years are counted from March here, so that the leap day ends its year: 400 years
have 146097 days, five months in a row from March have 153.
-/

set_option autoImplicit false

namespace RowFlags

/-- A day of the Gregorian calendar; the year before 1 is 0. -/
structure Date where
  year : Int
  month : Nat
  day : Nat
  deriving DecidableEq

namespace Date

/-- The date of a day, counted from 1 January 1970. -/
def ofDayNumber (n : Int) : Date :=
  let fromMarch := n + 719468
  let cycle := fromMarch / 146097
  let dayOfCycle := (fromMarch % 146097).toNat
  let yearOfCycle :=
    (dayOfCycle - dayOfCycle / 1460 + dayOfCycle / 36524 - dayOfCycle / 146096) / 365
  let dayOfYear := dayOfCycle - (365 * yearOfCycle + yearOfCycle / 4 - yearOfCycle / 100)
  let monthFromMarch := (5 * dayOfYear + 2) / 153
  let month := if monthFromMarch < 10 then monthFromMarch + 3 else monthFromMarch - 9
  { year := yearOfCycle + cycle * 400 + (if month ≤ 2 then 1 else 0)
    month
    day := dayOfYear - (153 * monthFromMarch + 2) / 5 + 1 }

end Date

end RowFlags
