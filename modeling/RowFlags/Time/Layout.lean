import RowFlags.Time.Calendar
import RowFlags.Time.Instant

/-!
# The text of an instant

Years have at least four digits, and a sign when they lie outside 0 to 9999. A leap second is
written with the number of the next second, at the end of a minute as second 60. The fraction is
left out when it is zero, else it has three, six or nine digits, the fewest that show it exactly.
-/

set_option autoImplicit false

namespace RowFlags

/-- A number in at least `width` decimal digits. -/
def Text.padded (width n : Nat) : String :=
  let digits := Nat.toDigits 10 n
  String.ofList (List.replicate (width - digits.length) '0' ++ digits)

namespace Date

/-- The year with its sign, if it needs one. -/
def yearText (year : Int) : String :=
  if year < 0 then "-" ++ Text.padded 4 year.natAbs
  else if 9999 < year then "+" ++ Text.padded 4 year.natAbs
  else Text.padded 4 year.natAbs

/-- Year, month and day between hyphens. -/
def text (d : Date) : String :=
  yearText d.year ++ "-" ++ Text.padded 2 d.month ++ "-" ++ Text.padded 2 d.day

end Date

namespace Instant

/-- The day of an instant. -/
def date (t : Instant) : Date := Date.ofDayNumber (t.seconds / 86400)

/-- The fraction of a second, with its point. -/
def fractionText (nanos : Nat) : String :=
  if nanos = 0 then ""
  else if nanos % 1000000 = 0 then "." ++ Text.padded 3 (nanos / 1000000)
  else if nanos % 1000 = 0 then "." ++ Text.padded 6 (nanos / 1000)
  else "." ++ Text.padded 9 nanos

/-- Hours, minutes, seconds and fraction. -/
def clockText (t : Instant) : String :=
  let secondOfDay := (t.seconds % 86400).toNat
  Text.padded 2 (secondOfDay / 3600) ++ ":" ++ Text.padded 2 (secondOfDay / 60 % 60) ++ ":" ++
    Text.padded 2 (secondOfDay % 60 + t.nanos / perSecond) ++ fractionText (t.nanos % perSecond)

/-- Date and time of day with a space between them. -/
def spaced (t : Instant) : String := t.date.text ++ " " ++ t.clockText

/-- Date and time of day as one word, marked as universal time. -/
def compact (t : Instant) : String := t.date.text ++ "T" ++ t.clockText ++ "Z"

end Instant

end RowFlags
