/-!
# Instants

A point of universal time to the nanosecond. Seconds count from the start of 1970 as if every day
had 86400 of them; nanoseconds from 10⁹ on lie in a leap second, which may follow any second, not
only the last one of a minute. A leap second is an instant of its own, but its nanosecond count is
that of an ordinary instant, so `ofNanoseconds` gives it back as that one
(`ofNanoseconds_nanoseconds`).

The nanosecond count of an instant is taken to be known whenever eight signed bytes hold it
(`Storable`). A calendar that multiplies before it adds can miss it at the lower limit, in the leap
second after second -9223372038, where the count is in range and the seconds alone are not.
-/

set_option autoImplicit false

namespace RowFlags

namespace Instant

/-- The first second of the calendar's first year. -/
def firstSecond : Int := -8334601228800

/-- The last second of the calendar's last year. -/
def lastSecond : Int := 8210266876799

/-- Nanoseconds in a second. -/
def perSecond : Nat := 1000000000

/-- Within the calendar, each second with room for a leap second after it. -/
def Valid (seconds : Int) (nanos : Nat) : Prop :=
  firstSecond ≤ seconds ∧ seconds ≤ lastSecond ∧ nanos < 2 * perSecond

instance (seconds : Int) (nanos : Nat) : Decidable (Valid seconds nanos) := by
  unfold Valid
  infer_instance

end Instant

/-- Seconds since the start of 1970 and nanoseconds within the second. -/
structure Instant where
  seconds : Int
  nanos : Nat
  valid : Instant.Valid seconds nanos
  deriving DecidableEq

namespace Instant

/-- The instant of these numbers, if they name one: a leap second is named only at the end of a
minute. -/
def ofParts? (seconds : Int) (nanos : Nat) : Option Instant :=
  if h : Valid seconds nanos ∧ (nanos < perSecond ∨ seconds % 60 = 59) then
    some ⟨seconds, nanos, h.1⟩
  else none

/-- Nanoseconds since the start of 1970. -/
def nanoseconds (t : Instant) : Int := t.seconds * perSecond + t.nanos

/-- The numbers of nanoseconds that eight signed bytes hold. -/
def Storable (n : Int) : Prop := -0x8000000000000000 ≤ n ∧ n < 0x8000000000000000

instance (n : Int) : Decidable (Storable n) := by
  unfold Storable
  infer_instance

/-- The ordinary instant that many nanoseconds after the start of 1970. -/
def ofNanoseconds (n : Int) (h : Storable n) : Instant where
  seconds := n / 1000000000
  nanos := (n % 1000000000).toNat
  valid := by
    unfold Storable at h
    unfold Valid firstSecond lastSecond perSecond
    omega

/-- The instant made from a nanosecond count has that count. -/
theorem nanoseconds_ofNanoseconds (n : Int) (h : Storable n) :
    (ofNanoseconds n h).nanoseconds = n := by
  unfold nanoseconds ofNanoseconds perSecond
  dsimp only
  omega

/-- An ordinary instant comes back from its nanosecond count. -/
theorem ofNanoseconds_nanoseconds {t : Instant} (h : Storable t.nanoseconds)
    (hn : t.nanos < perSecond) : ofNanoseconds t.nanoseconds h = t := by
  obtain ⟨seconds, nanos, hv⟩ := t
  unfold perSecond at hn
  unfold ofNanoseconds
  congr 1 <;> simp only [nanoseconds, perSecond] at * <;> omega

/-- Instants in the order of time, a leap second after the second that it lengthens. -/
def order (s t : Instant) : Ordering :=
  (compare s.seconds t.seconds).then (compare s.nanos t.nanos)

end Instant

end RowFlags
