import HnzSouth.Model.Basic

/-!
# Model/Clock — instants, civil time, and the time stamp of an event

An `Instant` is a number of nanoseconds since the epoch, the precision of the system clock.  The
plugin mostly reads it in milliseconds.
-/

namespace Hnz

/-- Nanoseconds since the epoch. -/
abbrev Instant := Nat

/-- `duration_cast<milliseconds>`. -/
def Instant.ms (t : Instant) : Nat := t / 1000000

/-! ## Civil time -/

/-- The fields of `struct tm` the plugin reads. -/
structure Tm where
  hour : Int
  min : Int
  sec : Int
  mday : Int
  /-- From 0. -/
  mon : Int
  /-- From 1900. -/
  year : Int
  deriving DecidableEq, Repr

/-- `gmtime_r`: the time of day, and the day in the Gregorian calendar.  Years are counted from
March, in eras of 400 of them, so that the leap day is the last one. -/
def gmtime (t : Int) : Tm :=
  let day := t / 86400 + 719468
  let dayOfEra := day % 146097
  let yearOfEra := (dayOfEra - dayOfEra / 1460 + dayOfEra / 36524 - dayOfEra / 146096) / 365
  let dayOfYear := dayOfEra - (365 * yearOfEra + yearOfEra / 4 - yearOfEra / 100)
  let month := (5 * dayOfYear + 2) / 153
  let mon := if month < 10 then month + 2 else month - 10
  { hour := t % 86400 / 3600
    min := t % 3600 / 60
    sec := t % 60
    mday := dayOfYear - (153 * month + 2) / 5 + 1
    mon := mon
    year := yearOfEra + day / 146097 * 400 + (if mon < 2 then 1 else 0) - 1900 }

-- 29 February 2024 and 31 December 1999.
example : gmtime 1709251199 = ⟨23, 59, 59, 29, 1, 124⟩ := by decide
example : gmtime 946684799 = ⟨23, 59, 59, 31, 11, 99⟩ := by decide

/-- `localtime_r` on a host whose time is UTC plus a fixed offset. -/
def localtime [Platform] (t : Int) : Tm := gmtime (t + Platform.utcOffset)

/-- The seconds since midnight. -/
def Tm.secondOfDay (tm : Tm) : Int := tm.hour * 3600 + tm.min * 60 + tm.sec

theorem secondOfDay_gmtime (t : Int) : (gmtime t).secondOfDay = t % 86400 := by
  simp only [gmtime, Tm.secondOfDay]
  omega

/-! ## The time stamp of an event -/

def oneHourMs : Nat := 3600000
def oneDayMs : Nat := 86400000
def tenMinMs : Nat := 600000

/-- `getEpochMsTimestamp`: the instant, in milliseconds, of an event in the ten-minute section
`daySection` and `ts` hundredths of a second into it.  The day is the clock's, or a neighbour when
clock and section are on the two sides of midnight. -/
def getEpochMsTimestamp (dateTime : Instant) (daySection : UInt8) (ts : Nat) : Nat :=
  let days := dateTime - dateTime % (oneDayMs * 1000000)
  let hours := Instant.ms dateTime % oneDayMs / oneHourMs % 24
  let epochMs : Int := Instant.ms days
  let epochMs := if daySection = 0 ∧ hours = 23 then epochMs + oneDayMs else epochMs
  let epochMs := if daySection = 143 ∧ hours = 0 then epochMs - oneDayMs else epochMs
  u64 (epochMs + daySection.toNat * tenMinMs + ts * 10)

end Hnz
