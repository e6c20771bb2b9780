import HnzSouth.Model.Handlers

/-!
# Timestamp/Section — an instant from its section of ten minutes

The remote station writes an instant without its day: the section of ten minutes of the day, and the
hundredths of a second into the section.  The plugin completes it with the day of its own clock, or
with a neighbouring day when section and clock are on the two sides of midnight.  While the two
clocks are less than a section apart this is the day of the remote instant, and nothing but the
milliseconds below the hundredth is lost (`getEpochMsTimestamp_section`).
-/

namespace Hnz

namespace Instant

variable (t : Instant)

/-- The section of ten minutes, of the day. -/
def daySection : UInt8 := UInt8.ofNat (Instant.ms t % oneDayMs / tenMinMs)

/-- The hundredths of a second since the start of the section. -/
def sectionOffset : Nat := Instant.ms t % tenMinMs / 10

/-- The first millisecond of the day. -/
def startOfDay : Nat := Instant.ms t - Instant.ms t % oneDayMs

/-- The hour of the day. -/
def hour : Nat := Instant.ms t % oneDayMs / oneHourMs

theorem toNat_daySection : (daySection t).toNat = Instant.ms t % oneDayMs / tenMinMs := by
  rw [daySection, UInt8.toNat_ofNat']
  simp only [oneDayMs, tenMinMs]
  omega

theorem daySection_eq_iff {n : Nat} (hn : n < 256) :
    daySection t = UInt8.ofNat n ↔ Instant.ms t % oneDayMs / tenMinMs = n := by
  rw [← UInt8.toNat_inj, toNat_daySection, UInt8.toNat_ofNat', Nat.mod_eq_of_lt hn]

/-- Day, section and offset make up the instant. -/
theorem startOfDay_add :
    startOfDay t + (daySection t).toNat * tenMinMs + sectionOffset t * 10 =
      Instant.ms t / 10 * 10 := by
  rw [toNat_daySection]
  simp only [startOfDay, sectionOffset, oneDayMs, tenMinMs]
  omega

/-- The start of the day, from the start of the day in nanoseconds. -/
theorem ms_startOfDay :
    Instant.ms (t - t % (oneDayMs * 1000000)) = startOfDay t := by
  simp only [startOfDay, Instant.ms, oneDayMs]
  omega

end Instant

/-! ## The day of the remote instant -/

/-- The correction of the day: one more before midnight, one less after it. -/
def dayShift (daySection : UInt8) (hour : Nat) : Int :=
  (if daySection = 0 ∧ hour = 23 then (oneDayMs : Int) else 0) -
    (if daySection = 143 ∧ hour = 0 then (oneDayMs : Int) else 0)

/-- The time stamp of an event is the day of the clock, corrected, plus section and offset. -/
theorem getEpochMsTimestamp_eq (l : Instant) (daySection : UInt8) (ts : Nat) :
    getEpochMsTimestamp l daySection ts =
      u64 (Instant.startOfDay l + dayShift daySection (Instant.hour l) +
        daySection.toNat * tenMinMs + ts * 10) := by
  have hhour : Instant.ms l % oneDayMs / oneHourMs % 24 = Instant.hour l := by
    simp only [Instant.hour, oneDayMs, oneHourMs]
    omega
  simp only [getEpochMsTimestamp, dayShift, hhour, Instant.ms_startOfDay]
  split_ifs <;> exact congrArg u64 (by ring)

/-- The two instants are less than a section apart. -/
def Near (l t : Instant) : Prop := |(l : Int) - t| < tenMinMs * 1000000

instance (l t : Instant) : Decidable (Near l t) := inferInstanceAs (Decidable (_ < _))

/-- **The corrected day is the day of the remote instant.**  The clock is at most a section from it,
so that the two days differ only if one instant is in the last hour and the other in the first
section of a day, or the other way round. -/
theorem startOfDay_add_dayShift {l t : Instant} (h : Near l t) :
    (Instant.startOfDay l : Int) + dayShift (Instant.daySection t) (Instant.hour l) =
      Instant.startOfDay t := by
  rw [Near, abs_lt] at h
  have hfirst := Instant.daySection_eq_iff t (n := 0) (by omega)
  have hlast := Instant.daySection_eq_iff t (n := 143) (by omega)
  rw [show UInt8.ofNat 0 = 0 from rfl] at hfirst
  rw [show UInt8.ofNat 143 = 143 from rfl] at hlast
  simp only [dayShift, hfirst, hlast]
  simp only [Instant.startOfDay, Instant.hour, Instant.ms, oneDayMs, tenMinMs, oneHourMs] at h ⊢
  split_ifs <;> omega

/-- Clock, section and offset make up the remote instant. -/
theorem u64_startOfDay_add {l t : Instant} (h : Near l t) (ht : Instant.ms t < 2 ^ 64) :
    u64 (Instant.startOfDay l + dayShift (Instant.daySection t) (Instant.hour l) +
      (Instant.daySection t).toNat * tenMinMs + Instant.sectionOffset t * 10) =
      Instant.ms t / 10 * 10 := by
  have hparts := Instant.startOfDay_add t
  rw [startOfDay_add_dayShift h, u64_of_lt (by positivity) (by omega)]
  omega

/-- **The time stamp is the remote instant**, to the hundredth of a second, for every two clocks less
than ten minutes apart. -/
theorem getEpochMsTimestamp_section {l t : Instant} (h : Near l t) (ht : Instant.ms t < 2 ^ 64) :
    getEpochMsTimestamp l (Instant.daySection t) (Instant.sectionOffset t) =
      Instant.ms t / 10 * 10 := by
  rw [getEpochMsTimestamp_eq, u64_startOfDay_add h ht]

/-- One minute after midnight for the clock, one minute before it for the remote station, on the
first of January 2024. -/
theorem getEpochMsTimestamp_midnight :
    getEpochMsTimestamp 1704067260000000000
      (Instant.daySection 1704067140007000000) (Instant.sectionOffset 1704067140007000000) =
        1704067140000 :=
  getEpochMsTimestamp_section (by decide) (by decide)

/-! ## The messages of a plugin in UTC -/

/-- The section of ten minutes of a civil time. -/
theorem section_gmtime (t : Int) : (gmtime t).hour * 6 + (gmtime t).min / 10 = t % 86400 / 600 := by
  simp only [gmtime]
  omega

namespace System

variable [Platform] {s : System} {p : PathId} {now : Instant}

/-- The plugin writes its own time the same way: the section it sends, and remembers, is the one of
the clock. -/
theorem daySection_sendTimeSetting (hutc : (s.pathConf p).useUtc = true) :
    (s.sendTimeSetting p now).hnz.daySection = Instant.daySection now := by
  have hmod : (Instant.ms now / 1000 : Int) % 86400 / 600 =
      (Instant.ms now % oneDayMs / tenMinMs : Nat) := by
    simp only [oneDayMs, tenMinMs]
    omega
  simp only [sendTimeSetting, civilTime, hutc, if_true, section_gmtime, hmod, u8,
    Instant.daySection]
  rw [← UInt8.toNat_inj, UInt8.toNat_ofNat', UInt8.toNat_ofNat']
  omega

/-- In UTC the time stamp of an event is not corrected any further. -/
theorem eventTimestamp_of_utc (ts : Nat) (hutc : s.hnz.conf.useUtc = true) :
    s.eventTimestamp ts now = getEpochMsTimestamp now s.hnz.daySection ts := by
  have hlt : getEpochMsTimestamp now s.hnz.daySection ts < 2 ^ 64 := by
    rw [getEpochMsTimestamp_eq, u64]
    omega
  simp only [eventTimestamp, civilTime, hutc, if_true, sub_self, zero_mul, sub_zero]
  rw [u64_of_lt (by positivity) (by omega), Int.toNat_natCast]

/-- **A TSCE of the section the plugin has been told** gets the instant of its event. -/
theorem eventTimestamp_section {t : Instant} (hutc : s.hnz.conf.useUtc = true)
    (hsection : s.hnz.daySection = Instant.daySection t) (h : Near now t)
    (ht : Instant.ms t < 2 ^ 64) :
    s.eventTimestamp (Instant.sectionOffset t) now = Instant.ms t / 10 * 10 := by
  rw [eventTimestamp_of_utc _ hutc, hsection, getEpochMsTimestamp_eq, u64_startOfDay_add h ht]

end System

end Hnz
