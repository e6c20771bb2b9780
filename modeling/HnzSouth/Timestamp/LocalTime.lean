import HnzSouth.Machinery.Signed
import HnzSouth.Timestamp.ClockSet
import HnzSouth.Timestamp.TimeSetting

/-!
# Timestamp/LocalTime — an event that is told in local time

Told to use the local time, the plugin takes section and hundredths of an event as local, and brings
the time stamp back to UTC by the difference of the two times of day.  The hour that decides on the
neighbouring day is still the one of UTC.  So a whole number of hours away from UTC the time stamp
is the instant of the event exactly if the local midnight does not fall between event and clock, and
the section does not look as if the midnight of UTC did (`System.localStamp_iff`).
-/

namespace Hnz

open Machinery

/-- The `do_ts` of an instant, from a time stamp that is somewhat off. -/
theorem int64_u64_add_iff {x e : Int} (h₀ : 0 ≤ x) (hx : x < 2 ^ 63) (he : |e| ≤ 172800000) :
    int64 (u64 (x + e)) = x ↔ e = 0 := by
  rw [abs_le] at he
  rw [int64, u64, Int.bmod_def]
  omega

section

variable [Platform] {now t : Instant} {k : Int}

/-! ## Local days -/

/-- The local day, counted from the epoch. -/
def localDay (t : Instant) : Int := (t.ms + 1000 * Platform.utcOffset) / 86400000

/-- The section of ten minutes of the local day. -/
def localSection (t : Instant) : UInt8 := u8 (timeOfDay Platform.utcOffset t / 600000)

/-- The hundredths of a second since the start of the local section. -/
def localPosition (t : Instant) : Int := timeOfDay Platform.utcOffset t % 600000 / 10

theorem toNat_localSection (t : Instant) :
    ((localSection t).toNat : Int) = timeOfDay Platform.utcOffset t / 600000 := by
  apply toNat_u8 <;> simp only [timeOfDay] <;> omega

theorem localSection_eq_iff {n : Nat} (hn : n < 256) :
    localSection t = UInt8.ofNat n ↔ timeOfDay Platform.utcOffset t / 600000 = n := by
  rw [← UInt8.toNat_inj, UInt8.toNat_ofNat', Nat.mod_eq_of_lt hn, ← toNat_localSection, Nat.cast_inj]

/-- Local day, section and position make up the instant. -/
theorem localDay_add (t : Instant) :
    86400000 * localDay t + (localSection t).toNat * 600000 + localPosition t * 10 -
      1000 * Platform.utcOffset = (t.ms / 10 * 10 : Nat) := by
  rw [toNat_localSection]
  simp only [localDay, localPosition, timeOfDay]
  omega

/-! ## The error of the time stamp -/

/-- How far the time stamp is off: the local days of clock and event, and the correction. -/
def stampError (now t : Instant) : Int :=
  86400000 * (localDay now - localDay t) + dayShift (localSection t) now.hour

/-- **The day is the right one**: the local time is the one of UTC but for whole days, or the local
day is the same for clock and event, and the section does not call for a correction. -/
def RightDay (now t : Instant) : Prop :=
  86400 ∣ Platform.utcOffset ∨
    localDay now = localDay t ∧ ¬(localSection t = 0 ∧ now.hour = 23) ∧
      ¬(localSection t = 143 ∧ now.hour = 0)

theorem abs_stampError_le (h : Near now t) : |stampError now t| ≤ 172800000 := by
  rw [Near, abs_lt] at h
  have hday : -1 ≤ localDay now - localDay t ∧ localDay now - localDay t ≤ 1 := by
    simp only [localDay, Instant.ms, tenMinMs] at h ⊢
    omega
  rw [stampError, dayShift, oneDayMs, abs_le]
  split_ifs <;> omega

/-- The day is corrected in the right way exactly if it is not corrected, or the hours are the local
ones. -/
theorem stampError_eq_zero_iff (hhours : Platform.utcOffset = 3600 * k) (h : Near now t) :
    stampError now t = 0 ↔ RightDay now t := by
  rw [Near, abs_lt] at h
  have hfirst := localSection_eq_iff (t := t) (n := 0) (by omega)
  have hlast := localSection_eq_iff (t := t) (n := 143) (by omega)
  rw [show UInt8.ofNat 0 = 0 from rfl] at hfirst
  rw [show UInt8.ofNat 143 = 143 from rfl] at hlast
  simp only [stampError, RightDay, dayShift, hfirst, hlast]
  simp only [localDay, timeOfDay, Instant.hour, Instant.ms, hhours, oneDayMs, tenMinMs,
    oneHourMs] at h ⊢
  split_ifs <;> omega

/-! ## The reading -/

namespace System

variable {s u : System} {data : List UInt8} {readings : List Reading} {r : Reading}

/-- **The time stamp is the instant of the event, and the error.** -/
theorem eventTimestamp_local {ts : Nat} (hlocal : s.hnz.conf.useUtc = false)
    (hsection : s.hnz.daySection = localSection t) (hts : (ts : Int) = localPosition t) :
    s.eventTimestamp ts now = u64 ((t.ms / 10 * 10 : Nat) + stampError now t) := by
  have hday : (Instant.startOfDay now : Int) -
      ((now.ms / 1000 + Platform.utcOffset) % 86400 - now.ms / 1000 % 86400) * 1000 =
        86400000 * localDay now - 1000 * Platform.utcOffset := by
    simp only [Instant.startOfDay, localDay, oneDayMs]
    omega
  have hu64 (x y : Int) : u64 ((u64 x : Nat) - y) = u64 (x - y) := by
    simp only [u64]
    omega
  simp only [eventTimestamp, civilTime, hlocal, Bool.false_eq_true, if_false, localtime,
    secondOfDay_gmtime, getEpochMsTimestamp_eq, hu64, hsection, hts]
  refine congrArg u64 ?_
  rw [← localDay_add, stampError, tenMinMs]
  push_cast
  linarith

/-- **The event gets its instant exactly if the day is the right one.** -/
theorem localStamp_iff (hhours : Platform.utcOffset = 3600 * k) (h : s.Reachable)
    (hlocal : s.hnz.conf.useUtc = false) (hnear : Near now t) (ht : t.ms < 2 ^ 63)
    (hsection : s.hnz.daySection = localSection t)
    (hh : s.handleTSCE data now = .ok (readings, u)) (hr : r ∈ readings)
    (hposition : ∀ b₃ b₄, data[3]? = some b₃ → data[4]? = some b₄ →
      (b₃.toNat * 256 + b₄.toNat : Nat) = localPosition t) :
    r.get? "do_ts" = some (.int (t.ms / 10 * 10 : Nat)) ↔ RightDay now t := by
  obtain ⟨b₃, b₄, h₃, h₄, hts⟩ := get?_do_ts_of_handleTSCE hh hr
  rw [activeInputConnected_of_reachable h, or_lowByte,
    eventTimestamp_local hlocal hsection (hposition b₃ b₄ h₃ h₄)] at hts
  rw [hts, if_neg Bool.false_ne_true, Option.some.injEq, DatapointValue.int.injEq,
    int64_u64_add_iff (by omega) (by omega) (abs_stampError_le hnear),
    stampError_eq_zero_iff hhours hnear]

end System

end

/-! ## Around the local midnight -/

/-- A host one hour ahead of UTC. -/
abbrev Platform.oneHour : Platform := { Platform.sample with utcOffset := 3600 }

namespace System

/-- A TSCE of the address 511, five minutes into its section. -/
def eventMessage : List UInt8 := [0x0B, 0x33, 0x28, 0x75, 0x30]

/-- Path A is connected, and the station tells the section. -/
def told (sect : UInt8) (now : Instant) : List Plugin.Call :=
  Plugin.listening ++
    [.event (.protocol .A .receivedUa now), .event (.message [0x0F, sect] now)]

set_option maxRecDepth 8000 in
/-- At five past one in local time an event gets its instant. -/
theorem localStamp_oneHour : letI : Platform := .oneHour
    ∃ s u : System, ∃ r, s.Reachable ∧ s.handleTSCE eventMessage 300000000000 = .ok ([r], u) ∧
      r.get? "do_ts" = some (.int 300000) := by
  let : Platform := .oneHour
  let pl : Plugin := (exec Plugin.step {} (told 6 300000000000)).get rfl
  let s : System := ⟨pl.hnz, pl.connection.get rfl⟩
  have hs : s.Reachable := ⟨rfl, told 6 300000000000, pl, run_det_iff.mpr rfl, rfl, rfl⟩
  have hh : s.handleTSCE eventMessage 300000000000 = .ok ([_], s) := rfl
  refine ⟨s, _, _, hs, hh, ?_⟩
  have hnear : Near 300000000000 300000000000 := by decide
  refine (localStamp_iff (k := 1) rfl hs rfl hnear (by decide) (by decide) hh
    (List.mem_singleton_self _) ?_).mpr ?_
  · rintro b₃ b₄ h₃ h₄
    cases h₃
    cases h₄
    rfl
  · exact .inr ⟨rfl, by decide, by decide⟩

set_option maxRecDepth 8000 in
/-- At five past midnight in local time the time stamp is a day late. -/
theorem not_localStamp_midnight : letI : Platform := .oneHour
    ∃ s u : System, ∃ r, s.Reachable ∧ s.hnz.conf.useUtc = false ∧
      s.hnz.daySection = localSection 83100000000000 ∧ localPosition 83100000000000 = 0x7530 ∧
      s.handleTSCE eventMessage 83100000000000 = .ok ([r], u) ∧
      r.get? "do_ts" = some (.int (83100000 + 86400000)) := by
  let : Platform := .oneHour
  let pl : Plugin := (exec Plugin.step {} (told 0 83100000000000)).get rfl
  let s : System := ⟨pl.hnz, pl.connection.get rfl⟩
  have hs : s.Reachable := ⟨rfl, told 0 83100000000000, pl, run_det_iff.mpr rfl, rfl, rfl⟩
  exact ⟨s, _, _, hs, rfl, rfl, rfl, rfl, by decide⟩

end System

end Hnz
