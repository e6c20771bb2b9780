import HnzSouth.Timestamp.Section

/-!
# Timestamp/TimeSetting — the time the plugin tells the station

A time setting carries the time of day in two parts: a section of ten minutes, and the hundredths of
a second into it.  The section is the one of the civil time, while the hundredths are counted from
the epoch.  The two make up one time exactly if the civil time is a whole number of sections away
from UTC (`System.timeSetting_iff`).
-/

namespace Hnz

/-- The time of day, in milliseconds, of a clock some seconds ahead of UTC. -/
def timeOfDay (offset : Int) (now : Instant) : Int := (now.ms + 1000 * offset) % 86400000

/-- **A time setting denotes a time of day**, to the hundredth of a second. -/
def DenotesTime : List UInt8 → Int → Prop
  | [_, section10, high, low, _], time =>
    section10.toNat * 600000 + (high.toNat * 256 + low.toNat : Nat) * 10 = time / 10 * 10 ∧
      section10.toNat ≤ 143 ∧ high.toNat * 256 + low.toNat ≤ 59999
  | _, _ => False

/-! ## Bytes -/

theorem toNat_u8 {x : Int} (h₀ : 0 ≤ x) (h : x < 256) : ((u8 x).toNat : Int) = x := by
  rw [u8, UInt8.toNat_ofNat']
  omega

/-- The two bytes of a number. -/
theorem toNat_u8_two {n : Nat} (h : n < 65536) :
    (u8 (n / 256 : Nat)).toNat * 256 + (u8 n).toNat = n := by
  rw [u8, u8, UInt8.toNat_ofNat', UInt8.toNat_ofNat']
  omega

/-! ## The two parts of the time -/

/-- The section of a civil time, from its time of day. -/
theorem section_eq (offset : Int) (now : Instant) :
    ((now.ms / 1000 : Nat) + offset) % 86400 / 600 = timeOfDay offset now / 600000 := by
  simp only [timeOfDay]
  omega

/-- **The two parts make up the time of day** exactly if the hundredths are those of the civil
time. -/
theorem section_add_iff (offset : Int) (now : Instant) :
    timeOfDay offset now / 600000 * 600000 + (now.ms % 600000 / 10 : Nat) * 10 =
        timeOfDay offset now / 10 * 10 ↔
      600 ∣ offset := by
  have hcivil : timeOfDay offset now / 10 * 10 =
      timeOfDay offset now / 600000 * 600000 + (now.ms + 1000 * offset) % 600000 / 10 * 10 := by
    simp only [timeOfDay]
    omega
  rw [hcivil, add_right_inj]
  omega

section

variable [Platform]

/-- How far the civil time of the messages is ahead of UTC, in seconds. -/
def civilOffset (useUtc : Bool) : Int := if useUtc then 0 else Platform.utcOffset

theorem System.civilTime_eq (useUtc : Bool) (t : Int) :
    System.civilTime useUtc t = gmtime (t + civilOffset useUtc) := by
  cases useUtc with
  | false => rfl
  | true => exact congrArg gmtime (add_zero t).symm

/-- The time setting of an instant. -/
def timePayload (useUtc : Bool) (now : Instant) : List UInt8 :=
  [Platform.settimeCode, u8 (timeOfDay (civilOffset useUtc) now / 600000),
    u8 (now.ms % 600000 / 10 / 256 : Nat), u8 (now.ms % 600000 / 10 : Nat), 0x00]

namespace System

/-- **What the path sends**, and the section the plugin remembers. -/
theorem sendTimeSetting_eq (p : PathId) (now : Instant) (s : System) :
    s.sendTimeSetting p now =
      { (s.sendInfo p now (timePayload (s.pathConf p).useUtc now)).2 with
        hnz.daySection := u8 (timeOfDay (civilOffset (s.pathConf p).useUtc) now / 600000) } := by
  simp only [sendTimeSetting, timePayload, civilTime_eq, section_gmtime, ← section_eq]
  rfl

end System

/-- The time setting denotes the civil time exactly if that is a whole number of sections away. -/
theorem denotesTime_timePayload_iff (useUtc : Bool) (now : Instant) :
    DenotesTime (timePayload useUtc now) (timeOfDay (civilOffset useUtc) now) ↔
      600 ∣ civilOffset useUtc := by
  have htime : 0 ≤ timeOfDay (civilOffset useUtc) now ∧
      timeOfDay (civilOffset useUtc) now < 86400000 := by
    simp only [timeOfDay]
    omega
  have hfrac : now.ms % 600000 / 10 ≤ 59999 := by omega
  have hsection := toNat_u8 (x := timeOfDay (civilOffset useUtc) now / 600000) (by omega) (by omega)
  rw [timePayload, DenotesTime, toNat_u8_two (by omega), hsection, section_add_iff]
  refine and_iff_left ⟨?_, hfrac⟩
  omega

namespace System

/-- **The time setting denotes the civil time exactly if** it is in UTC, or the local time is a
multiple of ten minutes away from it. -/
theorem timeSetting_iff (p : PathId) (now : Instant) (s : System) :
    s.sendTimeSetting p now =
        { (s.sendInfo p now (timePayload (s.pathConf p).useUtc now)).2 with
          hnz.daySection := u8 (timeOfDay (civilOffset (s.pathConf p).useUtc) now / 600000) } ∧
      (DenotesTime (timePayload (s.pathConf p).useUtc now)
          (timeOfDay (civilOffset (s.pathConf p).useUtc) now) ↔
        (s.pathConf p).useUtc = true ∨ 600 ∣ Platform.utcOffset) := by
  refine ⟨sendTimeSetting_eq p now s, (denotesTime_timePayload_iff _ now).trans ?_⟩
  cases (s.pathConf p).useUtc with
  | false => simp [civilOffset]
  | true => simp [civilOffset]

end System

end

/-- A host five hours and three quarters ahead of UTC. -/
abbrev Platform.quarterHour : Platform := { Platform.sample with utcOffset := 20700 }

/-- At midnight UTC, a quarter to six in local time, the message says twenty to six. -/
theorem not_denotesTime_quarterHour : letI : Platform := .quarterHour
    timePayload false 0 = [0x1D, 34, 0, 0, 0] ∧
      ¬DenotesTime (timePayload false 0) (timeOfDay (civilOffset false) 0) := by
  let : Platform := .quarterHour
  have hoffset : ¬(600 : Int) ∣ civilOffset false := by decide
  exact ⟨by decide, fun h => hoffset ((denotesTime_timePayload_iff false 0).mp h)⟩

end Hnz
