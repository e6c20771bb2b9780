import HnzSouth.Behaviour.Links
import HnzSouth.Behaviour.Times
import HnzSouth.Machinery.Alarm
import HnzSouth.Model.Import

/-!
# Interrogation/Schedule — the scheduled GI

Three fields decide whether the scheduled GI is due: the day, the instant scheduled for it, and
whether the GI was sent.  Together they are an alarm whose days are those of UTC and whose ticks are
the calls of `m_check_GI`; the start of the thread counts as a tick that does not ring.  So the
schedule asks for a GI at the first tick of a day at or after its hour, and at no other
(`schedules_of_run`); and what it asks for is submitted to the active path (`submits_of_schedules`).
-/

namespace Hnz

open Machinery

/-- The day of a time in milliseconds. -/
def dayOf (ms : Nat) : Nat := ms / oneDayMs

/-- The time of day is at or after the scheduled one. -/
def GIScheduleFormat.due (schedule : GIScheduleFormat) (ms : Nat) : Bool :=
  (schedule.hour * 60 + schedule.min) * 60000 ≤ (ms % oneDayMs : Nat)

/-- An active schedule, as the import leaves it. -/
structure GIScheduleFormat.Active (schedule : GIScheduleFormat) : Prop where
  activate : schedule.activate = true
  hour_nonneg : 0 ≤ schedule.hour
  hour_lt : schedule.hour < 24
  min_nonneg : 0 ≤ schedule.min
  min_lt : schedule.min < 60

/-- A schedule that the import makes active is one. -/
theorem active_of_retrieveSchedule {json : Json} {key : String} {schedule : GIScheduleFormat}
    (h : retrieveSchedule json key = some schedule) (hactivate : schedule.activate = true) :
    schedule.Active := by
  unfold retrieveSchedule at h
  split at h
  · cases h; cases hactivate
  · simp only [Option.bind_eq_bind, Option.bind_eq_some_iff, Option.pure_def] at h
    obtain ⟨temp, -, h⟩ := h
    split_ifs at h
    · cases h; cases hactivate
    · simp only [Option.bind_eq_some_iff] at h
      obtain ⟨hour, -, min, -, h⟩ := h
      split_ifs at h with hrange
      cases h
      exact ⟨rfl, hrange.1, hrange.2.1, hrange.2.2.1, hrange.2.2.2⟩

/-- The last millisecond the clock can show: its instants are nanoseconds in 64 bits. -/
def lastMs : Nat := Instant.ms (2 ^ 63 - 1)

namespace System

variable {s t u : System} {p : PathId} {now : Instant} {ev : Event} {schedule : GIScheduleFormat}

/-! ## The alarm -/

/-- The fields of the schedule. -/
def clockwork (s : System) : Nat × Nat × GIScheduleFormat × Bool × Int :=
  (s.connection.current, s.connection.daysSinceEpoch, s.connection.giSchedule,
    s.connection.giScheduleAlreadySent, s.connection.giScheduledTime)

/-- The alarm of the schedule. -/
def alarm (s : System) : Alarm Nat :=
  ⟨s.connection.daysSinceEpoch, s.connection.giScheduleAlreadySent⟩

/-- **The fields agree**: the scheduled time is the one of the day, and the clock has not gone back
behind the day. -/
structure OnSchedule (schedule : GIScheduleFormat) (s : System) : Prop where
  giSchedule : s.connection.giSchedule = schedule
  day_le : s.alarm.day ≤ dayOf s.connection.current
  current_le : s.connection.current ≤ lastMs
  time : s.connection.giScheduledTime =
    s.alarm.day * oneDayMs + (schedule.hour * 60 + schedule.min) * 60000

theorem OnSchedule.congr (h : s.OnSchedule schedule) (heq : t.clockwork = s.clockwork) :
    t.OnSchedule schedule := by
  simp only [clockwork, Prod.mk.injEq] at heq
  obtain ⟨hcurrent, hday, hschedule, -, htime⟩ := heq
  exact ⟨hschedule.trans h.giSchedule, by simpa only [alarm, hcurrent, hday] using h.day_le,
    by rw [hcurrent]; exact h.current_le, by simpa only [alarm, hday, htime] using h.time⟩

theorem alarm_congr (heq : t.clockwork = s.clockwork) : t.alarm = s.alarm := by
  simp only [clockwork, Prod.mk.injEq] at heq
  simp only [alarm, heq.2.1, heq.2.2.2.1]

/-- The scheduled time of a day that the clock can show. -/
theorem scheduledTime_eq (hactive : schedule.Active) {current : Nat} (hle : current ≤ lastMs) :
    scheduledTime current schedule =
      dayOf current * oneDayMs + (schedule.hour * 60 + schedule.min) * 60000 := by
  obtain ⟨-, h₀, h₁, h₂, h₃⟩ := hactive
  simp only [lastMs, Instant.ms] at hle
  rw [scheduledTime, int64_of_lt (by omega) (by omega), dayOf, oneDayMs]
  omega

/-- The scheduled time has come. -/
theorem u64_time_le_iff (hactive : schedule.Active) {current : Nat} (hle : current ≤ lastMs) :
    u64 (dayOf current * oneDayMs + (schedule.hour * 60 + schedule.min) * 60000) ≤ current ↔
      schedule.due current = true := by
  obtain ⟨-, h₀, h₁, h₂, h₃⟩ := hactive
  simp only [lastMs, Instant.ms] at hle
  rw [GIScheduleFormat.due, decide_eq_true_eq, dayOf, oneDayMs,
    u64_of_lt (by omega) (by omega)]
  omega

/-- **A new day arms the alarm**, and schedules its GI. -/
theorem onSchedule_checkNewDay (hactive : schedule.Active) (h : s.OnSchedule schedule) :
    s.checkNewDay.OnSchedule schedule ∧
      s.checkNewDay.alarm = s.alarm.arm dayOf s.connection.current ∧
      s.checkNewDay.connection.current = s.connection.current := by
  have htime := scheduledTime_eq hactive h.current_le
  rw [← h.giSchedule] at htime
  unfold checkNewDay
  simp only
  by_cases hday : s.connection.daysSinceEpoch = s.connection.current / 86400000
  · rw [if_neg (not_not.mpr hday)]
    exact ⟨h, (if_pos hday).symm, rfl⟩
  · rw [if_pos hday]
    refine ⟨⟨h.giSchedule, le_rfl, h.current_le, ?_⟩, (if_neg hday).symm, rfl⟩
    rw [← h.giSchedule]
    exact htime

/-- On the day of the clock, the schedule asks for a GI if it is due and was not sent. -/
theorem scheduled_iff (hactive : schedule.Active) (h : s.OnSchedule schedule)
    (hday : s.alarm.day = dayOf s.connection.current) :
    s.Scheduled ↔ (!s.alarm.rung && schedule.due s.connection.current) = true := by
  rw [Scheduled, h.giSchedule, h.time, hday, hactive.activate, Bool.true_and, Bool.and_eq_true,
    Bool.and_eq_true, decide_eq_true_eq, u64_time_le_iff hactive h.current_le]
  rfl

/-- **The start of the thread** is a tick that does not ring. -/
theorem onSchedule_startSchedule (hactive : schedule.Active)
    (hschedule : s.connection.giSchedule = schedule)
    (hsent : s.connection.giScheduleAlreadySent = false) (hnow : now < 2 ^ 63) :
    (s.startSchedule now).OnSchedule schedule ∧
      (s.startSchedule now).alarm = ⟨dayOf now.ms, schedule.due now.ms⟩ := by
  have hle : now.ms ≤ lastMs := Nat.div_le_div_right (Nat.le_pred_of_lt hnow)
  have htime := scheduledTime_eq hactive hle
  refine ⟨⟨hschedule, le_rfl, hle, ?_⟩, ?_⟩
  · rw [← hschedule] at htime ⊢
    exact htime
  · have hdue := u64_time_le_iff hactive hle
    rw [← htime] at hdue
    have hpassed : decide (u64 (scheduledTime now.ms schedule) ≤ now.ms) = schedule.due now.ms :=
      Bool.eq_iff_iff.mpr (decide_eq_true_iff.trans hdue)
    rw [← hpassed]
    simp only [alarm, startSchedule, updateCurrentTime, hsent, hschedule, hactive.activate,
      Bool.false_or, Bool.true_and]
    rfl

/-- The clock is read. -/
theorem onSchedule_updateCurrentTime (h : s.OnSchedule schedule)
    (hmono : s.connection.current ≤ now.ms) (hnow : now < 2 ^ 63) :
    (s.updateCurrentTime now).OnSchedule schedule where
  giSchedule := h.giSchedule
  day_le := h.day_le.trans (Nat.div_le_div_right hmono)
  current_le := Nat.div_le_div_right (Nat.le_pred_of_lt hnow)
  time := h.time

/-! ## What leaves the schedule alone -/

theorem SameTimes.clockwork (h : s.SameTimes t) : t.clockwork = s.clockwork := by
  obtain ⟨_, _, _, _, h⟩ := h.connection
  simp only [System.clockwork, h]

theorem clockwork_protocolStateTransition (e : ConnectionEvent) :
    (s.protocolStateTransition p e now).clockwork = s.clockwork := by
  obtain ⟨_, _, _, _, _, h⟩ := arbitrates_protocolStateTransition (s := s) (p := p) e now
  simp only [clockwork, h]

theorem clockwork_fire (pe : Option (PathId × ConnectionEvent)) :
    (s.fire now pe).clockwork = s.clockwork := by
  rcases pe with - | ⟨p, e⟩
  · rfl
  · exact clockwork_protocolStateTransition e

variable [Platform]

theorem AroundTimes.clockwork (h : s.AroundTimes ev t) : t.clockwork = s.clockwork := by
  obtain ⟨u, now, hpre, -, hpost⟩ := h
  rw [hpost.clockwork, clockwork_fire, hpre.clockwork]

theorem clockwork_checkTimer : (s.checkTimer p now).clockwork = s.clockwork := by
  have hrepeat : (s.checkRepeat p now).clockwork = s.clockwork := by
    unfold checkRepeat
    split
    · rfl
    · exact clockwork_protocolStateTransition _
    · rfl
  rw [checkTimer, ← hrepeat]
  obtain h | h | ⟨-, h⟩ := (s.checkRepeat p now).checkInit_cases p now
  · rw [h]
  · rw [h]; rfl
  · rw [h]
    exact sameTimes_sendSettings.clockwork

/-! ## Ticks -/

/-- The schedule asks for a GI when `m_check_GI` is called. -/
def schedules (now : Instant) (s : System) : Bool :=
  match s.checkGITimeout now with
  | .ok u => decide u.checkNewDay.Scheduled
  | .error _ => false

omit [Platform] in
/-- **What is asked for is submitted**: a tick at which the schedule asks submits a GI to the active
path, if there is one, and is noted for the day; another tick does neither. -/
theorem submits_of_schedules (h : s.checkGI now = .ok t) :
    ∃ u, s.checkGITimeout now = .ok u ∧ (s.schedules now = false → t = u.checkNewDay) ∧
      (s.schedules now = true → t.connection.giScheduleAlreadySent = true ∧
        ∀ p, u.connection.activePath = some p →
          (t.path p).toLink = ((u.path p).toLink.sendInfo (u.pathConf p) now.ms giPayload).2) := by
  obtain ⟨u, hu, rfl⟩ := checkGI_cases h
  have hday : u.checkNewDay.connection.activePath = u.connection.activePath ∧
      ∀ p, u.checkNewDay.path p = u.path p ∧ u.checkNewDay.pathConf p = u.pathConf p := by
    obtain h | ⟨time, today, h⟩ := u.checkNewDay_cases
    · rw [h]
      exact ⟨rfl, fun _ => ⟨rfl, rfl⟩⟩
    · rw [h]
      exact ⟨rfl, fun _ => ⟨rfl, rfl⟩⟩
  obtain ⟨hactive, hlinks⟩ := hday
  refine ⟨u, hu, fun hasks => ?_, fun hasks => ?_⟩
  all_goals
    rw [schedules, hu] at hasks
    unfold checkSchedule
  · exact if_neg (of_decide_eq_false hasks)
  · rw [if_pos (by exact of_decide_eq_true hasks)]
    refine ⟨rfl, fun p hp => ?_⟩
    simp only [hactive, hp]
    rw [← (hlinks p).1, ← (hlinks p).2]
    exact (link_sendGeneralInterrogation _ p p now).trans (if_pos rfl)

variable (s now) in
omit [Platform] in
theorem checkSchedule_fields :
    (s.checkSchedule now).connection.current = s.connection.current ∧
      (s.checkSchedule now).connection.daysSinceEpoch = s.connection.daysSinceEpoch ∧
      (s.checkSchedule now).connection.giSchedule = s.connection.giSchedule ∧
      (s.checkSchedule now).connection.giScheduledTime = s.connection.giScheduledTime ∧
      (s.checkSchedule now).connection.giScheduleAlreadySent =
        (s.connection.giScheduleAlreadySent || decide s.Scheduled) := by
  unfold checkSchedule
  by_cases h : s.Scheduled
  · rw [if_pos (by exact h)]
    cases s.connection.activePath with
    | none => simp [h]
    | some p =>
      have heq : (s.sendGeneralInterrogation p now).clockwork = s.clockwork :=
        sameTimes_sendGeneralInterrogation.clockwork
      simp only [clockwork, Prod.mk.injEq] at heq
      simp [h, heq.1, heq.2.1, heq.2.2.1, heq.2.2.2.2]
  · rw [if_neg (by exact h)]
    simp [h]

omit [Platform] in
/-- **A tick** is a tick of the alarm. -/
theorem tick_checkGI (hactive : schedule.Active) (h : s.OnSchedule schedule)
    (hgi : s.checkGI now = .ok t) :
    t.OnSchedule schedule ∧ t.alarm = s.alarm.tick dayOf schedule.due s.connection.current ∧
      s.schedules now = s.alarm.rings dayOf schedule.due s.connection.current := by
  obtain ⟨u, hu, rfl⟩ := checkGI_cases hgi
  have hsame := (sameTimes_checkGITimeout hu).clockwork
  obtain ⟨hday, halarm, hcurrent⟩ := onSchedule_checkNewDay hactive (h.congr hsame)
  have hfields := congrArg Prod.fst hsame
  simp only [clockwork] at hfields
  rw [alarm_congr hsame, hfields] at halarm
  have htoday : u.checkNewDay.alarm.day = dayOf u.checkNewDay.connection.current := by
    rw [halarm, hcurrent, hfields, Alarm.arm_day]
  have hrings : decide u.checkNewDay.Scheduled =
      s.alarm.rings dayOf schedule.due s.connection.current := by
    rw [Alarm.rings, ← halarm, ← hfields, ← hcurrent, Bool.eq_iff_iff, decide_eq_true_iff]
    exact scheduled_iff hactive hday htoday
  obtain ⟨h₁, h₂, h₃, h₄, h₅⟩ := checkSchedule_fields u.checkNewDay now
  refine ⟨⟨h₃.trans hday.giSchedule, ?_, ?_, ?_⟩, ?_, ?_⟩
  · simpa only [alarm, h₁, h₂] using hday.day_le
  · rw [h₁]; exact hday.current_le
  · simpa only [alarm, h₂, h₄] using hday.time
  · rw [Alarm.tick_eq, ← halarm, alarm, h₂, h₅, hrings]
    rfl
  · rw [schedules, hu]
    exact hrings

/-! ## Runs -/

/-- The thread starts once, and the clock does not go back. -/
def timely (s : System) (ev : Event) : Bool :=
  match ev with
  | .startSchedule _ => false
  | .currentTime now => decide (s.connection.current ≤ now.ms) && decide (now < 2 ^ 63)
  | _ => true

/-- The ticks so far, and whether the schedule asked for a GI. -/
def ticked (s : System) (ev : Event) (record : List (Nat × Bool)) : List (Nat × Bool) :=
  match ev with
  | .checkGI now => record ++ [(s.connection.current, s.schedules now)]
  | _ => record

/-- **The schedule is kept** since it started. -/
structure Keeps (schedule : GIScheduleFormat) (start : Nat) (record : List (Nat × Bool))
    (s : System) : Prop where
  onSchedule : s.OnSchedule schedule
  since : s.alarm.Since dayOf schedule.due (start :: record.map Prod.fst)
  recorded : Alarm.Recorded dayOf schedule.due start record

omit [Platform] in
theorem Keeps.congr {start : Nat} {record : List (Nat × Bool)} (h : s.Keeps schedule start record)
    (heq : t.clockwork = s.clockwork) : t.Keeps schedule start record :=
  ⟨h.onSchedule.congr heq, by rw [alarm_congr heq]; exact h.since, h.recorded⟩

/-- The step lemma. -/
theorem Keeps.step {start : Nat} {record : List (Nat × Bool)} (hactive : schedule.Active)
    (h : s.Keeps schedule start record) (hgood : s.timely ev = true) (hstep : s.step ev = some t) :
    t.Keeps schedule start (s.ticked ev record) := by
  obtain ⟨-, hrun⟩ := run_of_step hstep
  cases ev with
  | startSchedule now => cases hgood
  | currentTime now =>
    obtain ⟨hmono, hnow⟩ := (Bool.and_eq_true _ _).mp hgood
    cases hrun
    exact ⟨onSchedule_updateCurrentTime h.onSchedule (of_decide_eq_true hmono)
      (of_decide_eq_true hnow), h.since, h.recorded⟩
  | checkTimer p now =>
    cases hrun
    exact h.congr clockwork_checkTimer
  | checkGI now =>
    obtain ⟨honSchedule, halarm, hrings⟩ := tick_checkGI hactive h.onSchedule hrun
    have hle := h.onSchedule.day_le
    simp only [ticked]
    rw [hrings]
    refine ⟨honSchedule, ?_, h.recorded.tick h.since hle⟩
    rw [halarm, List.map_append]
    exact h.since.tick hle
  | _ => exact h.congr (around_times hstep trivial).clockwork

/-- **The scheduled GI**: whatever the other threads do, the schedule asks for a GI at a tick exactly
if this is the first one of its day at or after the hour, unless the thread was started after the
hour of that very day; so it asks once a day at most. -/
theorem schedules_of_run (hactive : schedule.Active) (hschedule : s.connection.giSchedule = schedule)
    (hsent : s.connection.giScheduleAlreadySent = false) (hnow : now < 2 ^ 63)
    {evs : List Event} {record : List (Nat × Bool)}
    (h : Run (Under (fun x ev => timely x.1 ev = true) (Observed ticked Step))
      (s.startSchedule now, []) evs (t, record)) :
    (∀ before ms asks after, record = before ++ (ms, asks) :: after →
      (asks = true ↔ schedule.due ms = true ∧
        (∀ tick ∈ before, dayOf tick.1 = dayOf ms → schedule.due tick.1 = false) ∧
        ¬(dayOf now.ms = dayOf ms ∧ schedule.due now.ms = true))) ∧
    ((record.filter Prod.snd).map fun tick => dayOf tick.1).Nodup := by
  have hstart : (s.startSchedule now).Keeps schedule now.ms [] := by
    obtain ⟨honSchedule, halarm⟩ := onSchedule_startSchedule hactive hschedule hsent hnow
    exact ⟨honSchedule, by rw [halarm]; exact Alarm.since_start _, Alarm.recorded_nil⟩
  have hkeeps : t.Keeps schedule now.ms record :=
    h.invariant (I := fun x => x.1.Keeps schedule now.ms x.2)
      (fun {x ev y} hx hxy => by rw [hxy.2.2]; exact hx.step hactive hxy.1 hxy.2.1) hstart
  refine ⟨fun before ms asks after heq => ?_, hkeeps.recorded.nodup⟩
  rw [hkeeps.recorded before ms asks after heq, List.forall_mem_cons, List.forall_mem_map]
  refine and_congr_right fun _ => ?_
  rw [not_and, Bool.not_eq_true, and_comm]

end System

/-! ## A day and the next -/

namespace System

open Sample

/-- A connection whose GI is scheduled at ten. -/
def atTen : System :=
  create { conf := { HNZConf.sample with giSchedule := ⟨true, 10, 0⟩ } } 0

/-- So many minutes after the epoch. -/
def minutes (n : Nat) : Instant := n * 60000000000

set_option maxRecDepth 8000 in
/-- Started at nine, it asks at the first tick after ten, and at the first one of the next day, which
is at eleven. -/
theorem schedules_atTen :
    ∃ t record, Run (Under (fun x ev => timely x.1 ev = true) (Observed ticked Step))
        (atTen.startSchedule (minutes 540), [])
        ([570, 601, 602, 2100].flatMap fun n =>
          [.currentTime (minutes n), .checkGI (minutes n)]) (t, record) ∧
      record.map Prod.snd = [false, true, false, true] ∧
      ((record.filter Prod.snd).map fun tick => dayOf tick.1).Nodup := by
  obtain ⟨⟨t, record⟩, hx, hasks⟩ := (Option.any_eq_true _ _).mp (show
    (exec (fun x ev => if timely x.1 ev = true then
      (step x.1 ev).map fun t => (t, ticked x.1 ev x.2) else none)
      (atTen.startSchedule (minutes 540), [])
      ([570, 601, 602, 2100].flatMap fun n =>
        [.currentTime (minutes n), .checkGI (minutes n)])).any
      (fun x => x.2.map Prod.snd == [false, true, false, true]) = true by decide +kernel)
  have hrun : Run (Under (fun x ev => timely x.1 ev = true) (Observed ticked Step))
      (atTen.startSchedule (minutes 540), [])
      ([570, 601, 602, 2100].flatMap fun n =>
        [.currentTime (minutes n), .checkGI (minutes n)]) (t, record) := by
    rw [observed_det]
    exact run_under_iff.mpr hx
  have hactive : GIScheduleFormat.Active ⟨true, 10, 0⟩ :=
    ⟨rfl, by decide, by decide, by decide, by decide⟩
  exact ⟨t, record, hrun, beq_iff_eq.mp hasks,
    (schedules_of_run hactive (by decide +kernel) (by decide +kernel) (by decide) hrun).2⟩

end System

end Hnz
