import HnzSouth.Lifecycle.Start
import HnzSouth.Machinery.Countdown

/-!
# Lifecycle/Outdated — the points of a lost connection

Half a second after the connection is lost, the plugin reports every point of the station as
outdated.  The timer of the report is a countdown: it is armed by the loss, disarmed by a new start,
and reports once (`System.bursts_iff`).
-/

namespace Hnz

open Machinery

/-! ## Calls -/

/-- **A call to the plugin object**: the status of its connection, or the milliseconds since the last
check of the timer, a `long` that is not negative. -/
inductive StatusCall
  | update (newState : ConnectionStatus)
  | timer (elapsedTimeMs : Fin (2 ^ 63)) (now : Instant)

namespace StatusCall

/-- The milliseconds that pass with a call. -/
def elapsed : StatusCall → Nat
  | .update _ => 0
  | .timer e _ => e

/-- What the countdown makes of it. -/
def signal : StatusCall → Signal
  | .update .started => .up
  | .update .notConnected => .down
  | .timer e _ => .tick e

theorem signal_eq_up {c : StatusCall} : c.signal = .up ↔ c = .update .started := by
  rcases c with (_ | _) | _ <;> simp [signal]

theorem signal_eq_down {c : StatusCall} : c.signal = .down ↔ c = .update .notConnected := by
  rcases c with (_ | _) | _ <;> simp [signal]

theorem signal_eq_tick {c : StatusCall} {m : Nat} :
    c.signal = .tick m ↔ ∃ e now, c = .timer e now ∧ e.val = m := by
  rcases c with (_ | _) | _ <;> simp [signal]

end StatusCall

/-- The points of that code at that station, in the order of their addresses. -/
def HNZConf.points (conf : HNZConf) (msgCode : String) (station : Nat) : List (Nat × String) :=
  ((conf.messagesAt msgCode station).getD ∅).toList

namespace System

variable {s t u : System} {history : List StatusCall} {now : Instant}

/-- A call, executed. -/
def call (s : System) : StatusCall → Result System
  | .update newState => .ok (s.hnzUpdateConnectionStatus newState)
  | .timer e now => { s with connection.elapsedTimeMs := e.val }.updateQualityUpdateTimer now

/-- The calls, one after the other. -/
def calls (s : System) (history : List StatusCall) : Result System := history.foldlM call s

/-! ## The burst -/

/-- **The burst**: an outdated reading for each TM, then one for each TS. -/
def burst (s : System) (now : Instant) : List Reading :=
  ((s.hnz.conf.points "TM" s.hnz.remoteAddress).map fun kvp => prepareReading
    { label := kvp.2, msgCode := "TM", stationAddr := s.hnz.remoteAddress, msgAddress := kvp.1
      outdated := true, an := "TMA", qualityUpdate := true }) ++
  (s.hnz.conf.points "TS" s.hnz.remoteAddress).map fun kvp => prepareReading
    { label := kvp.2, msgCode := "TS", stationAddr := s.hnz.remoteAddress, msgAddress := kvp.1
      outdated := true, ts := now.ms, qualityUpdate := true }

/-- There is at least one TM and one TS. -/
def HasPoints (s : System) : Prop :=
  s.hnz.conf.points "TM" s.hnz.remoteAddress ≠ [] ∧ s.hnz.conf.points "TS" s.hnz.remoteAddress ≠ []

instance (s : System) : Decidable s.HasPoints := inferInstanceAs (Decidable (_ ∧ _))

/-- **The burst is emitted** by a call of the timer after those calls. -/
def Bursts (s : System) (history : List StatusCall) (e : Fin (2 ^ 63)) (now : Instant) : Prop :=
  ∃ t u, s.calls history = .ok t ∧ t.call (.timer e now) = .ok u ∧
    u.hnz.readings = t.hnz.readings ++ s.burst now

/-- **The burst is due**: the connection was lost after having been started, has not been started
since, no burst was emitted since, and the time since then reaches the limit. -/
def Due (s : System) (history : List StatusCall) (e : Fin (2 ^ 63)) : Prop :=
  ∃ before since, history = before ++ .update .notConnected :: since ∧
    (∃ t, s.calls before = .ok t ∧ t.hnz.connStatus = .started) ∧ .update .started ∉ since ∧
    (∀ first e' now' last, since = first ++ .timer e' now' :: last →
      ¬s.Bursts (before ++ .update .notConnected :: first) e' now') ∧
    qualityUpdateTimeoutMs ≤ (since.map StatusCall.elapsed).sum + e

theorem exists_messages_of_points {conf : HNZConf} {msgCode : String} {station : Nat}
    (h : conf.points msgCode station ≠ []) :
    ∃ messages, conf.messagesAt msgCode station = some messages ∧
      conf.points msgCode station = messages.toList := by
  cases hmessages : conf.messagesAt msgCode station with
  | none => exact absurd (by rw [HNZConf.points, hmessages]; rfl) h
  | some messages => exact ⟨messages, rfl, by rw [HNZConf.points, hmessages]; rfl⟩

/-- The burst is what the two loops send. -/
theorem sendBurst (h : s.HasPoints) (now : Instant) :
    (s.sendAllTMQualityReadings false true >>= fun t =>
      t.sendAllTSQualityReadings false true [] now) = .ok (s.sendToFledge (s.burst now)) := by
  obtain ⟨tms, htms, hTM⟩ := exists_messages_of_points h.1
  obtain ⟨tss, htss, hTS⟩ := exists_messages_of_points h.2
  rw [bind_eq_ok]
  refine ⟨_, sendAllTIQualityReadings_eq [] htms, (sendAllTIQualityReadings_eq [] htss).trans ?_⟩
  simp only [burst, hTM, hTS, sendToFledge, List.not_mem_nil, not_false_eq_true, decide_true,
    List.filter_true, List.append_assoc]
  rfl

theorem burst_ne_nil (h : s.HasPoints) (now : Instant) : s.burst now ≠ [] := by
  intro hnil
  exact h.1 (List.map_eq_nil_iff.mp (List.append_eq_nil_iff.mp hnil).1)

/-- Its readings say that the points are outdated. -/
theorem outdated_burst {r : Reading} (hr : r ∈ s.burst now) :
    r.get? "do_outdated" = some (.int 1) := by
  rcases List.mem_append.mp hr with hr | hr <;>
    obtain ⟨kvp, -, rfl⟩ := List.mem_map.mp hr <;>
    rfl

/-! ## The countdown of the plugin -/

/-- **The countdown**: the status of the connection, and the timer. -/
def countdown (s : System) : Countdown := ⟨s.hnz.connStatus == .started, s.hnz.qualityUpdateTimer⟩

/-- The configuration and the station are those of another state. -/
def SamePoints (s t : System) : Prop :=
  t.hnz.conf = s.hnz.conf ∧ t.hnz.remoteAddress = s.hnz.remoteAddress

theorem SamePoints.hasPoints (h : s.SamePoints t) (hs : s.HasPoints) : t.HasPoints := by
  rw [HasPoints, h.1, h.2]
  exact hs

theorem SamePoints.burst (h : s.SamePoints t) (now : Instant) : t.burst now = s.burst now := by
  rw [System.burst, System.burst, h.1, h.2]

/-- A call that updates the status. -/
theorem call_update (newState : ConnectionStatus) (s : System) :
    ∃ t, s.call (.update newState) = .ok t ∧ s.SamePoints t ∧
      t.countdown = s.countdown.next 500 (StatusCall.update newState).signal := by
  refine ⟨_, rfl, ?_⟩
  by_cases hsame : s.hnz.connStatus = newState
  · rw [hnzUpdateConnectionStatus, if_pos hsame]
    refine ⟨⟨rfl, rfl⟩, ?_⟩
    cases newState <;> simp [StatusCall.signal, Countdown.next, countdown, hsame]
  · obtain ⟨readings, h⟩ := hnzUpdateConnectionStatus_of_ne hsame
    have hcountdown : (s.hnzUpdateConnectionStatus newState).countdown =
        ⟨newState == .started,
          if newState = .notConnected then qualityUpdateTimeoutMs else 0⟩ := by
      rw [h]
      rfl
    refine ⟨by rw [h]; exact ⟨rfl, rfl⟩, hcountdown.trans ?_⟩
    cases hstatus : s.hnz.connStatus <;> cases newState
    · exact absurd hstatus hsame
    · simp [StatusCall.signal, Countdown.next, countdown, hstatus, qualityUpdateTimeoutMs]
    · simp [StatusCall.signal, Countdown.next, countdown, hstatus]
    · exact absurd hstatus hsame

/-- A call that checks the timer. -/
theorem call_timer (h : s.HasPoints) (e : Fin (2 ^ 63)) (now : Instant) :
    ∃ t, s.call (.timer e now) = .ok t ∧ s.SamePoints t ∧
      t.countdown = s.countdown.next 500 (.tick e) ∧
      (s.countdown.rings e → t.hnz.readings = s.hnz.readings ++ s.burst now) ∧
      (¬s.countdown.rings e → t.hnz.readings = s.hnz.readings) := by
  have he : int64 e.val = e.val := int64_of_lt (by positivity) (by exact_mod_cast e.isLt)
  simp only [call, updateQualityUpdateTimer, he, Countdown.rings, Countdown.next, countdown]
  by_cases hpos : 0 < s.hnz.qualityUpdateTimer
  · by_cases hzero : s.hnz.qualityUpdateTimer - e.val ≤ 0
    · rw [if_pos hpos, if_pos hzero]
      refine ⟨_, sendBurst (s := { s with
        connection.elapsedTimeMs := e.val, hnz.qualityUpdateTimer := 0 }) h now, ⟨rfl, rfl⟩, ?_,
        fun _ => rfl, fun hnot => absurd ⟨hpos, hzero⟩ hnot⟩
      simp [hpos, hzero, sendToFledge]
    · rw [if_pos hpos, if_neg hzero]
      refine ⟨_, rfl, ⟨rfl, rfl⟩, ?_, fun h => absurd h.2 hzero, fun _ => rfl⟩
      simp [hpos, hzero]
  · rw [if_neg hpos]
    refine ⟨_, rfl, ⟨rfl, rfl⟩, ?_, fun h => absurd h.1 hpos, fun _ => rfl⟩
    simp [hpos]

/-! ## Sequences of calls -/

theorem calls_append_singleton (s : System) (history : List StatusCall) (c : StatusCall) :
    s.calls (history ++ [c]) = s.calls history >>= fun t => t.call c := by
  rw [calls, List.foldlM_append]
  exact bind_congr fun t => bind_pure _

/-- The plugin object is a fresh one: the connection has not been started yet. -/
def Unstarted (s : System) : Prop :=
  s.hnz.connStatus = ({} : HNZ).connStatus ∧ s.hnz.qualityUpdateTimer = ({} : HNZ).qualityUpdateTimer

instance (s : System) : Decidable s.Unstarted := inferInstanceAs (Decidable (_ ∧ _))

/-- **Every sequence of calls returns**, and moves the countdown by its signals. -/
theorem calls_spec (hfresh : s.Unstarted) (h : s.HasPoints) (history : List StatusCall) :
    ∃ t, s.calls history = .ok t ∧ s.SamePoints t ∧
      t.countdown = .after 500 (history.map StatusCall.signal) := by
  induction history using List.reverseRecOn with
  | nil =>
    refine ⟨s, rfl, ⟨rfl, rfl⟩, ?_⟩
    rw [countdown, hfresh.1, hfresh.2]
    rfl
  | append_singleton history c ih =>
    obtain ⟨t, ht, hsame, hcountdown⟩ := ih
    obtain ⟨u, hu, hsame', hnext⟩ : ∃ u, t.call c = .ok u ∧ t.SamePoints u ∧
        u.countdown = t.countdown.next 500 c.signal := by
      cases c with
      | update newState => exact call_update newState t
      | timer e now =>
        obtain ⟨u, hu, hsame', hnext, -⟩ := call_timer (hsame.hasPoints h) e now
        exact ⟨u, hu, hsame', hnext⟩
    refine ⟨u, ?_, ⟨hsame'.1.trans hsame.1, hsame'.2.trans hsame.2⟩, ?_⟩
    · rw [calls_append_singleton, ht]
      exact hu
    · rw [hnext, hcountdown, List.map_append, List.map_singleton,
        Countdown.after_append_singleton]

/-- **A burst is a ring of the countdown.** -/
theorem bursts_iff_rings (hfresh : s.Unstarted) (h : s.HasPoints) (history : List StatusCall)
    (e : Fin (2 ^ 63)) (now : Instant) :
    s.Bursts history e now ↔ (Countdown.after 500 (history.map StatusCall.signal)).rings e := by
  obtain ⟨t, ht, hsame, hcountdown⟩ := calls_spec hfresh h history
  obtain ⟨u, hu, -, -, hrings, hsilent⟩ := call_timer (hsame.hasPoints h) e now
  rw [hcountdown, hsame.burst] at hrings
  rw [hcountdown] at hsilent
  constructor
  · rintro ⟨t', u', ht', hu', hburst⟩
    obtain rfl : t = t' := Except.ok.inj (ht.symm.trans ht')
    obtain rfl : u = u' := Except.ok.inj (hu.symm.trans hu')
    by_contra hnot
    rw [hsilent hnot] at hburst
    exact burst_ne_nil h now (List.self_eq_append_right.mp hburst)
  · exact fun hring => ⟨t, u, ht, hu, hrings hring⟩

/-- The time that passes is the time of the signals. -/
theorem elapsed_map_signal (history : List StatusCall) :
    Countdown.elapsed (history.map StatusCall.signal) = (history.map StatusCall.elapsed).sum := by
  rw [Countdown.elapsed, List.map_map]
  refine congrArg List.sum (List.map_congr_left fun c _ => ?_)
  rcases c with (_ | _) | _ <;> rfl

/-- **A started connection is one that is up.** -/
theorem exists_started_iff (hfresh : s.Unstarted) (h : s.HasPoints) (history : List StatusCall) :
    (∃ t, s.calls history = .ok t ∧ t.hnz.connStatus = .started) ↔
      (Countdown.after 500 (history.map StatusCall.signal)).up = true := by
  obtain ⟨t, ht, -, hcountdown⟩ := calls_spec hfresh h history
  rw [← hcountdown, countdown, beq_iff_eq]
  constructor
  · rintro ⟨t', ht', hstarted⟩
    obtain rfl : t = t' := Except.ok.inj (ht.symm.trans ht')
    exact hstarted
  · exact fun hstarted => ⟨t, ht, hstarted⟩

/-- **The burst is due when the countdown rings.** -/
theorem due_iff_rings (hfresh : s.Unstarted) (h : s.HasPoints) (history : List StatusCall)
    (e : Fin (2 ^ 63)) :
    s.Due history e ↔ (Countdown.after 500 (history.map StatusCall.signal)).rings e := by
  have hreach : ∀ since : List StatusCall,
      qualityUpdateTimeoutMs ≤ (since.map StatusCall.elapsed).sum + e.val ↔
        500 ≤ Countdown.elapsed (since.map StatusCall.signal) + e.val := fun since => by
    rw [elapsed_map_signal, qualityUpdateTimeoutMs]
    exact_mod_cast Iff.rfl
  have hnot_up : ∀ since : List StatusCall,
      .update .started ∉ since ↔ .up ∉ since.map StatusCall.signal := fun since => by
    simp only [List.mem_map, StatusCall.signal_eq_up, exists_eq_right]
  rw [Countdown.rings_iff (by decide)]
  constructor
  · rintro ⟨before, since, rfl, hstarted, hnot, hsilent, hlimit⟩
    refine ⟨before.map StatusCall.signal, since.map StatusCall.signal,
      ⟨by simp [StatusCall.signal], (exists_started_iff hfresh h before).mp hstarted,
        (hnot_up since).mp hnot⟩, ?_, (hreach since).mp hlimit⟩
    intro first m last hsplit hrings
    obtain ⟨first', rest, rfl, rfl, hrest⟩ := List.map_eq_append_iff.mp hsplit
    obtain ⟨c, last', rfl, hc, rfl⟩ := List.map_eq_cons_iff.mp hrest
    obtain ⟨e', now', rfl, rfl⟩ := StatusCall.signal_eq_tick.mp hc
    refine hsilent first' e' now' last' rfl ((bursts_iff_rings hfresh h _ e' now').mpr ?_)
    simpa [StatusCall.signal] using hrings
  · rintro ⟨before, since, ⟨hsplit, hup, hnot⟩, hsilent, hlimit⟩
    obtain ⟨before', rest, rfl, rfl, hrest⟩ := List.map_eq_append_iff.mp hsplit
    obtain ⟨c, since', rfl, hc, rfl⟩ := List.map_eq_cons_iff.mp hrest
    obtain rfl := StatusCall.signal_eq_down.mp hc
    refine ⟨before', since', rfl, (exists_started_iff hfresh h before').mpr hup,
      (hnot_up since').mpr hnot, ?_, (hreach since').mpr hlimit⟩
    rintro first e' now' last rfl hbursts
    refine hsilent (first.map StatusCall.signal) e' (last.map StatusCall.signal)
      (by simp [StatusCall.signal]) ?_
    simpa [StatusCall.signal] using (bursts_iff_rings hfresh h _ e' now').mp hbursts

/-- **The burst is emitted exactly when it is due.**  No call throws; a check of the timer emits
nothing else, and nothing while the connection is started. -/
theorem bursts_iff (hfresh : s.Unstarted) (h : s.HasPoints) (history : List StatusCall)
    (e : Fin (2 ^ 63)) (now : Instant) :
    (s.Bursts history e now ↔ s.Due history e) ∧
      ∃ t u, s.calls history = .ok t ∧ t.call (.timer e now) = .ok u ∧
        (u.hnz.readings ≠ t.hnz.readings →
          s.Bursts history e now ∧ t.hnz.connStatus = .notConnected) := by
  have hrings := bursts_iff_rings hfresh h history e now
  refine ⟨hrings.trans (due_iff_rings hfresh h history e).symm, ?_⟩
  obtain ⟨t, ht, hsame, hcountdown⟩ := calls_spec hfresh h history
  obtain ⟨u, hu, -, -, -, hsilent⟩ := call_timer (hsame.hasPoints h) e now
  refine ⟨t, u, ht, hu, fun hne => ?_⟩
  have hring : t.countdown.rings e := by
    by_contra hnot
    exact hne (hsilent hnot)
  rw [hcountdown] at hring
  refine ⟨hrings.mpr hring, ?_⟩
  have hdown := Countdown.up_of_rings hring
  rw [← hcountdown, countdown] at hdown
  cases hstatus : t.hnz.connStatus with
  | started => rw [hstatus] at hdown; cases hdown
  | notConnected => rfl

/-- The plugin of the sample, before its connection. -/
def unconnected : System := ⟨{ conf := .sample, remoteAddress := 1 }, { conf := .sample }⟩

/-- The connection of the sample is lost; the second check brings the limit, and with it the burst: the
TM and the TS are outdated. -/
theorem bursts_unconnected :
    unconnected.Bursts [.update .started, .update .notConnected, .timer 300 0] 200 0 ∧
      unconnected.Due [.update .started, .update .notConnected, .timer 300 0] 200 ∧
      (unconnected.burst 0).map Reading.asset = ["TM1", "TS1"] ∧
      ∀ r ∈ unconnected.burst 0, r.get? "do_outdated" = some (.int 1) := by
  have hburst : unconnected.Bursts [.update .started, .update .notConnected, .timer 300 0] 200 0 :=
    ⟨_, _, rfl, rfl, rfl⟩
  exact ⟨hburst, (bursts_iff (by decide) (by decide) _ 200 0).1.mp hburst, by decide +kernel,
    fun r hr => outdated_burst hr⟩

end System

end Hnz
