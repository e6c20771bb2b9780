import HnzSouth.Lifecycle.Station
import HnzSouth.Reception.Handlers

/-!
# Lifecycle/Start — what a start relies on

A start reads the TM and the TS of its station with `at`, and then uses the connection.  The timers
read the same two tables.
-/

namespace Hnz

open Machinery

/-! ## The messages of a station -/

/-- Both tables of the station are there. -/
def HNZConf.readable (conf : HNZConf) (station : Nat) : Bool :=
  (conf.messagesAt "TM" station).isSome && (conf.messagesAt "TS" station).isSome

namespace System

variable {s : System} {now : Instant}

/-- **One reading for each point** of the table, unless it is filtered out. -/
theorem sendAllTIQualityReadings_eq {params : ReadingParameters} (filter : List Nat)
    {messages : Std.TreeMap Nat String}
    (h : s.hnz.conf.messagesAt params.msgCode params.stationAddr = some messages) :
    s.sendAllTIQualityReadings params filter = .ok (s.sendToFledge
      ((messages.toList.filter fun kvp => kvp.1 ∉ filter).map fun kvp =>
        prepareReading { params with label := kvp.2, msgAddress := kvp.1 })) := by
  obtain ⟨stations, hstations, hmessages⟩ := Option.bind_eq_some_iff.mp h
  simp only [sendAllTIQualityReadings, hstations, hmessages]

theorem sendAllTIQualityReadings_of_isSome {params : ReadingParameters} (filter : List Nat)
    (h : (s.hnz.conf.messagesAt params.msgCode params.stationAddr).isSome = true) :
    ∃ readings, s.sendAllTIQualityReadings params filter = .ok (s.sendToFledge readings) := by
  obtain ⟨messages, hmessages⟩ := Option.isSome_iff_exists.mp h
  exact ⟨_, sendAllTIQualityReadings_eq filter hmessages⟩

theorem sendAllTIQualityReadings_of_isNone {params : ReadingParameters} (filter : List Nat)
    (h : (s.hnz.conf.messagesAt params.msgCode params.stationAddr).isSome = false) :
    s.sendAllTIQualityReadings params filter = .error .outOfRange := by
  unfold sendAllTIQualityReadings
  unfold HNZConf.messagesAt at h
  cases hstations : s.hnz.conf.msgList[params.msgCode]? with
  | none => rfl
  | some stations =>
    rw [hstations, Option.bind_some, Option.isSome_eq_false_iff, Option.isNone_iff_eq_none] at h
    simp only [h]

/-- **All the points of the station**: their readings, if both tables are there. -/
theorem qualityReadings_of_readable (s : System) (a b : Bool) (now : Instant)
    (h : s.hnz.conf.readable s.hnz.remoteAddress = true) :
    ∃ readings, (s.sendAllTMQualityReadings a b >>= fun t =>
      t.sendAllTSQualityReadings a b [] now) = .ok (s.sendToFledge readings) := by
  rw [HNZConf.readable, Bool.and_eq_true] at h
  obtain ⟨r₁, hTM⟩ : ∃ r, s.sendAllTMQualityReadings a b = .ok (s.sendToFledge r) :=
    sendAllTIQualityReadings_of_isSome [] h.1
  obtain ⟨r₂, hTS⟩ : ∃ r, (s.sendToFledge r₁).sendAllTSQualityReadings a b [] now =
      .ok ((s.sendToFledge r₁).sendToFledge r) := sendAllTIQualityReadings_of_isSome [] h.2
  refine ⟨r₁ ++ r₂, ?_⟩
  rw [hTM, bind_eq_ok]
  refine ⟨_, rfl, ?_⟩
  rw [hTS]
  simp [sendToFledge]

theorem qualityReadings_of_not_readable (s : System) (a b : Bool) (now : Instant)
    (h : s.hnz.conf.readable s.hnz.remoteAddress = false) :
    (s.sendAllTMQualityReadings a b >>= fun t => t.sendAllTSQualityReadings a b [] now) =
      .error .outOfRange := by
  cases hTM : (s.hnz.conf.messagesAt "TM" s.hnz.remoteAddress).isSome with
  | false =>
    have hfail : s.sendAllTMQualityReadings a b = .error .outOfRange :=
      sendAllTIQualityReadings_of_isNone [] hTM
    rw [hfail]
    rfl
  | true =>
    rw [HNZConf.readable, hTM, Bool.true_and] at h
    obtain ⟨r, hr⟩ : ∃ r, s.sendAllTMQualityReadings a b = .ok (s.sendToFledge r) :=
      sendAllTIQualityReadings_of_isSome [] hTM
    have hfail : (s.sendToFledge r).sendAllTSQualityReadings a b [] now = .error .outOfRange :=
      sendAllTIQualityReadings_of_isNone [] h
    rw [hr]
    exact hfail

/-! ## The timers -/

theorem avoids_updateQualityUpdateTimer (h : s.hnz.conf.readable s.hnz.remoteAddress = true) :
    Avoids .outOfRange (s.updateQualityUpdateTimer now) := by
  unfold updateQualityUpdateTimer
  split_ifs
  · obtain ⟨readings, hr⟩ := qualityReadings_of_readable
      { s with hnz.qualityUpdateTimer := 0 } false true now h
    simp only
    split_ifs
    · rw [hr]
      exact .ok _
    · exact .ok _
  · exact .ok _

/-- The end of a GI reads the table of the TS. -/
theorem avoids_outOfRange_giCompleted (success : Bool)
    (h : s.hnz.conf.readable s.hnz.remoteAddress = true) :
    Avoids .outOfRange (s.giCompleted success now) := by
  rw [HNZConf.readable, Bool.and_eq_true] at h
  exact avoids_giCompleted (fun _ => h.2) (by nofun) success

end System

/-! ## Starting -/

namespace Plugin

variable {pl : Plugin}

/-- The plugin once its start has been asked for. -/
def asked (b : Bool) (pl : Plugin) : Plugin := { pl with shouldRun := b || pl.shouldRun }

theorem start_eq_asked (b : Bool) (now : Instant) :
    pl.start b now =
      if pl.isRunning then .ok (pl.asked b)
      else if !pl.hnz.conf.isComplete then .ok (pl.asked b)
      else do
        let s : System := ⟨pl.hnz, pl.connection.getD {}⟩
        let s ← s.sendAllTMQualityReadings true false >>= fun s =>
          s.sendAllTSQualityReadings true false [] now
        match pl.connection with
        | none => throw .nullPath
        | some _ =>
          let s := s.startSchedule now
          return { pl.asked b with
            hnz := s.hnz, connection := some s.connection, isRunning := true } := by
  cases b <;> simp only [start, asked, bind_assoc] <;> rfl

/-- A plugin that runs, or has nothing to run, only notes that it should. -/
theorem start_of_idle (b : Bool) (now : Instant)
    (h : pl.isRunning = true ∨ pl.hnz.conf.isComplete = false) :
    pl.start b now = .ok (pl.asked b) := by
  rw [start_eq_asked]
  by_cases hr : pl.isRunning = true
  · rw [if_pos hr]
  · rw [if_neg hr, h.resolve_left hr]
    rfl

section Ready

variable (b : Bool) (now : Instant) (hr : pl.isRunning = false)
  (hc : pl.hnz.conf.isComplete = true)

include hr hc

/-- **Without its two tables** a start throws. -/
theorem start_of_not_readable (h : pl.hnz.conf.readable pl.hnz.remoteAddress = false) :
    pl.start b now = .error .outOfRange := by
  have hfail := System.qualityReadings_of_not_readable
    ⟨pl.hnz, pl.connection.getD {}⟩ true false now h
  rw [start_eq_asked, hr, hc]
  simp only [hfail]
  rfl

/-- **Without a connection** it uses a null one. -/
theorem start_of_null (h : pl.hnz.conf.readable pl.hnz.remoteAddress = true)
    (hnull : pl.connection = none) : pl.start b now = .error .nullPath := by
  obtain ⟨readings, hread⟩ := System.qualityReadings_of_readable
    ⟨pl.hnz, pl.connection.getD {}⟩ true false now h
  rw [hnull] at hread
  rw [start_eq_asked, hr, hc]
  simp only [hnull, hread]
  rfl

/-- Otherwise the plugin runs. -/
theorem start_of_connection (h : pl.hnz.conf.readable pl.hnz.remoteAddress = true)
    {c : HNZConnection} (hsome : pl.connection = some c) :
    ∃ readings connection, pl.start b now = .ok { pl.asked b with
      hnz := { pl.hnz with readings := readings }
      connection := some connection
      isRunning := true } := by
  obtain ⟨readings, hread⟩ := System.qualityReadings_of_readable
    ⟨pl.hnz, pl.connection.getD {}⟩ true false now h
  rw [hsome] at hread
  rw [start_eq_asked, hr, hc]
  simp only [hsome, hread]
  exact ⟨_, _, rfl⟩

end Ready

end Plugin

end Hnz
