import HnzSouth.Behaviour.Cases
import HnzSouth.Behaviour.Work

/-!
# Behaviour/Interrogations — the work of a GI

Requests, their notification, and the end of a GI, as pieces of work.
-/

namespace Hnz

namespace System

variable {s t : System} {p : PathId} {now : Instant}

/-! ## Requests -/

/-- A notification starts the timer of the GI. -/
theorem connection_notifyGIsent :
    (s.notifyGIsent now).connection =
      { s.connection with
        giRepeat := s.connection.giRepeat + 1
        giStartTime := now.ms
        giNotified := s.connection.giNotified + 1 } := by
  unfold notifyGIsent
  split_ifs <;> simp

/-- The status becomes started, unless a GI in progress is repeated. -/
theorem hnz_notifyGIsent :
    (s.notifyGIsent now).hnz.conf = s.hnz.conf ∧
      (s.notifyGIsent now).hnz.connStatus = s.hnz.connStatus ∧
      (s.notifyGIsent now).gi = s.gi.requested := by
  unfold notifyGIsent Gi.requested gi
  split_ifs with h
  · obtain ⟨h₁, h₂, h₃, h₄⟩ := hnz_updateGiStatus (s := s) .started
    exact ⟨h₂, h₃, by simp only [h₁, h₄, connection_updateGiStatus]⟩
  · exact ⟨rfl, rfl, rfl⟩

/-- **A request**: a submission, and its notification if the message was sent. -/
theorem sendGeneralInterrogation_eq :
    s.sendGeneralInterrogation p now =
      if (s.sendInfo p now giPayload).1 then (s.sendInfo p now giPayload).2.notifyGIsent now
      else (s.sendInfo p now giPayload).2 := rfl

/-- A request writes the link and the GI. -/
theorem same_sendGeneralInterrogation (s : System) (p : PathId) (now : Instant) :
    let t := s.sendGeneralInterrogation p now
    t.connection.conf = s.connection.conf ∧
      t.connection.path = (s.sendInfo p now giPayload).2.connection.path ∧
      t.connection.activePath = s.connection.activePath ∧
      t.connection.firstInputConnected = s.connection.firstInputConnected ∧
      t.connection.isRunning = s.connection.isRunning ∧
      t.hnz.conf = s.hnz.conf ∧ t.hnz.connStatus = s.hnz.connStatus := by
  simp only [sendGeneralInterrogation_eq]
  split_ifs
  · rw [connection_notifyGIsent, hnz_notifyGIsent.1, hnz_notifyGIsent.2.1]
    exact ⟨rfl, rfl, rfl, rfl, rfl, rfl, rfl⟩
  · exact ⟨rfl, rfl, rfl, rfl, rfl, rfl, rfl⟩

theorem giNotified_sendGeneralInterrogation :
    (s.sendGeneralInterrogation p now).connection.giNotified =
      s.connection.giNotified + (s.sendInfo p now giPayload).1.toNat := by
  rw [sendGeneralInterrogation_eq]
  split_ifs with h
  · rw [connection_notifyGIsent, h]; rfl
  · rw [Bool.eq_false_of_not_eq_true h]; rfl

theorem remoteAddress_sendGeneralInterrogation :
    (s.sendGeneralInterrogation p now).hnz.remoteAddress = s.hnz.remoteAddress := by
  rw [sendGeneralInterrogation_eq]
  split_ifs
  · unfold notifyGIsent
    split_ifs
    · exact remoteAddress_updateGiStatus (s := (s.sendInfo p now giPayload).2) .started
    · rfl
  · rfl

/-- A request says nothing to the audits. -/
theorem said_sendGeneralInterrogation :
    (s.sendGeneralInterrogation p now).said = s.said := by
  have hnotify : ∀ u : System, (u.notifyGIsent now).said = u.said := fun u => by
    unfold notifyGIsent
    split_ifs
    · exact said_updateGiStatus .started
    · rfl
  rw [sendGeneralInterrogation_eq]
  split_ifs
  · exact hnotify _
  · rfl

/-- To the GI, a request is a request or nothing. -/
theorem gi_sendGeneralInterrogation : s.gi.Step (s.sendGeneralInterrogation p now).gi := by
  rw [sendGeneralInterrogation_eq]
  split_ifs
  · rw [hnz_notifyGIsent.2.2]
    exact .request s.gi
  · exact .keep s.gi

/-- Another value of the queue flag. -/
def withQueue (b : Bool) (s : System) : System := { s with hnz.giInQueue := b }

/-- No request reads or writes the queue. -/
theorem sendGeneralInterrogation_withQueue (b : Bool) :
    (s.withQueue b).sendGeneralInterrogation p now =
      (s.sendGeneralInterrogation p now).withQueue b := by
  have hevent : ∀ u : System, (u.withQueue b).sendSouthMonitoringEvent false true =
      (u.sendSouthMonitoringEvent false true).withQueue b := by
    intro u
    by_cases h : u.hnz.conf.connxStatus = "" <;>
      simp [sendSouthMonitoringEvent, h, sendToFledge, withQueue]
  have hstatus : ∀ u : System, (u.withQueue b).updateGiStatus .started =
      (u.updateGiStatus .started).withQueue b := by
    intro u
    by_cases h : u.hnz.giStatus = .started
    · simp [updateGiStatus, h, withQueue]
    · exact (if_neg h).trans ((hevent { u with hnz.giStatus := .started }).trans
        (congrArg _ (if_neg h).symm))
  have hnotify : ∀ u : System, (u.withQueue b).notifyGIsent now =
      (u.notifyGIsent now).withQueue b := by
    intro u
    have hstart : (if (u.withQueue b).connection.giRepeat = 0 ∨
          (u.withQueue b).hnz.giStatus ≠ .inProgress then (u.withQueue b).updateGiStatus .started
        else u.withQueue b) =
        (if u.connection.giRepeat = 0 ∨ u.hnz.giStatus ≠ .inProgress then u.updateGiStatus .started
        else u).withQueue b := by
      by_cases h : u.connection.giRepeat = 0 ∨ u.hnz.giStatus ≠ .inProgress
      · exact (if_pos h).trans ((hstatus u).trans (congrArg _ (if_pos h).symm))
      · exact (if_neg h).trans (congrArg _ (if_neg h).symm)
    unfold notifyGIsent
    simp only [hstart]
    rfl
  have hsend : (s.withQueue b).sendInfo p now giPayload =
      ((s.sendInfo p now giPayload).1, (s.sendInfo p now giPayload).2.withQueue b) := rfl
  rw [sendGeneralInterrogation_eq, sendGeneralInterrogation_eq, hsend]
  by_cases h : (s.sendInfo p now giPayload).1
  · rw [if_pos h, if_pos h, hnotify]
  · rw [if_neg h, if_neg h]

/-! ## What no work changes -/

/-- The configuration. -/
theorem Works.conf {ok : Work → Prop} (h : Works ok s t) :
    t.connection.conf = s.connection.conf :=
  h.invariant (I := fun u => u.connection.conf = s.connection.conf) (fun _ hu huv => by
    cases huv with
    | link => exact hu
    | interrogate => exact (same_sendGeneralInterrogation _ _ _).1.trans hu
    | other hs => exact hs.conf.trans hu) rfl

/-! ## Readings -/

theorem works_sendToFledge (readings : List Reading) :
    Works Work.Keeps s (s.sendToFledge readings) :=
  works_quiet ⟨rfl, rfl, rfl, rfl, rfl, rfl, rfl, rfl, rfl, rfl⟩ rfl

/-- A burst of quality readings is readings, and nothing else. -/
theorem sendAllTIQualityReadings_eq_ok {params : ReadingParameters} {rejectFilter : List Nat}
    (h : s.sendAllTIQualityReadings params rejectFilter = .ok t) :
    ∃ readings, t = s.sendToFledge readings := by
  unfold sendAllTIQualityReadings at h
  split at h
  · cases h
  split at h
  · cases h
  · cases h; exact ⟨_, rfl⟩

/-! ## The end -/

/-- **The end of a GI**: bookkeeping that finishes it, then the request that was waiting. -/
theorem giCompleted_cases {success : Bool} (h : s.giCompleted success now = .ok t) :
    ∃ u : System, s.Same u ∧ s.gi.Step u.gi ∧
      (t = u ∨ ∃ p, s.connection.activePath = some p ∧ t = u.sendGeneralInterrogation p now) := by
  unfold giCompleted at h
  simp only [bind_eq_ok] at h
  obtain ⟨u, hu, h⟩ := h
  obtain ⟨readings, rfl⟩ := sendAllTIQualityReadings_eq_ok hu
  set st : GiStatus := if success then .finished else .failed with hst
  set u : System := { s with connection.giRepeat := 0 }.sendToFledge readings with hu
  set v : System := (u.updateGiStatus st).resetGIQueue with hv
  obtain ⟨h₁, h₂, h₃, h₄⟩ := hnz_updateGiStatus (s := u) st
  have hc : (v.withQueue false).connection = u.connection := connection_updateGiStatus st
  have hsame : s.Same (v.withQueue false) :=
    ⟨by rw [hc]; rfl, by rw [hc]; rfl, by rw [hc]; rfl, by rw [hc]; rfl, by rw [hc]; rfl,
      by rw [hc]; rfl, h₂, remoteAddress_updateGiStatus st, h₃,
      (said_updateGiStatus (s := u) st).trans rfl⟩
  have hgi : s.gi.Step (v.withQueue false).gi := by
    have : (v.withQueue false).gi = ⟨st, false, 0⟩ := by
      rw [gi, hc]
      exact congrArg (Gi.mk · false 0) h₁
    rw [this]
    exact .finish _ (by rw [hst]; split_ifs <;> decide)
  refine ⟨v.withQueue false, hsame, hgi, ?_⟩
  split_ifs at h with hq
  · split at h
    · cases h
    · next p hp =>
      cases h
      have hactive : v.connection.activePath = s.connection.activePath :=
        (congrArg HNZConnection.activePath hc :)
      exact Or.inr ⟨p, hactive ▸ hp, (sendGeneralInterrogation_withQueue false).symm⟩
  · obtain rfl : v = t := Except.ok.inj h
    have hq : v.hnz.giInQueue = false := by simpa using hq
    left
    rw [withQueue, ← hq]

theorem works_giCompleted {success : Bool} (h : s.giCompleted success now = .ok t) :
    Works Work.Keeps s t := by
  obtain ⟨u, hs, hg, rfl | ⟨p, -, rfl⟩⟩ := giCompleted_cases h
  · exact works_other hs hg
  · exact (works_other hs hg).trans works_interrogate

theorem works_resetGIQueue : Works Work.Keeps s s.resetGIQueue :=
  works_quiet ⟨rfl, rfl, rfl, rfl, rfl, rfl, rfl, rfl, rfl, rfl⟩ rfl

theorem works_checkGICompleted {success : Bool} (h : s.checkGICompleted success now = .ok t) :
    Works Work.Keeps s t := by
  obtain ⟨ended, h⟩ | rfl | ⟨p, -, rfl⟩ := checkGICompleted_cases h
  · exact works_giCompleted h
  · exact works_resetGIQueue
  · exact works_resetGIQueue.trans works_interrogate

/-! ## The clock of the GI -/

theorem works_checkSchedule : Works Work.Keeps s (s.checkSchedule now) := by
  have hsent : ∀ u : System, Works Work.Keeps u
      { u with connection.giScheduleAlreadySent := true } := fun _ =>
    works_quiet ⟨rfl, rfl, rfl, rfl, rfl, rfl, rfl, rfl, rfl, rfl⟩ rfl
  obtain h | h | ⟨p, -, h⟩ := s.checkSchedule_cases now
  · rw [h]
    exact .refl
  · rw [h]
    exact hsent s
  · rw [h]
    exact works_interrogate.trans (hsent _)

theorem works_checkNewDay : Works Work.Keeps s s.checkNewDay := by
  obtain h | ⟨time, today, h⟩ := s.checkNewDay_cases
  · rw [h]
    exact .refl
  · rw [h]
    exact works_quiet ⟨rfl, rfl, rfl, rfl, rfl, rfl, rfl, rfl, rfl, rfl⟩ rfl

/-- **`m_check_GI`**, part by part. -/
theorem works_checkGI (h : s.checkGI now = .ok t) : Works Work.Keeps s t := by
  obtain ⟨u, hu, rfl⟩ := checkGI_cases h
  refine Works.trans ?_ (works_checkNewDay.trans works_checkSchedule)
  obtain rfl | hu := checkGITimeout_cases hu
  · exact .refl
  · exact works_checkGICompleted hu

theorem works_updateQualityUpdateTimer (h : s.updateQualityUpdateTimer now = .ok t) :
    Works Work.Keeps s t := by
  have hquiet : ∀ x : Int, Works Work.Keeps s { s with hnz.qualityUpdateTimer := x } := fun _ =>
    works_quiet ⟨rfl, rfl, rfl, rfl, rfl, rfl, rfl, rfl, rfl, rfl⟩ rfl
  obtain rfl | ⟨timer, rfl⟩ | ⟨u, hu, h⟩ := updateQualityUpdateTimer_cases h
  · exact .refl
  · exact hquiet timer
  · obtain ⟨r₁, rfl⟩ := sendAllTIQualityReadings_eq_ok hu
    obtain ⟨r₂, rfl⟩ := sendAllTIQualityReadings_eq_ok h
    exact (hquiet 0).trans ((works_sendToFledge r₁).trans (works_sendToFledge r₂))

end System

end Hnz
