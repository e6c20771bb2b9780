import HnzSouth.Behaviour.Frames
import HnzSouth.Behaviour.Interrogations
import HnzSouth.Behaviour.Messages

/-!
# Behaviour/Pieces — the handlers and the timers as work

One lemma per function that an event runs, transitions apart.
-/

namespace Hnz

namespace System

variable {s t : System} {p : PathId} {now : Instant} {data : List UInt8}

/-! ## Messages -/

/-- A command acknowledgement is looked up on both paths. -/
theorem works_receivedCommandACK (type : String) (addr : Int) :
    Works Work.OnLink s (s.receivedCommandACK type addr) :=
  receivedCommandACK_rule (fun _ => .refl) .trans fun _ _ => works_touch fun _ => rfl

/-- A GI that a TS triggers is queued only behind a running one. -/
theorem works_triggerGI : Works Work.Keeps s (s.triggerGI now) := by
  obtain h | ⟨hrunning, h⟩ | ⟨p, -, h⟩ := s.triggerGI_cases now
  · rw [h]
    exact .refl
  · rw [h]
    exact works_other ⟨rfl, rfl, rfl, rfl, rfl, rfl, rfl, rfl, rfl, rfl⟩ (.queue hrunning)
  · rw [h]
    exact works_interrogate

/-- A TSCG moves a GI that has started, and no other. -/
theorem works_hears (addresses : List Nat) : Works Work.Keeps s (s.hears addresses) := by
  have hrecords : Works Work.Keeps s (s.records addresses) :=
    works_quiet ⟨rfl, rfl, rfl, rfl, rfl, rfl, rfl, rfl, rfl, rfl⟩ rfl
  unfold hears
  split_ifs with hstarted
  · obtain ⟨h₁, h₂, h₃, h₄⟩ := hnz_updateGiStatus (s := s.records addresses) .inProgress
    have hc : ((s.records addresses).updateGiStatus .inProgress).connection = s.connection :=
      connection_updateGiStatus _
    refine hrecords.trans (works_other ⟨by rw [hc]; rfl, by rw [hc]; rfl, by rw [hc]; rfl,
      by rw [hc]; rfl, by rw [hc]; rfl, by rw [hc]; rfl, h₂, remoteAddress_updateGiStatus _, h₃,
      said_updateGiStatus _⟩ ?_)
    have hgi : ((s.records addresses).updateGiStatus .inProgress).gi =
        { (s.records addresses).gi with status := .inProgress } := by
      rw [gi, h₁, h₄, hc]
      rfl
    rw [hgi]
    exact .progress hstarted
  · exact hrecords

section
variable [Platform]

/-- **A handler keeps what work keeps.** -/
theorem Handles.works {type : UInt8} (h : Handles type now s t) : Works Work.Keeps s t := by
  cases h with
  | idle => exact .refl
  | modulo => exact works_quiet ⟨rfl, rfl, rfl, rfl, rfl, rfl, rfl, rfl, rfl, rfl⟩ rfl
  | trigger => exact works_triggerGI
  | hear => exact works_hears _
  | acknowledge => exact (works_receivedCommandACK _ _).keeps

/-- A message is handled, its readings are sent, and the GI may be completed. -/
theorem works_handleMessage (h : s.handleMessage data now = .ok t) : Works Work.Keeps s t := by
  unfold handleMessage at h
  simp only [bind_eq_ok] at h
  obtain ⟨type, -, ⟨readings, u⟩, hu, h⟩ := h
  refine (dispatch_cases hu).1.works.trans ((works_sendToFledge readings).trans ?_)
  simp only at h
  split_ifs at h
  · exact works_checkGICompleted h
  · cases h; exact .refl

end

/-! ## Operations -/

/-- A payload of another length is no request of a GI. -/
theorem ne_giPayload {msg : List UInt8} (h : msg.length ≠ 2) : msg ≠ giPayload := by
  rintro rfl
  exact h rfl

theorem works_northStatus (params : List (String × String)) :
    Works Work.Keeps s (s.northStatus params now).2 := by
  obtain h | h := s.northStatus_cases params
  · rw [h]
    exact .refl
  · rw [h]
    exact works_triggerGI

/-- A south event is a reading. -/
theorem works_sendSouthMonitoringEvent (c g : Bool) :
    Works Work.Keeps s (s.sendSouthMonitoringEvent c g) := by
  obtain ⟨readings, h⟩ := sendSouthMonitoringEvent_eq (s := s) c g
  rw [h]
  exact works_sendToFledge readings

section
variable [Platform]

/-- A TC is submitted, and registered if it was sent. -/
theorem works_sendTCCommand (address : Int) (value : UInt8) :
    Works Work.OnLink s (s.sendTCCommand p address value now).2 := by
  refine (works_sendInfo fun h => absurd h (ne_giPayload (by simp [tcMessage,
    Link.tcPayload]))).trans (works_touch fun l => ?_)
  unfold Link.registerCommandIfSent
  split_ifs <;> rfl

/-- So is a TVC. -/
theorem works_sendTVCCommand (address : UInt8) (value : Int) :
    Works Work.OnLink s (s.sendTVCCommand p address value now).2 := by
  refine (works_sendInfo fun h => absurd h (ne_giPayload (by simp [Link.tvcPayload]))).trans
    (works_touch fun l => ?_)
  unfold Link.registerCommandIfSent
  split_ifs <;> rfl

theorem works_processCommandOperation (params : List (String × String)) :
    Works Work.OnLink s (s.processCommandOperation params now).2 := by
  obtain ⟨-, h⟩ | ⟨address, value, p, -, -, -, ⟨-, h⟩ | ⟨-, h⟩⟩ :=
    processCommandOperation_cases params now s
  · rw [h]; exact .refl
  · rw [h]; exact works_sendTCCommand _ _
  · rw [h]; exact works_sendTVCCommand _ _

/-- **Any operation.** -/
theorem works_operation (name : String) (params : List (String × String)) :
    Works Work.Keeps s (s.operation name params now).2 := by
  unfold operation
  split_ifs
  · exact (works_processCommandOperation params).keeps
  · exact works_sendSouthMonitoringEvent true true
  · exact works_northStatus params
  · exact .refl

end

/-! ## Timers -/

/-- A BULLE is a submission, but no request of a GI. -/
theorem works_sendBULLE (c : PathConf) (hc : c = s.pathConf p) (n : Int) :
    Works Work.OnLink s (s.modifyLink p (Link.sendBULLE c n)) := by
  subst hc
  refine works_link (.submit n [_, _] _) (fun sent hop => ?_) id
  obtain ⟨hmsg, -⟩ := Link.Op.submit.inj hop
  rw [← hmsg]
  simp [PathConf.isBULLE]

/-- The time of the last connection is forgotten. -/
theorem works_lastConnected :
    Works Work.OnLink s (s.modifyLink p fun l => { l with lastConnected := 0 }) :=
  works_touch (f := fun l => { l with lastConnected := 0 }) fun _ => rfl

theorem works_connect : Works Work.OnLink s (s.connect p now) :=
  works_touch (f := fun l =>
    { l with lastMsgTime := now.ms, lastMsgSentTime := now.ms, tcpConnected := true }) fun _ => rfl

theorem works_stopTCP : Works Work.OnLink s (s.modifyLink p Link.stopTCP) :=
  works_touch (f := Link.stopTCP) fun _ => rfl

theorem works_checkCommandTimer : Works Work.OnLink s (s.checkCommandTimer p) :=
  works_touch (f := Link.checkCommandTimer _) fun _ => rfl

variable [Platform]

/-- SARM is a supervision frame; its count and time are nobody else's. -/
theorem works_sendSARM (c : PathConf) (hc : c = s.pathConf p) (n : Int) :
    Works Work.OnLink s (s.modifyLink p (Link.sendSARM c n)) := by
  subst hc
  have hsend := works_supervise (s := s) (p := p) [Platform.sarmCode] false n
  have htouch := works_touch (p := p)
    (s := s.modifyLink p fun l => l.sendFrame (s.pathConf p) n [Platform.sarmCode] false none)
    (f := fun l => { l with nbrSarmSent := l.nbrSarmSent + 1, lastSarmSentTime := n })
    fun _ => rfl
  have heq : s.modifyLink p (Link.sendSARM (s.pathConf p) n) =
      (s.modifyLink p fun l => l.sendFrame (s.pathConf p) n [Platform.sarmCode] false none).modifyLink
        p fun l => { l with nbrSarmSent := l.nbrSarmSent + 1, lastSarmSentTime := n } := by
    simp [modifyLink, modifyPath, Link.sendSARM]
  rw [heq]
  exact hsend.trans htouch

/-- The messages of the clock are no requests of a GI. -/
theorem works_sendDateSetting : Works Work.Keeps s (s.sendDateSetting p now) :=
  (works_sendInfo fun h => absurd h (ne_giPayload (by simp))).keeps

theorem works_sendTimeSetting : Works Work.Keeps s (s.sendTimeSetting p now) :=
  (works_sendInfo fun h => absurd h (ne_giPayload (by simp))).keeps.trans
    (works_quiet ⟨rfl, rfl, rfl, rfl, rfl, rfl, rfl, rfl, rfl, rfl⟩ rfl)

/-- The date, the time and the GI, in this order. -/
theorem works_sendInitMessages : Works Work.Keeps s (s.sendInitMessages p now) :=
  works_sendDateSetting.trans (works_sendTimeSetting.trans
    (works_interrogate.trans works_lastConnected.keeps))

/-- **The init messages** are sent to a path that has been connected long enough. -/
theorem works_checkInit : Works Work.Keeps s (s.checkInit p now) := by
  obtain h | h | ⟨-, h⟩ := s.checkInit_cases p now
  · rw [h]
    exact .refl
  · rw [h]
    exact works_lastConnected.keeps
  · rw [h]
    exact works_sendInitMessages.trans
      (works_quiet ⟨rfl, rfl, rfl, rfl, rfl, rfl, rfl, rfl, rfl, rfl⟩ rfl)

end System

end Hnz
