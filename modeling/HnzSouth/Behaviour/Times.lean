import HnzSouth.Interrogation.Course
import HnzSouth.Reception.Rejection

/-!
# Behaviour/Times — the fields that keep time

The schedule, the time of the last connection and the flag of the init messages have few writers.
Everything else an event does leaves them alone (`SameTimes`), so that an event is such work around
the transition it fires, or a step of the clock (`around_times`).
-/

namespace Hnz

open Machinery

/-! ## Links -/

namespace Link

variable {c : PathConf} {now : Int} {l l' : Link}

@[simp] theorem lastConnected_transmit (m : Message) :
    (l.transmit c now m).lastConnected = l.lastConnected := by
  unfold transmit sendInfoImmediately
  split_ifs <;> rfl

/-- A submission does not write the time of the last connection. -/
theorem lastConnected_sendInfo (msg : List UInt8) :
    (l.sendInfo c now msg).2.lastConnected = l.lastConnected := by
  rw [sendInfo_eq]
  split_ifs
  · exact lastConnected_transmit _
  · rfl
  · rfl

/-- Nor does the loop over the waiting messages. -/
theorem lastConnected_releaseWaiting {ms : List Message}
    (h : releaseWaiting c now ms l = .ok l') : l'.lastConnected = l.lastConnected := by
  induction ms generalizing l with
  | nil => cases h; rfl
  | cons m ms ih =>
    rw [releaseWaiting_cons] at h
    split_ifs at h
    · exact (ih h).trans (lastConnected_transmit m)
    · cases h; rfl

/-- Nor an acknowledgement. -/
theorem lastConnected_receivedRR {nr : Fin 8} {f b : Bool}
    (h : l.receivedRR c now nr f = .ok (b, l')) : l'.lastConnected = l.lastConnected := by
  obtain ⟨-, -, -, h⟩ | rfl := receivedRR_cases h
  · exact (lastConnected_releaseWaiting h :)
  · rfl

/-- Nor a received information frame. -/
theorem lastConnected_sendRR {p b : Bool} {ns nr : Fin 8}
    (h : l.sendRR c now p ns nr = .ok (b, l')) : l'.lastConnected = l.lastConnected := by
  obtain ⟨l₁, h₁, h⟩ := sendRR_cases h
  have := lastConnected_receivedRR h₁
  obtain ⟨-, rfl⟩ | ⟨-, -, rfl⟩ | ⟨-, -, -, rfl⟩ | ⟨-, -, -, rfl⟩ := h <;> exact this

/-- Nor the parser, which writes another time. -/
theorem lastConnected_extractFrom [Platform] {fuel : Nat} {data : List UInt8} {size : Int}
    {messages : List (List UInt8)} (h : extractFrom c now fuel data size l = .ok (messages, l')) :
    l'.lastConnected = l.lastConnected := by
  induction fuel generalizing data size l messages with
  | zero => cases h
  | succ fuel ih =>
    simp only [extractFrom, bind_eq_ok] at h
    obtain ⟨t, -, ⟨len, l₁⟩, hlen, h⟩ := h
    have hnext : l₁.lastConnected = l.lastConnected := by
      obtain ⟨-, rfl⟩ | ⟨-, -, -, -, rfl⟩ | ⟨-, -, -, rfl⟩ := nextLength_cases hlen <;> rfl
    split_ifs at h
    · cases h; exact hnext
    · simp only [bind_eq_ok] at h
      obtain ⟨_, -, h⟩ := h
      cases h; exact hnext
    · simp only [bind_eq_ok] at h
      obtain ⟨_, -, ⟨rest, l₂⟩, hrest, h⟩ := h
      cases h; exact (ih hrest).trans hnext

end Link

/-- The event neither reads the clock of the message thread nor looks at what depends on it. -/
def Event.Timeless : Event → Prop
  | .startSchedule _ | .currentTime _ | .checkTimer .. | .checkGI _ => False
  | _ => True

namespace System

variable {s t u : System} {p : PathId} {now : Instant} {data : List UInt8} {ev : Event}

/-! ## What most work leaves alone -/

/-- **The fields that keep time are the same**: of the connection nothing has changed but the queues
of its paths and the count of its GI. -/
structure SameTimes (s t : System) : Prop where
  connection : ∃ path giRepeat giStartTime giNotified, t.connection = { s.connection with
    path := path, giRepeat := giRepeat, giStartTime := giStartTime, giNotified := giNotified }
  path : ∀ p, (t.path p).connectionState = (s.path p).connectionState ∧
    (t.path p).protocolState = (s.path p).protocolState ∧
    (t.path p).lastConnected = (s.path p).lastConnected
  connStatus : t.hnz.connStatus = s.hnz.connStatus

namespace SameTimes

theorem refl : s.SameTimes s :=
  ⟨⟨_, _, _, _, rfl⟩, fun _ => ⟨rfl, rfl, rfl⟩, rfl⟩

theorem trans (h : s.SameTimes t) (h' : t.SameTimes u) : s.SameTimes u where
  connection := by
    obtain ⟨_, _, _, _, h⟩ := h.connection
    obtain ⟨path, giRepeat, giStartTime, giNotified, h'⟩ := h'.connection
    exact ⟨path, giRepeat, giStartTime, giNotified, by rw [h', h]⟩
  path q := by
    obtain ⟨h₁, h₂, h₃⟩ := h.path q
    obtain ⟨h₁', h₂', h₃'⟩ := h'.path q
    exact ⟨h₁'.trans h₁, h₂'.trans h₂, h₃'.trans h₃⟩
  connStatus := h'.connStatus.trans h.connStatus

/-- A write to the plugin object. -/
theorem of_hnz (h : t.connection = s.connection) (hstatus : t.hnz.connStatus = s.hnz.connStatus) :
    s.SameTimes t where
  connection := ⟨_, _, _, _, h⟩
  path q := by
    have hpath : t.path q = s.path q := by rw [System.path, h]; rfl
    rw [hpath]
    exact ⟨rfl, rfl, rfl⟩
  connStatus := hstatus

/-- A write to a link. -/
theorem modifyLink {f : Link → Link}
    (hstate : (f (s.path p).toLink).protocolState = (s.path p).protocolState)
    (htime : (f (s.path p).toLink).lastConnected = (s.path p).lastConnected) :
    s.SameTimes (s.modifyLink p f) where
  connection := ⟨_, _, _, _, connection_modifyPath _⟩
  path q := by
    rw [path_modifyLink]
    split_ifs with hq
    · subst hq
      exact ⟨rfl, hstate, htime⟩
    · exact ⟨rfl, rfl, rfl⟩
  connStatus := rfl

end SameTimes

/-! ## Requests and readings -/

theorem sameTimes_sendInfo (msg : List UInt8) : s.SameTimes (s.sendInfo p now msg).2 :=
  .modifyLink (f := fun l => (l.sendInfo (s.pathConf p) now.ms msg).2)
    (Link.protocolState_sendInfo _) (Link.lastConnected_sendInfo _)

theorem sameTimes_updateGiStatus (x : GiStatus) : s.SameTimes (s.updateGiStatus x) :=
  .of_hnz (connection_updateGiStatus x) (hnz_updateGiStatus x).2.2.1

/-- A GI that was sent is counted. -/
theorem sameTimes_notifyGIsent : s.SameTimes (s.notifyGIsent now) where
  connection := ⟨_, _, _, _, connection_notifyGIsent⟩
  path q := by
    have hpath : (s.notifyGIsent now).path q = s.path q := by
      rw [path, connection_notifyGIsent]; rfl
    rw [hpath]
    exact ⟨rfl, rfl, rfl⟩
  connStatus := hnz_notifyGIsent.2.1

/-- **A request of a GI** writes none of the times of this module. -/
theorem sameTimes_sendGeneralInterrogation : s.SameTimes (s.sendGeneralInterrogation p now) := by
  rw [sendGeneralInterrogation_eq]
  split_ifs
  · exact (sameTimes_sendInfo giPayload).trans sameTimes_notifyGIsent
  · exact sameTimes_sendInfo giPayload

/-- Queued or sent. -/
theorem sameTimes_triggerGI : s.SameTimes (s.triggerGI now) := by
  obtain h | ⟨-, h⟩ | ⟨p, -, h⟩ := s.triggerGI_cases now
  · rw [h]
    exact .refl
  · rw [h]
    exact .of_hnz rfl rfl
  · rw [h]
    exact sameTimes_sendGeneralInterrogation

/-- The end of a GI, before the next one. -/
theorem sameTimes_closed (success : Bool) : s.SameTimes (s.closed success now) := by
  obtain ⟨v, hv⟩ : ∃ v, v = { s with connection.giRepeat := 0 }.sendToFledge
    (s.missingReadings s.hnz.giAddressesReceived now) := ⟨_, rfl⟩
  have hstart : s.SameTimes v := by
    rw [hv]
    exact ⟨⟨_, _, _, _, rfl⟩, fun _ => ⟨rfl, rfl, rfl⟩, rfl⟩
  rw [closed, ← hv]
  exact hstart.trans ((sameTimes_updateGiStatus _).trans (.of_hnz rfl rfl))

/-- The end of a GI, and the one that waits behind it. -/
theorem sameTimes_giCompleted {success : Bool} (h : s.giCompleted success now = .ok t) :
    s.SameTimes t := by
  have h := giCompleted_eq_ok h
  split_ifs at h
  · obtain ⟨p, -, rfl⟩ := h
    exact (sameTimes_closed success).trans sameTimes_sendGeneralInterrogation
  · rw [h]
    exact sameTimes_closed success

/-- A GI that has failed may be repeated. -/
theorem sameTimes_checkGICompleted {success : Bool} (h : s.checkGICompleted success now = .ok t) :
    s.SameTimes t := by
  have hreset : s.SameTimes s.resetGIQueue := .of_hnz rfl rfl
  obtain ⟨ended, h⟩ | rfl | ⟨p, -, rfl⟩ := checkGICompleted_cases h
  · exact sameTimes_giCompleted h
  · exact hreset
  · exact hreset.trans sameTimes_sendGeneralInterrogation

theorem sameTimes_checkGITimeout (h : s.checkGITimeout now = .ok t) : s.SameTimes t := by
  obtain rfl | h := checkGITimeout_cases h
  · exact .refl
  · exact sameTimes_checkGICompleted h

/-- The burst of the quality timer is readings. -/
theorem sameTimes_updateQualityUpdateTimer (h : s.updateQualityUpdateTimer now = .ok t) :
    s.SameTimes t := by
  obtain rfl | ⟨timer, rfl⟩ | ⟨u, hu, h⟩ := updateQualityUpdateTimer_cases h
  · exact .refl
  · exact .of_hnz rfl rfl
  · obtain ⟨r₁, rfl⟩ := sendAllTIQualityReadings_eq_ok hu
    obtain ⟨r₂, rfl⟩ := sendAllTIQualityReadings_eq_ok h
    exact .of_hnz rfl rfl

/-! ## Messages -/

/-- A command acknowledgement touches the commands of the two paths. -/
theorem sameTimes_receivedCommandACK (type : String) (addr : Int) :
    s.SameTimes (s.receivedCommandACK type addr) :=
  receivedCommandACK_rule (fun _ => .refl) .trans fun _ _ => .modifyLink rfl rfl

/-- A TSCG is recorded, and a GI that has started is in progress. -/
theorem sameTimes_hears (addresses : List Nat) : s.SameTimes (s.hears addresses) := by
  have hrecords : s.SameTimes (s.records addresses) := .of_hnz rfl rfl
  unfold hears
  split_ifs
  · exact hrecords.trans (sameTimes_updateGiStatus _)
  · exact hrecords

variable [Platform]

/-- The date, the time and the GI. -/
theorem sameTimes_sendSettings :
    s.SameTimes (((s.sendDateSetting p now).sendTimeSetting p now).sendGeneralInterrogation p now) := by
  have hdate : s.SameTimes (s.sendDateSetting p now) := sameTimes_sendInfo _
  have htime : ∀ u : System, u.SameTimes (u.sendTimeSetting p now) := fun u =>
    (sameTimes_sendInfo _).trans (.of_hnz rfl rfl)
  exact (hdate.trans (htime _)).trans sameTimes_sendGeneralInterrogation

/-- **A handler keeps the times.** -/
theorem Handles.sameTimes {type : UInt8} (h : Handles type now s t) : s.SameTimes t := by
  cases h with
  | idle => exact .refl
  | modulo => exact .of_hnz rfl rfl
  | trigger => exact sameTimes_triggerGI
  | hear => exact sameTimes_hears _
  | acknowledge => exact sameTimes_receivedCommandACK _ _

/-- So does a message. -/
theorem sameTimes_handleMessage (h : s.handleMessage data now = .ok t) : s.SameTimes t := by
  unfold handleMessage at h
  simp only [bind_eq_ok] at h
  obtain ⟨type, -, ⟨readings, u⟩, hu, h⟩ := h
  have hsent : s.SameTimes (u.sendToFledge readings) :=
    (dispatch_cases hu).1.sameTimes.trans (.of_hnz rfl rfl)
  simp only at h
  split_ifs at h
  · exact hsent.trans (sameTimes_checkGICompleted h)
  · cases h; exact hsent

/-! ## Operations -/

omit [Platform] in
/-- A command is kept beside the queues. -/
theorem sameTimes_registerCommandIfSent {c : PathConf} {n : Int} (type : String) (sent : Bool)
    (addr : Int) : s.SameTimes (s.modifyLink p (Link.registerCommandIfSent c n type sent addr)) := by
  refine .modifyLink ?_ ?_ <;>
  · unfold Link.registerCommandIfSent
    split_ifs <;> rfl

theorem sameTimes_processCommandOperation (params : List (String × String)) :
    s.SameTimes (s.processCommandOperation params now).2 := by
  obtain ⟨-, h⟩ | ⟨address, value, p, -, -, -, ⟨-, h⟩ | ⟨-, h⟩⟩ :=
    processCommandOperation_cases params now s
  · rw [h]; exact .refl
  · rw [h]; exact (sameTimes_sendInfo _).trans (sameTimes_registerCommandIfSent _ _ _)
  · rw [h]; exact (sameTimes_sendInfo _).trans (sameTimes_registerCommandIfSent _ _ _)

omit [Platform] in
theorem sameTimes_northStatus (params : List (String × String)) :
    s.SameTimes (s.northStatus params now).2 := by
  obtain h | h := s.northStatus_cases params
  · rw [h]
    exact .refl
  · rw [h]
    exact sameTimes_triggerGI

/-- **Any operation keeps the times.** -/
theorem sameTimes_operation (name : String) (params : List (String × String)) :
    s.SameTimes (s.operation name params now).2 := by
  unfold operation
  split_ifs
  · exact sameTimes_processCommandOperation params
  · obtain ⟨readings, h⟩ := sendSouthMonitoringEvent_eq (s := s) true true
    rw [h]
    exact .of_hnz rfl rfl
  · exact sameTimes_northStatus params
  · exact .refl

/-! ## Events -/

/-- **Timeless work around the transition of an event.** -/
def AroundTimes (s : System) (ev : Event) (t : System) : Prop :=
  ∃ u now, s.SameTimes u ∧ (s.fires ev ≠ none → ev.time = some now) ∧
    (u.fire now (s.fires ev)).SameTimes t

/-- Without a transition. -/
theorem AroundTimes.of_same (hf : s.fires ev = none) (h : s.SameTimes t) : s.AroundTimes ev t :=
  ⟨s, 0, .refl, fun hne => absurd hf hne, by rw [hf]; exact h⟩

/-- Extraction writes a link, but neither its state nor this time. -/
theorem sameTimes_extract {messages : List (List UInt8)}
    (h : s.extract p data now = .ok (messages, t)) : s.SameTimes t := by
  unfold extract at h
  split_ifs at h
  · simp only [bind_eq_ok] at h
    obtain ⟨⟨ms, l⟩, hl, h⟩ := h
    cases h
    exact .modifyLink (congrArg Link.Core.protocolState (extractMessages_core hl))
      (Link.lastConnected_extractFrom hl)
  · cases h; exact .refl

/-- A received frame: UA before the transition of a SARM, nothing before that of a UA. -/
theorem around_times_frame {messages : List (List UInt8)}
    (h : s.analyzeFrame p data now = .ok (messages, t)) : s.AroundTimes (.frame p data now) t := by
  have hcases := analyzeFrame_cases h
  cases hk : s.frameKind p data with
  | none =>
    rw [hk] at hcases
    obtain ⟨-, rfl⟩ := hcases
    exact .of_same (by simp only [fires, hk]) .refl
  | some kind =>
    cases kind with
    | ua =>
      rw [hk] at hcases
      obtain ⟨-, rfl⟩ := hcases
      refine ⟨s, now, .refl, fun _ => rfl, ?_⟩
      simp only [fires, hk]
      exact .refl
    | sarm =>
      rw [hk] at hcases
      obtain ⟨-, rfl⟩ := hcases
      have hua : s.SameTimes (s.modifyLink p (Link.sendUA (s.pathConf p) now.ms)) :=
        .modifyLink rfl rfl
      refine ⟨_, now, hua, fun _ => rfl, ?_⟩
      have hlast := (hua.path p).2.2
      simp only [fires, hk, receivedSARM, hlast, gt_iff_lt]
      by_cases hrecent : (s.pathConf p).repeatTimeout < now.ms - (s.path p).lastConnected
      · rw [if_pos hrecent, if_pos (by exact hrecent)]
        exact .refl
      · rw [if_neg hrecent, if_neg (by exact hrecent)]
        exact .refl
    | info type =>
      rw [hk] at hcases
      refine .of_same (by simp only [fires, hk]) ?_
      obtain ⟨-, -, rfl⟩ | ⟨-, u, extracted, ok, l, hu, hl, -, rfl⟩ :=
        receivedINFO_cases hcases.1 hcases.2.2
      · exact .refl
      · exact (sameTimes_extract hu).trans (.modifyLink (Link.Step.inform hl).protocolState
          (Link.lastConnected_sendRR hl))
    | rr type =>
      rw [hk] at hcases
      refine .of_same (by simp only [fires, hk]) ?_
      obtain ⟨-, -, -, hrr⟩ := hcases
      unfold receivedRR at hrr
      simp only [bind_eq_ok] at hrr
      obtain ⟨⟨ok, l⟩, hl, hrr⟩ := hrr
      cases hrr
      exact .modifyLink (Link.receivedRR_protocolState hl) (Link.lastConnected_receivedRR hl)

theorem sameTimes_sendSARM (c : PathConf) (n : Int) :
    s.SameTimes (s.modifyLink p (Link.sendSARM c n)) := .modifyLink rfl rfl

omit [Platform] in
theorem sameTimes_sendBULLE (c : PathConf) (n : Int) :
    s.SameTimes (s.modifyLink p (Link.sendBULLE c n)) :=
  .modifyLink (Link.protocolState_sendInfo _) (Link.lastConnected_sendInfo _)

/-- The upkeep of a path that is not connected: the transition, then SARM. -/
theorem around_times_manageUnconnected
    (hp : (s.path p).protocolState = .connection ∨ (s.path p).protocolState = .inputConnected) :
    s.AroundTimes (.manage p now) (s.manageUnconnected p now).2 := by
  have hfires : s.fires (.manage p now) =
      if now.ms - (s.path p).lastMsgTime > int32 ((s.pathConf p).inaccTimeout * 1000) then
        some (p, .toRecv)
      else if now.ms - (s.path p).lastSarmSentTime < (s.pathConf p).repeatTimeout then none
      else if (s.path p).nbrSarmSent = (s.pathConf p).maxSarm then some (p, .maxSarmSent)
      else none := by
    rcases hp with hp | hp <;> simp only [fires, hp]
  refine ⟨s, now, .refl, fun _ => rfl, ?_⟩
  rw [hfires]
  unfold manageUnconnected
  simp only
  by_cases hsilent : now.ms - (s.path p).lastMsgTime ≤ int32 ((s.pathConf p).inaccTimeout * 1000)
  · rw [if_pos hsilent, if_neg (not_lt.mpr hsilent)]
    by_cases hwait : now.ms - (s.path p).lastSarmSentTime < (s.pathConf p).repeatTimeout
    · rw [if_pos hwait, if_pos hwait]
      exact .refl
    · rw [if_neg hwait, if_neg hwait]
      by_cases hmax : (s.path p).nbrSarmSent = (s.pathConf p).maxSarm
      · rw [if_pos hmax, if_pos hmax]
        exact sameTimes_sendSARM _ _
      · rw [if_neg hmax, if_neg hmax]
        exact sameTimes_sendSARM _ _
  · rw [if_neg hsilent, if_pos (not_le.mp hsilent)]
    exact .refl

/-- The upkeep of a connected path: BULLE, then the transition. -/
theorem around_times_manageConnected
    (hp : (s.path p).protocolState = .connected ∨ (s.path p).protocolState = .outputConnected) :
    s.AroundTimes (.manage p now) (s.manageConnected p now).2 := by
  have hfires : s.fires (.manage p now) =
      if now.ms - (s.path p).lastMsgTime > int32 ((s.pathConf p).inaccTimeout * 1000) ∧
        (s.path p).protocolState = .connected then some (p, .toRecv) else none := by
    rcases hp with hp | hp <;> simp only [fires, hp] <;> simp
  have hbulle : s.SameTimes (s.modifyLink p (Link.sendBULLE (s.pathConf p) now.ms)) :=
    sameTimes_sendBULLE _ _
  unfold manageConnected
  simp only
  split_ifs with hsilent hsent
  · refine ⟨_, now, hbulle, fun _ => rfl, ?_⟩
    rw [hfires, if_pos hsilent]
    exact .refl
  · refine ⟨s, now, .refl, fun _ => rfl, ?_⟩
    rw [hfires, if_pos hsilent]
    exact .refl
  · exact .of_same (by rw [hfires, if_neg hsilent]) hbulle
  · exact .of_same (by rw [hfires, if_neg hsilent]) .refl

/-- The upkeep, in any state. -/
theorem around_times_manage :
    s.AroundTimes (.manage p now) (s.manageHNZProtocolState p now).2 := by
  unfold manageHNZProtocolState
  split
  · exact around_times_manageUnconnected (Or.inl ‹_›)
  · exact around_times_manageUnconnected (Or.inr ‹_›)
  · exact around_times_manageConnected (Or.inl ‹_›)
  · exact around_times_manageConnected (Or.inr ‹_›)

/-- **The events that do not look at the clock of the message thread.** -/
theorem around_times (h : s.step ev = some t) (hev : ev.Timeless) : s.AroundTimes ev t := by
  obtain ⟨-, hrun⟩ := run_of_step h
  cases ev with
  | protocol p e now => cases hrun; exact ⟨s, now, .refl, fun _ => rfl, .refl⟩
  | connect p now => cases hrun; exact .of_same rfl (.modifyLink rfl rfl)
  | disconnect p now => cases hrun; exact ⟨s, now, .refl, fun _ => rfl, .modifyLink rfl rfl⟩
  | loseTCP p => cases hrun; exact .of_same rfl (.modifyLink rfl rfl)
  | frame p data now =>
    obtain ⟨⟨messages, u⟩, hu, rfl⟩ := map_eq_ok.mp hrun
    exact around_times_frame hu
  | message data now => exact .of_same rfl (sameTimes_handleMessage hrun)
  | manage p now => cases hrun; exact around_times_manage
  | checkCommandTimer p => cases hrun; exact .of_same rfl (.modifyLink rfl rfl)
  | qualityTimer now => exact .of_same rfl (sameTimes_updateQualityUpdateTimer hrun)
  | operation name params now => cases hrun; exact .of_same rfl (sameTimes_operation name params)
  | _ => exact hev.elim

end System

end Hnz
