import HnzSouth.Behaviour.Reports

/-!
# Effects/Publication — what Fledge is told

Fledge is told about the points of the configuration, and about the two statuses of the plugin.  A
monitor that only reads these readings knows the statuses at every point (`Monitor`): whatever writes
a status reports it, and nothing is reported that did not change.  On request both are reported as
they are (`Statuses.answer`).
-/

namespace Hnz

open Machinery

/-! ## Readings -/

/-- The configuration lists this point, of the station with this address. -/
def HNZConf.Lists (conf : HNZConf) (station : Nat) (msgCode : String) (msgAddress : Nat)
    (label : String) : Prop :=
  ∃ stations messages, conf.msgList[msgCode]? = some stations ∧ stations[station]? = some messages ∧
    messages[msgAddress]? = some label

/-- A label that is not empty is one of the list. -/
theorem HNZConf.lists_getLabel {conf : HNZConf} {msgCode : String} {msgAddress : Nat}
    (h : conf.getLabel msgCode msgAddress ≠ "") :
    conf.Lists conf.remoteStationAddr.toNat msgCode msgAddress (conf.getLabel msgCode msgAddress) := by
  cases hstations : conf.msgList[msgCode]? with
  | none => simp [getLabel, hstations] at h
  | some stations =>
    cases hmessages : stations[conf.remoteStationAddr.toNat]? with
    | none => simp [getLabel, hstations, hmessages] at h
    | some messages =>
      cases hlabel : messages[msgAddress]? with
      | none => simp [getLabel, hstations, hmessages, hlabel] at h
      | some label =>
        refine ⟨stations, messages, hstations, hmessages, ?_⟩
        simp [getLabel, hstations, hmessages, hlabel]

/-- **A reading about a point** of the configuration: its asset is the label of the point. -/
def Reading.OfPoint (conf : HNZConf) (station : Nat) (r : Reading) : Prop :=
  r.object = "data_object" ∧ ∃ msgCode msgAddress, conf.Lists station msgCode msgAddress r.asset ∧
    r.get? "do_type" = some (.str msgCode) ∧ r.get? "do_station" = some (.int station) ∧
    r.get? "do_addr" = some (.int msgAddress)

/-- What is prepared for a point is about it. -/
theorem ofPoint_prepareReading {conf : HNZConf} {params : ReadingParameters}
    (h : conf.Lists params.stationAddr params.msgCode params.msgAddress params.label) :
    (prepareReading params).OfPoint conf params.stationAddr :=
  ⟨rfl, params.msgCode, params.msgAddress, h, rfl, rfl, rfl⟩

/-! ## Statuses -/

/-- The two statuses. -/
structure Statuses where
  connStatus : ConnectionStatus
  giStatus : GiStatus
  deriving DecidableEq, Repr

/-- How a connection status is reported. -/
def ConnectionStatus.attribute : ConnectionStatus → String × DatapointValue
  | .notConnected => ("connx_status", .str "not connected")
  | .started => ("connx_status", .str "started")

/-- How the status of the GI is reported. -/
def GiStatus.attribute : GiStatus → String × DatapointValue
  | .started => ("gi_status", .str "started")
  | .inProgress => ("gi_status", .str "in progress")
  | .failed => ("gi_status", .str "failed")
  | .finished => ("gi_status", .str "finished")
  | .idle => ("gi_status", .str "idle")

/-- A south event: the reading about a status. -/
def southEvent (conf : HNZConf) (attributes : List (String × DatapointValue)) : Reading :=
  ⟨conf.connxStatus, "south_event", attributes⟩

/-- **The monitor**: how the statuses change with each reading. -/
inductive Monitor (conf : HNZConf) (station : Nat) : Statuses → Reading → Statuses → Prop
  | point {x : Statuses} {r : Reading} (h : r.OfPoint conf station) : Monitor conf station x r x
  | connection {x : Statuses} {status : ConnectionStatus} (h : status ≠ x.connStatus) :
    Monitor conf station x (southEvent conf [status.attribute]) { x with connStatus := status }
  | gi {x : Statuses} {status : GiStatus} (h : status ≠ x.giStatus) :
    Monitor conf station x (southEvent conf [status.attribute]) { x with giStatus := status }

/-- The answer to a request. -/
def Statuses.answer (conf : HNZConf) (x : Statuses) : Reading :=
  southEvent conf [x.connStatus.attribute, x.giStatus.attribute]

/-! ## What the plugin object publishes -/

namespace HNZ

variable {h h' h'' : HNZ}

def statuses (h : HNZ) : Statuses := ⟨h.connStatus, h.giStatus⟩

/-- The messages are those of the station of the configuration. -/
def Settled (h : HNZ) : Prop := h.remoteAddress = h.conf.remoteStationAddr.toNat

/-- The monitor reads these readings; there are none about a status where nobody asks for them. -/
structure Tells (h : HNZ) (x : Statuses) (new : List Reading) (y : Statuses) : Prop where
  monitored : h.conf.connxStatus ≠ "" → Run (Monitor h.conf h.remoteAddress) x new y
  points : h.conf.connxStatus = "" → ∀ r ∈ new, r.OfPoint h.conf h.remoteAddress

/-- What a configuration sets is the same. -/
structure SameSettings (h h' : HNZ) : Prop where
  conf : h'.conf = h.conf
  remoteAddress : h'.remoteAddress = h.remoteAddress
  testMsgReceive : h'.testMsgReceive = h.testMsgReceive

namespace SameSettings

theorem refl (h : HNZ) : h.SameSettings h := ⟨rfl, rfl, rfl⟩

theorem trans (a : h.SameSettings h') (b : h'.SameSettings h'') : h.SameSettings h'' :=
  ⟨b.conf.trans a.conf, b.remoteAddress.trans a.remoteAddress,
    b.testMsgReceive.trans a.testMsgReceive⟩

theorem settled (a : h.SameSettings h') (hs : h.Settled) : h'.Settled := by
  rw [Settled, a.remoteAddress, a.conf]
  exact hs

end SameSettings

/-- **The plugin object after some readings**: the monitor knows its statuses. -/
structure Publishes (h h' : HNZ) : Prop extends SameSettings h h' where
  told : h.Settled → ∃ new, h'.readings = h.readings ++ new ∧ h.Tells h.statuses new h'.statuses

namespace Publishes

/-- Other fields are written. -/
theorem of_same (hconf : h'.conf = h.conf) (hremote : h'.remoteAddress = h.remoteAddress)
    (hbulle : h'.testMsgReceive = h.testMsgReceive) (hreadings : h'.readings = h.readings)
    (hstatuses : h'.statuses = h.statuses) : h.Publishes h' where
  conf := hconf
  remoteAddress := hremote
  testMsgReceive := hbulle
  told _ := by
    refine ⟨[], by rw [hreadings, List.append_nil], fun _ => ?_, fun _ => List.forall_mem_nil _⟩
    rw [hstatuses]
    exact .nil _

theorem refl (h : HNZ) : h.Publishes h := of_same rfl rfl rfl rfl rfl

theorem trans (a : h.Publishes h') (b : h'.Publishes h'') : h.Publishes h'' where
  toSameSettings := a.toSameSettings.trans b.toSameSettings
  told hs := by
    obtain ⟨new, hnew, htells⟩ := a.told hs
    obtain ⟨more, hmore, htells'⟩ := b.told (a.toSameSettings.settled hs)
    refine ⟨new ++ more, by rw [hmore, hnew, List.append_assoc], ?_, ?_⟩
    · intro hasset
      have hrun := htells'.monitored (by rwa [a.conf])
      rw [a.conf, a.remoteAddress] at hrun
      exact (htells.monitored hasset).append hrun
    · intro hasset
      have hpoints := htells'.points (by rwa [a.conf])
      rw [a.conf, a.remoteAddress] at hpoints
      exact List.forall_mem_append.mpr ⟨htells.points hasset, hpoints⟩

end Publishes

end HNZ

namespace System

variable {s t : System} {p : PathId} {now : Instant}

/-! ## Readings about points -/

theorem monitor_points {conf : HNZConf} {station : Nat} {x : Statuses} {new : List Reading}
    (h : ∀ r ∈ new, r.OfPoint conf station) : Run (Monitor conf station) x new x := by
  induction new with
  | nil => exact .nil x
  | cons r new ih =>
    have ⟨hr, hnew⟩ := List.forall_mem_cons.mp h
    exact .cons (.point hr) (ih hnew)

theorem publishes_sendToFledge {new : List Reading}
    (h : s.hnz.Settled → ∀ r ∈ new, r.OfPoint s.hnz.conf s.hnz.remoteAddress) :
    s.hnz.Publishes (s.sendToFledge new).hnz where
  conf := rfl
  remoteAddress := rfl
  testMsgReceive := rfl
  told hs := ⟨new, rfl, fun _ => monitor_points (h hs), fun _ => h hs⟩

/-- The readings about the quality of the points. -/
theorem publishes_sendAllTIQualityReadings {params : ReadingParameters} {rejectFilter : List Nat}
    (hstation : params.stationAddr = s.hnz.remoteAddress)
    (h : s.sendAllTIQualityReadings params rejectFilter = .ok t) : s.hnz.Publishes t.hnz := by
  unfold sendAllTIQualityReadings at h
  cases hstations : s.hnz.conf.msgList[params.msgCode]? with
  | none => simp [hstations] at h
  | some stations =>
    cases hmessages : stations[params.stationAddr]? with
    | none => simp [hstations, hmessages] at h
    | some messages =>
      simp only [hstations, hmessages] at h
      obtain rfl := Except.ok.inj h
      refine publishes_sendToFledge fun _ r hr => ?_
      obtain ⟨kvp, hkvp, rfl⟩ := List.mem_map.mp hr
      have hlabel : messages[kvp.1]? = some kvp.2 :=
        Std.TreeMap.mem_toList_iff_getElem?_eq_some.mp (List.mem_of_mem_filter hkvp)
      rw [← hstation]
      exact ofPoint_prepareReading ⟨stations, messages, hstations, hmessages, hlabel⟩

/-! ## Readings about statuses -/

/-- **A south event** about the statuses it is asked for. -/
theorem sendSouthMonitoringEvent_of_ne (hasset : s.hnz.conf.connxStatus ≠ "") {c g : Bool}
    (hcg : (c || g) = true) :
    s.sendSouthMonitoringEvent c g = s.sendToFledge [southEvent s.hnz.conf
      ((if c then [s.hnz.connStatus.attribute] else []) ++
        if g then [s.hnz.giStatus.attribute] else [])] := by
  have hnone : ¬(!c && !g) = true := by
    cases c <;> cases g <;> simp at hcg ⊢
  unfold sendSouthMonitoringEvent
  simp only [if_neg hasset, if_neg hnone]
  cases s.hnz.connStatus <;> cases s.hnz.giStatus <;> rfl

theorem sendSouthMonitoringEvent_of_empty (hasset : s.hnz.conf.connxStatus = "") (c g : Bool) :
    s.sendSouthMonitoringEvent c g = s := if_pos hasset

/-- A status is written, and reported. -/
theorem publishes_event {c g : Bool} (hcg : (c || g) = true)
    (hconf : s.hnz.conf = t.hnz.conf) (hremote : s.hnz.remoteAddress = t.hnz.remoteAddress)
    (hbulle : s.hnz.testMsgReceive = t.hnz.testMsgReceive)
    (hreadings : s.hnz.readings = t.hnz.readings)
    (h : Monitor t.hnz.conf t.hnz.remoteAddress t.hnz.statuses (southEvent t.hnz.conf
      ((if c then [s.hnz.connStatus.attribute] else []) ++
        if g then [s.hnz.giStatus.attribute] else [])) s.hnz.statuses) :
    t.hnz.Publishes (s.sendSouthMonitoringEvent c g).hnz := by
  by_cases hasset : t.hnz.conf.connxStatus = ""
  · rw [sendSouthMonitoringEvent_of_empty (by rwa [hconf])]
    refine ⟨⟨hconf, hremote, hbulle⟩, fun _ => ⟨[], by rw [hreadings, List.append_nil], ?_, ?_⟩⟩
    · exact fun hne => absurd hasset hne
    · exact fun _ => List.forall_mem_nil _
  · rw [sendSouthMonitoringEvent_of_ne (by rwa [hconf]) hcg, hconf]
    refine ⟨⟨hconf, hremote, hbulle⟩, fun _ =>
      ⟨_, by rw [← hreadings]; rfl, fun _ => .single h, ?_⟩⟩
    exact fun heq => absurd heq hasset

/-- On request both are reported, and nothing else happens. -/
theorem sameSettings_request :
    s.hnz.SameSettings (s.sendSouthMonitoringEvent true true).hnz := by
  by_cases hasset : s.hnz.conf.connxStatus = ""
  · rw [sendSouthMonitoringEvent_of_empty hasset]
    exact .refl _
  · rw [sendSouthMonitoringEvent_of_ne hasset rfl]
    exact ⟨rfl, rfl, rfl⟩

theorem publishes_updateGiStatus (status : GiStatus) :
    s.hnz.Publishes (s.updateGiStatus status).hnz := by
  unfold updateGiStatus
  split_ifs with h
  · exact .refl _
  · exact publishes_event (s := { s with hnz.giStatus := status }) rfl rfl rfl rfl rfl
      (.gi fun heq => h heq.symm)

theorem publishes_audit (level : AuditLevel) (text : String) :
    s.hnz.Publishes (s.audit level text).hnz := .of_same rfl rfl rfl rfl rfl

theorem publishes_updateConnectionStatus (status : ConnectionStatus) :
    s.hnz.Publishes (s.updateConnectionStatus status).hnz := by
  have key : s.hnz.Publishes (s.hnzUpdateConnectionStatus status).hnz := by
    unfold hnzUpdateConnectionStatus
    by_cases h : s.hnz.connStatus = status
    · rw [if_pos h]
      exact .refl _
    rw [if_neg h]
    simp only
    generalize (if status = .notConnected then qualityUpdateTimeoutMs else 0) = timer
    have hevent : s.hnz.Publishes (({ s with
        hnz.connStatus := status, hnz.qualityUpdateTimer := timer } : System).sendSouthMonitoringEvent
          true false).hnz :=
      publishes_event rfl rfl rfl rfl rfl (.connection fun heq => h heq.symm)
    split
    · exact hevent.trans (publishes_audit _ _)
    · exact hevent.trans (publishes_audit _ _)
  unfold updateConnectionStatus
  split_ifs <;> exact key

/-! ## The arbiter -/

theorem publishes_setConnectionState (state : ConnectionState) :
    s.hnz.Publishes (s.setConnectionState p state).hnz := by
  unfold setConnectionState
  simp only
  split_ifs
  · exact .refl _
  · exact publishes_audit (s := s.modifyPath p _) _ _
  · exact publishes_audit (s := s.modifyPath p _) _ _
  · exact .refl _

theorem publishes_tryActivateOtherPath : s.hnz.Publishes (s.tryActivateOtherPath p).2.hnz := by
  unfold tryActivateOtherPath
  split_ifs
  · exact .refl _
  · exact (publishes_setConnectionState (s := s.setActivePath p.other) _).trans
      (publishes_updateConnectionStatus _)
  · exact .refl _

theorem publishes_leave (state : ConnectionState) : s.hnz.Publishes (s.leave p state).hnz := by
  have hset : s.hnz.Publishes (s.setConnectionState p state).hnz := publishes_setConnectionState state
  have htry := hset.trans (publishes_tryActivateOtherPath (p := p)
    (s := (s.setConnectionState p state).clearActivePath))
  unfold leave
  simp only
  split_ifs
  · exact htry.trans (publishes_updateConnectionStatus _)
  · exact htry
  · exact hset

/-- **A request of the arbiter is published.** -/
theorem publishes_requestConnectionState (state : ConnectionState) :
    s.hnz.Publishes (s.requestConnectionState p state).hnz := by
  unfold requestConnectionState
  rw [← hnz_trackFirstInput (s := s) (p := p)]
  simp only
  split_ifs
  · exact (publishes_setConnectionState (s := (s.trackFirstInput p).setActivePath p) _).trans
      (publishes_updateConnectionStatus _)
  · exact publishes_setConnectionState _
  · exact publishes_leave state

theorem publishes_runAction (a : Action) (now : Instant) :
    s.hnz.Publishes (s.runAction p now a).hnz := by
  unfold runAction
  cases requestOf a with
  | none => exact .refl _
  | some state => exact publishes_requestConnectionState state

/-- **So is a transition.** -/
theorem publishes_protocolStateTransition (e : ConnectionEvent) (now : Instant) :
    s.hnz.Publishes (s.protocolStateTransition p e now).hnz := by
  have hfold : ∀ (acts : List Action) (u : System),
      u.hnz.Publishes (acts.foldl (runAction p now) u).hnz := by
    intro acts
    induction acts with
    | nil => exact fun u => .refl _
    | cons a acts ih => exact fun u => (publishes_runAction a now).trans (ih _)
  unfold protocolStateTransition
  cases transitionMap (s.path p).protocolState e with
  | none => exact .refl _
  | some entry => exact hfold entry.2 (s.modifyLink p fun l => { l with protocolState := entry.1 })

end System

end Hnz
