import HnzSouth.Model.System

/-!
# Model/SystemLemmas — what each call of the arbiter writes

One equation per call and half of the system.  The calls that only report — audits, readings,
events — leave the connection as it is; a change of connection state writes that field of its path
and nothing else of the connection.
-/

namespace Hnz

namespace System

variable {s : System} {p q : PathId}

/-! ## Writes to a path -/

@[simp] theorem hnz_modifyPath (f : HNZPath → HNZPath) : (s.modifyPath p f).hnz = s.hnz := rfl

@[simp] theorem hnz_modifyLink (f : Link → Link) : (s.modifyLink p f).hnz = s.hnz := rfl

/-- A write to a path writes nothing else of the connection. -/
theorem connection_modifyPath (f : HNZPath → HNZPath) :
    (s.modifyPath p f).connection =
      { s.connection with path := Function.update s.connection.path p (f (s.path p)) } := rfl

@[simp] theorem path_modifyPath (f : HNZPath → HNZPath) :
    (s.modifyPath p f).path q = if q = p then f (s.path p) else s.path q := by
  simp only [path, modifyPath, Function.update_apply]

@[simp] theorem path_modifyLink (f : Link → Link) :
    (s.modifyLink p f).path q =
      if q = p then { s.path p with toLink := f (s.path p).toLink } else s.path q :=
  path_modifyPath _

theorem link_modifyLink (f : Link → Link) :
    ((s.modifyLink p f).path q).toLink =
      if q = p then f (s.path p).toLink else (s.path q).toLink := by
  rw [path_modifyLink]; split <;> rfl

/-- The last of two writes to a link counts. -/
theorem modifyLink_modifyLink (l : Link) (f : Link → Link) :
    (s.modifyLink p fun _ => l).modifyLink p f = s.modifyLink p fun _ => f l := by
  simp [modifyLink, modifyPath]

@[simp] theorem activePath_modifyLink (f : Link → Link) :
    (s.modifyLink p f).connection.activePath = s.connection.activePath := rfl

@[simp] theorem firstInputConnected_modifyLink (f : Link → Link) :
    (s.modifyLink p f).connection.firstInputConnected = s.connection.firstInputConnected := rfl

@[simp] theorem isRunning_modifyLink (f : Link → Link) :
    (s.modifyLink p f).connection.isRunning = s.connection.isRunning := rfl

@[simp] theorem conf_modifyLink (f : Link → Link) :
    (s.modifyLink p f).connection.conf = s.connection.conf := rfl

@[simp] theorem giRepeat_modifyLink (f : Link → Link) :
    (s.modifyLink p f).connection.giRepeat = s.connection.giRepeat := rfl

@[simp] theorem giNotified_modifyLink (f : Link → Link) :
    (s.modifyLink p f).connection.giNotified = s.connection.giNotified := rfl

/-! ## Writes to the active path -/

@[simp] theorem hnz_setActivePath : (s.setActivePath p).hnz = s.hnz := rfl

@[simp] theorem hnz_clearActivePath : s.clearActivePath.hnz = s.hnz := rfl

@[simp] theorem path_setActivePath : (s.setActivePath p).path q = s.path q := rfl

@[simp] theorem path_clearActivePath : s.clearActivePath.path q = s.path q := rfl

@[simp] theorem connection_setActivePath :
    (s.setActivePath p).connection = { s.connection with activePath := some p } := rfl

@[simp] theorem connection_clearActivePath :
    s.clearActivePath.connection = { s.connection with activePath := none, giRepeat := 0 } := rfl

/-! ## Reports -/

@[simp] theorem connection_sendToFledge (readings : List Reading) :
    (s.sendToFledge readings).connection = s.connection := rfl

@[simp] theorem connection_audit (level : AuditLevel) (text : String) :
    (s.audit level text).connection = s.connection := rfl

@[simp] theorem connection_sendAuditSuccess : (s.sendAuditSuccess p).connection = s.connection :=
  rfl

@[simp] theorem connection_sendAuditFail : (s.sendAuditFail p).connection = s.connection := rfl

/-- An event only adds readings. -/
theorem sendSouthMonitoringEvent_eq (c g : Bool) : ∃ readings,
    s.sendSouthMonitoringEvent c g = s.sendToFledge readings := by
  have none : s = s.sendToFledge [] := by simp [sendToFledge]
  unfold sendSouthMonitoringEvent
  by_cases h₁ : s.hnz.conf.connxStatus = ""
  · exact ⟨[], (if_pos h₁).trans none⟩
  by_cases h₂ : !c && !g
  · exact ⟨[], ((if_neg h₁).trans (if_pos h₂)).trans none⟩
  · exact ⟨_, (if_neg h₁).trans (if_neg h₂)⟩

@[simp] theorem connection_sendSouthMonitoringEvent (c g : Bool) :
    (s.sendSouthMonitoringEvent c g).connection = s.connection := by
  obtain ⟨rs, h⟩ := sendSouthMonitoringEvent_eq (s := s) c g
  rw [h, connection_sendToFledge]

/-- The fields of the plugin object that no report touches. -/
structure SameStatus (h h' : HNZ) : Prop where
  conf : h'.conf = h.conf
  connStatus : h'.connStatus = h.connStatus
  giStatus : h'.giStatus = h.giStatus
  giInQueue : h'.giInQueue = h.giInQueue

theorem SameStatus.rfl {h : HNZ} : SameStatus h h := ⟨.refl _, .refl _, .refl _, .refl _⟩

theorem SameStatus.trans {h h' h'' : HNZ} (a : SameStatus h h') (b : SameStatus h' h'') :
    SameStatus h h'' :=
  ⟨b.conf.trans a.conf, b.connStatus.trans a.connStatus, b.giStatus.trans a.giStatus,
    b.giInQueue.trans a.giInQueue⟩

theorem sameStatus_sendToFledge (readings : List Reading) :
    SameStatus s.hnz (s.sendToFledge readings).hnz := ⟨rfl, rfl, rfl, rfl⟩

theorem sameStatus_audit (level : AuditLevel) (text : String) :
    SameStatus s.hnz (s.audit level text).hnz := ⟨rfl, rfl, rfl, rfl⟩

theorem sameStatus_sendSouthMonitoringEvent (c g : Bool) :
    SameStatus s.hnz (s.sendSouthMonitoringEvent c g).hnz := by
  obtain ⟨rs, h⟩ := sendSouthMonitoringEvent_eq (s := s) c g
  rw [h]
  exact sameStatus_sendToFledge rs

/-! ## The statuses -/

@[simp] theorem connection_hnzUpdateConnectionStatus (x : ConnectionStatus) :
    (s.hnzUpdateConnectionStatus x).connection = s.connection := by
  unfold hnzUpdateConnectionStatus
  split_ifs <;> simp

theorem connection_updateConnectionStatus (x : ConnectionStatus) :
    (s.updateConnectionStatus x).connection =
      { s.connection with
        sendInitNexConnection := if x = .notConnected then true
          else s.connection.sendInitNexConnection } := by
  unfold updateConnectionStatus
  split_ifs <;> simp

@[simp] theorem path_updateConnectionStatus (x : ConnectionStatus) :
    (s.updateConnectionStatus x).path q = s.path q := by
  rw [path, connection_updateConnectionStatus]; rfl

@[simp] theorem activePath_updateConnectionStatus (x : ConnectionStatus) :
    (s.updateConnectionStatus x).connection.activePath = s.connection.activePath := by
  rw [connection_updateConnectionStatus]

@[simp] theorem firstInputConnected_updateConnectionStatus (x : ConnectionStatus) :
    (s.updateConnectionStatus x).connection.firstInputConnected =
      s.connection.firstInputConnected := by
  rw [connection_updateConnectionStatus]

@[simp] theorem isRunning_updateConnectionStatus (x : ConnectionStatus) :
    (s.updateConnectionStatus x).connection.isRunning = s.connection.isRunning := by
  rw [connection_updateConnectionStatus]

@[simp] theorem conf_updateConnectionStatus (x : ConnectionStatus) :
    (s.updateConnectionStatus x).connection.conf = s.connection.conf := by
  rw [connection_updateConnectionStatus]

/-- **A change of the status**: the timer is set, and the change is reported. -/
theorem hnzUpdateConnectionStatus_of_ne {x : ConnectionStatus} (h : s.hnz.connStatus ≠ x) :
    ∃ readings, s.hnzUpdateConnectionStatus x =
      (({ s with
          hnz.connStatus := x
          hnz.qualityUpdateTimer :=
            if x = .notConnected then qualityUpdateTimeoutMs else 0 } : System).sendToFledge
        readings).audit (if x = .started then .success else .fail)
        (s.hnz.serviceName ++ if x = .started then "-connected" else "-disconnected") := by
  obtain ⟨readings, hreport⟩ := sendSouthMonitoringEvent_eq (s := { s with
    hnz.connStatus := x
    hnz.qualityUpdateTimer := if x = .notConnected then qualityUpdateTimeoutMs else 0 }) true false
  refine ⟨readings, ?_⟩
  rw [hnzUpdateConnectionStatus, if_neg h]
  simp only [hreport]
  split_ifs <;> rfl

/-- The status becomes the new one; the GI is left alone. -/
theorem hnz_updateConnectionStatus (x : ConnectionStatus) :
    (s.updateConnectionStatus x).hnz.connStatus = x ∧
      (s.updateConnectionStatus x).hnz.conf = s.hnz.conf ∧
      (s.updateConnectionStatus x).hnz.giStatus = s.hnz.giStatus ∧
      (s.updateConnectionStatus x).hnz.giInQueue = s.hnz.giInQueue := by
  have key : (s.hnzUpdateConnectionStatus x).hnz.connStatus = x ∧
      (s.hnzUpdateConnectionStatus x).hnz.conf = s.hnz.conf ∧
      (s.hnzUpdateConnectionStatus x).hnz.giStatus = s.hnz.giStatus ∧
      (s.hnzUpdateConnectionStatus x).hnz.giInQueue = s.hnz.giInQueue := by
    by_cases h : s.hnz.connStatus = x
    · rw [hnzUpdateConnectionStatus, if_pos h]
      exact ⟨h, rfl, rfl, rfl⟩
    · obtain ⟨readings, heq⟩ := hnzUpdateConnectionStatus_of_ne h
      rw [heq]
      exact ⟨rfl, rfl, rfl, rfl⟩
  unfold updateConnectionStatus
  split_ifs <;> exact key

@[simp] theorem connection_updateGiStatus (x : GiStatus) :
    (s.updateGiStatus x).connection = s.connection := by
  unfold updateGiStatus
  split_ifs <;> simp

theorem hnz_updateGiStatus (x : GiStatus) :
    (s.updateGiStatus x).hnz.giStatus = x ∧
      (s.updateGiStatus x).hnz.conf = s.hnz.conf ∧
      (s.updateGiStatus x).hnz.connStatus = s.hnz.connStatus ∧
      (s.updateGiStatus x).hnz.giInQueue = s.hnz.giInQueue := by
  unfold updateGiStatus
  split_ifs with h
  · exact ⟨h, rfl, rfl, rfl⟩
  · have h := sameStatus_sendSouthMonitoringEvent (s := { s with hnz.giStatus := x }) false true
    exact ⟨h.giStatus, h.conf, h.connStatus, h.giInQueue⟩

theorem remoteAddress_updateGiStatus (x : GiStatus) :
    (s.updateGiStatus x).hnz.remoteAddress = s.hnz.remoteAddress := by
  unfold updateGiStatus
  split_ifs
  · rfl
  · obtain ⟨readings, h⟩ := sendSouthMonitoringEvent_eq (s := { s with hnz.giStatus := x }) false true
    rw [h]
    rfl

/-! ## The connection state of a path -/

/-- A change of connection state writes that field of that path. -/
theorem connection_setConnectionState (x : ConnectionState) :
    (s.setConnectionState p x).connection =
      (s.modifyPath p fun y => { y with connectionState := x }).connection := by
  unfold setConnectionState
  simp only
  split_ifs with h
  · subst h
    simp [modifyPath, path]
  all_goals simp

theorem sameStatus_setConnectionState (x : ConnectionState) :
    SameStatus s.hnz (s.setConnectionState p x).hnz := by
  unfold setConnectionState
  simp only
  split_ifs
  · exact .rfl
  · exact sameStatus_audit (s := s.modifyPath p _) _ _
  · exact sameStatus_audit (s := s.modifyPath p _) _ _
  · exact .rfl

@[simp] theorem activePath_setConnectionState (x : ConnectionState) :
    (s.setConnectionState p x).connection.activePath = s.connection.activePath := by
  rw [connection_setConnectionState]; rfl

@[simp] theorem firstInputConnected_setConnectionState (x : ConnectionState) :
    (s.setConnectionState p x).connection.firstInputConnected =
      s.connection.firstInputConnected := by
  rw [connection_setConnectionState]; rfl

@[simp] theorem isRunning_setConnectionState (x : ConnectionState) :
    (s.setConnectionState p x).connection.isRunning = s.connection.isRunning := by
  rw [connection_setConnectionState]; rfl

@[simp] theorem conf_setConnectionState (x : ConnectionState) :
    (s.setConnectionState p x).connection.conf = s.connection.conf := by
  rw [connection_setConnectionState]; rfl

theorem path_setConnectionState (x : ConnectionState) :
    (s.setConnectionState p x).path q =
      if q = p then { s.path p with connectionState := x } else s.path q := by
  rw [path, connection_setConnectionState, ← path, path_modifyPath]

@[simp] theorem link_setConnectionState (x : ConnectionState) :
    ((s.setConnectionState p x).path q).toLink = (s.path q).toLink := by
  rw [path_setConnectionState]
  split_ifs with h
  · rw [h]
  · rfl

@[simp] theorem connectionState_setConnectionState (x : ConnectionState) :
    ((s.setConnectionState p x).path q).connectionState =
      if q = p then x else (s.path q).connectionState := by
  rw [path_setConnectionState]
  split_ifs <;> rfl

/-! ## The other path -/

theorem tryActivateOtherPath_of_passive (hr : s.connection.isRunning = true)
    (hc : s.configured p.other = true) (hp : (s.path p.other).connectionState = .passive) :
    s.tryActivateOtherPath p =
      (true, ((s.setActivePath p.other).setConnectionState p.other
        .active).updateConnectionStatus .started) := by
  simp [tryActivateOtherPath, hr, hc, hp]

theorem tryActivateOtherPath_of_not_passive (hp : (s.path p.other).connectionState ≠ .passive) :
    s.tryActivateOtherPath p = (false, s) := by
  simp [tryActivateOtherPath, hp]

/-! ## Requests and transitions -/

theorem act_protocolState (now : Int) (act : Action) (l : Link) :
    (Link.act now act l).protocolState = l.protocolState := by cases act <;> rfl

/-- What a path asks for, on entering a protocol state. -/
def requestFor : ProtocolState → ConnectionState
  | .connection => .disconnected
  | .inputConnected | .outputConnected => .pendingHnz
  | .connected => .active

/-- **Every entry of the transition table makes exactly the request its target calls for**, and
none leads from `connected` to itself. -/
theorem transitionMap_request {ps : ProtocolState} {e : ConnectionEvent} {acts : List Action}
    (h : transitionMap ps e = some (st, acts)) :
    acts.filterMap requestOf = [requestFor st] ∧ (st = .connected → ps ≠ .connected) := by
  unfold transitionMap at h
  split at h <;> cases h <;> exact ⟨rfl, by simp⟩

/-- The fields of the plugin object that the arbiter does not touch. -/
structure SameGi (h h' : HNZ) : Prop where
  conf : h'.conf = h.conf
  giStatus : h'.giStatus = h.giStatus
  giInQueue : h'.giInQueue = h.giInQueue

theorem SameGi.trans {h h' h'' : HNZ} (a : SameGi h h') (b : SameGi h' h'') : SameGi h h'' :=
  ⟨b.conf.trans a.conf, b.giStatus.trans a.giStatus, b.giInQueue.trans a.giInQueue⟩

theorem SameStatus.sameGi {h h' : HNZ} (a : SameStatus h h') : SameGi h h' :=
  ⟨a.conf, a.giStatus, a.giInQueue⟩

theorem sameGi_updateConnectionStatus (x : ConnectionStatus) :
    SameGi s.hnz (s.updateConnectionStatus x).hnz :=
  have h := hnz_updateConnectionStatus (s := s) x
  ⟨h.2.1, h.2.2.1, h.2.2.2⟩

theorem hnz_trackFirstInput : (s.trackFirstInput p).hnz = s.hnz := by
  unfold trackFirstInput
  simp only
  split_ifs <;> rfl

theorem sameGi_tryActivateOtherPath : SameGi s.hnz (s.tryActivateOtherPath p).2.hnz := by
  unfold tryActivateOtherPath
  split_ifs
  · exact SameStatus.rfl.sameGi
  · exact ((sameStatus_setConnectionState (s := s.setActivePath p.other) _).sameGi).trans
      (sameGi_updateConnectionStatus _)
  · exact SameStatus.rfl.sameGi

theorem sameGi_leave (x : ConnectionState) : SameGi s.hnz (s.leave p x).hnz := by
  have hset : SameGi s.hnz (s.setConnectionState p x).hnz := (sameStatus_setConnectionState x).sameGi
  unfold leave
  simp only
  split_ifs
  · exact hset.trans ((sameGi_tryActivateOtherPath
      (s := (s.setConnectionState p x).clearActivePath)).trans (sameGi_updateConnectionStatus _))
  · exact hset.trans (sameGi_tryActivateOtherPath
      (s := (s.setConnectionState p x).clearActivePath))
  · exact hset

/-- **No request changes the GI of the plugin object.** -/
theorem sameGi_requestConnectionState (x : ConnectionState) :
    SameGi s.hnz (s.requestConnectionState p x).hnz := by
  unfold requestConnectionState
  rw [← hnz_trackFirstInput (s := s) (p := p)]
  simp only
  split_ifs
  · exact (sameStatus_setConnectionState (s := (s.trackFirstInput p).setActivePath p) _).sameGi.trans
      (sameGi_updateConnectionStatus _)
  · exact (sameStatus_setConnectionState _).sameGi
  · exact sameGi_leave x

/-- What the arbiter keeps of the GI: its count, unless the active path leaves. -/
theorem gi_trackFirstInput :
    (s.trackFirstInput p).connection.giRepeat = s.connection.giRepeat ∧
      (s.trackFirstInput p).connection.giNotified = s.connection.giNotified ∧
      (s.trackFirstInput p).connection.activePath = s.connection.activePath := by
  unfold trackFirstInput
  simp only
  split_ifs <;> exact ⟨rfl, rfl, rfl⟩

theorem gi_tryActivateOtherPath :
    (s.tryActivateOtherPath p).2.connection.giRepeat = s.connection.giRepeat ∧
      (s.tryActivateOtherPath p).2.connection.giNotified = s.connection.giNotified := by
  unfold tryActivateOtherPath
  split_ifs
  · exact ⟨rfl, rfl⟩
  · simp only [connection_updateConnectionStatus, connection_setConnectionState]
    exact ⟨rfl, rfl⟩
  · exact ⟨rfl, rfl⟩

theorem gi_leave (x : ConnectionState) :
    (s.leave p x).connection.giRepeat =
        (if s.connection.activePath = some p then 0 else s.connection.giRepeat) ∧
      (s.leave p x).connection.giNotified = s.connection.giNotified := by
  have hset := connection_setConnectionState (s := s) (p := p) x
  have htry := gi_tryActivateOtherPath (s := (s.setConnectionState p x).clearActivePath) (p := p)
  rw [connection_clearActivePath, hset] at htry
  unfold leave
  simp only [activePath_setConnectionState]
  by_cases ha : s.connection.activePath = some p
  · rw [if_pos ha, if_pos ha]
    split_ifs
    · simp only [connection_updateConnectionStatus]
      exact htry
    · exact htry
  · rw [if_neg ha, if_neg ha, hset]
    exact ⟨rfl, rfl⟩

/-- **A request forgets the count of the GI exactly when the active path leaves.** -/
theorem gi_requestConnectionState (x : ConnectionState) :
    (s.requestConnectionState p x).connection.giRepeat =
        (if x ≠ .active ∧ s.connection.activePath = some p then 0 else s.connection.giRepeat) ∧
      (s.requestConnectionState p x).connection.giNotified = s.connection.giNotified := by
  obtain ⟨h₁, h₂, h₃⟩ := gi_trackFirstInput (s := s) (p := p)
  unfold requestConnectionState
  simp only
  by_cases hx : x = .active
  · have hkeep : ¬(x ≠ .active ∧ s.connection.activePath = some p) := fun h => h.1 hx
    rw [if_pos hx, if_neg hkeep, ← h₁, ← h₂]
    split_ifs
    · simp only [connection_updateConnectionStatus, connection_setConnectionState]
      exact ⟨rfl, rfl⟩
    · simp only [connection_setConnectionState]
      exact ⟨rfl, rfl⟩
  · rw [if_neg hx]
    simp only [ne_eq, hx, not_false_eq_true, true_and, ← h₁, ← h₂, ← h₃]
    exact gi_leave x

/-- **What a transition shows**, through a view that no write to its path touches, is what its one
request shows; all that the request may know is another such view. -/
theorem view_protocolStateTransition {α β : Type} {F : System → α} {G : System → β} {y : α}
    (hF : ∀ (u : System) (f : Link → Link), F (u.modifyLink p f) = F u)
    (hG : ∀ (u : System) (f : Link → Link), G (u.modifyLink p f) = G u)
    {e : ConnectionEvent} {st : ProtocolState} {acts : List Action} (now : Instant)
    (hmap : transitionMap (s.path p).protocolState e = some (st, acts))
    (hreq : ∀ u, G u = G s → F (u.requestConnectionState p (requestFor st)) = y) :
    F (s.protocolStateTransition p e now) = y := by
  have hnone : ∀ (as : List Action) (u : System), as.filterMap requestOf = [] →
      F (as.foldl (runAction p now) u) = F u := by
    intro as
    induction as with
    | nil => exact fun _ _ => rfl
    | cons a as ih =>
      intro u has
      have ha : requestOf a = none := List.filterMap_eq_nil_iff.mp has a (by simp)
      rw [List.filterMap_cons_none ha] at has
      rw [List.foldl_cons, ih _ has, runAction, ha, hF]
  have hone : ∀ (as : List Action) (u : System), G u = G s →
      as.filterMap requestOf = [requestFor st] → F (as.foldl (runAction p now) u) = y := by
    intro as
    induction as with
    | nil => intro u _ has; cases has
    | cons a as ih =>
      intro u hu has
      rw [List.foldl_cons]
      cases ha : requestOf a with
      | none =>
        rw [List.filterMap_cons_none ha] at has
        exact ih _ (by rw [runAction, ha, hG, hu]) has
      | some x =>
        rw [List.filterMap_cons_some ha] at has
        obtain ⟨rfl, hrest⟩ := List.cons.inj has
        rw [hnone _ _ hrest, runAction, ha, hF]
        exact hreq u hu
  rw [protocolStateTransition, hmap]
  exact hone acts _ (hG s _) (transitionMap_request hmap).1

/-! ## The links -/

/-- No request touches a link. -/
theorem link_requestConnectionState (x : ConnectionState) :
    ((s.requestConnectionState p x).path q).toLink = (s.path q).toLink := by
  have htrack : ∀ r, (s.trackFirstInput p).path r = s.path r := by
    intro r
    unfold trackFirstInput
    simp only
    split_ifs <;> rfl
  unfold requestConnectionState leave tryActivateOtherPath
  simp only
  split_ifs <;> simp [htrack]

theorem link_runAction (now : Instant) (a : Action) :
    ((s.runAction p now a).path q).toLink =
      if q = p then (s.path p).toLink.act now.ms a else (s.path q).toLink := by
  unfold runAction
  rw [link_modifyLink]
  cases requestOf a with
  | none => rfl
  | some x => simp only [link_requestConnectionState]

/-- **A transition of the system is the transition of its link.** -/
theorem link_protocolStateTransition (e : ConnectionEvent) (now : Instant) :
    ((s.protocolStateTransition p e now).path q).toLink =
      if q = p then (s.path p).toLink.transition now.ms e else (s.path q).toLink := by
  have hfold : ∀ (acts : List Action) (u : System),
      ((acts.foldl (runAction p now) u).path q).toLink =
        if q = p then acts.foldl (fun l a => l.act now.ms a) (u.path p).toLink
        else (u.path q).toLink := by
    intro acts
    induction acts with
    | nil => intro u; split_ifs with hq <;> simp [hq]
    | cons a acts ih =>
      intro u
      rw [List.foldl_cons, ih, link_runAction, link_runAction]
      split_ifs <;> simp_all
  unfold protocolStateTransition Link.transition
  cases transitionMap (s.path p).protocolState e with
  | none => split_ifs with hq <;> simp [hq]
  | some entry =>
    rw [hfold, link_modifyLink, link_modifyLink]
    split_ifs <;> simp_all

/-! ## The configuration -/

theorem conf_trackFirstInput : (s.trackFirstInput p).connection.conf = s.connection.conf := by
  unfold trackFirstInput
  simp only
  split_ifs <;> rfl

theorem conf_tryActivateOtherPath :
    (s.tryActivateOtherPath p).2.connection.conf = s.connection.conf := by
  unfold tryActivateOtherPath
  split_ifs <;> simp

/-- No request changes the configuration. -/
theorem conf_requestConnectionState (x : ConnectionState) :
    (s.requestConnectionState p x).connection.conf = s.connection.conf := by
  unfold requestConnectionState leave
  simp only
  split_ifs <;> simp [conf_trackFirstInput, conf_tryActivateOtherPath]

/-- Neither does a transition. -/
@[simp] theorem conf_protocolStateTransition (e : ConnectionEvent) (now : Instant) :
    (s.protocolStateTransition p e now).connection.conf = s.connection.conf := by
  cases hmap : transitionMap (s.path p).protocolState e with
  | none => rw [protocolStateTransition, hmap]
  | some entry =>
    exact view_protocolStateTransition (F := fun u => u.connection.conf)
      (G := fun u => u.connection.conf) (fun _ _ => rfl) (fun _ _ => rfl) now hmap
      fun u hu => (conf_requestConnectionState _).trans hu

@[simp] theorem pathConf_protocolStateTransition (e : ConnectionEvent) (now : Instant) :
    (s.protocolStateTransition p e now).pathConf q = s.pathConf q := by
  rw [pathConf, conf_protocolStateTransition, pathConf]

end System

end Hnz
