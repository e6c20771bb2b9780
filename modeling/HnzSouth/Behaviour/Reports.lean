import HnzSouth.Behaviour.Frames

/-!
# Behaviour/Reports — what the arbiter tells Fledge

The arbiter writes four fields of the plugin object: readings about the connection, audits, the
status of the connection and the timer it starts (`Reports`).  Of the connection it writes the paths,
who is active, and the count of a GI that loses its path (`Arbitrates`).
-/

namespace Hnz

/-- A reading about the connection alone: neither about the GI nor about a point. -/
def Reading.AboutConnection (r : Reading) : Prop :=
  r.get? "gi_status" = none ∧ r.get? "do_type" = none

/-- **The plugin object after some reports.** -/
def HNZ.Reports (h h' : HNZ) : Prop :=
  ∃ new audits connStatus timer, (∀ r ∈ new, Reading.AboutConnection r) ∧
    h' = { h with
      readings := h.readings ++ new
      audits := audits
      connStatus := connStatus
      qualityUpdateTimer := timer }

namespace HNZ.Reports

variable {h h' h'' : HNZ}

theorem refl (h : HNZ) : h.Reports h := ⟨[], h.audits, h.connStatus, h.qualityUpdateTimer, by simp⟩

theorem trans (a : h.Reports h') (b : h'.Reports h'') : h.Reports h'' := by
  obtain ⟨new, audits, st, timer, hnew, rfl⟩ := a
  obtain ⟨new', audits', st', timer', hnew', rfl⟩ := b
  refine ⟨new ++ new', audits', st', timer', fun r hr => ?_, by simp⟩
  exact (List.mem_append.mp hr).elim (hnew r) (hnew' r)

/-- What they leave alone. -/
theorem giStatus (a : h.Reports h') : h'.giStatus = h.giStatus := by
  obtain ⟨_, _, _, _, _, rfl⟩ := a; rfl

theorem giInQueue (a : h.Reports h') : h'.giInQueue = h.giInQueue := by
  obtain ⟨_, _, _, _, _, rfl⟩ := a; rfl

theorem giAddressesReceived (a : h.Reports h') :
    h'.giAddressesReceived = h.giAddressesReceived := by
  obtain ⟨_, _, _, _, _, rfl⟩ := a; rfl

theorem conf (a : h.Reports h') : h'.conf = h.conf := by
  obtain ⟨_, _, _, _, _, rfl⟩ := a; rfl

theorem remoteAddress (a : h.Reports h') : h'.remoteAddress = h.remoteAddress := by
  obtain ⟨_, _, _, _, _, rfl⟩ := a; rfl

end HNZ.Reports

namespace System

variable {s t : System} {p : PathId} {now : Instant}

/-! ## The arbiter -/

/-- An audit is one. -/
theorem reports_audit (level : AuditLevel) (text : String) :
    s.hnz.Reports (s.audit level text).hnz :=
  ⟨[], _, s.hnz.connStatus, s.hnz.qualityUpdateTimer, by simp, by simp [audit]; rfl⟩

/-- So is the south event about the connection, if there is an asset for it. -/
theorem reports_connxStatus : s.hnz.Reports (s.sendSouthMonitoringEvent true false).hnz := by
  unfold sendSouthMonitoringEvent
  by_cases hasset : s.hnz.conf.connxStatus = ""
  · simp only [if_pos hasset]
    exact .refl _
  · simp only [if_neg hasset, Bool.not_true, Bool.false_and, Bool.false_eq_true, if_false]
    refine ⟨_, s.hnz.audits, s.hnz.connStatus, s.hnz.qualityUpdateTimer, ?_, rfl⟩
    intro r hr
    rw [List.mem_singleton] at hr
    subst hr
    cases s.hnz.connStatus <;> exact ⟨rfl, rfl⟩

/-- A path that becomes active or passive is audited. -/
theorem reports_setConnectionState (x : ConnectionState) :
    s.hnz.Reports (s.setConnectionState p x).hnz := by
  unfold setConnectionState
  simp only
  split_ifs
  · exact .refl _
  · exact reports_audit (s := s.modifyPath p _) _ _
  · exact reports_audit (s := s.modifyPath p _) _ _
  · exact .refl _

/-- A new status is told, audited, and starts or stops the timer. -/
theorem reports_updateConnectionStatus (x : ConnectionStatus) :
    s.hnz.Reports (s.updateConnectionStatus x).hnz := by
  have key : s.hnz.Reports (s.hnzUpdateConnectionStatus x).hnz := by
    unfold hnzUpdateConnectionStatus
    by_cases h : s.hnz.connStatus = x
    · rw [if_pos h]
      exact .refl _
    rw [if_neg h]
    simp only
    generalize (if x = .notConnected then qualityUpdateTimeoutMs else 0) = timer
    have hset : s.hnz.Reports { s.hnz with connStatus := x, qualityUpdateTimer := timer } :=
      ⟨[], s.hnz.audits, x, timer, by simp, by simp⟩
    have hevent := hset.trans (reports_connxStatus
      (s := { s with hnz.connStatus := x, hnz.qualityUpdateTimer := timer }))
    split
    · exact hevent.trans (reports_audit _ _)
    · exact hevent.trans (reports_audit _ _)
  unfold updateConnectionStatus
  split_ifs <;> exact key

/-- The path that takes over is audited. -/
theorem reports_tryActivateOtherPath : s.hnz.Reports (s.tryActivateOtherPath p).2.hnz := by
  unfold tryActivateOtherPath
  split_ifs
  · exact .refl _
  · exact (reports_setConnectionState (s := s.setActivePath p.other) _).trans
      (reports_updateConnectionStatus _)
  · exact .refl _

/-- A path leaves, and the other one may take over. -/
theorem reports_leave (x : ConnectionState) : s.hnz.Reports (s.leave p x).hnz := by
  have hset : s.hnz.Reports (s.setConnectionState p x).hnz := reports_setConnectionState x
  have htry := hset.trans (reports_tryActivateOtherPath (p := p)
    (s := (s.setConnectionState p x).clearActivePath))
  unfold leave
  simp only
  split_ifs
  · exact htry.trans (reports_updateConnectionStatus _)
  · exact htry
  · exact hset

/-- **A request of the arbiter reports, and writes nothing else of the plugin object.** -/
theorem reports_requestConnectionState (x : ConnectionState) :
    s.hnz.Reports (s.requestConnectionState p x).hnz := by
  unfold requestConnectionState
  rw [← hnz_trackFirstInput (s := s) (p := p)]
  simp only
  split_ifs
  · exact (reports_setConnectionState (s := (s.trackFirstInput p).setActivePath p) _).trans
      (reports_updateConnectionStatus _)
  · exact reports_setConnectionState _
  · exact reports_leave x

/-- An action of the table asks the arbiter at most once. -/
theorem reports_runAction (a : Action) (now : Instant) :
    s.hnz.Reports (s.runAction p now a).hnz := by
  unfold runAction
  cases requestOf a with
  | none => exact .refl _
  | some x => exact reports_requestConnectionState x

/-- **A transition reports.** -/
theorem reports_protocolStateTransition (e : ConnectionEvent) (now : Instant) :
    s.hnz.Reports (s.protocolStateTransition p e now).hnz := by
  have hfold : ∀ (acts : List Action) (u : System),
      u.hnz.Reports (acts.foldl (runAction p now) u).hnz := by
    intro acts
    induction acts with
    | nil => exact fun u => .refl _
    | cons a acts ih => exact fun u => (reports_runAction a now).trans (ih _)
  unfold protocolStateTransition
  cases transitionMap (s.path p).protocolState e with
  | none => exact .refl _
  | some entry => exact hfold _ _

/-! ## The connection -/

/-- **The connection after some arbitration.** -/
def Arbitrates (c c' : HNZConnection) : Prop :=
  ∃ path active first init count, c' = { c with
    path := path
    activePath := active
    firstInputConnected := first
    sendInitNexConnection := init
    giRepeat := count }

theorem Arbitrates.refl (c : HNZConnection) : Arbitrates c c :=
  ⟨c.path, c.activePath, c.firstInputConnected, c.sendInitNexConnection, c.giRepeat, rfl⟩

theorem Arbitrates.trans {c c' c'' : HNZConnection} (a : Arbitrates c c') (b : Arbitrates c' c'') :
    Arbitrates c c'' := by
  obtain ⟨_, _, _, _, _, rfl⟩ := a
  obtain ⟨path, active, first, init, count, rfl⟩ := b
  exact ⟨path, active, first, init, count, rfl⟩

/-- A connection state is a field of a path. -/
theorem arbitrates_setConnectionState (x : ConnectionState) :
    Arbitrates s.connection (s.setConnectionState p x).connection := by
  rw [connection_setConnectionState]
  exact ⟨_, _, _, _, _, rfl⟩

/-- The status is not the connection's own. -/
theorem arbitrates_updateConnectionStatus (x : ConnectionStatus) :
    Arbitrates s.connection (s.updateConnectionStatus x).connection := by
  rw [connection_updateConnectionStatus]
  exact ⟨_, _, _, _, _, rfl⟩

/-- Who takes over is active. -/
theorem arbitrates_tryActivateOtherPath :
    Arbitrates s.connection (s.tryActivateOtherPath p).2.connection := by
  unfold tryActivateOtherPath
  split_ifs
  · exact .refl _
  · have hset : Arbitrates s.connection (s.setActivePath p.other).connection := ⟨_, _, _, _, _, rfl⟩
    exact hset.trans ((arbitrates_setConnectionState _).trans (arbitrates_updateConnectionStatus _))
  · exact .refl _

/-- Who leaves is not. -/
theorem arbitrates_leave (x : ConnectionState) :
    Arbitrates s.connection (s.leave p x).connection := by
  have hset : Arbitrates s.connection (s.setConnectionState p x).connection :=
    arbitrates_setConnectionState x
  have hclear : Arbitrates (s.setConnectionState p x).connection
      (s.setConnectionState p x).clearActivePath.connection := ⟨_, _, _, _, _, rfl⟩
  have htry := (hset.trans hclear).trans (arbitrates_tryActivateOtherPath (p := p))
  unfold leave
  simp only
  split_ifs
  · exact htry.trans (arbitrates_updateConnectionStatus _)
  · exact htry
  · exact hset

theorem arbitrates_trackFirstInput : Arbitrates s.connection (s.trackFirstInput p).connection := by
  unfold trackFirstInput
  simp only
  split_ifs <;> exact ⟨_, _, _, _, _, rfl⟩

/-- **A request arbitrates.** -/
theorem arbitrates_requestConnectionState (x : ConnectionState) :
    Arbitrates s.connection (s.requestConnectionState p x).connection := by
  refine (arbitrates_trackFirstInput (p := p)).trans ?_
  unfold requestConnectionState
  simp only
  split_ifs
  · have hset : Arbitrates (s.trackFirstInput p).connection
        ((s.trackFirstInput p).setActivePath p).connection := ⟨_, _, _, _, _, rfl⟩
    exact hset.trans ((arbitrates_setConnectionState _).trans (arbitrates_updateConnectionStatus _))
  · exact arbitrates_setConnectionState _
  · exact arbitrates_leave x

theorem arbitrates_modifyLink (f : Link → Link) :
    Arbitrates s.connection (s.modifyLink p f).connection := ⟨_, _, _, _, _, rfl⟩

/-- **A transition arbitrates.** -/
theorem arbitrates_protocolStateTransition (e : ConnectionEvent) (now : Instant) :
    Arbitrates s.connection (s.protocolStateTransition p e now).connection := by
  have hfold : ∀ (acts : List Action) (u : System),
      Arbitrates u.connection (acts.foldl (runAction p now) u).connection := by
    intro acts
    induction acts with
    | nil => exact fun u => .refl _
    | cons a acts ih =>
      intro u
      refine Arbitrates.trans ?_ (ih _)
      unfold runAction
      cases requestOf a with
      | none => exact arbitrates_modifyLink _
      | some x => exact (arbitrates_requestConnectionState x).trans (arbitrates_modifyLink _)
  unfold protocolStateTransition
  cases transitionMap (s.path p).protocolState e with
  | none => exact .refl _
  | some entry => exact (arbitrates_modifyLink _).trans (hfold _ _)

/-! ## Who is active -/

/-- The path that takes over when a path leaves. -/
def successor (s : System) (p : PathId) : Option PathId :=
  if s.connection.isRunning && s.configured p.other &&
      (s.path p.other).connectionState == .passive then some p.other
  else none

/-- The successor takes over, if there is one. -/
theorem activePath_tryActivateOtherPath (h : s.connection.activePath = none) :
    (s.tryActivateOtherPath p).2.connection.activePath = s.successor p ∧
      ((s.tryActivateOtherPath p).1 = false → s.successor p = none) := by
  unfold tryActivateOtherPath successor
  by_cases hr : s.connection.isRunning
  · by_cases hp : s.configured p.other && (s.path p.other).connectionState == .passive
    · simp [hr, hp]
    · simp [hr, hp, h]
  · simp [hr, h]

/-- **The active path after a request**: the first one to connect, and the successor of the one that
leaves. -/
theorem activePath_requestConnectionState (x : ConnectionState) :
    (s.requestConnectionState p x).connection.activePath =
      if x = .active then s.connection.activePath.or (some p)
      else if s.connection.activePath = some p then s.successor p else s.connection.activePath := by
  have htrack : (s.trackFirstInput p).connection.activePath = s.connection.activePath ∧
      (s.trackFirstInput p).successor p = s.successor p := by
    unfold trackFirstInput
    simp only
    split_ifs <;> exact ⟨rfl, rfl⟩
  unfold requestConnectionState
  generalize s.trackFirstInput p = u at htrack
  obtain ⟨hactive, hsucc⟩ := htrack
  rw [← hactive, ← hsucc]
  simp only
  split_ifs with hx ha hp
  · simp [ha]
  · obtain ⟨q, hq⟩ := Option.ne_none_iff_exists'.mp ha
    simp [hq]
  · have hclear : ((u.setConnectionState p x).clearActivePath).successor p = u.successor p := by
      unfold successor configured
      rw [path_clearActivePath, connectionState_setConnectionState, if_neg (PathId.other_ne p)]
      simp
    have htry := activePath_tryActivateOtherPath (p := p)
      (s := (u.setConnectionState p x).clearActivePath) rfl
    rw [hclear] at htry
    unfold leave
    simp only [activePath_setConnectionState, if_pos hp]
    split_ifs
    · rw [activePath_updateConnectionStatus, htry.1]
    · exact htry.1
  · unfold leave
    simp [hp]

/-- **The active path after a transition**: it asks for activity if it ends in `connected`, and gives it up
otherwise. -/
theorem activePath_protocolStateTransition {e : ConnectionEvent} {st : ProtocolState}
    {acts : List Action} (hmap : transitionMap (s.path p).protocolState e = some (st, acts)) :
    (s.protocolStateTransition p e now).connection.activePath =
      if st = .connected then s.connection.activePath.or (some p)
      else if s.connection.activePath = some p then s.successor p else s.connection.activePath := by
  refine view_protocolStateTransition (F := fun u => u.connection.activePath)
    (G := fun u => (u.connection.activePath, u.successor p)) (fun _ _ => rfl) (fun u f => ?_) now
    hmap fun u hu => ?_
  · unfold successor configured
    rw [path_modifyLink, if_neg (PathId.other_ne p)]
    rfl
  · obtain ⟨hactive, hsucc⟩ := Prod.mk.inj hu
    rw [activePath_requestConnectionState, hactive, hsucc]
    cases st <;> rfl

end System

end Hnz
