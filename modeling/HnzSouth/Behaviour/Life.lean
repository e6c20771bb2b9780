import HnzSouth.Behaviour.Interrogations
import HnzSouth.Model.Plugin

/-!
# Behaviour/Life — how connections begin and end

A connection begins with its paths at rest and nothing in hand (`create_fresh`).  When it is stopped
its active path goes first, and the plugin says that it is not connected (`stop_spec`).
-/

namespace Hnz

namespace System

variable {s : System} {p : PathId} {now : Instant}

/-! ## Creation -/

/-- **A connection nothing has happened to.** -/
structure Fresh (hnz : HNZ) (s : System) : Prop where
  status : SameStatus hnz s.hnz
  conf : s.connection.conf = hnz.conf
  activePath : s.connection.activePath = none
  firstInputConnected : s.connection.firstInputConnected = none
  giRepeat : s.connection.giRepeat = 0
  giNotified : s.connection.giNotified = 0
  core : ∀ p, (s.path p).toLink.core = ({} : Link).core
  connectionState : ∀ p, (s.path p).connectionState = .disconnected

/-- A path at rest has nothing to ask for. -/
theorem requestConnectionState_of_rest (ha : s.connection.activePath = none)
    (hf : s.connection.firstInputConnected = none)
    (hp : (s.path p).protocolState = .connection)
    (hc : (s.path p).connectionState = .disconnected) :
    s.requestConnectionState p .disconnected = s := by
  simp [requestConnectionState, trackFirstInput, leave, setConnectionState, ha, hf, hp, hc]

theorem Fresh.createPath {hnz : HNZ} (h : Fresh hnz s) (now : Instant) (p : PathId) :
    Fresh hnz (s.createPath now p) := by
  unfold System.createPath
  split_ifs
  · have hs : (s.sendAuditFail p).runAction p now .resolveProtocolStateConnection =
        (s.sendAuditFail p).modifyLink p (Link.reinitialize now.ms) := by
      have hrest : (s.sendAuditFail p).requestConnectionState p .disconnected =
          s.sendAuditFail p :=
        requestConnectionState_of_rest h.activePath h.firstInputConnected
          (congrArg Link.Core.protocolState (h.core p)) (h.connectionState p)
      simp only [runAction, requestOf, hrest]
      rfl
    rw [hs]
    exact
      { h with
        status := h.status.trans (sameStatus_audit (s := s) _ _)
        core := fun q => by
          rw [link_modifyLink]
          split_ifs
          · have hcore : ∀ l : Link, l.core = ({} : Link).core →
                (l.reinitialize now.ms).core = ({} : Link).core := by
              intro l hl
              simp only [Link.core, Link.Core.mk.injEq] at hl ⊢
              simp [Link.reinitialize, Link.resetInputVariables, Link.resetOutputVariables,
                Link.resetSarmCounters, hl]
            exact hcore _ (h.core p)
          · exact h.core q
        connectionState := fun q => by
          rw [path_modifyLink]
          split_ifs with hq
          · exact h.connectionState p
          · exact h.connectionState q }
  · exact { h with status := h.status.trans (sameStatus_audit (s := s) _ _) }

/-- **Creation**: the connection is fresh, and runs if the configuration has a path. -/
theorem create_fresh (hnz : HNZ) (now : Instant) :
    Fresh hnz (create hnz now) ∧
      (create hnz now).connection.isRunning = (hnz.conf.configured .A || hnz.conf.configured .B) := by
  have hstart : Fresh hnz ⟨hnz, { conf := hnz.conf }⟩ :=
    ⟨.rfl, rfl, rfl, rfl, rfl, rfl, fun _ => rfl, fun _ => rfl⟩
  have hpaths := (hstart.createPath now .A).createPath now .B
  obtain ⟨s, hs⟩ : ∃ s, s = create hnz now := ⟨_, rfl⟩
  rw [← hs]
  by_cases h : (!hnz.conf.configured .A && !hnz.conf.configured .B) = true
  · obtain rfl : s = ⟨hnz, { conf := hnz.conf }⟩ := hs.trans (if_pos h)
    exact ⟨hstart, by simpa using h⟩
  · rw [hs.trans (if_neg h)]
    refine ⟨{ hpaths with status := hpaths.status.trans (sameStatus_audit _ _) }, ?_⟩
    change true = _
    cases hA : hnz.conf.configured .A <;> simp_all

/-! ## The end -/

/-- Every state has a transition for a lost TCP connection, and it ends at rest. -/
theorem transitionMap_tcpCnxLost (st : ProtocolState) :
    ∃ acts, transitionMap st .tcpCnxLost = some (.connection, acts) := by
  cases st <;> exact ⟨_, rfl⟩

/-- What a connection that is being stopped still shows. -/
def ending (s : System) : ConnectionStatus × Option PathId × Bool :=
  (s.hnz.connStatus, s.connection.activePath, s.connection.isRunning)

/-- A path that leaves then leaves no successor. -/
theorem ending_requestConnectionState (hr : s.connection.isRunning = false) :
    (s.requestConnectionState p .disconnected).ending =
      if s.connection.activePath = some p then (.notConnected, none, false)
      else (s.hnz.connStatus, s.connection.activePath, false) := by
  have htrack : (s.trackFirstInput p).ending = s.ending := by
    unfold trackFirstInput ending
    simp only
    split_ifs <;> rfl
  generalize htr : s.trackFirstInput p = u at htrack
  obtain ⟨h₁, h₂, h₃⟩ : u.hnz.connStatus = s.hnz.connStatus ∧
      u.connection.activePath = s.connection.activePath ∧
      u.connection.isRunning = s.connection.isRunning := by simpa [ending] using htrack
  have htry : ∀ v : System, v.connection.isRunning = false → v.tryActivateOtherPath p = (false, v) :=
    fun v hv => by simp [tryActivateOtherPath, hv]
  have hset := (sameStatus_setConnectionState (s := u) (p := p) .disconnected).connStatus
  simp only [requestConnectionState, htr, reduceCtorEq, if_false, leave,
    activePath_setConnectionState, h₂]
  by_cases ha : s.connection.activePath = some p
  · rw [if_pos ha, if_pos ha, htry _ (by simp [h₃, hr])]
    simp [ending, hnz_updateConnectionStatus, h₃, hr]
  · rw [if_neg ha, if_neg ha]
    simp [ending, hset, h₁, h₂, h₃, hr]

theorem ending_disconnect (hr : s.connection.isRunning = false) :
    (s.disconnect p now).ending =
      if s.connection.activePath = some p then (.notConnected, none, false)
      else (s.hnz.connStatus, s.connection.activePath, false) := by
  obtain ⟨acts, hmap⟩ := transitionMap_tcpCnxLost (s.path p).protocolState
  refine view_protocolStateTransition (F := ending) (G := ending) (fun _ _ => rfl) (fun _ _ => rfl)
    now hmap fun u hu => ?_
  obtain ⟨h₁, h₂, h₃⟩ : u.hnz.connStatus = s.hnz.connStatus ∧
      u.connection.activePath = s.connection.activePath ∧
      u.connection.isRunning = s.connection.isRunning := by simpa [ending] using hu
  rw [requestFor, ending_requestConnectionState (h₃.trans hr), h₁, h₂]

theorem sameGi_protocolStateTransition (e : ConnectionEvent) :
    SameGi s.hnz (s.protocolStateTransition p e now).hnz := by
  cases hmap : transitionMap (s.path p).protocolState e with
  | none => rw [protocolStateTransition, hmap]; exact SameStatus.rfl.sameGi
  | some entry =>
    obtain ⟨st, acts⟩ := entry
    have h := view_protocolStateTransition
      (F := fun u => (u.hnz.conf, u.hnz.giStatus, u.hnz.giInQueue))
      (G := fun u => (u.hnz.conf, u.hnz.giStatus, u.hnz.giInQueue))
      (y := (s.hnz.conf, s.hnz.giStatus, s.hnz.giInQueue)) (fun _ _ => rfl) (fun _ _ => rfl) now hmap
      fun u hu => by
        have h := sameGi_requestConnectionState (s := u) (p := p) (requestFor st)
        rw [h.conf, h.giStatus, h.giInQueue]
        exact hu
    simp only [Prod.mk.injEq] at h
    exact ⟨h.1, h.2.1, h.2.2⟩

theorem sameGi_stop (s : System) (now : Instant) : SameGi s.hnz (s.stop now).hnz := by
  have hone : ∀ (u : System) (q : PathId), SameGi u.hnz
      (if u.configured q then u.disconnect q now else u).hnz := by
    intro u q
    split_ifs
    · exact sameGi_protocolStateTransition _
    · exact SameStatus.rfl.sameGi
  exact (hone { s with connection.isRunning := false } .A).trans (hone _ .B)

/-- **A stopped connection is not connected.** -/
theorem connStatus_stop
    (hstatus : s.hnz.connStatus = .started ↔ s.connection.activePath ≠ none)
    (hconf : ∀ p, s.connection.activePath = some p → s.configured p) :
    (s.stop now).hnz.connStatus = .notConnected := by
  have hone : ∀ (v : System) (q : PathId), v.connection.isRunning = false →
      (if v.configured q then v.disconnect q now else v).connection.conf = v.connection.conf ∧
        (if v.configured q then v.disconnect q now else v).ending =
          if v.configured q ∧ v.connection.activePath = some q then (.notConnected, none, false)
          else (v.hnz.connStatus, v.connection.activePath, false) := by
    intro v q hv
    by_cases hq : v.configured q
    · simp only [hq, if_true, true_and]
      exact ⟨conf_protocolStateTransition _ _, ending_disconnect hv⟩
    · rw [if_neg hq, if_neg fun h => hq h.1, ending, hv]
      exact ⟨rfl, rfl⟩
  obtain ⟨u, hu⟩ : ∃ u : System, u = { s with connection.isRunning := false } := ⟨_, rfl⟩
  obtain ⟨v, hv⟩ : ∃ v : System, v = if u.configured .A then u.disconnect .A now else u := ⟨_, rfl⟩
  have hstop : s.stop now = if v.configured .B then v.disconnect .B now else v := by
    rw [hv, hu]; rfl
  have hrest : s.connection.activePath = none → s.hnz.connStatus = .notConnected := by
    intro hnone
    cases hs : s.hnz.connStatus with
    | started => exact absurd hnone (hstatus.mp hs)
    | notConnected => rfl
  obtain ⟨hconfA, hA⟩ := hone u .A (by rw [hu])
  have hactive : u.connection.activePath = s.connection.activePath := by rw [hu]
  have hstatus' : u.hnz.connStatus = s.hnz.connStatus := by rw [hu]
  have hcA : ∀ q, v.configured q = s.configured q := by
    intro q; rw [configured, hv, hconfA, hu]; rfl
  have hcu : ∀ q, u.configured q = s.configured q := by intro q; rw [hu]; rfl
  rw [← hv, hactive, hstatus', hcu] at hA
  have hrunning : v.connection.isRunning = false := by
    have h := congrArg (fun x => x.2.2) hA
    simp only [ending] at h
    rw [h]; split_ifs <;> rfl
  have hB := congrArg Prod.fst (hone v .B hrunning).2
  rw [← hstop] at hB
  simp only [ending] at hA hB
  rw [hB, hcA]
  cases ha : s.connection.activePath with
  | none =>
    rw [if_neg (by simp [ha]), Prod.mk.injEq, Prod.mk.injEq] at hA
    rw [if_neg (by simp [hA.2.1, ha]), hA.1]
    exact hrest ha
  | some q =>
    cases q with
    | A =>
      rw [if_pos ⟨hconf _ ha, ha⟩, Prod.mk.injEq, Prod.mk.injEq] at hA
      rw [if_neg (by simp [hA.2.1]), hA.1]
    | B =>
      rw [if_neg (by simp [ha]), Prod.mk.injEq, Prod.mk.injEq] at hA
      rw [if_pos ⟨hconf _ ha, hA.2.1.trans ha⟩]

/-- What is left of a connection that was not used: the plugin object, no active path, and the states of
the paths. -/
def idling (s : System) : HNZ × Option PathId × (PathId → ConnectionState) :=
  (s.hnz, s.connection.activePath, fun q => (s.path q).connectionState)

theorem idling_modifyLink (f : Link → Link) : (s.modifyLink p f).idling = s.idling := by
  refine Prod.ext rfl (Prod.ext rfl (funext fun q => ?_))
  simp only [idling, modifyLink, modifyPath, path, Function.update_apply]
  split_ifs with hq
  · rw [hq]
  · rfl

/-- A disconnected path that leaves has nothing to say where no path is active. -/
theorem idling_disconnect (ha : s.connection.activePath = none)
    (hidle : (s.path p).connectionState = .disconnected) : (s.disconnect p now).idling = s.idling := by
  obtain ⟨acts, hmap⟩ := transitionMap_tcpCnxLost (s.path p).protocolState
  rw [disconnect, idling_modifyLink]
  refine view_protocolStateTransition (F := idling) (G := idling) (fun _ _ => idling_modifyLink _)
    (fun _ _ => idling_modifyLink _) now hmap fun u hu => ?_
  have hactive : u.connection.activePath = none := (congrArg (fun x => x.2.1) hu).trans ha
  have hstate : (u.path p).connectionState = .disconnected :=
    (congrFun (congrArg (fun x => x.2.2) hu) p).trans hidle
  have htrack : (u.trackFirstInput p).idling = u.idling := by
    unfold trackFirstInput
    simp only
    split_ifs <;> rfl
  have hactive' : (u.trackFirstInput p).connection.activePath = none :=
    (congrArg (fun x => x.2.1) htrack).trans hactive
  have hstate' : ((u.trackFirstInput p).path p).connectionState = .disconnected :=
    (congrFun (congrArg (fun x => x.2.2) htrack) p).trans hstate
  rw [requestFor, requestConnectionState]
  simp only [reduceCtorEq, if_false, leave, setConnectionState, hstate', hactive', if_true]
  exact htrack.trans hu

/-- **A connection that was not used ends without a word.** -/
theorem hnz_stop_of_idle (ha : s.connection.activePath = none)
    (hidle : ∀ q, (s.path q).connectionState = .disconnected) : (s.stop now).hnz = s.hnz := by
  have hone : ∀ (v : System) (q : PathId), v.idling = s.idling →
      (if v.configured q then v.disconnect q now else v).idling = s.idling := by
    intro v q hv
    have hactive : v.connection.activePath = none := (congrArg (fun x => x.2.1) hv).trans ha
    have hstate : (v.path q).connectionState = .disconnected :=
      (congrFun (congrArg (fun x => x.2.2) hv) q).trans (hidle q)
    split_ifs
    · exact (idling_disconnect hactive hstate).trans hv
    · exact hv
  exact congrArg Prod.fst (hone _ .B (hone { s with connection.isRunning := false } .A rfl))

end System

/-! ## The calls of the plugin -/

namespace Plugin

variable {pl pl' : Plugin} {now : Instant}

/-- A start adds readings, and sets the schedule. -/
theorem start_eq {b : Bool} (h : pl.start b now = .ok pl') :
    (pl'.hnz = pl.hnz ∧ pl'.connection = pl.connection) ∨
      ∃ c readings, pl.connection = some c ∧ pl'.hnz = { pl.hnz with readings := readings } ∧
        pl'.connection =
          some (System.startSchedule now ⟨{ pl.hnz with readings := readings }, c⟩).connection := by
  have hb : (if b then { pl with shouldRun := true } else pl).hnz = pl.hnz ∧
      (if b then { pl with shouldRun := true } else pl).connection = pl.connection := by
    split_ifs <;> exact ⟨rfl, rfl⟩
  unfold start at h
  simp only at h
  generalize (if b then { pl with shouldRun := true } else pl) = q at h hb
  obtain ⟨hq₁, hq₂⟩ := hb
  split_ifs at h
  · cases h; exact Or.inl ⟨hq₁, hq₂⟩
  · cases h; exact Or.inl ⟨hq₁, hq₂⟩
  · simp only [bind_eq_ok] at h
    obtain ⟨u, hu, v, hv, h⟩ := h
    obtain ⟨r₁, rfl⟩ := System.sendAllTIQualityReadings_eq_ok hu
    obtain ⟨r₂, rfl⟩ := System.sendAllTIQualityReadings_eq_ok hv
    split at h
    · cases h
    · next c hc =>
      cases h
      rw [hq₁, hc]
      exact Or.inr ⟨c, pl.hnz.readings ++ r₁ ++ r₂, hq₂ ▸ hc, rfl, rfl⟩

/-- A start is bookkeeping. -/
theorem start_cases {b : Bool} (h : pl.start b now = .ok pl') :
    (pl'.hnz = pl.hnz ∧ pl'.connection = pl.connection) ∨
      ∃ c t, pl.connection = some c ∧ System.Same ⟨pl.hnz, c⟩ t ∧ t.gi = System.gi ⟨pl.hnz, c⟩ ∧
        pl'.hnz = t.hnz ∧ pl'.connection = some t.connection := by
  refine (start_eq h).imp_right ?_
  rintro ⟨c, readings, hc, h₁, h₂⟩
  exact ⟨c, System.startSchedule now ⟨{ pl.hnz with readings := readings }, c⟩, hc,
    ⟨rfl, rfl, rfl, rfl, rfl, rfl, rfl, rfl, rfl, rfl⟩, rfl, h₁, h₂⟩

/-- **The two fates of a configuration**: an incomplete one is only stored; a complete one builds
a connection, and the one it replaces ends.  A running plugin is stopped first. -/
theorem setJsonConfig_cases {conf : HNZConf} {name : String} {b : Bool}
    (h : pl.setJsonConfig conf name now = .ok (b, pl')) :
    ∃ q : Plugin, (q = if pl.isRunning then pl.stop false now else pl) ∧
      ((conf.isComplete = false ∧ pl'.hnz.connStatus = q.hnz.connStatus ∧ pl'.connection = q.connection ∧
          pl'.hnz.giStatus = q.hnz.giStatus ∧ pl'.hnz.giInQueue = q.hnz.giInQueue ∧
          pl'.hnz.giAddressesReceived = q.hnz.giAddressesReceived) ∨
        conf.isComplete = true ∧ ∃ (hnz : HNZ) (r : Plugin),
          (hnz.connStatus = q.hnz.connStatus ∧ hnz.giStatus = q.hnz.giStatus ∧
            hnz.giInQueue = q.hnz.giInQueue ∧ hnz.audits = q.hnz.audits) ∧
          r.hnz = destroyConnection q.connection now (System.create hnz now).hnz ∧
          r.connection = some (System.create hnz now).connection ∧
          (pl' = r ∨ r.start false now = .ok pl')) := by
  obtain ⟨q, hq⟩ : ∃ q, q = if pl.isRunning then pl.stop false now else pl := ⟨_, rfl⟩
  refine ⟨q, hq, ?_⟩
  unfold setJsonConfig at h
  simp only [← hq] at h
  generalize (if name = "" then q.hnz.serviceName else name) = serviceName at h
  by_cases hcomplete : (!conf.isComplete) = true
  · rw [if_pos hcomplete] at h
    cases h
    exact Or.inl ⟨by simpa using hcomplete, rfl, rfl, rfl, rfl, rfl⟩
  rw [if_neg hcomplete] at h
  refine Or.inr ⟨by simpa using hcomplete, { q.hnz with
      serviceName := serviceName
      conf := conf
      remoteAddress := conf.remoteStationAddr.toNat
      testMsgReceive := conf.testMsgReceive },
    { q with hnz := destroyConnection q.connection now _, connection := some _ },
    ⟨rfl, rfl, rfl, rfl⟩, rfl, rfl, ?_⟩
  split_ifs at h
  · cases h; exact Or.inl rfl
  · simp only [bind_eq_ok] at h
    obtain ⟨r, hr, h⟩ := h
    cases h
    exact Or.inr hr
  · cases h; exact Or.inl rfl

theorem step_event [Platform] {c : HNZConnection} {ev : Event} {t : System}
    (h : System.step ⟨pl.hnz, c⟩ ev = some t) (hc : pl.connection = some c) :
    pl.step (.event ev) = some { pl with hnz := t.hnz, connection := some t.connection } := by
  simp only [step, hc, h, Option.map_some]

/-- **The four calls.** -/
theorem step_cases [Platform] {call : Call} (h : pl.step call = some pl') :
    match call with
    | .event ev => ∃ c t, pl.connection = some c ∧ System.step ⟨pl.hnz, c⟩ ev = some t ∧
        pl' = { pl with hnz := t.hnz, connection := some t.connection }
    | .setJsonConfig conf name now => ∃ b, pl.setJsonConfig conf name now = .ok (b, pl')
    | .start now => pl.start true now = .ok pl'
    | .stop now => pl' = pl.stop true now := by
  cases call with
  | event ev =>
    simp only [step] at h
    split at h
    · cases h
    · next c hc =>
      obtain ⟨t, ht, rfl⟩ := Option.map_eq_some_iff.mp h
      exact ⟨c, t, hc, ht, rfl⟩
  | setJsonConfig conf name now =>
    simp only [step] at h
    cases hset : pl.setJsonConfig conf name now with
    | error => rw [hset] at h; cases h
    | ok r => rw [hset] at h; cases h; exact ⟨r.1, hset⟩
  | start now =>
    simp only [step] at h
    cases hstart : pl.start true now with
    | error => rw [hstart] at h; cases h
    | ok r => rw [hstart] at h; cases h; exact hstart
  | stop now => cases h; rfl

/-! ## What outlives the calls -/

/-- The connection, if there is one, is as `I` says. -/
def InConnection (I : System → Prop) (pl : Plugin) : Prop :=
  ∀ c, pl.connection = some c → I ⟨pl.hnz, c⟩

/-- **A property of connections that no call but an event can spoil**: it holds of new ones, and of
the fields of `HNZ` it looks at the received addresses only. -/
structure Durable (I : System → Prop) : Prop where
  hnz : ∀ {h h' : HNZ} {c : HNZConnection}, h'.giAddressesReceived = h.giAddressesReceived →
    I ⟨h, c⟩ → I ⟨h', c⟩
  schedule : ∀ {s : System} (now : Instant), I s → I (s.startSchedule now)
  create : ∀ (hnz h : HNZ) (now : Instant), I ⟨h, (System.create hnz now).connection⟩

namespace Durable

variable {I : System → Prop}

theorem start (hI : Durable I) {b : Bool} (h : pl.start b now = .ok pl') (hs : InConnection I pl) :
    InConnection I pl' := by
  intro d hd
  obtain ⟨h₁, h₂⟩ | ⟨c, readings, hc, h₁, h₂⟩ := start_eq h
  · rw [h₁]
    exact hs d (h₂ ▸ hd)
  · obtain rfl := Option.some.inj (h₂.symm.trans hd)
    have hreadings : I ⟨{ pl.hnz with readings := readings }, c⟩ := hI.hnz (h := pl.hnz) rfl (hs c hc)
    rw [h₁]
    exact hI.schedule now hreadings

theorem setJsonConfig (hI : Durable I) {conf : HNZConf} {name : String} {b : Bool}
    (h : pl.setJsonConfig conf name now = .ok (b, pl')) (hs : InConnection I pl) :
    InConnection I pl' := by
  obtain ⟨q, hq, ⟨-, -, hconn, -, -, hrec⟩ | ⟨-, hnz, r, -, -, hconn, hr⟩⟩ := setJsonConfig_cases h
  · have hstop : InConnection I q := by
      rw [hq]
      split_ifs
      · exact fun c hc => by cases hc
      · exact hs
    intro d hd
    exact hI.hnz hrec (hstop d (hconn ▸ hd))
  · have hnew : InConnection I r := by
      intro d hd
      obtain rfl := Option.some.inj (hconn.symm.trans hd)
      exact hI.create hnz r.hnz now
    obtain rfl | hr := hr
    · exact hnew
    · exact hI.start hr hnew

/-- **A call keeps it**, if its event does. -/
theorem step [Platform] (hI : Durable I) {call : Call} (h : pl.step call = some pl')
    (hs : InConnection I pl)
    (hevent : ∀ c ev t, pl.connection = some c → call = .event ev →
      System.step ⟨pl.hnz, c⟩ ev = some t → I t) : InConnection I pl' := by
  have hcases := step_cases h
  cases call with
  | event ev =>
    obtain ⟨c, t, hc, ht, rfl⟩ := hcases
    intro d hd
    obtain rfl : t.connection = d := Option.some.inj hd
    exact hevent c ev t hc rfl ht
  | setJsonConfig conf name now =>
    obtain ⟨b, hset⟩ := hcases
    exact hI.setJsonConfig hset hs
  | start now => exact hI.start hcases hs
  | stop now =>
    rw [hcases]
    exact fun d hd => by cases hd

end Durable

end Plugin

end Hnz
