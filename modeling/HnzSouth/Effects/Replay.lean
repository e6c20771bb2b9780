import HnzSouth.Behaviour.Life
import HnzSouth.Effects.Events

/-!
# Effects/Replay — the statuses from the readings

Between two configurations every call of the plugin publishes what it does (`publishes_step`), or asks
for the two statuses and is answered (`answer_step`), so replaying the readings gives the statuses
(`published_of_run`).
-/

namespace Hnz

open Machinery

/-! ## The replay -/

/-- The connection status that a reading reports. -/
def Reading.connectionStatus? (r : Reading) : Option ConnectionStatus :=
  [ConnectionStatus.notConnected, .started].find? fun status =>
    r.get? "connx_status" = some status.attribute.2

/-- The status of the GI that a reading reports. -/
def Reading.giStatus? (r : Reading) : Option GiStatus :=
  [GiStatus.idle, .started, .inProgress, .failed, .finished].find? fun status =>
    r.get? "gi_status" = some status.attribute.2

/-- **One reading of the replay**: a south event writes the statuses it reports. -/
def Statuses.read (x : Statuses) (r : Reading) : Statuses :=
  if r.object = "south_event" then
    ⟨r.connectionStatus?.getD x.connStatus, r.giStatus?.getD x.giStatus⟩
  else x

variable {conf : HNZConf} {station : Nat} {x y : Statuses} {r : Reading} {new : List Reading}

/-- The monitor does what the replay computes. -/
theorem Monitor.eq_read (h : Monitor conf station x r y) : y = x.read r := by
  cases h with
  | point h => rw [Statuses.read, h.1, if_neg (by decide)]
  | @connection status _ => cases status <;> rfl
  | @gi status _ => cases status <;> rfl

/-- An answer tells nothing new. -/
theorem Statuses.read_answer (conf : HNZConf) (x : Statuses) : x.read (x.answer conf) = x := by
  obtain ⟨c, g⟩ := x
  cases c <;> cases g <;> rfl

theorem eq_foldl_read (h : Run (Monitor conf station) x new y) : y = new.foldl Statuses.read x := by
  induction h with
  | nil => rfl
  | cons h _ ih => rw [ih, h.eq_read, List.foldl_cons]

/-! ## Events -/

namespace System

variable {s t : System} {now : Instant}

theorem publishes_fire (f : Option (PathId × ConnectionEvent)) :
    s.hnz.Publishes (s.fire now f).hnz := by
  cases f with
  | none => exact .refl s.hnz
  | some pe => exact publishes_protocolStateTransition pe.2 now

theorem publishes_effects [Platform] {ok : Effect → Prop} (hok : ¬ok .answer)
    (h : Effects ok s t) : s.hnz.Publishes t.hnz := by
  refine h.invariant (I := fun u => s.hnz.Publishes u.hnz) (fun {u v e} he hu hst => ?_)
    (.refl s.hnz)
  cases hst with
  | answer => exact absurd he hok
  | other _ hp => exact hu.trans hp
  | _ => exact hu

/-- An event that asks for nothing. -/
theorem publishes_of_step [Platform] {ev : Event} (hev : ¬ev.Asks) (h : s.step ev = some t) :
    s.hnz.Publishes t.hnz := by
  obtain ⟨now, hpre, hpost⟩ := staged_of_step h
  exact (publishes_effects hev hpre).trans ((publishes_fire _).trans (publishes_effects hev hpost))

theorem sameSettings_of_step [Platform] {ev : Event} (h : s.step ev = some t) :
    s.hnz.SameSettings t.hnz := by
  obtain ⟨now, hpre, hpost⟩ := staged_of_step h
  exact hpre.sameSettings.trans ((publishes_fire _).toSameSettings.trans hpost.sameSettings)

/-- **An event that asks** is answered once, if there is an asset for the answer. -/
theorem answer_of_step [Platform] {ev : Event} (hev : ev.Asks) (h : s.step ev = some t) :
    t.hnz.statuses = s.hnz.statuses ∧ t.hnz.readings = s.hnz.readings ++
      if s.hnz.conf.connxStatus = "" then [] else [s.hnz.statuses.answer s.hnz.conf] := by
  cases ev with
  | operation name params now =>
    obtain ⟨-, hrun⟩ := run_of_step h
    obtain rfl := Except.ok.inj hrun
    obtain rfl : name = "request_connection_status" := hev
    have hop : (s.operation "request_connection_status" params now).2 =
        s.sendSouthMonitoringEvent true true := rfl
    rw [hop]
    split_ifs with hasset
    · rw [sendSouthMonitoringEvent_of_empty hasset]
      exact ⟨rfl, (List.append_nil _).symm⟩
    · rw [sendSouthMonitoringEvent_of_ne hasset rfl]
      exact ⟨rfl, rfl⟩
  | _ => exact hev.elim

/-- Both paths lose their TCP connection. -/
theorem publishes_stop : s.hnz.Publishes (s.stop now).hnz := by
  have hone : ∀ (u : System) (p : PathId),
      u.hnz.Publishes (if u.configured p then u.disconnect p now else u).hnz := by
    intro u p
    split_ifs
    · exact publishes_protocolStateTransition (s := u) .tcpCnxLost now
    · exact .refl u.hnz
  exact (hone { s with connection.isRunning := false } .A).trans (hone _ .B)

/-- The paths of a new connection. -/
theorem publishes_create (hnz : HNZ) : hnz.Publishes (create hnz now).hnz := by
  have hone : ∀ (u : System) (p : PathId), u.hnz.Publishes (u.createPath now p).hnz := by
    intro u p
    unfold createPath
    split_ifs
    · exact (publishes_audit (s := u) _ _).trans (publishes_runAction _ now)
    · exact publishes_audit _ _
  unfold create
  simp only
  split_ifs
  · exact .refl hnz
  · exact ((hone ⟨hnz, { conf := hnz.conf }⟩ .A).trans (hone _ .B)).trans (publishes_audit _ _)

end System

/-! ## Calls -/

namespace Plugin

variable {pl pl' : Plugin} {now : Instant}

/-- The readings of a start are about the quality of the points. -/
theorem publishes_start {b : Bool} (h : pl.start b now = .ok pl') : pl.hnz.Publishes pl'.hnz := by
  have hb : (if b then { pl with shouldRun := true } else pl).hnz = pl.hnz := by
    split_ifs <;> rfl
  unfold start at h
  simp only at h
  generalize (if b then { pl with shouldRun := true } else pl) = q at h hb
  rw [← hb]
  split_ifs at h
  · cases h
    exact .refl _
  · cases h
    exact .refl _
  · simp only [bind_eq_ok] at h
    obtain ⟨u, hu, v, hv, h⟩ := h
    have hreadings : q.hnz.Publishes v.hnz :=
      (System.publishes_sendAllTIQualityReadings rfl hu).trans
        (System.publishes_sendAllTIQualityReadings rfl hv)
    split at h
    · cases h
    · cases h
      exact hreadings

theorem publishes_stop (b : Bool) : pl.hnz.Publishes (pl.stop b now).hnz := by
  unfold stop
  simp only
  cases pl.connection with
  | none => exact .refl pl.hnz
  | some c => exact System.publishes_stop (s := ⟨pl.hnz, c⟩)

/-- **A complete configuration**: the plugin object starts from its station and its BULLE, and the
connection has it. -/
theorem publishes_setJsonConfig {conf : HNZConf} {name : String} {b : Bool}
    (hcomplete : conf.isComplete = true) (h : pl.setJsonConfig conf name now = .ok (b, pl')) :
    ∃ (hnz : HNZ) (c : HNZConnection), hnz.conf = conf ∧
      hnz.remoteAddress = conf.remoteStationAddr.toNat ∧
      hnz.testMsgReceive = conf.testMsgReceive ∧ hnz.Publishes pl'.hnz ∧
      pl'.connection = some c ∧ c.conf = conf := by
  unfold setJsonConfig at h
  simp only at h
  generalize (if pl.isRunning then pl.stop false now else pl) = q at h
  generalize (if name = "" then q.hnz.serviceName else name) = serviceName at h
  rw [hcomplete, if_neg (by decide)] at h
  obtain ⟨hnz, hhnz⟩ : ∃ hnz : HNZ, hnz = { q.hnz with
    serviceName := serviceName
    conf := conf
    remoteAddress := conf.remoteStationAddr.toNat
    testMsgReceive := conf.testMsgReceive } := ⟨_, rfl⟩
  have hconf : hnz.conf = conf := by rw [hhnz]
  have hdestroy : hnz.Publishes
      (destroyConnection q.connection now (System.create hnz now).hnz) := by
    have hcreate : hnz.Publishes (System.create hnz now).hnz := System.publishes_create hnz
    refine hcreate.trans ?_
    unfold destroyConnection
    cases q.connection with
    | none => exact .refl _
    | some c =>
      simp only
      split_ifs
      · exact System.publishes_stop (s := ⟨(System.create hnz now).hnz, c⟩)
      · exact .refl _
  have hcreated : (System.create hnz now).connection.conf = conf :=
    (System.create_fresh hnz now).1.conf.trans hconf
  refine ⟨hnz, ?_⟩
  rw [← hhnz] at h
  split_ifs at h
  · cases h
    exact ⟨_, hconf, by rw [hhnz], by rw [hhnz], hdestroy, rfl, hcreated⟩
  · simp only [bind_eq_ok] at h
    obtain ⟨r, hr, h⟩ := h
    cases h
    have hstart := hdestroy.trans (publishes_start hr)
    obtain ⟨-, hconnection⟩ | ⟨c, t, hc, hsame, -, -, hconnection⟩ := start_cases hr
    · exact ⟨_, hconf, by rw [hhnz], by rw [hhnz], hstart, hconnection, hcreated⟩
    · obtain rfl := Option.some.inj hc
      exact ⟨_, hconf, by rw [hhnz], by rw [hhnz], hstart, hconnection,
        hsame.conf.trans hcreated⟩
  · cases h
    exact ⟨_, hconf, by rw [hhnz], by rw [hhnz], hdestroy, rfl, hcreated⟩

/-- It settles the address of the station. -/
theorem settled_setJsonConfig {conf : HNZConf} {name : String} {b : Bool}
    (hcomplete : conf.isComplete = true) (h : pl.setJsonConfig conf name now = .ok (b, pl')) :
    pl'.hnz.conf = conf ∧ pl'.hnz.Settled := by
  obtain ⟨hnz, c, hconf, hremote, -, hpublishes, -⟩ := publishes_setJsonConfig hcomplete h
  refine ⟨hpublishes.conf.trans hconf, ?_⟩
  rw [HNZ.Settled, hpublishes.conf, hpublishes.remoteAddress, hconf, hremote]

/-- The call brings a new configuration. -/
def Call.Configures : Call → Prop
  | .setJsonConfig _ _ _ => True
  | _ => False

/-- The call asks for the two statuses. -/
def Call.Asks : Call → Prop
  | .event ev => ev.Asks
  | _ => False

/-- **The calls that ask for nothing.** -/
theorem publishes_step [Platform] {call : Call} (hcall : ¬call.Configures) (hasks : ¬call.Asks)
    (h : pl.step call = some pl') : pl.hnz.Publishes pl'.hnz := by
  have hcases := step_cases h
  cases call with
  | event ev =>
    obtain ⟨c, t, -, ht, rfl⟩ := hcases
    exact System.publishes_of_step (s := ⟨pl.hnz, c⟩) hasks ht
  | setJsonConfig conf name now => exact absurd trivial hcall
  | start now => exact publishes_start hcases
  | stop now => exact hcases ▸ publishes_stop true

/-- **The calls that ask.** -/
theorem answer_step [Platform] {call : Call} (hasks : call.Asks) (h : pl.step call = some pl') :
    pl'.hnz.statuses = pl.hnz.statuses ∧ pl'.hnz.readings = pl.hnz.readings ++
      if pl.hnz.conf.connxStatus = "" then [] else [pl.hnz.statuses.answer pl.hnz.conf] := by
  have hcases := step_cases h
  cases call with
  | event ev =>
    obtain ⟨c, t, -, ht, rfl⟩ := hcases
    exact System.answer_of_step (s := ⟨pl.hnz, c⟩) hasks ht
  | _ => exact hasks.elim

theorem sameSettings_step [Platform] {call : Call} (hcall : ¬call.Configures)
    (h : pl.step call = some pl') : pl.hnz.SameSettings pl'.hnz := by
  by_cases hasks : call.Asks
  · have hcases := step_cases h
    cases call with
    | event ev =>
      obtain ⟨c, t, -, ht, rfl⟩ := hcases
      exact System.sameSettings_of_step (s := ⟨pl.hnz, c⟩) ht
    | _ => exact hasks.elim
  · exact (publishes_step hcall hasks h).toSameSettings

/-- **What the calls tell**: a call that asks for the statuses is answered in its place, and the monitor
reads what the others tell. -/
inductive Told (conf : HNZConf) (station : Nat) :
    Statuses → List Call → List Reading → Statuses → Prop
  | nil (x : Statuses) : Told conf station x [] [] x
  | answer {x y : Statuses} {call : Call} {calls : List Call} {new : List Reading}
    (hasks : call.Asks) (h : Told conf station x calls new y) :
    Told conf station x (call :: calls) (x.answer conf :: new) y
  | other {x y z : Statuses} {call : Call} {calls : List Call} {new more : List Reading}
    (hasks : ¬call.Asks) (hnew : Run (Monitor conf station) x new y)
    (h : Told conf station y calls more z) :
    Told conf station x (call :: calls) (new ++ more) z

/-- The replay does not need the calls. -/
theorem Told.eq_foldl_read {conf : HNZConf} {station : Nat} {x y : Statuses} {calls : List Call}
    {new : List Reading} (h : Told conf station x calls new y) : y = new.foldl Statuses.read x := by
  induction h with
  | nil => rfl
  | answer _ _ ih => rw [List.foldl_cons, Statuses.read_answer, ← ih]
  | other _ hnew _ ih => rw [List.foldl_append, ← Hnz.eq_foldl_read hnew, ← ih]

/-- **The run lemma**, from any state that has the configuration. -/
theorem told_of_run [Platform] {conf : HNZConf} {calls : List Call} (hconf : pl.hnz.conf = conf)
    (hsettled : pl.hnz.Settled) (h : Run (Under (fun _ call => ¬call.Configures) Step) pl calls pl') :
    ∃ new, pl'.hnz.readings = pl.hnz.readings ++ new ∧
      (conf.connxStatus ≠ "" →
        Told conf conf.remoteStationAddr.toNat pl.hnz.statuses calls new pl'.hnz.statuses) ∧
      (conf.connxStatus = "" → ∀ r ∈ new, r.OfPoint conf conf.remoteStationAddr.toNat) := by
  induction h with
  | nil pl => exact ⟨[], (List.append_nil _).symm, fun _ => .nil _, fun _ => List.forall_mem_nil _⟩
  | @cons pl q pl' call calls hst _ ih =>
    obtain ⟨hcall, hst⟩ := hst
    have hsettings := sameSettings_step hcall hst
    obtain ⟨more, hmore, htold, hpoints⟩ :=
      ih (hsettings.conf.trans hconf) (hsettings.settled hsettled)
    have hstation : pl.hnz.remoteAddress = conf.remoteStationAddr.toNat := hconf ▸ hsettled
    by_cases hasks : call.Asks
    · obtain ⟨hstatuses, hreadings⟩ := answer_step hasks hst
      rw [hconf] at hreadings
      rw [hstatuses] at htold
      refine ⟨_, by rw [hmore, hreadings, List.append_assoc], fun hasset => ?_, fun hasset => ?_⟩
      · rw [if_neg hasset]
        exact .answer hasks (htold hasset)
      · rw [if_pos hasset]
        exact hpoints hasset
    · obtain ⟨new, hnew, htells⟩ := (publishes_step hcall hasks hst).told hsettled
      have hmonitored := htells.monitored
      have hofPoint := htells.points
      rw [hconf, hstation] at hmonitored hofPoint
      refine ⟨new ++ more, by rw [hmore, hnew, List.append_assoc], fun hasset => ?_,
        fun hasset => ?_⟩
      · exact .other hasks (hmonitored hasset) (htold hasset)
      · exact List.forall_mem_append.mpr ⟨hofPoint hasset, hpoints hasset⟩

/-- **From its readings alone Fledge knows the statuses of the plugin**, from a configuration to the
next one; and every reading is about a point of the configuration, about a change of status, or the
answer to a call that asks for the statuses. -/
theorem published_of_run [Platform] {pl₀ : Plugin} {conf : HNZConf} {name : String}
    {calls : List Call} (hconf : pl₀.Step (.setJsonConfig conf name now) pl)
    (hcomplete : conf.isComplete = true)
    (h : Run (Under (fun _ call => ¬call.Configures) Step) pl calls pl') :
    ∃ new, pl'.hnz.readings = pl.hnz.readings ++ new ∧
      (conf.connxStatus ≠ "" →
        Told conf conf.remoteStationAddr.toNat pl.hnz.statuses calls new pl'.hnz.statuses ∧
          pl'.hnz.statuses = new.foldl Statuses.read pl.hnz.statuses) ∧
      (conf.connxStatus = "" → ∀ r ∈ new, r.OfPoint conf conf.remoteStationAddr.toNat) := by
  obtain ⟨b, hset⟩ := step_cases hconf
  obtain ⟨hconf, hsettled⟩ := settled_setJsonConfig hcomplete hset
  obtain ⟨new, hnew, htold, hpoints⟩ := told_of_run hconf hsettled h
  exact ⟨new, hnew, fun hasset => ⟨htold hasset, (htold hasset).eq_foldl_read⟩, hpoints⟩

end Plugin

namespace Plugin

open Sample

/-- The two paths, with an asset for the statuses. -/
def monitored : HNZConf := { HNZConf.sample with connxStatus := "CONNECTION" }

/-- Path A connects, and a request asks for the statuses. -/
def telling : List Call :=
  [.start 0, .event (.connect .A 0), .event (.protocol .A .receivedSarm 0),
    .event (.protocol .A .receivedUa 0), .event (.operation "request_connection_status" [] 0)]

set_option maxRecDepth 8000 in
/-- The readings say that the path has connected. -/
theorem published_telling :
    ∃ (pl pl' : Plugin) (new : List Reading), Run Step pl telling pl' ∧
      pl'.hnz.readings = pl.hnz.readings ++ new ∧ pl'.hnz.connStatus = .started ∧
      pl'.hnz.statuses = new.foldl Statuses.read pl.hnz.statuses := by
  let calls : List Call := .setJsonConfig monitored "hnz" 0 :: telling
  let pl' : Plugin := (exec step {} calls).get rfl
  have hcalls : Run Step {} calls pl' := run_det_iff.mpr rfl
  obtain ⟨pl, hconf, hrun⟩ := Run.cons_iff.mp hcalls
  have hother : ∀ call ∈ telling, ¬call.Configures := by
    simp [telling, Call.Configures]
  obtain ⟨new, hnew, htold, -⟩ := published_of_run hconf rfl (hrun.under hother)
  exact ⟨pl, pl', new, hrun, hnew, rfl, (htold (by decide)).2⟩

end Plugin

end Hnz
