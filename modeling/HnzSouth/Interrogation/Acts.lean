import HnzSouth.Behaviour.Events
import HnzSouth.Behaviour.Reports

/-!
# Interrogation/Acts — what an event does to the interrogation

Everything that happens to an `Interrogation` is one of six acts.  `System.acts` lists the acts of an
event, in order, and `interrogation_step` says that they account for all that the event does to it.
-/

namespace Hnz

open Machinery

/-! ## Acts -/

/-- **The interrogation**: a GI, when its last request was sent, the addresses received for it,
whether a path is active, how many requests were ever sent, and how often and after how long a GI
is repeated. -/
structure Interrogation extends Gi where
  startTime : Int
  received : List Nat
  active : Bool
  notified : Nat
  countMax : Int
  timeMax : Int

/-- **The acts.** -/
inductive Act
  /-- A path connects or leaves; with the active one the count is lost. -/
  | arbitrate (lost active : Bool)
  /-- A GI is wanted behind the running one. -/
  | queue
  /-- A TSCG came with these addresses. -/
  | receive (addresses : List Nat)
  /-- The addresses are forgotten, before the GI is repeated. -/
  | forget
  /-- The GI ends. -/
  | complete (success : Bool)
  /-- A request was submitted, and sent or not. -/
  | request (now : Int) (sent : Bool)
  deriving DecidableEq

namespace Interrogation

/-- The effect of an act. -/
def act (i : Interrogation) : Act → Interrogation
  | .arbitrate lost active => { i with toGi := if lost then i.toGi.lose else i.toGi, active := active }
  | .queue => { i with queued := true }
  | .receive addresses =>
    { i with
      received := i.received ++ addresses
      status := if i.status = .started then .inProgress else i.status }
  | .forget => { i with received := [] }
  | .complete success =>
    { i with toGi := ⟨if success then .finished else .failed, false, 0⟩, received := [] }
  | .request now sent =>
    if sent then { i with toGi := i.toGi.requested, startTime := now, notified := i.notified + 1 }
    else i

/-- The effect of several. -/
def acts (i : Interrogation) (as : List Act) : Interrogation := as.foldl act i

@[simp] theorem acts_nil (i : Interrogation) : i.acts [] = i := rfl

@[simp] theorem acts_cons (i : Interrogation) (a : Act) (as : List Act) :
    i.acts (a :: as) = (i.act a).acts as := rfl

theorem acts_append (i : Interrogation) (as bs : List Act) :
    i.acts (as ++ bs) = (i.acts as).acts bs := List.foldl_append

end Interrogation

namespace System

variable {s t u : System} {p : PathId} {now : Instant} {data : List UInt8}

/-- The interrogation of the plugin. -/
def interrogation (s : System) : Interrogation where
  toGi := s.gi
  startTime := s.connection.giStartTime
  received := s.hnz.giAddressesReceived
  active := s.connection.activePath.isSome
  notified := s.connection.giNotified
  countMax := s.connection.giRepeatCountMax
  timeMax := s.connection.giTimeMax

/-! ## The acts of the calls -/

/-- A request on a path. -/
def requested (p : PathId) (now : Instant) (s : System) : Act :=
  .request now.ms (s.sendInfo p now giPayload).1

/-- A request on the active path. -/
def requestedActive (now : Instant) (s : System) : List Act :=
  match s.connection.activePath with
  | none => []
  | some p => [s.requested p now]

/-- A GI wanted by a TS or by the north service. -/
def wanted (now : Instant) (s : System) : List Act :=
  if s.hnz.giStatus = .started ∨ s.hnz.giStatus = .inProgress then
    if s.connection.activePath = none then [] else [.queue]
  else s.requestedActive now

/-- The end of a GI, and the request that waited for it. -/
def completed (success : Bool) (now : Instant) (s : System) : List Act :=
  .complete success :: if s.hnz.giInQueue then s.requestedActive now else []

/-- The verdict on a GI. -/
def checked (success : Bool) (now : Instant) (s : System) : List Act :=
  if success then s.completed true now
  else if (s.connection.giRepeat : Int) > s.connection.giRepeatCountMax then s.completed false now
  else .forget :: s.requestedActive now

/-- The timer of the GI has run out. -/
def TimedOut (s : System) : Prop :=
  s.connection.giRepeat ≠ 0 ∧
    u64 (s.connection.giStartTime + s.connection.giTimeMax) < s.connection.current

instance (s : System) : Decidable s.TimedOut := inferInstanceAs (Decidable (_ ∧ _))

/-- The schedule asks for a GI. -/
def Scheduled (s : System) : Prop :=
  (s.connection.giSchedule.activate && !s.connection.giScheduleAlreadySent &&
    u64 s.connection.giScheduledTime ≤ s.connection.current) = true

instance (s : System) : Decidable s.Scheduled := inferInstanceAs (Decidable (_ = _))

/-- The addresses of a TSCG that the configuration has. -/
def tscgAddresses (data : List UInt8) (s : System) : List Nat :=
  match (List.range 16).mapM (s.handleTSCGPoint data) with
  | .ok points => points.reduceOption.map Prod.fst
  | .error _ => []

/-- A TSCG with these addresses would bring the last TS. -/
def bringsLast (data : List UInt8) (s : System) : Bool :=
  (s.hnz.giAddressesReceived ++ s.tscgAddresses data).getLast? == some s.hnz.conf.lastTSAddr

/-- A TSCE triggers a GI. -/
def triggers (data : List UInt8) (s : System) : Bool :=
  match data with
  | _ :: adO :: second :: _ =>
    let msgAddress := concatAddress adO.toNat (second >>> 5).toNat
    let value := (second >>> 3) &&& 0x1
    let isTsTriggering := s.hnz.conf.isTsAddressCgTriggering msgAddress
    decide (s.hnz.conf.getLabel "TS" msgAddress ≠ "" ∧ isTsTriggering ≠ -1 ∧
      (value.toNat : Int) = isTsTriggering)
  | _ => false

/-! ## Requests -/

theorem interrogation_updateGiStatus (x : GiStatus) :
    (s.updateGiStatus x).interrogation =
      { s.interrogation with status := x } := by
  obtain ⟨h₁, h₂, h₃, h₄⟩ := hnz_updateGiStatus (s := s) x
  have h₅ : (s.updateGiStatus x).hnz.giAddressesReceived = s.hnz.giAddressesReceived := by
    unfold updateGiStatus
    split_ifs
    · rfl
    · obtain ⟨rs, h⟩ := sendSouthMonitoringEvent_eq (s := { s with hnz.giStatus := x }) false true
      rw [h]
      rfl
  simp only [interrogation, gi, h₁, h₄, h₅, connection_updateGiStatus]

theorem interrogation_notifyGIsent :
    (s.notifyGIsent now).interrogation =
      { s.interrogation with
        toGi := s.gi.requested, startTime := now.ms, notified := s.connection.giNotified + 1 } := by
  have h₅ : (s.notifyGIsent now).hnz.giAddressesReceived = s.hnz.giAddressesReceived := by
    unfold notifyGIsent
    split_ifs
    · exact congrArg Interrogation.received (interrogation_updateGiStatus (s := s) .started)
    · rfl
  simp only [interrogation, hnz_notifyGIsent.2.2, connection_notifyGIsent, h₅]

/-- **A request is the act it says.** -/
theorem interrogation_sendGeneralInterrogation :
    (s.sendGeneralInterrogation p now).interrogation = s.interrogation.act (s.requested p now) := by
  rw [sendGeneralInterrogation_eq, requested, Interrogation.act]
  split_ifs
  · exact interrogation_notifyGIsent
  · rfl

/-- A request on the active path, if there is one. -/
theorem interrogation_requestedActive :
    (match s.connection.activePath with
      | none => s
      | some p => s.sendGeneralInterrogation p now).interrogation =
      s.interrogation.acts (s.requestedActive now) := by
  unfold requestedActive
  cases s.connection.activePath with
  | none => rfl
  | some p => exact interrogation_sendGeneralInterrogation

/-- Whether a request is sent depends on the links alone. -/
theorem requestedActive_congr (hconf : t.connection.conf = s.connection.conf)
    (hpath : t.connection.path = s.connection.path)
    (hactive : t.connection.activePath = s.connection.activePath) :
    t.requestedActive now = s.requestedActive now := by
  simp only [requestedActive, requested, sendInfo, path, pathConf, hconf, hpath, hactive]

/-- A GI wanted by a TS. -/
theorem interrogation_triggerGI :
    (s.triggerGI now).interrogation = s.interrogation.acts (s.wanted now) := by
  unfold triggerGI wanted requestedActive
  cases s.connection.activePath with
  | none => simp only [if_true, ite_self, Interrogation.acts_nil]
  | some p =>
    simp only [reduceCtorEq, if_false]
    split_ifs
    · rfl
    · exact interrogation_sendGeneralInterrogation

/-! ## The end of a GI -/

/-- The TS of the configuration, in the order of their addresses. -/
def configuredTS (s : System) : List (Nat × String) :=
  match s.hnz.conf.msgList["TS"]? with
  | none => []
  | some stations =>
    match stations[s.hnz.remoteAddress]? with
    | none => []
    | some messages => messages.toList

/-- The reading of a TS that did not answer. -/
def invalidTS (now : Instant) (s : System) (point : Nat × String) : Reading :=
  prepareReading
    { label := point.2, msgCode := "TS", stationAddr := s.hnz.remoteAddress, msgAddress := point.1
      valid := 1, outdated := false, cg := false, ts := now.ms, qualityUpdate := true }

/-- The readings of the TS that are not among the received ones. -/
def missingReadings (received : List Nat) (now : Instant) (s : System) : List Reading :=
  (s.configuredTS.filter fun point => point.1 ∉ received).map (s.invalidTS now)

theorem sendAllTSQualityReadings_eq_ok {received : List Nat}
    (h : s.sendAllTSQualityReadings true false received now = .ok t) :
    t = s.sendToFledge (s.missingReadings received now) := by
  unfold sendAllTSQualityReadings sendAllTIQualityReadings at h
  unfold missingReadings configuredTS
  simp only at h
  cases hstations : s.hnz.conf.msgList["TS"]? with
  | none => simp only [hstations, reduceCtorEq] at h
  | some stations =>
    simp only [hstations] at h
    cases hmessages : stations[s.hnz.remoteAddress]? with
    | none => simp only [hmessages, reduceCtorEq] at h
    | some messages =>
      simp only [hmessages] at h ⊢
      cases h
      rfl

/-- The plugin once a GI has ended, before the next one. -/
def closed (success : Bool) (now : Instant) (s : System) : System :=
  ((({ s with connection.giRepeat := 0 }.sendToFledge
    (s.missingReadings s.hnz.giAddressesReceived now)).updateGiStatus
      (if success then .finished else .failed)).resetGIQueue).withQueue false

theorem interrogation_closed (success : Bool) :
    (s.closed success now).interrogation = s.interrogation.act (.complete success) := by
  set u : System := { s with connection.giRepeat := 0 }.sendToFledge
    (s.missingReadings s.hnz.giAddressesReceived now) with hu
  have h := interrogation_updateGiStatus (s := u) (if success then .finished else .failed)
  simp only [interrogation, gi, Interrogation.mk.injEq, Gi.mk.injEq] at h
  obtain ⟨⟨h₁, -, h₂⟩, h₃, -, h₄, h₅, h₆, h₇⟩ := h
  simp only [closed, ← hu, withQueue, resetGIQueue, interrogation, gi, h₁, h₂, h₃, h₄, h₅, h₆, h₇]
  rfl

theorem same_closed (success : Bool) : s.Same (s.closed success now) := by
  set u : System := { s with connection.giRepeat := 0 }.sendToFledge
    (s.missingReadings s.hnz.giAddressesReceived now) with hu
  obtain ⟨-, h₂, h₃, -⟩ := hnz_updateGiStatus (s := u) (if success then .finished else .failed)
  have hc : (s.closed success now).connection = u.connection := connection_updateGiStatus _
  exact ⟨by rw [hc]; rfl, by rw [hc]; rfl, by rw [hc]; rfl, by rw [hc]; rfl, by rw [hc]; rfl,
    by rw [hc]; rfl, h₂, remoteAddress_updateGiStatus _, h₃,
    (said_updateGiStatus (s := u) _).trans rfl⟩

/-- **A completed GI**: its end, and the request that waited for it. -/
theorem giCompleted_eq_ok {success : Bool} (h : s.giCompleted success now = .ok t) :
    if s.hnz.giInQueue then ∃ p, s.connection.activePath = some p ∧
      t = (s.closed success now).sendGeneralInterrogation p now
    else t = s.closed success now := by
  unfold giCompleted at h
  simp only [bind_eq_ok] at h
  obtain ⟨u, hu, h⟩ := h
  obtain rfl := sendAllTSQualityReadings_eq_ok hu
  set u : System := { s with connection.giRepeat := 0 }.sendToFledge
    (s.missingReadings s.hnz.giAddressesReceived now) with hu
  set v : System := (u.updateGiStatus (if success then .finished else .failed)).resetGIQueue with hv
  have hclosed : s.closed success now = v.withQueue false := rfl
  have hqueue : v.hnz.giInQueue = s.hnz.giInQueue :=
    (hnz_updateGiStatus (s := u) (if success then .finished else .failed)).2.2.2
  have hactive : v.connection.activePath = s.connection.activePath := by
    have hc : v.connection = u.connection := connection_updateGiStatus _
    rw [hc]; rfl
  rw [← hqueue, ← hactive, hclosed]
  replace h : (if v.hnz.giInQueue then match v.connection.activePath with
      | none => .error .nullPath
      | some p => .ok ((v.sendGeneralInterrogation p now).withQueue false)
    else .ok v : Result System) = .ok t := h
  by_cases hq : v.hnz.giInQueue
  · rw [if_pos hq] at h ⊢
    split at h
    · cases h
    · next p hp =>
      cases h
      exact ⟨p, hp, (sendGeneralInterrogation_withQueue false).symm⟩
  · rw [if_neg hq] at h ⊢
    obtain rfl : v = t := Except.ok.inj h
    rw [withQueue, ← Bool.eq_false_of_not_eq_true hq]

theorem interrogation_giCompleted {success : Bool} (h : s.giCompleted success now = .ok t) :
    t.interrogation = s.interrogation.acts (s.completed success now) := by
  have h := giCompleted_eq_ok h
  have hsame : s.Same (s.closed success now) := same_closed success
  have hclosed : (s.closed success now).interrogation = _ := interrogation_closed success
  unfold completed
  rw [Interrogation.acts_cons, ← hclosed]
  split_ifs at h ⊢
  · obtain ⟨p, hp, rfl⟩ := h
    rw [← requestedActive_congr hsame.conf hsame.path hsame.activePath,
      ← interrogation_requestedActive, hsame.activePath, hp]
  · rw [h]; rfl

theorem interrogation_checkGICompleted {success : Bool}
    (h : s.checkGICompleted success now = .ok t) :
    t.interrogation = s.interrogation.acts (s.checked success now) := by
  unfold checkGICompleted at h
  unfold checked
  split_ifs at h ⊢
  · exact interrogation_giCompleted h
  · exact interrogation_giCompleted h
  · simp only at h
    have hcongr : s.resetGIQueue.requestedActive now = s.requestedActive now :=
      requestedActive_congr rfl rfl rfl
    have hreset : s.resetGIQueue.interrogation = s.interrogation.act .forget := rfl
    rw [Interrogation.acts_cons, ← hreset, ← hcongr, ← interrogation_requestedActive]
    split at h
    · cases h; simp [*]
    · cases h; simp [*]

end System

end Hnz
