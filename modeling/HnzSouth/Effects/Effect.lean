import HnzSouth.Behaviour.Pieces
import HnzSouth.Effects.Publication

/-!
# Effects/Effect — what an event does, effect by effect

Work says what an event does to the links; an effect says all of it, the transitions apart.  A
submission names its message, and the path it goes to is the active one unless the message is a
BULLE; the rest of the plugin changes only by bookkeeping that tells Fledge what it has to
(`EffectStep`).
-/

namespace Hnz

open Machinery

namespace System

/-- **The effects.** -/
inductive Effect
  | submit (p : PathId) (msg : List UInt8)
  /-- A frame with an NR is received. -/
  | receive (p : PathId) (op : Link.Op)
  | resend (p : PathId)
  /-- Timers, commands and the TCP connection of a path. -/
  | touch (p : PathId)
  | sendSARM (p : PathId)
  | sendUA (p : PathId)
  /-- The two statuses are asked for. -/
  | answer
  /-- Bookkeeping. -/
  | other

/-- An effect that any event may have. -/
def Effect.Free : Effect → Prop
  | .submit _ _ | .touch _ | .other => True
  | _ => False

variable {s t u : System} {p : PathId} {now : Instant}

/-- What bookkeeping leaves alone. -/
structure Kept (s t : System) : Prop where
  conf : t.connection.conf = s.connection.conf
  path : t.connection.path = s.connection.path
  activePath : t.connection.activePath = s.connection.activePath
  isRunning : t.connection.isRunning = s.connection.isRunning
  connStatus : t.hnz.connStatus = s.hnz.connStatus

/-- The path may send this message. -/
def Serves (s : System) (p : PathId) (msg : List UInt8) : Prop :=
  s.connection.activePath = some p ∨ (s.path p).connectionState = .active ∨
    (s.pathConf p).isBULLE msg

variable [Platform]

/-- **An effect.** -/
inductive EffectStep : System → Effect → System → Prop
  | submit {s : System} {p : PathId} {msg : List UInt8} (now : Instant) (h : s.Serves p msg) :
    EffectStep s (.submit p msg) (s.sendInfo p now msg).2
  | receive {s : System} {p : PathId} {op : Link.Op} {l : Link}
    (hop : ∃ type, op = .acknowledge type ∨ op = .inform type)
    (h : Link.Step (s.pathConf p) (s.path p).toLink op l) :
    EffectStep s (.receive p op) (s.modifyLink p fun _ => l)
  | resend {s : System} {p : PathId} {m : Message} (now : Instant)
    (h : (s.path p).timeout (s.pathConf p) s.connection.repeatTimeout s.connection.current =
      .resend m) :
    EffectStep s (.resend p) (s.modifyLink p (Link.resend (s.pathConf p) now.ms m))
  | touch {s : System} {p : PathId} {l : Link} (h : l.core = (s.path p).core) :
    EffectStep s (.touch p) (s.modifyLink p fun _ => l)
  | sendSARM {s : System} {p : PathId} (now : Instant)
    (h : (s.path p).protocolState = .connection ∨ (s.path p).protocolState = .inputConnected) :
    EffectStep s (.sendSARM p) (s.modifyLink p (Link.sendSARM (s.pathConf p) now.ms))
  | sendUA (s : System) (p : PathId) (now : Instant) :
    EffectStep s (.sendUA p) (s.modifyLink p (Link.sendUA (s.pathConf p) now.ms))
  | answer (s : System) : EffectStep s .answer (s.sendSouthMonitoringEvent true true)
  | other {s t : System} (h : s.Kept t) (hp : s.hnz.Publishes t.hnz) : EffectStep s .other t

/-- **Effects of some kinds only**, any number of them. -/
def Effects (ok : Effect → Prop) (s t : System) : Prop :=
  ∃ es, Run EffectStep s es t ∧ ∀ e ∈ es, ok e

namespace Effects

variable {ok ok' : Effect → Prop}

theorem refl : Effects ok s s := ⟨[], .nil s, by simp⟩

theorem single {e : Effect} (h : EffectStep s e t) (he : ok e) : Effects ok s t :=
  ⟨[e], .single h, by simpa using he⟩

theorem trans (h : Effects ok s t) (h' : Effects ok t u) : Effects ok s u := by
  obtain ⟨es, h, hes⟩ := h
  obtain ⟨es', h', hes'⟩ := h'
  exact ⟨es ++ es', h.append h', List.forall_mem_append.mpr ⟨hes, hes'⟩⟩

theorem mono (hok : ∀ {e}, ok e → ok' e) (h : Effects ok s t) : Effects ok' s t := by
  obtain ⟨es, h, hes⟩ := h
  exact ⟨es, h, fun e he => hok (hes e he)⟩

/-- What each of them keeps, the whole keeps. -/
theorem invariant {I : System → Prop}
    (step : ∀ {s t : System} {e : Effect}, ok e → I s → EffectStep s e t → I t)
    (h : Effects ok s t) (hs : I s) : I t := by
  obtain ⟨es, h, hes⟩ := h
  exact (h.under hes).invariant (I := I) (fun hs hst => step hst.1 hs hst.2) hs

end Effects

/-! ## What effects leave alone -/

/-- The configuration, the active path, and what goes with it. -/
structure Steady (s t : System) : Prop where
  conf : t.connection.conf = s.connection.conf
  activePath : t.connection.activePath = s.connection.activePath
  isRunning : t.connection.isRunning = s.connection.isRunning
  connStatus : t.hnz.connStatus = s.hnz.connStatus
  connectionState : ∀ p, (t.path p).connectionState = (s.path p).connectionState

omit [Platform] in
/-- What is done to a link leaves them alone. -/
theorem steady_modifyLink (f : Link → Link) : s.Steady (s.modifyLink p f) where
  conf := rfl
  activePath := rfl
  isRunning := rfl
  connStatus := rfl
  connectionState q := by
    rw [path_modifyLink]
    split_ifs with hq
    · rw [hq]
    · rfl

omit [Platform] in
/-- So does bookkeeping. -/
theorem Kept.steady (h : s.Kept t) : s.Steady t :=
  ⟨h.conf, h.activePath, h.isRunning, h.connStatus, fun p => by
    rw [System.path, h.path, System.path]⟩

omit [Platform] in
theorem kept_request : s.Kept (s.sendSouthMonitoringEvent true true) := by
  have hc : (s.sendSouthMonitoringEvent true true).connection = s.connection :=
    connection_sendSouthMonitoringEvent true true
  exact ⟨by rw [hc], by rw [hc], by rw [hc], by rw [hc],
    (sameStatus_sendSouthMonitoringEvent true true).connStatus⟩

/-- **So does every effect.** -/
theorem EffectStep.steady {e : Effect} (h : EffectStep s e t) : s.Steady t := by
  cases h with
  | @submit p msg now => exact steady_modifyLink fun l => (l.sendInfo (s.pathConf p) now.ms msg).2
  | answer => exact kept_request.steady
  | other h => exact h.steady
  | _ => exact steady_modifyLink _

/-- No effect writes the settings of the plugin. -/
theorem EffectStep.sameSettings {e : Effect} (h : EffectStep s e t) : s.hnz.SameSettings t.hnz := by
  cases h with
  | answer => exact sameSettings_request
  | other _ hp => exact hp.toSameSettings
  | _ => exact ⟨rfl, rfl, rfl⟩

theorem Effects.sameSettings {ok : Effect → Prop} (h : Effects ok s t) :
    s.hnz.SameSettings t.hnz :=
  h.invariant (I := fun u => s.hnz.SameSettings u.hnz) (fun _ hu hst => hu.trans hst.sameSettings)
    (.refl _)

/-! ## Single effects -/

/-- Readings about points. -/
theorem effects_sendToFledge {new : List Reading}
    (h : s.hnz.Settled → ∀ r ∈ new, r.OfPoint s.hnz.conf s.hnz.remoteAddress) :
    Effects Effect.Free s (s.sendToFledge new) :=
  .single (.other ⟨rfl, rfl, rfl, rfl, rfl⟩ (publishes_sendToFledge h)) trivial

/-- Bookkeeping that tells Fledge nothing. -/
theorem effects_quiet (h : s.Kept t) (hconf : t.hnz.conf = s.hnz.conf)
    (hremote : t.hnz.remoteAddress = s.hnz.remoteAddress)
    (hbulle : t.hnz.testMsgReceive = s.hnz.testMsgReceive)
    (hreadings : t.hnz.readings = s.hnz.readings) (hgi : t.hnz.giStatus = s.hnz.giStatus) :
    Effects Effect.Free s t := by
  refine .single (.other h (.of_same hconf hremote hbulle hreadings ?_)) trivial
  rw [HNZ.statuses, h.connStatus, hgi, HNZ.statuses]

/-- Timers and commands of a path. -/
theorem effects_touch {f : Link → Link} (h : ∀ l, (f l).core = l.core) :
    Effects Effect.Free s (s.modifyLink p f) :=
  .single (e := .touch p) (.touch (h _)) trivial

/-- A submission to a path that may send the message. -/
theorem effects_sendInfo {msg : List UInt8} (h : s.Serves p msg) :
    Effects Effect.Free s (s.sendInfo p now msg).2 := .single (.submit now h) trivial

/-- A status of the GI, told to Fledge if it changes. -/
theorem effects_updateGiStatus (status : GiStatus) :
    Effects Effect.Free s (s.updateGiStatus status) := by
  have hc : (s.updateGiStatus status).connection = s.connection := connection_updateGiStatus status
  refine .single (.other ?_ (publishes_updateGiStatus status)) trivial
  exact ⟨by rw [hc], by rw [hc], by rw [hc], by rw [hc], (hnz_updateGiStatus status).2.2.1⟩

/-! ## The GI -/

/-- A GI was sent: its status, and its timer. -/
theorem effects_notifyGIsent : Effects Effect.Free s (s.notifyGIsent now) := by
  have hcount : ∀ v : System, Effects Effect.Free v { v with
      connection.giRepeat := v.connection.giRepeat + 1
      connection.giStartTime := now.ms
      connection.giNotified := v.connection.giNotified + 1 } := fun v =>
    effects_quiet ⟨rfl, rfl, rfl, rfl, rfl⟩ rfl rfl rfl rfl rfl
  unfold notifyGIsent
  split_ifs
  · exact (effects_updateGiStatus .started).trans (hcount _)
  · exact hcount s

/-- **A request of a GI** goes to a path that serves it. -/
theorem effects_sendGeneralInterrogation (h : s.Serves p giPayload) :
    Effects Effect.Free s (s.sendGeneralInterrogation p now) := by
  rw [sendGeneralInterrogation_eq]
  split_ifs
  · exact (effects_sendInfo h).trans effects_notifyGIsent
  · exact effects_sendInfo h

theorem effects_triggerGI : Effects Effect.Free s (s.triggerGI now) := by
  obtain h | ⟨-, h⟩ | ⟨p, hp, h⟩ := s.triggerGI_cases now
  · rw [h]
    exact .refl
  · rw [h]
    exact effects_quiet ⟨rfl, rfl, rfl, rfl, rfl⟩ rfl rfl rfl rfl rfl
  · rw [h]
    exact effects_sendGeneralInterrogation (Or.inl hp)

theorem effects_sendAllTIQualityReadings {params : ReadingParameters} {rejectFilter : List Nat}
    (hstation : params.stationAddr = s.hnz.remoteAddress)
    (h : s.sendAllTIQualityReadings params rejectFilter = .ok t) : Effects Effect.Free s t := by
  have hp := publishes_sendAllTIQualityReadings hstation h
  obtain ⟨readings, rfl⟩ := sendAllTIQualityReadings_eq_ok h
  exact .single (.other ⟨rfl, rfl, rfl, rfl, rfl⟩ hp) trivial

/-- **A GI ends**: the missing points are told, then the status, and a GI that waited is requested.
-/
theorem effects_giCompleted {success : Bool} (h : s.giCompleted success now = .ok t) :
    Effects Effect.Free s t := by
  unfold giCompleted at h
  simp only [bind_eq_ok] at h
  obtain ⟨u, hu, h⟩ := h
  have hstop : Effects Effect.Free s { s with connection.giRepeat := 0 } :=
    effects_quiet ⟨rfl, rfl, rfl, rfl, rfl⟩ rfl rfl rfl rfl rfl
  have hreset : ∀ v : System, Effects Effect.Free v v.resetGIQueue := fun v =>
    effects_quiet ⟨rfl, rfl, rfl, rfl, rfl⟩ rfl rfl rfl rfl rfl
  generalize (if success then GiStatus.finished else .failed) = status at h
  have hclosed := hstop.trans ((effects_sendAllTIQualityReadings rfl hu).trans
    ((effects_updateGiStatus status).trans (hreset _)))
  split_ifs at h
  · split at h
    · cases h
    · next p hp =>
      obtain rfl := Except.ok.inj h
      exact hclosed.trans ((effects_sendGeneralInterrogation (Or.inl hp)).trans
        (effects_quiet ⟨rfl, rfl, rfl, rfl, rfl⟩ rfl rfl rfl rfl rfl))
  · obtain rfl := Except.ok.inj h
    exact hclosed

theorem effects_checkGICompleted {success : Bool} (h : s.checkGICompleted success now = .ok t) :
    Effects Effect.Free s t := by
  have hreset : Effects Effect.Free s s.resetGIQueue :=
    effects_quiet ⟨rfl, rfl, rfl, rfl, rfl⟩ rfl rfl rfl rfl rfl
  obtain ⟨ended, h⟩ | rfl | ⟨p, hp, rfl⟩ := checkGICompleted_cases h
  · exact effects_giCompleted h
  · exact hreset
  · exact hreset.trans (effects_sendGeneralInterrogation (Or.inl hp))

theorem effects_checkSchedule : Effects Effect.Free s (s.checkSchedule now) := by
  have hsent : ∀ v : System, Effects Effect.Free v
      { v with connection.giScheduleAlreadySent := true } := fun v =>
    effects_quiet ⟨rfl, rfl, rfl, rfl, rfl⟩ rfl rfl rfl rfl rfl
  obtain h | h | ⟨p, hp, h⟩ := s.checkSchedule_cases now
  · rw [h]
    exact .refl
  · rw [h]
    exact hsent s
  · rw [h]
    exact (effects_sendGeneralInterrogation (Or.inl hp)).trans (hsent _)

/-- **`m_check_GI`**, part by part. -/
theorem effects_checkGI (h : s.checkGI now = .ok t) : Effects Effect.Free s t := by
  obtain ⟨u, hu, rfl⟩ := checkGI_cases h
  have htimeout : Effects Effect.Free s u := by
    obtain rfl | hu := checkGITimeout_cases hu
    · exact .refl
    · exact effects_checkGICompleted hu
  have hday : Effects Effect.Free u u.checkNewDay := by
    obtain h | ⟨time, today, h⟩ := u.checkNewDay_cases
    · rw [h]
      exact .refl
    · rw [h]
      exact effects_quiet ⟨rfl, rfl, rfl, rfl, rfl⟩ rfl rfl rfl rfl rfl
  exact htimeout.trans (hday.trans effects_checkSchedule)

theorem effects_updateQualityUpdateTimer (h : s.updateQualityUpdateTimer now = .ok t) :
    Effects Effect.Free s t := by
  have hquiet : ∀ x : Int, Effects Effect.Free s { s with hnz.qualityUpdateTimer := x } := fun _ =>
    effects_quiet ⟨rfl, rfl, rfl, rfl, rfl⟩ rfl rfl rfl rfl rfl
  obtain rfl | ⟨timer, rfl⟩ | ⟨u, hu, h⟩ := updateQualityUpdateTimer_cases h
  · exact .refl
  · exact hquiet timer
  · exact (hquiet 0).trans ((effects_sendAllTIQualityReadings rfl hu).trans
      (effects_sendAllTIQualityReadings rfl h))

end System

end Hnz
