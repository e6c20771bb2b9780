import HnzSouth.Behaviour.Events
import HnzSouth.Machinery.Logbook

/-!
# Behaviour/Audits — what the audits say

The arbiter is the only writer of the audits, but for the start of a connection.  It writes one when
a path changes its connection state, or the service its status, and only then (`Told`).  Everything
else an event does is silent (`Silent`), so that every event keeps the audits true (`Told.step`).
-/

namespace Hnz

open Machinery

/-! ## Subjects -/

/-- What an audit is about. -/
inductive Subject
  | service
  | path (p : PathId)
  deriving DecidableEq

/-- The audit of a connection state. -/
def pathAudit (name : String) (p : PathId) : ConnectionState → Audit
  | .active => ⟨.success, name ++ "-" ++ p.letter ++ "-active"⟩
  | .passive => ⟨.success, name ++ "-" ++ p.letter ++ "-passive"⟩
  | .pendingHnz | .disconnected => ⟨.fail, name ++ "-" ++ p.letter ++ "-disconnected"⟩

/-- The audit of a connection status. -/
def serviceAudit (name : String) : ConnectionStatus → Audit
  | .started => ⟨.success, name ++ "-connected"⟩
  | .notConnected => ⟨.fail, name ++ "-disconnected"⟩

/-- The audits of a path tell its states apart, but for the two that are not connected. -/
theorem pathAudit_eq_iff {name : String} {p : PathId} {st st' : ConnectionState} :
    pathAudit name p st = pathAudit name p st' ↔
      (st = .active ↔ st' = .active) ∧ (st = .passive ↔ st' = .passive) := by
  cases st <;> cases st' <;> simp [pathAudit]

theorem serviceAudit_eq_iff {name : String} {x y : ConnectionStatus} :
    serviceAudit name x = serviceAudit name y ↔ x = y := by
  cases x <;> cases y <;> simp [serviceAudit]

namespace Subject

variable {name : String} {p : PathId} {st : ConnectionState} {status : ConnectionStatus}

/-- **The audit is about this subject.** -/
def about (name : String) : Subject → Audit → Bool
  | .service, a => a.text == name ++ "-connected" || a.text == name ++ "-disconnected"
  | .path p, a => (name ++ "-" ++ p.letter ++ "-").toList.isPrefixOf a.text.toList

/-- The service name in front of both texts does not matter. -/
theorem isPrefixOf_append (l a b : List Char) : (l ++ a).isPrefixOf (l ++ b) = a.isPrefixOf b := by
  rw [Bool.eq_iff_iff, List.isPrefixOf_iff_prefix, List.isPrefixOf_iff_prefix,
    List.prefix_append_right_inj]

/-- An audit of a path is about that path. -/
theorem about_pathAudit (x : Subject) : x.about name (pathAudit name p st) = (x == .path p) := by
  rcases x with - | q
  · change _ = false
    cases p <;> cases st <;> simp [about, pathAudit, PathId.letter, String.ext_iff]
  · cases p <;> cases q <;> cases st <;>
      simp [about, pathAudit, PathId.letter, isPrefixOf_append] <;> rfl

/-- An audit of the service is about no path. -/
theorem about_serviceAudit (x : Subject) :
    x.about name (serviceAudit name status) = (x == .service) := by
  rcases x with - | q
  · change _ = true
    cases status <;> simp [about, serviceAudit]
  · change _ = false
    cases q <;> cases status <;>
      simp [about, serviceAudit, PathId.letter, isPrefixOf_append] <;> rfl

end Subject

namespace System

variable {s t u : System} {p q : PathId} {ev : Event} {x : Subject} {old : List Audit}

/-! ## The arbiter -/

/-- The audit that gives the state of a subject. -/
def statusAudit (s : System) : Subject → Audit
  | .service => serviceAudit s.hnz.serviceName s.hnz.connStatus
  | .path p => pathAudit s.hnz.serviceName p (s.path p).connectionState

/-- **The audits since the `old` ones tell the state of the subject**, and each of them was a
change. -/
def Told (old : List Audit) (s : System) (x : Subject) : Prop :=
  ∃ recent, s.hnz.audits = old ++ recent ∧
    Announces (x.about s.hnz.serviceName) recent (s.statusAudit x)

/-- **Nothing is said**, and nothing changes that audits are about. -/
structure Silent (s t : System) : Prop where
  audits : t.hnz.audits = s.hnz.audits
  serviceName : t.hnz.serviceName = s.hnz.serviceName
  connStatus : t.hnz.connStatus = s.hnz.connStatus
  connectionState : ∀ p, (t.path p).connectionState = (s.path p).connectionState

theorem Told.silent (h : s.Told old x) (hst : s.Silent t) : t.Told old x := by
  obtain ⟨recent, haudits, htold⟩ := h
  refine ⟨recent, hst.audits.trans haudits, ?_⟩
  have hstatus : t.statusAudit x = s.statusAudit x := by
    cases x with
    | service => rw [statusAudit, hst.serviceName, hst.connStatus, statusAudit]
    | path p => rw [statusAudit, hst.serviceName, hst.connectionState, statusAudit]
  rw [hst.serviceName, hstatus]
  exact htold

theorem about_statusAudit (x z : Subject) :
    x.about s.hnz.serviceName (s.statusAudit z) = (x == z) := by
  cases z with
  | service => exact Subject.about_serviceAudit x
  | path p => exact Subject.about_pathAudit x

/-- **A write to the state of one subject**, with its audit if that is a new one. -/
theorem Told.update (h : s.Told old x) (z : Subject)
    (hname : t.hnz.serviceName = s.hnz.serviceName)
    (haudits : t.hnz.audits = s.hnz.audits ++
      if t.statusAudit z = s.statusAudit z then [] else [t.statusAudit z])
    (hother : ∀ y, y ≠ z → t.statusAudit y = s.statusAudit y) : t.Told old x := by
  obtain ⟨recent, hrecent, htold⟩ := h
  refine ⟨_, by rw [haudits, hrecent, List.append_assoc], ?_⟩
  have habout := about_statusAudit (s := t) x z
  rw [hname] at habout ⊢
  by_cases hx : x = z
  · subst hx
    exact htold.update (by simpa using habout)
  · rw [hother x hx]
    exact htold.skip_update (habout.trans (beq_eq_false_iff_ne.mpr hx))

/-- A change of connection state, seen from the plugin object. -/
theorem hnz_setConnectionState (st : ConnectionState) :
    (s.setConnectionState p st).hnz = { s.hnz with
      audits := s.hnz.audits ++
        if pathAudit s.hnz.serviceName p st = s.statusAudit (.path p) then []
        else [pathAudit s.hnz.serviceName p st] } := by
  have hsuccess : ∀ st, (st = .passive ∨ st = .active) →
      ((s.modifyPath p fun y => { y with connectionState := st }).sendAuditSuccess p).hnz =
        { s.hnz with audits := s.hnz.audits ++ [pathAudit s.hnz.serviceName p st] } := by
    rintro st (rfl | rfl) <;> simp [sendAuditSuccess, audit, pathAudit, String.append_assoc]
  unfold setConnectionState
  simp only [statusAudit, pathAudit_eq_iff]
  cases (s.path p).connectionState <;> cases st <;> simp [hsuccess, sendAuditFail, audit, pathAudit]

/-- **A path tells a change of its connection state.** -/
theorem Told.setConnectionState (h : s.Told old x) (p : PathId) (st : ConnectionState) :
    (s.setConnectionState p st).Told old x := by
  have hhnz := hnz_setConnectionState (s := s) (p := p) st
  have hname : (s.setConnectionState p st).hnz.serviceName = s.hnz.serviceName := by rw [hhnz]
  have hself : (s.setConnectionState p st).statusAudit (.path p) =
      pathAudit s.hnz.serviceName p st := by
    rw [statusAudit, hname, connectionState_setConnectionState, if_pos rfl]
  refine h.update (.path p) hname (by rw [hself, hhnz]) fun y hy => ?_
  cases y with
  | service => rw [statusAudit, hhnz, statusAudit]
  | path q =>
    have hq : q ≠ p := fun hqp => hy (congrArg _ hqp)
    rw [statusAudit, hname, connectionState_setConnectionState, if_neg hq, statusAudit]

/-- **The service tells a change of its status.** -/
theorem Told.updateConnectionStatus (h : s.Told old x) (status : ConnectionStatus) :
    (s.updateConnectionStatus status).Told old x := by
  have hhnz : (s.updateConnectionStatus status).hnz = (s.hnzUpdateConnectionStatus status).hnz := by
    unfold System.updateConnectionStatus
    split_ifs <;> rfl
  by_cases heq : s.hnz.connStatus = status
  · have hsame : (s.updateConnectionStatus status).hnz = s.hnz := by
      rw [hhnz, hnzUpdateConnectionStatus, if_pos heq]
    exact h.silent ⟨by rw [hsame], by rw [hsame], by rw [hsame], fun p => by simp⟩
  · obtain ⟨readings, hnew⟩ := hnzUpdateConnectionStatus_of_ne heq
    rw [hnew] at hhnz
    have hself : (s.updateConnectionStatus status).statusAudit .service =
        serviceAudit s.hnz.serviceName status := by rw [statusAudit, hhnz]; rfl
    have hne : serviceAudit s.hnz.serviceName status ≠ s.statusAudit .service := fun h =>
      heq (serviceAudit_eq_iff.mp h).symm
    refine h.update .service (by rw [hhnz]; rfl) ?_ fun y hy => ?_
    · rw [hself, if_neg hne, hhnz]
      cases status <;> rfl
    · cases y with
      | service => exact absurd rfl hy
      | path p => rw [statusAudit, path_updateConnectionStatus, hhnz]; rfl

theorem silent_trackFirstInput : s.Silent (s.trackFirstInput p) := by
  have hhnz := hnz_trackFirstInput (s := s) (p := p)
  refine ⟨by rw [hhnz], by rw [hhnz], by rw [hhnz], fun q => ?_⟩
  unfold trackFirstInput
  simp only
  split_ifs <;> rfl

/-- A write to a path that leaves the arbiter's field alone. -/
theorem silent_modifyLink (f : Link → Link) : s.Silent (s.modifyLink p f) := by
  refine ⟨rfl, rfl, rfl, fun q => ?_⟩
  rw [path_modifyLink]
  split_ifs with hq
  · rw [hq]
  · rfl

theorem Told.tryActivateOtherPath (h : s.Told old x) (p : PathId) :
    (s.tryActivateOtherPath p).2.Told old x := by
  unfold System.tryActivateOtherPath
  split_ifs
  · exact h
  · have hset : s.Silent (s.setActivePath p.other) := ⟨rfl, rfl, rfl, fun _ => rfl⟩
    exact ((h.silent hset).setConnectionState _ _).updateConnectionStatus _
  · exact h

theorem Told.leave (h : s.Told old x) (p : PathId) (st : ConnectionState) :
    (s.leave p st).Told old x := by
  have hset := h.setConnectionState p st
  have hclear : (s.setConnectionState p st).Silent (s.setConnectionState p st).clearActivePath :=
    ⟨rfl, rfl, rfl, fun _ => rfl⟩
  have htry := (hset.silent hclear).tryActivateOtherPath p
  unfold System.leave
  simp only
  split_ifs
  · exact htry.updateConnectionStatus _
  · exact htry
  · exact hset

/-- **A request of the arbiter keeps the audits true.** -/
theorem Told.requestConnectionState (h : s.Told old x) (p : PathId) (st : ConnectionState) :
    (s.requestConnectionState p st).Told old x := by
  have htrack : (s.trackFirstInput p).Told old x := h.silent silent_trackFirstInput
  have hset : (s.trackFirstInput p).Silent ((s.trackFirstInput p).setActivePath p) :=
    ⟨rfl, rfl, rfl, fun _ => rfl⟩
  unfold System.requestConnectionState
  simp only
  split_ifs
  · exact ((htrack.silent hset).setConnectionState _ _).updateConnectionStatus _
  · exact htrack.setConnectionState _ _
  · exact htrack.leave p st

theorem Told.runAction (h : s.Told old x) (p : PathId) (now : Instant) (a : Action) :
    (s.runAction p now a).Told old x := by
  unfold System.runAction
  cases requestOf a with
  | none => exact h.silent (silent_modifyLink _)
  | some st => exact (h.requestConnectionState p st).silent (silent_modifyLink _)

theorem Told.protocolStateTransition (h : s.Told old x) (p : PathId) (e : ConnectionEvent)
    (now : Instant) : (s.protocolStateTransition p e now).Told old x := by
  have hfold : ∀ (acts : List Action) (u : System), u.Told old x →
      (acts.foldl (System.runAction p now) u).Told old x := by
    intro acts
    induction acts with
    | nil => exact fun _ hu => hu
    | cons a acts ih => exact fun u hu => ih _ (hu.runAction p now a)
  unfold System.protocolStateTransition
  cases transitionMap (s.path p).protocolState e with
  | none => exact h
  | some entry => exact hfold _ _ (h.silent (silent_modifyLink _))

/-! ## Everything else -/

theorem Silent.trans (h : s.Silent t) (h' : t.Silent u) : s.Silent u where
  audits := h'.audits.trans h.audits
  serviceName := h'.serviceName.trans h.serviceName
  connStatus := h'.connStatus.trans h.connStatus
  connectionState p := (h'.connectionState p).trans (h.connectionState p)

/-- A piece of work changes no state that audits are about, and writes none. -/
theorem WorkStep.silent {a : Work} (h : WorkStep s a t) : s.Silent t := by
  cases h with
  | link => exact silent_modifyLink _
  | interrogate p now =>
    obtain ⟨-, hpath, -, -, -, -, hconn⟩ := same_sendGeneralInterrogation s p now
    have hsaid : (s.sendGeneralInterrogation p now).said = s.said := said_sendGeneralInterrogation
    refine ⟨congrArg Prod.fst hsaid, congrArg Prod.snd hsaid, hconn, fun q => ?_⟩
    rw [path, hpath]
    exact (silent_modifyLink _).connectionState q
  | other h =>
    refine ⟨congrArg Prod.fst h.said, congrArg Prod.snd h.said, h.connStatus, fun q => ?_⟩
    rw [path, h.path, path]

/-- Work is silent. -/
theorem Works.silent {ok : Work → Prop} (h : Works ok s t) : s.Silent t :=
  h.invariant (I := s.Silent) (fun _ hu huv => hu.trans huv.silent) ⟨rfl, rfl, rfl, fun _ => rfl⟩

/-! ## Events -/

/-- **The step lemma**: every event keeps the audits true. -/
theorem Told.step [Platform] (h : s.Told old x) (hst : s.step ev = some t) : t.Told old x := by
  obtain ⟨-, u, now, hpre, hpost⟩ := step_cases hst
  have hu : u.Told old x := h.silent hpre.silent
  refine Told.silent ?_ hpost.silent
  cases s.fires ev with
  | none => exact hu
  | some pe => exact hu.protocolStateTransition pe.1 pe.2 now

end System

end Hnz
