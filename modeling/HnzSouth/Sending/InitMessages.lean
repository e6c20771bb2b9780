import HnzSouth.Arbitration.OneActive
import HnzSouth.Behaviour.Times

/-!
# Sending/InitMessages — date, time and GI, once for each connection

A lost connection asks for new init messages; the next active path sends them once it has been
connected long enough, and the flag is cleared.  So they are sent once between two changes of the
status to `started` (`once_of_run`).  A path that is passive forgets when it connected, whether the
messages were sent or not: if it takes over before the active path has sent them, nobody does.
Short of that they are not forgotten (`initMessages_of_run`).
-/

namespace Hnz

open Machinery

/-- A transition notes the time if it connects the path. -/
theorem Link.lastConnected_transition {l : Link} {e : ConnectionEvent} {st : ProtocolState}
    {acts : List Action} (hmap : transitionMap l.protocolState e = some (st, acts)) (now : Int) :
    (l.transition now e).lastConnected = if st = .connected then now else l.lastConnected := by
  rw [transition, hmap]
  generalize l.protocolState = ps at hmap
  unfold transitionMap at hmap
  split at hmap <;> cases hmap <;> rfl

/-- A path that gives up repeating is not connected. -/
theorem transitionMap_maxSend (ps : ProtocolState) :
    ((transitionMap ps .maxSend).map Prod.fst).getD ps ≠ .connected := by
  cases ps <;> decide

namespace System

variable {s t u : System} {p : PathId} {now : Instant} {ev : Event}

/-! ## The flag -/

@[simp] theorem sendInit_setConnectionState (x : ConnectionState) :
    (s.setConnectionState p x).connection.sendInitNexConnection =
      s.connection.sendInitNexConnection := by
  rw [connection_setConnectionState]
  rfl

@[simp] theorem sendInit_updateConnectionStatus (x : ConnectionStatus) :
    (s.updateConnectionStatus x).connection.sendInitNexConnection =
      if x = .notConnected then true else s.connection.sendInitNexConnection := by
  rw [connection_updateConnectionStatus]

theorem tryActivateOtherPath_fst : (s.tryActivateOtherPath p).1 = (s.successor p).isSome := by
  unfold tryActivateOtherPath successor
  by_cases hr : s.connection.isRunning
  · by_cases hp : s.configured p.other && (s.path p.other).connectionState == .passive
    · simp [hr, hp]
    · simp [hr, hp]
  · simp [hr]

theorem sendInit_tryActivateOtherPath :
    (s.tryActivateOtherPath p).2.connection.sendInitNexConnection =
      s.connection.sendInitNexConnection := by
  unfold tryActivateOtherPath
  split_ifs
  · rfl
  · simp [setActivePath]
  · rfl

/-- The last path that leaves asks for new init messages. -/
theorem sendInit_requestConnectionState (x : ConnectionState) :
    (s.requestConnectionState p x).connection.sendInitNexConnection =
      (s.connection.sendInitNexConnection ||
        (x != .active && s.connection.activePath == some p && (s.successor p).isNone)) := by
  have htrack : (s.trackFirstInput p).connection.sendInitNexConnection =
        s.connection.sendInitNexConnection ∧
      (s.trackFirstInput p).connection.activePath = s.connection.activePath ∧
      (s.trackFirstInput p).successor p = s.successor p := by
    unfold trackFirstInput
    simp only
    split_ifs <;> exact ⟨rfl, rfl, rfl⟩
  unfold requestConnectionState
  generalize s.trackFirstInput p = u at htrack
  obtain ⟨hflag, hactive, hsucc⟩ := htrack
  rw [← hflag, ← hactive, ← hsucc]
  simp only
  split_ifs with hx ha
  · simp [hx, setActivePath]
  · simp [hx]
  · have hclear : ((u.setConnectionState p x).clearActivePath).successor p = u.successor p := by
      unfold successor configured
      rw [path_clearActivePath, connectionState_setConnectionState, if_neg (PathId.other_ne p)]
      simp
    unfold leave
    simp only [activePath_setConnectionState, tryActivateOtherPath_fst, hclear]
    by_cases ha : u.connection.activePath = some p
    · rw [if_pos ha]
      cases hs : u.successor p with
      | none => simp [hx, ha]
      | some q => simp [sendInit_tryActivateOtherPath]
    · simp [ha]

theorem sendInit_protocolStateTransition {e : ConnectionEvent} {st : ProtocolState}
    {acts : List Action} (hmap : transitionMap (s.path p).protocolState e = some (st, acts)) :
    (s.protocolStateTransition p e now).connection.sendInitNexConnection =
      (s.connection.sendInitNexConnection ||
        (st != .connected && s.connection.activePath == some p && (s.successor p).isNone)) := by
  refine view_protocolStateTransition (F := fun u => u.connection.sendInitNexConnection)
    (G := fun u => (u.connection.sendInitNexConnection, u.connection.activePath, u.successor p))
    (fun _ _ => rfl) (fun u f => ?_) now hmap fun u hu => ?_
  · unfold successor configured
    rw [path_modifyLink, if_neg (PathId.other_ne p)]
    rfl
  · simp only [Prod.mk.injEq] at hu
    rw [sendInit_requestConnectionState, hu.1, hu.2.1, hu.2.2]
    cases st <;> rfl

/-! ## What the init messages depend on -/

/-- The flag, the active path, and when each path connected. -/
def duties (s : System) : Bool × Option PathId × (PathId → Int) :=
  (s.connection.sendInitNexConnection, s.connection.activePath, fun p => (s.path p).lastConnected)

theorem duties_ext (hflag : t.connection.sendInitNexConnection = s.connection.sendInitNexConnection)
    (hactive : t.connection.activePath = s.connection.activePath)
    (hlast : ∀ p, (t.path p).lastConnected = (s.path p).lastConnected) : t.duties = s.duties := by
  simp only [duties, hflag, hactive, hlast]

theorem SameTimes.duties (h : s.SameTimes t) : t.duties = s.duties := by
  obtain ⟨_, _, _, _, hconn⟩ := h.connection
  exact duties_ext (by rw [hconn]) (by rw [hconn]) fun p => (h.path p).2.2

theorem SameTimes.successor (h : s.SameTimes t) : t.successor p = s.successor p := by
  obtain ⟨_, _, _, _, hconn⟩ := h.connection
  simp only [System.successor, configured, hconn, (h.path _).1]
  rfl

theorem duties_checkGI (h : s.checkGI now = .ok t) : t.duties = s.duties := by
  obtain ⟨u, hu, rfl⟩ := checkGI_cases h
  have hday : u.checkNewDay.duties = u.duties := by
    obtain h | ⟨time, today, h⟩ := u.checkNewDay_cases
    · rw [h]
    · rw [h]; rfl
  have hschedule : ∀ v : System, (v.checkSchedule now).duties = v.duties := by
    intro v
    obtain h | h | ⟨p, -, h⟩ := v.checkSchedule_cases now
    · rw [h]
    · rw [h]; rfl
    · rw [h]
      exact (sameTimes_sendGeneralInterrogation (s := v)).duties
  rw [hschedule, hday, (sameTimes_checkGITimeout hu).duties]

/-- A transition marks a path that connects, and no other. -/
theorem lastConnected_protocolStateTransition {e : ConnectionEvent} {st : ProtocolState}
    {acts : List Action} (hmap : transitionMap (s.path p).protocolState e = some (st, acts))
    (q : PathId) :
    ((s.protocolStateTransition p e now).path q).lastConnected =
      if q = p ∧ st = .connected then (now.ms : Int) else (s.path q).lastConnected := by
  have hlink := congrArg Link.lastConnected
    (link_protocolStateTransition (s := s) (p := p) (q := q) e now)
  rw [hlink]
  by_cases hq : q = p
  · subst hq
    rw [if_pos rfl, Link.lastConnected_transition hmap]
    simp only [true_and]
  · rw [if_neg hq, if_neg fun h => hq h.1]

/-- **Somebody will send the init messages**: if the flag is set, the active path knows when it
connected. -/
def Pending (s : System) : Prop :=
  s.connection.sendInitNexConnection = true →
    ∀ p, s.connection.activePath = some p → 0 < (s.path p).lastConnected

/-- **Nobody has sent them**: if the flag is set, and a path is active, they were not sent since it
became so. -/
def Unsent (sent : List (PathId × Option PathId)) (s : System) : Prop :=
  s.connection.sendInitNexConnection = true → s.connection.activePath ≠ none → sent = []

variable {sent : List (PathId × Option PathId)}

theorem Pending.congr (h : s.Pending) (heq : t.duties = s.duties) : t.Pending := by
  simp only [duties, Prod.mk.injEq] at heq
  obtain ⟨hflag, hactive, hlast⟩ := heq
  unfold Pending
  rw [hflag, hactive]
  exact fun hs p hp => (h hs p hp).trans_eq (congrFun hlast p).symm

theorem Unsent.congr (h : s.Unsent sent) (heq : t.duties = s.duties) : t.Unsent sent := by
  simp only [duties, Prod.mk.injEq] at heq
  unfold Unsent
  rw [heq.1, heq.2.1]
  exact h

/-! ## Transitions -/

section
variable {e : ConnectionEvent} {st : ProtocolState} {acts : List Action}

/-- While a path is active, the flag is not new. -/
theorem Unsent.transition (h : s.Unsent sent)
    (hmap : transitionMap (s.path p).protocolState e = some (st, acts))
    (hactive : s.connection.activePath ≠ none) :
    (s.protocolStateTransition p e now).Unsent sent := by
  intro hflag hactive'
  rw [sendInit_protocolStateTransition hmap] at hflag
  rw [activePath_protocolStateTransition hmap] at hactive'
  refine h ?_ hactive
  by_contra hnot
  rw [Bool.not_eq_true] at hnot
  simp only [hnot, Bool.false_or, Bool.and_eq_true, bne_iff_ne, beq_iff_eq,
    Option.isNone_iff_eq_none] at hflag
  obtain ⟨⟨hst, hp⟩, hsucc⟩ := hflag
  rw [if_neg hst, if_pos hp] at hactive'
  exact hactive' hsucc

/-- A path that connects knows when; one that takes over has to know it still. -/
theorem Pending.transition (h : s.Pending)
    (hmap : transitionMap (s.path p).protocolState e = some (st, acts))
    (htime : st = .connected → 0 < now.ms)
    (hsuccessor : st ≠ .connected → s.connection.sendInitNexConnection = true →
      s.connection.activePath = some p → ∀ q, s.successor p = some q →
        0 < (s.path q).lastConnected) :
    (s.protocolStateTransition p e now).Pending := by
  intro hflag q hq
  rw [sendInit_protocolStateTransition hmap] at hflag
  rw [activePath_protocolStateTransition hmap] at hq
  rw [lastConnected_protocolStateTransition hmap]
  by_cases hst : st = .connected
  · rw [if_pos hst] at hq
    have hold : s.connection.sendInitNexConnection = true := by simpa [hst] using hflag
    by_cases hqp : q = p
    · rw [if_pos ⟨hqp, hst⟩]
      exact Int.natCast_pos.mpr (htime hst)
    · rw [if_neg fun hand => hqp hand.1]
      cases hactive : s.connection.activePath with
      | none =>
        rw [hactive, Option.none_or, Option.some_inj] at hq
        exact absurd hq.symm hqp
      | some r =>
        rw [hactive, Option.some_or] at hq
        exact h hold q (hactive.trans hq)
  · rw [if_neg hst] at hq
    rw [if_neg fun hand => hst hand.2]
    by_cases hactive : s.connection.activePath = some p
    · rw [if_pos hactive] at hq
      have hold : s.connection.sendInitNexConnection = true := by simpa [hq] using hflag
      exact hsuccessor hst hold hactive q hq
    · rw [if_neg hactive] at hq
      have hold : s.connection.sendInitNexConnection = true := by simpa [hactive] using hflag
      exact h hold q hq

end

/-! ## The timer -/

variable [Platform]

/-- `m_check_timer` comes to `sendInitMessages`. -/
def SendsInit (p : PathId) (now : Instant) (s : System) : Prop :=
  let u := s.checkRepeat p now
  ((u.path p).protocolState = .connected ∧ 0 < (u.path p).lastConnected ∧
      now.ms - (u.path p).lastConnected ≥ u.connection.repeatTimeout) ∧
    (u.path p).connectionState = .active ∧ u.connection.sendInitNexConnection = true

instance : Decidable (s.SendsInit p now) := inferInstanceAs (Decidable (_ ∧ _))

omit [Platform] in
/-- The first part of `m_check_timer` leaves a path connected only if it fires nothing. -/
theorem sameTimes_checkRepeat
    (h : ((s.checkRepeat p now).path p).protocolState = .connected) :
    s.SameTimes (s.checkRepeat p now) := by
  unfold checkRepeat at h ⊢
  split at h
  · exact .refl
  · next hmax =>
    have hlink := congrArg Link.protocolState
      (link_protocolStateTransition (s := s) (p := p) (q := p) .maxSend now)
    rw [if_pos rfl, Link.protocolState_transition] at hlink
    exact absurd (hlink.symm.trans h) (transitionMap_maxSend _)
  · exact .modifyLink rfl rfl

omit [Platform] in
/-- Only the active path sends them. -/
theorem SendsInit.active (h : s.SendsInit p now) :
    s.connection.sendInitNexConnection = true ∧ (s.path p).connectionState = .active ∧
      (s.checkRepeat p now).connection.activePath = s.connection.activePath := by
  obtain ⟨⟨hconn, -⟩, hactive, hflag⟩ := h
  have hsame := sameTimes_checkRepeat hconn
  have hduties := hsame.duties
  simp only [duties, Prod.mk.injEq] at hduties
  exact ⟨hduties.1.symm.trans hflag, (hsame.path p).1.symm.trans hactive, hduties.2.1⟩

/-- Once they are sent, the flag is cleared. -/
theorem sendInit_checkTimer (h : s.SendsInit p now) :
    (s.checkTimer p now).connection.sendInitNexConnection = false := by
  unfold checkTimer checkInit
  simp only
  rw [if_pos h.1, if_pos h.2]

/-- Otherwise a path may forget when it connected, without having sent anything. -/
theorem checkTimer_of_not (h : ¬s.SendsInit p now) :
    s.checkTimer p now = s.checkRepeat p now ∨
      ((s.checkRepeat p now).path p).protocolState = .connected ∧
        ¬(((s.checkRepeat p now).path p).connectionState = .active ∧
          (s.checkRepeat p now).connection.sendInitNexConnection = true) ∧
        s.checkTimer p now =
          (s.checkRepeat p now).modifyLink p fun l => { l with lastConnected := 0 } := by
  unfold checkTimer checkInit
  simp only
  split_ifs with hold hsend
  · exact absurd ⟨hold, hsend⟩ h
  · exact Or.inr ⟨hold.1, hsend, rfl⟩
  · exact Or.inl rfl

/-- Somebody still will, after the timer. -/
theorem Pending.checkInit (h : (s.checkRepeat p now).Pending)
    (hone : (s.path p).connectionState = .active ↔ s.connection.activePath = some p) :
    (s.checkTimer p now).Pending := by
  intro hflag
  by_cases hsend : s.SendsInit p now
  · rw [sendInit_checkTimer hsend] at hflag
    cases hflag
  obtain hsame | ⟨hconn, hpassive, hforget⟩ := checkTimer_of_not hsend
  · rw [hsame] at hflag ⊢
    exact h hflag
  · rw [hforget] at hflag ⊢
    intro q hq
    have hsame := sameTimes_checkRepeat hconn
    have hqp : q ≠ p := by
      rintro rfl
      obtain ⟨_, _, _, _, hconnection⟩ := hsame.connection
      refine hpassive ⟨?_, hflag⟩
      rw [(hsame.path q).1, hone, ← hq]
      exact (congrArg HNZConnection.activePath hconnection).symm
    rw [path_modifyLink, if_neg hqp]
    exact h hflag q hq

/-! ## Events -/

/-- The init messages an event sends: on which path, and which one is active then. -/
def initSent (s : System) : Event → List (PathId × Option PathId)
  | .checkTimer p now =>
    if s.SendsInit p now then [(p, (s.checkRepeat p now).connection.activePath)] else []
  | _ => []

/-- **The duty is not lost**: a path does not connect in the first millisecond of all, and if the
active path leaves before it has sent the init messages, the one that takes over knows when it
connected. -/
def remembers (s : System) (ev : Event) : Bool :=
  match s.fires ev with
  | none => true
  | some (p, e) =>
    match transitionMap (s.path p).protocolState e with
    | none => true
    | some (st, _) =>
      if st = .connected then ev.time.all fun now => decide (0 < now.ms)
      else !(s.connection.sendInitNexConnection && s.connection.activePath == some p) ||
        (s.successor p).all fun q => decide (0 < (s.path q).lastConnected)

theorem Pending.fire (h : s.Pending) (hgood : s.remembers ev = true) (hsame : s.SameTimes u)
    (htime : s.fires ev ≠ none → ev.time = some now) : (u.fire now (s.fires ev)).Pending := by
  have hu := h.congr hsame.duties
  unfold remembers at hgood
  cases hf : s.fires ev with
  | none => exact hu
  | some pe =>
    obtain ⟨p, e⟩ := pe
    simp only [hf] at hgood
    simp only [System.fire]
    rw [← (hsame.path p).2.1] at hgood
    cases hmap : transitionMap (u.path p).protocolState e with
    | none =>
      rw [protocolStateTransition, hmap]
      exact hu
    | some entry =>
      obtain ⟨st, acts⟩ := entry
      have hduties := hsame.duties
      simp only [duties, Prod.mk.injEq] at hduties
      obtain ⟨hflag, hactive, hlast⟩ := hduties
      simp only [hmap, htime (by rw [hf]; exact Option.some_ne_none _), Option.all_some] at hgood
      refine hu.transition hmap (fun hst => ?_) fun hst hold hp q hq => ?_
      · rw [if_pos hst] at hgood
        exact of_decide_eq_true hgood
      · rw [if_neg hst, ← hflag, ← hactive, hold, hp, ← hsame.successor, hq] at hgood
        rw [congrFun hlast q]
        simpa using hgood

theorem Unsent.fire (h : s.Unsent sent) (hactive : s.connection.activePath ≠ none)
    (hsame : s.SameTimes u) : (u.fire now (s.fires ev)).Unsent sent := by
  have hu := h.congr hsame.duties
  cases hf : s.fires ev with
  | none => exact hu
  | some pe =>
    obtain ⟨p, e⟩ := pe
    simp only [System.fire]
    cases hmap : transitionMap (u.path p).protocolState e with
    | none =>
      rw [protocolStateTransition, hmap]
      exact hu
    | some entry =>
      have hduties := hsame.duties
      simp only [duties, Prod.mk.injEq] at hduties
      exact hu.transition hmap (by rw [hduties.2.1]; exact hactive)

/-- The first part of `m_check_timer` is timeless work around what it fires. -/
theorem around_times_checkRepeat : s.AroundTimes (.checkTimer p now) (s.checkRepeat p now) := by
  unfold checkRepeat
  cases hout : (s.path p).timeout (s.pathConf p) s.connection.repeatTimeout s.connection.current with
  | none => exact .of_same (by simp [fires, hout]) .refl
  | maxSend =>
    refine ⟨s, now, .refl, fun _ => rfl, ?_⟩
    simp only [fires, hout, if_true]
    exact .refl
  | resend m => exact .of_same (by simp [fires, hout]) (.modifyLink rfl rfl)

/-- **An event** leaves the duty to somebody. -/
theorem Pending.step (h : s.Pending) (hgood : s.remembers ev = true) (hstep : s.step ev = some t)
    (hone : ∀ p, ev.target = some p →
      ((s.path p).connectionState = .active ↔ s.connection.activePath = some p)) : t.Pending := by
  obtain ⟨-, hrun⟩ := run_of_step hstep
  have hfire : ∀ {t}, s.AroundTimes ev t → t.Pending := fun ⟨u, now, hpre, htime, hpost⟩ =>
    (h.fire hgood hpre htime).congr hpost.duties
  cases ev with
  | startSchedule now => cases hrun; exact h
  | currentTime now => cases hrun; exact h
  | checkTimer p now =>
    cases hrun
    exact (hfire around_times_checkRepeat).checkInit (hone p rfl)
  | checkGI now => exact h.congr (duties_checkGI hrun)
  | _ => exact hfire (around_times hstep trivial)

/-- While a path is active, an event that leaves the flag set has sent no init messages. -/
theorem Unsent.step (h : s.Unsent sent) (hactive : s.connection.activePath ≠ none)
    (hstep : s.step ev = some t) : t.Unsent sent := by
  obtain ⟨-, hrun⟩ := run_of_step hstep
  have hfire : ∀ {t}, s.AroundTimes ev t → t.Unsent sent := fun ⟨u, now, hpre, _, hpost⟩ =>
    (h.fire hactive hpre).congr hpost.duties
  cases ev with
  | startSchedule now => cases hrun; exact h
  | currentTime now => cases hrun; exact h
  | checkTimer p now =>
    cases hrun
    have hu := hfire around_times_checkRepeat
    by_cases hsend : s.SendsInit p now
    · intro hflag
      rw [sendInit_checkTimer hsend] at hflag
      cases hflag
    · obtain hsame | ⟨-, -, hforget⟩ := checkTimer_of_not hsend
      · rw [hsame]; exact hu
      · rw [hforget]; exact hu
  | checkGI now => exact h.congr (duties_checkGI hrun)
  | _ => exact hfire (around_times hstep trivial)

/-- The event that sends them clears the flag. -/
theorem initSent_eq_nil (hstep : s.step ev = some t)
    (hflag : t.connection.sendInitNexConnection = true) : s.initSent ev = [] := by
  obtain ⟨-, hrun⟩ := run_of_step hstep
  cases ev with
  | checkTimer p now =>
    cases hrun
    refine if_neg fun hsend => ?_
    rw [sendInit_checkTimer hsend] at hflag
    cases hflag
  | _ => rfl

omit [Platform] in
/-- **They are sent on the active path**, by a flag that is set. -/
theorem initSent_cases (hone : ∀ p, ev.target = some p →
      ((s.path p).connectionState = .active ↔ s.connection.activePath = some p)) :
    s.initSent ev = [] ∨ ∃ p, s.initSent ev = [(p, some p)] ∧
      s.connection.sendInitNexConnection = true ∧ s.connection.activePath = some p := by
  cases ev with
  | checkTimer p now =>
    by_cases hsend : s.SendsInit p now
    · obtain ⟨hflag, hstate, hsame⟩ := hsend.active
      have hactive := (hone p rfl).mp hstate
      exact Or.inr ⟨p, (if_pos hsend).trans (by rw [hsame, hactive]), hflag, hactive⟩
    · exact Or.inl (if_neg hsend)
  | _ => exact Or.inl rfl

end System

/-! ## The plugin -/

namespace Plugin

variable {pl pl' : Plugin} {sent : List (PathId × Option PathId)} {call : Call}

theorem durable_pending : Durable System.Pending where
  hnz _ h := h
  schedule _ h := h
  create hnz _ now _ p hp := by
    rw [(System.create_fresh hnz now).1.activePath] at hp
    cases hp

theorem durable_unsent : Durable (System.Unsent sent) where
  hnz _ h := h
  schedule _ h := h
  create hnz _ now _ hp := absurd (System.create_fresh hnz now).1.activePath hp

variable [Platform]

/-- The call changes the status to `started`. -/
def starts (pl : Plugin) (call : Call) : Bool :=
  pl.hnz.connStatus != .started &&
    (pl.step call).any fun pl' => pl'.hnz.connStatus == .started

/-- **The init messages sent since the status became `started`**, after a call. -/
def sending (pl : Plugin) (call : Call) (sent : List (PathId × Option PathId)) :
    List (PathId × Option PathId) :=
  (if pl.starts call then [] else sent) ++
    match pl.connection, call with
    | some c, .event ev => System.initSent ⟨pl.hnz, c⟩ ev
    | _, _ => []

/-- The call, if it is an event, does not lose the duty. -/
def remembers (pl : Plugin) (call : Call) : Bool :=
  match pl.connection, call with
  | some c, .event ev => System.remembers ⟨pl.hnz, c⟩ ev
  | _, _ => true

/-- **The init messages were sent once at most**, and on the active path. -/
structure Once (sent : List (PathId × Option PathId)) (pl : Plugin) : Prop where
  arbitrated : Arbitrated (fun _ => True) pl
  length_le : sent.length ≤ 1
  active : ∀ x ∈ sent, x.2 = some x.1
  unsent : pl.InConnection (System.Unsent sent)

/-- With the notes forgotten when the status becomes `started`. -/
theorem Once.started (hs : pl.Once sent) (call : Call) :
    (if pl.starts call then [] else sent).length ≤ 1 ∧
      ∀ x ∈ (if pl.starts call then [] else sent), x.2 = some x.1 := by
  split_ifs
  · exact ⟨Nat.zero_le 1, nofun⟩
  · exact ⟨hs.length_le, hs.active⟩

theorem sending_event {c : HNZConnection} {ev : Event} (hc : pl.connection = some c) :
    pl.sending (.event ev) sent =
      (if pl.starts (.event ev) then [] else sent) ++ System.initSent ⟨pl.hnz, c⟩ ev := by
  simp only [sending, hc]

theorem sending_of_not_event (h : ¬∃ c ev, pl.connection = some c ∧ call = .event ev) :
    pl.sending call sent = if pl.starts call then [] else sent := by
  have hnone : (match pl.connection, call with
      | some c, .event ev => System.initSent ⟨pl.hnz, c⟩ ev
      | _, _ => []) = [] := by
    split
    · next c ev hc => exact absurd ⟨c, ev, hc, rfl⟩ h
    · rfl
  exact (congrArg (_ ++ ·) hnone).trans (List.append_nil _)

/-- When the first path becomes active, the status changes. -/
theorem starts_of_active {c : HNZConnection} {ev : Event} {t : System} (hs : pl.Once sent)
    (hc : pl.connection = some c) (ht : System.step ⟨pl.hnz, c⟩ ev = some t)
    (harb : Arbitrated (fun _ => True)
      { pl with hnz := t.hnz, connection := some t.connection })
    (hnone : c.activePath = none) (hactive : t.connection.activePath ≠ none) :
    pl.starts (.event ev) = true := by
  have hbefore : pl.hnz.connStatus ≠ .started := fun h =>
    absurd hnone ((hs.arbitrated.agree hc).1.mp h)
  have hafter : t.hnz.connStatus = .started := (harb.agree rfl).1.mpr hactive
  simp only [starts, step_event ht hc, Option.any_some, hafter, Bool.and_eq_true, bne_iff_ne,
    beq_self_eq_true, and_true]
  exact hbefore

/-- **The step lemma.** -/
theorem Once.step (hs : pl.Once sent) (h : pl.step call = some pl') :
    pl'.Once (pl.sending call sent) := by
  have harb := hs.arbitrated.step trivial h fun _ _ _ _ => trivial
  obtain ⟨hlength, hactive⟩ := hs.started call
  by_cases hev : ∃ c ev, pl.connection = some c ∧ call = .event ev
  · obtain ⟨c, ev, hc, rfl⟩ := hev
    obtain ⟨d, t, hd, ht, rfl⟩ := step_cases h
    obtain rfl : c = d := Option.some.inj (hc.symm.trans hd)
    rw [sending_event hc]
    have hunsent : System.Unsent ((if pl.starts (.event ev) then [] else sent) ++
        System.initSent ⟨pl.hnz, c⟩ ev) t := by
      intro hflag hp
      rw [System.initSent_eq_nil ht hflag, List.append_nil]
      cases hnone : c.activePath with
      | none => rw [if_pos (starts_of_active hs hc ht harb hnone hp)]
      | some q =>
        have hsent := (hs.unsent c hc).step (by rw [hnone]; exact Option.some_ne_none q) ht hflag hp
        rw [hsent, ite_self]
    have hconnection : InConnection _ { pl with hnz := t.hnz, connection := some t.connection } :=
      fun d hd => by
        obtain rfl : t.connection = d := Option.some.inj hd
        exact hunsent
    obtain hnil | ⟨p, hone, hflag, hp⟩ := System.initSent_cases (s := ⟨pl.hnz, c⟩)
      fun p hp => hs.arbitrated.active_iff hc ht hp
    · rw [hnil, List.append_nil] at hconnection ⊢
      exact ⟨harb, hlength, hactive, hconnection⟩
    · have hsent : sent = [] := hs.unsent c hc hflag (by rw [hp]; exact Option.some_ne_none p)
      rw [hone, hsent, ite_self, List.nil_append] at hconnection ⊢
      exact ⟨harb, le_rfl, by simp, hconnection⟩
  · rw [sending_of_not_event hev]
    refine ⟨harb, hlength, hactive, ?_⟩
    have hunsent : pl'.InConnection (System.Unsent sent) :=
      durable_unsent.step h hs.unsent fun c ev _ hc heq => absurd ⟨c, ev, hc, heq⟩ hev
    intro d hd hflag hp
    split_ifs
    · rfl
    · exact hunsent d hd hflag hp

omit [Platform] in
theorem once_init : Once [] {} :=
  ⟨arbitrated_init, Nat.zero_le 1, List.forall_mem_nil _, fun c hc => by cases hc⟩

/-- In every run. -/
theorem once_of_run {calls : List Call} (h : Run (Observed sending Step) ({}, []) calls (pl, sent)) :
    pl.Once sent :=
  h.invariant (I := fun x => x.1.Once x.2)
    (fun {x call y} hx hxy => by rw [hxy.2]; exact hx.step hxy.1) once_init

/-- The duty passes through a call. -/
theorem pending_step (harb : Arbitrated (fun _ => True) pl) (hs : pl.InConnection System.Pending)
    (hgood : pl.remembers call = true) (h : pl.step call = some pl') :
    pl'.InConnection System.Pending := by
  refine durable_pending.step h hs fun c ev t hc heq ht => ?_
  subst heq
  simp only [remembers, hc] at hgood
  exact (hs c hc).step hgood ht fun p hp => harb.active_iff hc ht hp

/-- **The init messages**, sent once at most since the status last became `started`, and on the
path that was active; and while they are to be sent, the active path knows when it connected, and
will send them. -/
theorem initMessages_of_run {calls : List Call}
    (h : Run (Under (fun x call => remembers x.1 call = true) (Observed sending Step))
      ({}, []) calls (pl, sent)) :
    (sent.length ≤ 1 ∧ ∀ x ∈ sent, x.2 = some x.1) ∧
      ∀ c p, pl.connection = some c → c.sendInitNexConnection = true → c.activePath = some p →
        0 < (c.path p).lastConnected := by
  obtain ⟨hs, hpending⟩ : pl.Once sent ∧ pl.InConnection System.Pending :=
    h.invariant (I := fun x => x.1.Once x.2 ∧ x.1.InConnection System.Pending)
      (fun {x call y} hx hxy => by
        obtain ⟨hgood, hstep, hnotes⟩ := hxy
        rw [hnotes]
        exact ⟨hx.1.step hstep, pending_step hx.1.arbitrated hx.2 hgood hstep⟩)
      ⟨once_init, fun c hc => by cases hc⟩
  exact ⟨⟨hs.length_le, hs.active⟩, fun c p hc hflag hp => hpending c hc hflag p hp⟩

end Plugin

/-! ## A hand-over -/

namespace Plugin

open Sample

/-- A path gets its TCP connection, a SARM and a UA, all at the same time. -/
def connecting (p : PathId) (now : Instant) : List Call :=
  [.event (.connect p now), .event (.frame p [0x05, 0x0F, 0xC0, 0xDE] now),
    .event (.frame p [0x07, 0x63, 0xC0, 0xDE] now)]

/-- The thread looks at both paths, the second time a millisecond later. -/
def watching (nowA nowB : Instant) : List Call :=
  [.event (.currentTime nowA), .event (.checkTimer .A nowA), .event (.checkCommandTimer .A),
    .event (.checkTimer .B nowB), .event (.checkCommandTimer .B)]

/-- Both paths connect ten seconds after the epoch. -/
def connectingBoth : List Call :=
  [.setJsonConfig .sample "hnz" 0, .start 0] ++ connecting .A 10000000000 ++
    connecting .B 10000000000

set_option maxRecDepth 8000 in
/-- Three seconds later the active one sends the init messages. -/
theorem initMessages_connectingBoth :
    ∃ pl sent, Run (Under (fun x call => remembers x.1 call = true) (Observed sending Step))
        ({}, []) (connectingBoth ++ watching 13000000000 13001000000) (pl, sent) ∧
      sent = [(.A, some .A)] ∧ sent.length ≤ 1 := by
  obtain ⟨⟨pl, sent⟩, hx, hsent⟩ := (Option.any_eq_true _ _).mp (show
    (exec (fun x call => if remembers x.1 call = true then
      (step x.1 call).map fun pl => (pl, sending x.1 call x.2) else none) ({}, [])
      (connectingBoth ++ watching 13000000000 13001000000)).any
      (fun x => x.2 == [(.A, some .A)]) = true by decide +kernel)
  have hrun : Run (Under (fun x call => remembers x.1 call = true) (Observed sending Step))
      ({}, []) (connectingBoth ++ watching 13000000000 13001000000) (pl, sent) := by
    rw [observed_det]
    exact run_under_iff.mpr hx
  exact ⟨pl, sent, hrun, beq_iff_eq.mp hsent, (initMessages_of_run hrun).1.1⟩

/-- The other one forgets when it connected, one millisecond before the active one would send the
init messages; then the active one loses its TCP connection. -/
def handover : List Call :=
  connectingBoth ++ watching 12999000000 13000000000 ++ [.event (.disconnect .A 13001000000)]

set_option maxRecDepth 8000 in
/-- **The init messages are forgotten**: the second path is active, they have to be sent, and nobody
will. -/
theorem not_pending_handover :
    ∃ pl c sent, Run (Observed sending Step) ({}, []) handover (pl, sent) ∧
      pl.connection = some c ∧ sent = [] ∧ c.sendInitNexConnection = true ∧
      c.activePath = some .B ∧ (c.path .B).lastConnected = 0 := by
  obtain ⟨⟨pl, sent⟩, hx, hc⟩ := (Option.any_eq_true _ _).mp (show
    (exec (fun x call => (step x.1 call).map fun pl => (pl, sending x.1 call x.2)) ({}, [])
      handover).any (fun x => x.1.connection.any fun c => x.2 == [] && c.sendInitNexConnection &&
        c.activePath == some .B && (c.path .B).lastConnected == 0) = true by decide +kernel)
  obtain ⟨c, hc, h⟩ := (Option.any_eq_true _ _).mp hc
  simp only [Bool.and_eq_true, beq_iff_eq] at h
  obtain ⟨⟨⟨hsent, hflag⟩, hactive⟩, hlast⟩ := h
  refine ⟨pl, c, sent, ?_, hc, hsent, hflag, hactive, hlast⟩
  rw [observed_det]
  exact run_det_iff.mpr hx

end Plugin

end Hnz
