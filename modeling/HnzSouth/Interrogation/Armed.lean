import HnzSouth.Behaviour.Events
import HnzSouth.Behaviour.Life

/-!
# Interrogation/Armed — the timer of the general interrogation

The plugin's GI is an abstract one (`Interrogation/Gi`): work does to it what a `Gi.Step` does.  The
other things that happen to it all forget its count — the active path leaves, the connection is
stopped or replaced — and they disarm it exactly when it runs.
-/

namespace Hnz

open Machinery

/-! ## Work and transitions -/

namespace System

variable {s t : System} {p : PathId} {now : Instant} {ok : Work → Prop}

theorem WorkStep.gi {w : Work} (h : WorkStep s w t) (hs : s.gi.Armed) : t.gi.Armed := by
  cases h with
  | link => exact hs
  | interrogate => exact gi_sendGeneralInterrogation.armed hs
  | other _ hg => exact hg.armed hs

/-- Work keeps the timer armed. -/
theorem Works.armed (h : Works ok s t) (hs : s.gi.Armed) : t.gi.Armed :=
  h.invariant (I := fun u => u.gi.Armed) (fun _ hu huv => huv.gi hu) hs

/-- **A transition forgets the count exactly when the active path leaves.** -/
theorem gi_protocolStateTransition {e : ConnectionEvent} {st : ProtocolState} {acts : List Action}
    (hmap : transitionMap (s.path p).protocolState e = some (st, acts)) :
    (s.protocolStateTransition p e now).gi =
      if st ≠ .connected ∧ s.connection.activePath = some p then s.gi.lose else s.gi := by
  refine view_protocolStateTransition (F := gi) (G := fun u => (u.gi, u.connection.activePath))
    (fun _ _ => rfl) (fun _ _ => rfl) now hmap fun u hu => ?_
  obtain ⟨hgi, hactive⟩ := Prod.mk.inj hu
  have h := sameGi_requestConnectionState (s := u) (p := p) (requestFor st)
  have hreq : requestFor st ≠ .active ↔ st ≠ .connected := by cases st <;> simp [requestFor]
  rw [← hgi, ← hactive, gi, h.giStatus, h.giInQueue, (gi_requestConnectionState _).1]
  simp only [hreq]
  split_ifs <;> rfl

/-! ## Events -/

variable [Platform]

/-- The event makes the active path leave. -/
def losesActive (s : System) (ev : Event) : Bool :=
  match s.fires ev with
  | none => false
  | some (p, e) =>
    match transitionMap (s.path p).protocolState e with
    | none => false
    | some (st, _) => st != .connected && s.connection.activePath == some p

/-- **An event keeps the timer armed**, unless the active path leaves while it counts. -/
theorem armed_step {ev : Event} (h : s.step ev = some t) (hs : s.gi.Armed)
    (hkeep : s.losesActive ev = false ∨ s.connection.giRepeat = 0) : t.gi.Armed := by
  obtain ⟨-, u, now, hpre, hpost⟩ := step_cases h
  obtain ⟨hgi, hactive, hproto⟩ := hpre.onLink
  refine hpost.armed ?_
  rw [← hgi] at hs
  cases hf : s.fires ev with
  | none => exact hs
  | some pe =>
    obtain ⟨p, e⟩ := pe
    cases hmap : transitionMap (u.path p).protocolState e with
    | none => rw [fire, protocolStateTransition, hmap]; exact hs
    | some entry =>
      obtain ⟨st, acts⟩ := entry
      rw [fire, gi_protocolStateTransition hmap]
      split_ifs with hlose
      · refine (Gi.armed_lose_iff hs).mpr ?_
        rw [hgi]
        refine hkeep.resolve_left fun hkeep => ?_
        rw [hproto] at hmap
        rw [hactive] at hlose
        simp [losesActive, hf, hmap, hlose] at hkeep
      · exact hs

end System

/-! ## The plugin -/

namespace Plugin

variable {pl pl' : Plugin} {now : Instant}

/-- The GI of a plugin; without a connection nothing counts. -/
def gi (pl : Plugin) : Gi :=
  ⟨pl.hnz.giStatus, pl.hnz.giInQueue, match pl.connection with | some c => c.giRepeat | none => 0⟩

theorem gi_of_connection {c : HNZConnection} (hc : pl.connection = some c) :
    pl.gi = System.gi ⟨pl.hnz, c⟩ := by
  rw [gi, hc]; rfl

theorem gi_stop (b : Bool) : (pl.stop b now).gi = pl.gi.lose := by
  unfold stop
  cases hc : pl.connection with
  | none => rfl
  | some c =>
    have h := System.sameGi_stop ⟨pl.hnz, c⟩ now
    simp only [gi, Gi.lose, h.giStatus, h.giInQueue]

theorem gi_start {b : Bool} (h : pl.start b now = .ok pl') : pl'.gi = pl.gi := by
  obtain ⟨h₁, h₂⟩ | ⟨c, t, hc, -, hgi, h₁, h₂⟩ := start_cases h
  · rw [gi, h₁, h₂, gi]
  · rw [gi_of_connection h₂, gi_of_connection hc, ← hgi, h₁]

/-- A new connection forgets the count of the one it replaces. -/
theorem gi_setJsonConfig {conf : HNZConf} {name : String} {b : Bool}
    (h : pl.setJsonConfig conf name now = .ok (b, pl')) :
    pl'.gi = if pl.isRunning || conf.isComplete then pl.gi.lose else pl.gi := by
  obtain ⟨q, hq, hcases⟩ := setJsonConfig_cases h
  have hgi : q.gi = if pl.isRunning then pl.gi.lose else pl.gi := by
    rw [hq]
    split_ifs
    · exact gi_stop false
    · rfl
  obtain ⟨hconf, -, h₁, h₂, h₃, -⟩ | ⟨hconf, hnz, r, ⟨-, h₁, h₂, -⟩, h₃, h₄, hr⟩ := hcases
  · have : pl'.gi = q.gi := by rw [gi, h₁, h₂, h₃, gi]
    rw [this, hgi, hconf, Bool.or_false]
  · have hfresh := (System.create_fresh hnz now).1
    have hdestroy : ∀ h : HNZ, System.SameGi h (destroyConnection q.connection now h) := by
      intro h
      unfold destroyConnection
      split
      · exact ⟨rfl, rfl, rfl⟩
      · next c _ =>
        split_ifs
        · exact System.sameGi_stop ⟨h, c⟩ _
        · exact ⟨rfl, rfl, rfl⟩
    have hr' : r.gi = q.gi.lose := by
      have h := hdestroy (System.create hnz now).hnz
      rw [gi, h₃, h₄, h.giStatus, h.giInQueue, hfresh.status.giStatus, hfresh.status.giInQueue,
        h₁, h₂]
      exact congrArg (Gi.mk _ _) hfresh.giRepeat
    have hlose : q.gi.lose = pl.gi.lose := by rw [hgi]; split_ifs <;> rfl
    rw [hconf, Bool.or_true, if_pos rfl, ← hlose, ← hr']
    obtain rfl | hr := hr
    · rfl
    · exact gi_start hr

/-! ## Runs -/

theorem armed_init : (gi {}).Armed := ⟨by decide, nofun⟩

variable [Platform]

/-- The call does not make the plugin forget a running count: no active path leaves, no connection
is stopped or replaced, while it is positive. -/
def keepsCount (pl : Plugin) (call : Call) : Bool :=
  pl.gi.repeats == 0 ||
    match pl.connection, call with
    | some c, .event ev => !System.losesActive ⟨pl.hnz, c⟩ ev
    | none, .event _ => true
    | _, .setJsonConfig conf _ _ => !(pl.isRunning || conf.isComplete)
    | _, .start _ => true
    | _, .stop _ => false

/-- The step lemma. -/
theorem armed_step {call : Call} (h : Step pl call pl') (hkeep : pl.keepsCount call = true)
    (hs : pl.gi.Armed) : pl'.gi.Armed := by
  have hlose : pl.gi.repeats = 0 → pl.gi.lose.Armed := (Gi.armed_lose_iff hs).mpr
  have hcases := step_cases h
  cases call with
  | event ev =>
    obtain ⟨c, t, hc, ht, rfl⟩ := hcases
    have hgi := gi_of_connection hc
    refine System.armed_step ht (hgi ▸ hs) ?_
    simp only [keepsCount, hc, Bool.or_eq_true, beq_iff_eq, Bool.not_eq_true'] at hkeep
    exact hkeep.symm.imp_right fun h0 => by rw [hgi] at h0; exact h0
  | setJsonConfig conf name now =>
    obtain ⟨b, hset⟩ := hcases
    rw [gi_setJsonConfig hset]
    split_ifs with hend
    · refine hlose ?_
      cases hc : pl.connection <;> simpa [keepsCount, hc, hend] using hkeep
    · exact hs
  | start now =>
    rw [gi_start hcases]
    exact hs
  | stop now =>
    rw [hcases, gi_stop]
    refine hlose ?_
    cases hc : pl.connection <;> simpa [keepsCount, hc] using hkeep

/-- **The timer is armed exactly while a GI runs**, and while one is queued, in every state of a run
that forgets no running count. -/
theorem gi_armed {calls : List Call}
    (h : Run (Under (fun pl call => pl.keepsCount call = true) Step) {} calls pl) :
    (pl.gi.status = .started ∨ pl.gi.status = .inProgress ↔ 0 < pl.gi.repeats) ∧
      (pl.gi.queued = true → 0 < pl.gi.repeats) :=
  Gi.armed_iff.mp
    (h.invariant (I := fun pl => pl.gi.Armed) (fun hs hst => armed_step hst.2 hst.1 hs) armed_init)

omit [Platform]

/-- A GI starts on the only connected path, another one is queued, and the path loses its TCP
connection. -/
def losingGi : List Call :=
  [.setJsonConfig .sample "hnz" 0, .start 0,
    .event (.connect .A 0), .event (.protocol .A .receivedSarm 0),
    .event (.protocol .A .receivedUa 0),
    .event (.operation "north_status" [("status", "init_socket_finished")] 0),
    .event (.operation "north_status" [("status", "init_socket_finished")] 0),
    .event (.disconnect .A 0)]

/-- A TSCG with the last TS. -/
def lastTscg : List UInt8 := [0x16, 0x33, 0x00, 0x00, 0x00, 0x00]

set_option maxRecDepth 8000 in
/-- Until the loss the timer counts. -/
theorem gi_armed_losingGi : letI : Platform := .sample
    ∃ pl, exec step {} (losingGi.take 7) = some pl ∧ pl.gi = ⟨.started, true, 1⟩ ∧
      (pl.gi.status = .started ∨ pl.gi.status = .inProgress ↔ 0 < pl.gi.repeats) ∧
      (pl.gi.queued = true → 0 < pl.gi.repeats) := by
  let : Platform := .sample
  refine ⟨_, rfl, rfl, ?_⟩
  have hrun : Run (Under (fun pl call => keepsCount pl call = true) Step) {} (losingGi.take 7) _ :=
    run_under_iff.mpr rfl
  exact gi_armed hrun

set_option maxRecDepth 8000 in
/-- After it the GI is still running and another one still queued, and nothing counts. -/
theorem not_armed_losingGi : letI : Platform := .sample
    ∃ pl, exec step {} losingGi = some pl ∧ pl.gi = ⟨.started, true, 0⟩ ∧
      ¬(pl.gi.status = .started ∨ pl.gi.status = .inProgress ↔ 0 < pl.gi.repeats) ∧
      ¬(pl.gi.queued = true → 0 < pl.gi.repeats) := by
  let : Platform := .sample
  refine ⟨_, rfl, rfl, ?_, ?_⟩
  · exact fun h => absurd (h.mp (Or.inl rfl)) (lt_irrefl 0)
  · exact fun h => absurd (h rfl) (lt_irrefl 0)

end Plugin

end Hnz
