import HnzSouth.Arbitration.Steps
import HnzSouth.Behaviour.Life

/-!
# Arbitration/Plugin — the arbiter over the life of a plugin

Configurations come and go, and each builds a new connection with a new arbiter.  `Arbitrated P pl`
says that the connection of `pl`, if it runs, represents an arbiter with the property `P`, and that
the plugin is not connected otherwise.  A property of arbiters that the reactions keep is kept along
every run of the plugin (`arbitrated`).
-/

namespace Hnz

open Machinery

namespace System

variable {s t : System} {ok : Work → Prop}

/-- A fresh running connection represents two paths at rest. -/
theorem Fresh.represents {hnz hnz' : HNZ} (h : Fresh hnz s) (hr : s.connection.isRunning = true)
    (hs : hnz'.connStatus = .notConnected) : Represents ⟨hnz', s.connection⟩ .init where
  protocolState q := congrArg Link.Core.protocolState (h.core q)
  active := h.activePath
  first := h.firstInputConnected
  state := h.connectionState
  status := hs
  running := hr
  configured _ hq := absurd rfl hq

/-- No work changes what an ending connection shows. -/
theorem Works.ending (h : Works ok s t) : t.ending = s.ending :=
  h.invariant (I := fun u => u.ending = s.ending) (fun _ hu huv => by
    cases huv with
    | link => exact hu
    | interrogate p now =>
      obtain ⟨-, -, h₁, -, h₂, -, h₃⟩ := same_sendGeneralInterrogation _ p now
      rw [← hu, System.ending, h₁, h₂, h₃, System.ending]
    | other hs =>
      rw [← hu, System.ending, hs.activePath, hs.isRunning, hs.connStatus, System.ending]) rfl

end System

namespace Plugin

variable {pl pl' : Plugin} {P : Arbiter → Prop} {now : Instant}

/-- **The connection, if it runs, represents an arbiter with the property.** -/
structure Arbitrated (P : Arbiter → Prop) (pl : Plugin) : Prop where
  represents : ∀ {c}, pl.connection = some c → c.isRunning = true →
    ∃ a, P a ∧ System.Represents ⟨pl.hnz, c⟩ a
  /-- A connection that does not run has no path. -/
  pathless : ∀ {c}, pl.connection = some c → c.isRunning = false →
    pl.hnz.connStatus = .notConnected ∧ c.activePath = none ∧ ∀ p, c.conf.configured p = false
  unconnected : pl.connection = none → pl.hnz.connStatus = .notConnected

theorem arbitrated_init : Arbitrated P {} := ⟨nofun, nofun, fun _ => rfl⟩

/-! ## The calls -/

/-- The status and the active path agree. -/
theorem Arbitrated.agree (h : Arbitrated P pl) {c : HNZConnection} (hc : pl.connection = some c) :
    (pl.hnz.connStatus = .started ↔ c.activePath ≠ none) ∧
      ∀ p, c.activePath = some p → c.conf.configured p := by
  cases hr : c.isRunning with
  | false =>
    obtain ⟨h₁, h₂, -⟩ := h.pathless hc hr
    simp [h₁, h₂]
  | true =>
    obtain ⟨a, -, ha⟩ := h.represents hc hr
    have hactive : c.activePath = a.active := ha.active
    refine ⟨?_, fun p hp => ha.configured p ?_⟩
    · rw [show pl.hnz.connStatus = a.status from ha.status, hactive, Arbiter.status_eq_started_iff]
    · rw [a.active_connected (hactive ▸ hp)]; simp

/-- Whatever else has happened to the plugin object, the end of its connection leaves it
unconnected. -/
theorem Arbitrated.connStatus_stop (h : Arbitrated P pl) {c : HNZConnection} {hnz : HNZ}
    (hc : pl.connection = some c) (hs : hnz.connStatus = pl.hnz.connStatus) :
    (System.stop now ⟨hnz, c⟩).hnz.connStatus = .notConnected :=
  System.connStatus_stop (by simpa [hs] using (h.agree hc).1) (h.agree hc).2

theorem Arbitrated.stop (h : Arbitrated P pl) (b : Bool) : Arbitrated P (pl.stop b now) := by
  refine ⟨nofun, nofun, fun _ => ?_⟩
  unfold Plugin.stop
  simp only
  cases hc : pl.connection with
  | none => exact h.unconnected hc
  | some c => exact h.connStatus_stop hc rfl

theorem Arbitrated.start (h : Arbitrated P pl) {b : Bool} (hst : pl.start b now = .ok pl') :
    Arbitrated P pl' := by
  obtain ⟨h₁, h₂⟩ | ⟨c, t, hc, hs, -, h₁, h₂⟩ := start_cases hst
  · exact ⟨by rw [h₁, h₂]; exact h.represents, by rw [h₁, h₂]; exact h.pathless,
      by rw [h₁, h₂]; exact h.unconnected⟩
  · refine ⟨fun {d} hd hr => ?_, fun {d} hd hr => ?_, fun hnone => by simp [h₂] at hnone⟩
    · obtain rfl : t.connection = d := Option.some.inj (h₂.symm.trans hd)
      obtain ⟨a, hP, ha⟩ := h.represents hc (hs.isRunning.symm.trans hr)
      exact ⟨a, hP, by rw [h₁]; exact ha.same hs⟩
    · obtain rfl : t.connection = d := Option.some.inj (h₂.symm.trans hd)
      obtain ⟨h₃, h₄, h₅⟩ := h.pathless hc (hs.isRunning.symm.trans hr)
      refine ⟨by rw [h₁]; exact hs.connStatus.trans h₃, hs.activePath.trans h₄, fun p => ?_⟩
      rw [hs.conf]
      exact h₅ p

/-- The end of a connection that is replaced. -/
theorem Arbitrated.destroyConnection (h : Arbitrated P pl) {hnz : HNZ}
    (hs : hnz.connStatus = pl.hnz.connStatus) :
    (Plugin.destroyConnection pl.connection now hnz).connStatus = .notConnected := by
  unfold Plugin.destroyConnection
  cases hc : pl.connection with
  | none => exact hs.trans (h.unconnected hc)
  | some c =>
    by_cases hr : c.isRunning
    · simp only [if_pos hr]
      exact h.connStatus_stop hc hs
    · simp only [if_neg hr]
      exact hs.trans (h.pathless hc (by simpa using hr)).1

/-- **A new configuration** brings a new arbiter. -/
theorem Arbitrated.setJsonConfig (h : Arbitrated P pl) (hinit : P .init) {conf : HNZConf}
    {name : String} {b : Bool} (hst : pl.setJsonConfig conf name now = .ok (b, pl')) :
    Arbitrated P pl' := by
  obtain ⟨q, hq, hcases⟩ := setJsonConfig_cases hst
  have hstop : Arbitrated P q := by
    rw [hq]
    split_ifs
    · exact h.stop false
    · exact h
  obtain ⟨-, h₁, h₂, h₃⟩ | ⟨-, hnz, r, hs, h₁, h₂, hr⟩ := hcases
  · refine ⟨fun {c} hc hrun => ?_, fun {c} hc hrun => ?_, fun hc => ?_⟩
    · obtain ⟨a, hP, ha⟩ := hstop.represents (h₂ ▸ hc) hrun
      exact ⟨a, hP, { ha with status := h₁.trans ha.status }⟩
    · obtain ⟨h₄, h₅⟩ := hstop.pathless (h₂ ▸ hc) hrun
      exact ⟨h₁.trans h₄, h₅⟩
    · exact h₁.trans (hstop.unconnected (h₂ ▸ hc))
  · obtain ⟨hfresh, hrunning⟩ := System.create_fresh hnz now
    have hstatus : r.hnz.connStatus = .notConnected := by
      rw [h₁]
      exact hstop.destroyConnection (hfresh.status.connStatus.trans hs.1)
    have hr' : Arbitrated P r := by
      refine ⟨fun {c} hc hrun => ?_, fun {c} hc hrun => ?_, fun hc => by simp [h₂] at hc⟩
      · obtain rfl : (System.create hnz now).connection = c := Option.some.inj (h₂.symm.trans hc)
        exact ⟨.init, hinit, hfresh.represents hrun hstatus⟩
      · obtain rfl : (System.create hnz now).connection = c := Option.some.inj (h₂.symm.trans hc)
        refine ⟨hstatus, hfresh.activePath, fun p => ?_⟩
        rw [hfresh.conf]
        have hnone := hrunning.symm.trans hrun
        rw [Bool.or_eq_false_iff] at hnone
        cases p
        · exact hnone.1
        · exact hnone.2
    obtain rfl | hr := hr
    · exact hr'
    · exact hr'.start hr

/-! ## Runs -/

variable [Platform]

/-- An event of the connection. -/
theorem Arbitrated.event (h : Arbitrated P pl) {c : HNZConnection} {ev : Event} {t : System}
    (hc : pl.connection = some c) (hst : System.step ⟨pl.hnz, c⟩ ev = some t)
    (hreact : ∀ a, System.Represents ⟨pl.hnz, c⟩ a → P a →
      P (a.reacts (System.fires ⟨pl.hnz, c⟩ ev))) :
    Arbitrated P { pl with hnz := t.hnz, connection := some t.connection } := by
  cases hr : c.isRunning with
  | true =>
    obtain ⟨a, hP, ha⟩ := h.represents hc hr
    have ht := ha.step hst
    refine ⟨fun {d} hd _ => ?_, fun {d} hd hd' => ?_, nofun⟩
    · obtain rfl : t.connection = d := Option.some.inj hd
      exact ⟨_, hreact a ha hP, ht⟩
    · obtain rfl : t.connection = d := Option.some.inj hd
      rw [ht.running] at hd'
      cases hd'
  | false =>
    -- without a path no event fires a transition
    obtain ⟨h₁, h₂, h₃⟩ := h.pathless hc hr
    obtain ⟨htarget, u, now, hpre, hpost⟩ := System.step_cases hst
    have hfires : System.fires ⟨pl.hnz, c⟩ ev = none := by
      cases hf : System.fires ⟨pl.hnz, c⟩ ev with
      | none => rfl
      | some pe =>
        have hp : c.conf.configured pe.1 = true := htarget pe.1 (System.target_of_fires hf)
        rw [h₃] at hp
        cases hp
    rw [hfires] at hpost
    have hconf : t.connection.conf = c.conf := hpost.conf.trans hpre.conf
    have hend := hpost.ending.trans hpre.ending
    simp only [System.ending, Prod.mk.injEq] at hend
    refine ⟨fun {d} hd hd' => ?_, fun {d} hd _ => ?_, nofun⟩
    · obtain rfl : t.connection = d := Option.some.inj hd
      rw [hend.2.2, hr] at hd'
      cases hd'
    · obtain rfl : t.connection = d := Option.some.inj hd
      exact ⟨hend.1.trans h₁, hend.2.1.trans h₂, by rw [hconf]; exact h₃⟩

/-- **The step lemma**: a call keeps a property that its event keeps. -/
theorem Arbitrated.step (h : Arbitrated P pl) (hinit : P .init) {call : Call}
    (hst : pl.step call = some pl')
    (hreact : ∀ {c ev a}, call = .event ev → pl.connection = some c →
      System.Represents ⟨pl.hnz, c⟩ a → P a → P (a.reacts (System.fires ⟨pl.hnz, c⟩ ev))) :
    Arbitrated P pl' := by
  have hcases := step_cases hst
  cases call with
  | event ev =>
    obtain ⟨c, t, hc, ht, rfl⟩ := hcases
    exact h.event hc ht fun a => hreact rfl hc
  | setJsonConfig conf name now =>
    obtain ⟨b, hset⟩ := hcases
    exact h.setJsonConfig hinit hset
  | start now => exact h.start hcases
  | stop now => exact hcases ▸ h.stop true

/-- **The run lemma**: a property of arbiters that holds of two paths at rest, and that the events of
a run keep, holds of the running connection it reaches. -/
theorem arbitrated {good : Plugin → Call → Prop} {calls : List Call} (hinit : P .init)
    (hreact : ∀ {pl c ev a}, good pl (.event ev) → pl.connection = some c →
      System.Represents ⟨pl.hnz, c⟩ a → P a → P (a.reacts (System.fires ⟨pl.hnz, c⟩ ev)))
    (h : Run (Under good Step) {} calls pl) : Arbitrated P pl :=
  h.invariant (I := Arbitrated P)
    (fun hpl hst => hpl.step hinit hst.2 fun hev hc => hreact (hev ▸ hst.1) hc) arbitrated_init

/-- A path with an event is active if it is the active path. -/
theorem Arbitrated.active_iff (h : Arbitrated P pl) {c : HNZConnection} {ev : Event} {t : System}
    {p : PathId} (hc : pl.connection = some c) (hst : System.step ⟨pl.hnz, c⟩ ev = some t)
    (htarget : ev.target = some p) :
    (c.path p).connectionState = .active ↔ c.activePath = some p := by
  cases hr : c.isRunning with
  | true =>
    obtain ⟨a, -, ha⟩ := h.represents hc hr
    have hstate : (c.path p).connectionState = a.stateOf p := ha.state p
    have hactive : c.activePath = a.active := ha.active
    rw [hstate, hactive, Arbiter.stateOf_eq_active_iff]
  | false =>
    -- without a path there is no such event
    have hp := (System.step_cases hst).1 p htarget
    exact absurd ((h.pathless hc hr).2.2 p) (by rw [show c.conf.configured p = true from hp]; decide)

end Plugin

/-! ## Reachable states -/

variable [Platform]

namespace System.Reachable

variable {s t : System}

/-- It represents an arbiter whose designated path is live. -/
theorem represents (h : s.Reachable) : ∃ a : Arbiter, a.FirstLive ∧ s.Represents a := by
  obtain ⟨hr, calls, ⟨hnz, -, _, _⟩, hrun, rfl, rfl⟩ := h
  have hrun' : Run (Under (fun _ _ => True) Plugin.Step) {} calls _ :=
    hrun.mono fun hst => ⟨trivial, hst⟩
  refine (Plugin.arbitrated Arbiter.firstLive_init (fun {pl c ev a} _ _ _ ha => ?_)
    hrun').represents rfl hr
  cases System.fires ⟨pl.hnz, c⟩ ev with
  | none => exact ha
  | some pe => exact ha.react pe.2

/-- Its events lead to others. -/
theorem step {ev : Event} (h : s.Reachable) (hst : s.step ev = some t) : t.Reachable := by
  obtain ⟨a, -, ha⟩ := h.represents
  obtain ⟨-, calls, pl, hrun, hhnz, hconn⟩ := h
  have hstep : pl.Step (.event ev) { pl with hnz := t.hnz, connection := some t.connection } :=
    Plugin.step_event (hhnz ▸ hst) hconn
  exact ⟨(ha.step hst).running, calls ++ [.event ev], _, hrun.snoc hstep, rfl, rfl⟩

/-- The active path is there, and fully connected. -/
theorem active {p : PathId} (h : s.Reachable) (hp : s.connection.activePath = some p) :
    (s.path p).protocolState = .connected ∧ s.configured p = true := by
  obtain ⟨a, -, ha⟩ := h.represents
  have hconn : (s.path p).protocolState = .connected :=
    (ha.protocolState p).trans (a.active_connected (ha.active.symm.trans hp))
  refine ⟨hconn, ha.configured p fun hrest => ?_⟩
  rw [← ha.protocolState p, hconn] at hrest
  cases hrest

/-- **The path that extracts is live.** -/
theorem live {p : PathId} (h : s.Reachable) (hp : s.canPathExtractMessage p = true) :
    (s.path p).protocolState.live := by
  obtain ⟨a, ha, hrep⟩ := h.represents
  rw [hrep.extracts_iff] at hp
  exact hrep.protocolState p ▸ ha.live_of_extracts hp

end System.Reachable

end Hnz
