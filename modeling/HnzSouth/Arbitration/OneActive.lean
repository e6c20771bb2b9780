import HnzSouth.Arbitration.Plugin

/-!
# Arbitration/OneActive — the active path

In every running connection the connection states of the two paths, the active path and the status
of the connection agree with each other and with the protocol states.
-/

namespace Hnz

open Machinery

/-- **The arbitration invariant.** -/
structure System.OneActive (s : System) : Prop where
  active_iff : ∀ p, (s.path p).connectionState = .active ↔ s.connection.activePath = some p
  status_iff : s.hnz.connStatus = .started ↔ s.connection.activePath ≠ none
  connected_iff : ∀ p, ((s.path p).connectionState = .active ∨
    (s.path p).connectionState = .passive) ↔ (s.path p).protocolState = .connected
  pending_iff : ∀ p, (s.path p).connectionState = .pendingHnz ↔
    (s.path p).protocolState = .inputConnected ∨ (s.path p).protocolState = .outputConnected
  disconnected_iff : ∀ p, (s.path p).connectionState = .disconnected ↔
    (s.path p).protocolState = .connection
  active_of_passive : ∀ p, (s.path p).connectionState = .passive →
    (s.path p.other).connectionState = .active

/-- A system that represents an arbiter has it. -/
theorem System.Represents.oneActive {s : System} {a : Arbiter} (h : s.Represents a) :
    s.OneActive where
  active_iff p := by rw [h.state, h.active, Arbiter.stateOf_eq_active_iff]
  status_iff := by rw [h.status, h.active, Arbiter.status_eq_started_iff]
  connected_iff p := by
    rw [h.state, h.protocolState, Arbiter.stateOf_active_or_passive_iff]
  pending_iff p := by rw [h.state, h.protocolState, Arbiter.stateOf_eq_pending_iff]
  disconnected_iff p := by rw [h.state, h.protocolState, Arbiter.stateOf_eq_disconnected_iff]
  active_of_passive p hp := by
    rw [h.state] at hp ⊢
    exact Arbiter.exists_active_of_passive hp

/-- **Arbitration**: whatever happened to the plugin, a connection that runs has one active path, or
none, and its states say which. -/
theorem Plugin.oneActive_of_run [Platform] {pl : Plugin} {calls : List Plugin.Call} {c : HNZConnection}
    (h : Run Plugin.Step {} calls pl) (hc : pl.connection = some c) (hr : c.isRunning = true) :
    System.OneActive ⟨pl.hnz, c⟩ := by
  have hrun : Run (Under (fun _ _ => True) Plugin.Step) {} calls pl :=
    h.mono fun hst => ⟨trivial, hst⟩
  have harb : Arbitrated (fun _ => True) pl := arbitrated trivial (fun _ _ _ _ => trivial) hrun
  obtain ⟨a, -, ha⟩ := harb.represents hc hr
  exact ha.oneActive

/-- Both paths connect, then the first one loses its TCP connection. -/
def failover : List Plugin.Call :=
  [.setJsonConfig .sample "hnz" 0, .start 0,
    .event (.connect .A 0), .event (.protocol .A .receivedSarm 0),
    .event (.protocol .A .receivedUa 0),
    .event (.connect .B 0), .event (.protocol .B .receivedUa 0),
    .event (.protocol .B .receivedSarm 0),
    .event (.disconnect .A 0)]

set_option maxRecDepth 8000 in
/-- The second one has become active. -/
theorem Plugin.oneActive_failover : letI : Platform := .sample
    ∃ pl c, exec Plugin.step {} failover = some pl ∧ pl.connection = some c ∧
      c.activePath = some .B ∧ (c.path .B).connectionState = .active ∧
      System.OneActive ⟨pl.hnz, c⟩ := by
  let : Platform := .sample
  refine ⟨_, _, rfl, rfl, rfl, rfl, ?_⟩
  have hrun : Run Plugin.Step {} failover _ := run_det_iff.mpr rfl
  exact Plugin.oneActive_of_run hrun rfl rfl

end Hnz
