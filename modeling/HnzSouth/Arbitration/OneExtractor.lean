import HnzSouth.Arbitration.Plugin

/-!
# Arbitration/OneExtractor — the path that extracts messages

While no path is active, `firstInputConnected` designates the path that extracts.  Only a path that
moves writes it: when the designated path leaves and the other one stays with its input connected,
nothing designates the other one, and its messages are acknowledged and dropped (`strands`).  As
long as that has not happened exactly one path extracts while one is live.
-/

namespace Hnz

open Machinery

/-! ## One extractor -/

namespace System

variable {s : System} {a : Arbiter} {p : PathId}

/-- **Exactly one path extracts, and its input is connected.** -/
def OneExtractor (s : System) : Prop :=
  ∃ p, s.canPathExtractMessage p ∧ (s.path p).protocolState.live ∧
    ∀ q, s.canPathExtractMessage q → q = p

theorem Represents.oneExtractor_iff (h : s.Represents a) : s.OneExtractor ↔ a.OneExtractor := by
  simp only [OneExtractor, Arbiter.OneExtractor, h.extracts_iff, h.protocolState]

/-! ## The step that breaks it -/

variable [Platform]

/-- **The event strands the messages of the other path**: it makes the designated path leave while
the other one has only its input connected. -/
def strands (s : System) (ev : Event) : Bool :=
  match s.fires ev with
  | none => false
  | some (p, e) =>
    match transitionMap (s.path p).protocolState e with
    | none => false
    | some (st, _) =>
      s.connection.firstInputConnected == some p && !decide st.live &&
        (s.path p.other).protocolState == .inputConnected

/-- What does not strand keeps the designation. -/
theorem Represents.designates_reacts {ev : Event} (h : s.Represents a) (ha : a.Designates)
    (hs : s.strands ev = false) : (a.reacts (s.fires ev)).Designates := by
  cases hf : s.fires ev with
  | none => exact ha
  | some pe =>
    obtain ⟨p, e⟩ := pe
    simp only [Arbiter.reacts, Arbiter.react]
    cases hmap : transitionMap (a.proto p) e with
    | none => exact ha
    | some entry =>
      obtain ⟨st, acts⟩ := entry
      refine ha.move fun ⟨hfirst, hst, hother⟩ => ?_
      simp [strands, hf, h.protocolState, hmap, h.first, hfirst, hst, hother] at hs

end System

/-! ## Runs -/

/-- The call does not strand. -/
def Plugin.keepsExtractor [Platform] (pl : Plugin) (call : Plugin.Call) : Bool :=
  match pl.connection, call with
  | some c, .event ev => !System.strands ⟨pl.hnz, c⟩ ev
  | _, _ => true

/-- **One extractor**: in a run that strands nothing, whenever a path accepts information frames
exactly one path extracts messages, and it is one that accepts them. -/
theorem Plugin.oneExtractor_of_run [Platform] {pl : Plugin} {calls : List Plugin.Call} {c : HNZConnection}
    {p : PathId} (h : Run (Under (fun pl call => pl.keepsExtractor call = true) Plugin.Step) {} calls pl)
    (hc : pl.connection = some c) (hr : c.isRunning = true)
    (hp : (c.path p).protocolState.live) : System.OneExtractor ⟨pl.hnz, c⟩ := by
  have harb : Arbitrated Arbiter.Designates pl :=
    arbitrated Arbiter.designates_init
      (fun hgood hc hrep ha => hrep.designates_reacts ha (by
        simpa [keepsExtractor, hc] using hgood)) h
  obtain ⟨a, ha, hrep⟩ := harb.represents hc hr
  refine hrep.oneExtractor_iff.mpr (ha.oneExtractor (p := p) ?_)
  rw [← hrep.protocolState]
  exact hp

/-- Both paths have their input connected, then the first one falls silent. -/
def stranding : List Plugin.Call :=
  [.setJsonConfig .sample "hnz" 0, .start 0,
    .event (.connect .A 0), .event (.protocol .A .receivedSarm 0),
    .event (.connect .B 0), .event (.protocol .B .receivedSarm 0),
    .event (.protocol .A .toRecv 0)]

set_option maxRecDepth 8000 in
/-- The second one accepts information frames, and nobody extracts them. -/
theorem Plugin.not_oneExtractor_stranding : letI : Platform := .sample
    ∃ pl c, exec Plugin.step {} stranding = some pl ∧ pl.connection = some c ∧
      c.isRunning = true ∧ (c.path .B).protocolState.live ∧
      ¬System.OneExtractor ⟨pl.hnz, c⟩ := by
  let : Platform := .sample
  refine ⟨_, _, rfl, rfl, rfl, Or.inl rfl, ?_⟩
  rintro ⟨p, hp, -⟩
  cases p <;> cases hp

set_option maxRecDepth 8000 in
/-- Before that, the first one extracted. -/
theorem Plugin.oneExtractor_inputs : letI : Platform := .sample
    ∃ pl c, exec Plugin.step {} (stranding.take 6) = some pl ∧ pl.connection = some c ∧
      (c.path .B).protocolState.live ∧ System.OneExtractor ⟨pl.hnz, c⟩ := by
  let : Platform := .sample
  refine ⟨_, _, rfl, rfl, Or.inl rfl, ?_⟩
  have hrun : Run (Under (fun pl call => Plugin.keepsExtractor pl call = true) Plugin.Step) {}
    (stranding.take 6) _ := run_under_iff.mpr rfl
  exact Plugin.oneExtractor_of_run (p := .B) hrun rfl rfl (Or.inl rfl)

end Hnz
