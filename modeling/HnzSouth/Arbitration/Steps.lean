import HnzSouth.Arbitration.Refinement
import HnzSouth.Behaviour.Events

/-!
# Arbitration/Steps — the refinement, event by event

Work is invisible to the arbiter, so that an event of the plugin is the abstract reaction to the
transition it fires, if any (`Represents.step`).
-/

namespace Hnz

open Machinery

namespace Arbiter

/-- The reaction to an optional transition. -/
def reacts (a : Arbiter) : Option (PathId × ConnectionEvent) → Arbiter
  | none => a
  | some (p, e) => a.react p e

end Arbiter

namespace System

variable {s t : System} {a : Arbiter} {ok : Work → Prop} {ev : Event}

/-! ## Work -/

/-- Bookkeeping shows the same arbiter. -/
theorem Represents.same (h : s.Represents a) (hs : s.Same t) : t.Represents a where
  protocolState q := by rw [path, hs.path]; exact h.protocolState q
  active := hs.activePath.trans h.active
  first := hs.firstInputConnected.trans h.first
  state q := by rw [path, hs.path]; exact h.state q
  status := hs.connStatus.trans h.status
  running := hs.isRunning.trans h.running
  configured q hq := by rw [hs.conf]; exact h.configured q hq

/-- **Work is invisible to the arbiter.** -/
theorem Represents.work {w : Work} (h : s.Represents a) (hw : WorkStep s w t) :
    t.Represents a := by
  cases hw with
  | link hl => exact h.modifyLink hl.protocolState
  | interrogate p now =>
    obtain ⟨h₁, h₂, h₃, h₄, h₅, -, h₆⟩ :=
      same_sendGeneralInterrogation s p now
    have hsend : (s.sendInfo p now giPayload).2.Represents a :=
      h.modifyLink (f := fun l => (l.sendInfo (s.pathConf p) now.ms giPayload).2)
        (Link.protocolState_sendInfo _)
    exact
      { protocolState := fun q => by rw [path, h₂]; exact hsend.protocolState q
        active := h₃.trans h.active
        first := h₄.trans h.first
        state := fun q => by rw [path, h₂]; exact hsend.state q
        status := h₆.trans h.status
        running := h₅.trans h.running
        configured := fun q hq => by rw [h₁]; exact h.configured q hq }
  | other hs => exact h.same hs

theorem Represents.works (h : s.Represents a) (hw : Works ok s t) : t.Represents a :=
  hw.invariant (I := fun s => s.Represents a) (fun _ h hst => h.work hst) h

/-- The code and the arbiter agree on who extracts. -/
theorem Represents.extracts_iff {p : PathId} (h : s.Represents a) :
    s.canPathExtractMessage p ↔ a.Extracts p := by
  simp [canPathExtractMessage, Arbiter.Extracts, h.active, h.first]

/-! ## Events -/

variable [Platform]

/-- **An event is the abstract reaction to the transition it fires.** -/
theorem Represents.step (h : s.Represents a) (hst : s.step ev = some t) :
    t.Represents (a.reacts (s.fires ev)) := by
  obtain ⟨htarget, u, now, hpre, hpost⟩ := step_cases hst
  have hu := h.works hpre
  refine Represents.works ?_ hpost
  cases hf : s.fires ev with
  | none => exact hu
  | some pe =>
    obtain ⟨p, e⟩ := pe
    have hp : u.configured p := by
      rw [System.configured, hpre.conf]
      exact htarget p (target_of_fires hf)
    exact hu.transition hp e now

end System

end Hnz
