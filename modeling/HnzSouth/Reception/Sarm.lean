import HnzSouth.Arbitration.Plugin
import HnzSouth.Path.Numbers

/-!
# Reception/Sarm — what a received SARM opens

A SARM is always answered.  It opens the input of the path, with the number in reception at 0,
unless the path has just connected: a SARM of the same handshake must not reset the connection.
-/

namespace Hnz

open Machinery

/-! ## The path -/

namespace Link

variable {c : PathConf} {now : Int} {l : Link}

/-- **The table**: whatever the state, SARM opens the input and restarts its numbers. -/
theorem transitionMap_receivedSarm (ps : ProtocolState) :
    (((transitionMap ps .receivedSarm).map Prod.fst).getD ps).live ∧
      performs restartsInput ps .receivedSarm = true := by
  cases ps <;> decide

theorem frames_transition_same (e : ConnectionEvent) : (l.transition now e).frames = l.frames :=
  view_transition_same (fun _ _ => rfl) (fun a _ => by cases a <;> rfl) e

/-- The input is open, and the first frame to come is number 0. -/
def InputOpen (l : Link) : Prop := l.protocolState.live ∧ l.nr = 0

instance : Decidable l.InputOpen := inferInstanceAs (Decidable (_ ∧ _))

theorem inputOpen_transition : (l.transition now .receivedSarm).InputOpen := by
  obtain ⟨hlive, hrestart⟩ := transitionMap_receivedSarm l.protocolState
  exact ⟨by rw [protocolState_transition]; exact hlive, by rw [nr_transition, if_pos hrestart]⟩

/-- **A SARM is too recent** when the path connected less than the repetition time before it. -/
def TooRecent (c : PathConf) (now : Int) (l : Link) : Prop :=
  now - l.lastConnected ≤ c.repeatTimeout

instance : Decidable (l.TooRecent c now) := inferInstanceAs (Decidable (_ ≤ _))

variable [Platform]

theorem receivedSARM_of_tooRecent (h : l.TooRecent c now) :
    l.receivedSARM c now = l.sendUA c now := if_neg (not_lt.mpr h)

theorem receivedSARM_of_not_tooRecent (h : ¬l.TooRecent c now) :
    l.receivedSARM c now = (l.sendUA c now).transition now .receivedSarm := if_pos (not_le.mp h)

/-- The answer. -/
theorem frames_receivedSARM :
    (l.receivedSARM c now).frames = l.frames ++ [⟨c.addressPA, [Platform.uaCode], none⟩] := by
  by_cases h : l.TooRecent c now
  · rw [receivedSARM_of_tooRecent h]
    rfl
  · rw [receivedSARM_of_not_tooRecent h, frames_transition_same]
    rfl

/-- A SARM that is not too recent opens the input; one that is changes neither state nor number. -/
theorem receivedSARM_spec (l : Link) (c : PathConf) (now : Int) :
    (¬l.TooRecent c now → (l.receivedSARM c now).InputOpen) ∧
      (l.TooRecent c now → (l.receivedSARM c now).core = { l.core with
        frames := l.frames ++ [⟨c.addressPA, [Platform.uaCode], none⟩] }) := by
  refine ⟨fun h => ?_, fun h => ?_⟩
  · rw [receivedSARM_of_not_tooRecent h]
    exact inputOpen_transition
  · rw [receivedSARM_of_tooRecent h]
    rfl

end Link

/-! ## The plugin -/

namespace System

variable [Platform] {s : System} {p : PathId} {now : Instant}

/-- To the path, the arbiter's part of a SARM is invisible. -/
theorem link_receivedSARM :
    ((s.receivedSARM p now).path p).toLink =
      (s.path p).toLink.receivedSARM (s.pathConf p) now.ms := by
  have hua : ((s.modifyLink p (Link.sendUA (s.pathConf p) now.ms)).path p).toLink =
      (s.path p).toLink.sendUA (s.pathConf p) now.ms := by rw [link_modifyLink, if_pos rfl]
  have hlast : ((s.modifyLink p (Link.sendUA (s.pathConf p) now.ms)).path p).lastConnected =
      (s.path p).lastConnected := by rw [hua]; rfl
  unfold receivedSARM
  simp only [hlast]
  by_cases h : (s.path p).toLink.TooRecent (s.pathConf p) now.ms
  · rw [Link.receivedSARM_of_tooRecent h, if_neg (by exact not_lt.mpr h), hua]
  · rw [Link.receivedSARM_of_not_tooRecent h, if_pos (by exact not_le.mp h),
      link_protocolStateTransition, if_pos rfl, hua]

/-- **What the answer to a SARM leaves behind.** -/
structure SarmAnswered (s : System) (p : PathId) (now : Instant) (t : System) : Prop where
  answer : (t.path p).frames =
    (s.path p).frames ++ [⟨(s.pathConf p).addressPA, [Platform.uaCode], none⟩]
  opens : ¬(s.path p).toLink.TooRecent (s.pathConf p) now.ms → (t.path p).toLink.InputOpen
  /-- A SARM of the handshake that connected the path is ignored. -/
  ignored : (s.path p).toLink.TooRecent (s.pathConf p) now.ms →
    (s.path p).protocolState = .connected →
      (t.path p).protocolState = .connected ∧ (t.path p).nr = (s.path p).nr
  /-- An open input is never closed by a SARM. -/
  live : (s.path p).protocolState.live → (t.path p).protocolState.live

/-- **A received SARM**: answered, and then the input is open, unless the path has just connected. -/
theorem sarmAnswered_receivedSARM (s : System) (p : PathId) (now : Instant) :
    s.SarmAnswered p now (s.receivedSARM p now) := by
  obtain ⟨hopens, hignored⟩ := Link.receivedSARM_spec (s.path p).toLink (s.pathConf p) now.ms
  rw [← link_receivedSARM] at hopens hignored
  refine ⟨?_, hopens, fun h hst => ?_, fun hlive => ?_⟩
  · rw [link_receivedSARM, Link.frames_receivedSARM]
  · exact ⟨(congrArg Link.Core.protocolState (hignored h)).trans hst,
      congrArg Link.Core.nr (hignored h)⟩
  · by_cases h : (s.path p).toLink.TooRecent (s.pathConf p) now.ms
    · have hst : ((s.receivedSARM p now).path p).protocolState = (s.path p).protocolState :=
        congrArg Link.Core.protocolState (hignored h)
      rwa [hst]
    · exact (hopens h).1

end System

/-! ## A SARM too many -/

namespace Plugin

open Sample

/-- Path A connects, receives an information frame, and then a SARM within the second. -/
def rejoining : List Call :=
  listening ++ [.event (.protocol .A .receivedUa 0),
    .event (.frame .A [0x05, 0x00, 0x0B, 0x01, 0x28, 0x00, 0x00, 0xC0, 0xDE] 500000000)]

set_option maxRecDepth 8000 in
/-- The SARM is answered, but the next frame is still expected to be number 1. -/
theorem not_inputOpen_rejoining :
    ∃ pl c, exec Plugin.step {} rejoining = some pl ∧ pl.connection = some c ∧
      let s : System := ⟨pl.hnz, c⟩
      let t := s.receivedSARM .A 1000000000
      (s.path .A).protocolState = .connected ∧
        (t.path .A).frames.getLast? = some ⟨0x05, [0x63], none⟩ ∧ (t.path .A).nr = 1 ∧
        ¬(t.path .A).toLink.InputOpen := by
  let pl : Plugin := (exec Plugin.step {} rejoining).get rfl
  let c : HNZConnection := pl.connection.get rfl
  have hnr : ((System.receivedSARM .A 1000000000 ⟨pl.hnz, c⟩).path .A).nr = 1 := by decide
  have hne : (1 : Fin 8) ≠ 0 := by decide
  exact ⟨pl, c, rfl, rfl, rfl, by decide, hnr, fun h => hne (hnr.symm.trans h.2)⟩

end Plugin

end Hnz
