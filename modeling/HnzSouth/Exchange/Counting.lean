import HnzSouth.Exchange.Frames
import HnzSouth.Exchange.Joint
import HnzSouth.Path.Numbers

/-!
# Exchange/Counting — the frames of a path as its terminal counts them

The frames that a path sends in the course of its work are numbered from its number in sending
(`Link.Numbers`).  A transition restarts only what may be restarted, if it keeps the count
(`transition_inStep`).
-/

namespace Hnz

open Machinery

section
variable [Platform] {payload : List UInt8} {nr ns : Fin 8} {p f : Bool}

/-! ## Frames -/

omit [Platform] in
/-- The code of an unnumbered frame is odd. -/
theorem odd_of_unnumbered {b : UInt8} (h : b &&& 0x03 = 0x03) : b &&& 0x01 ≠ 0 := by
  have hbit : b &&& 0x01 = (b &&& 0x03) &&& 0x01 := by rw [UInt8.and_assoc]; rfl
  rw [hbit, h]
  decide

omit [Platform] in
/-- RR is not an unnumbered frame. -/
theorem rrType_numbered : ∀ nr f, rrType nr f &&& 0x03 ≠ 0x03 := by decide +kernel

@[simp] theorem tally_sarm : tally (Platform.sarmCode :: payload) = .restart := if_pos rfl

/-- Supervision is not counted. -/
theorem tally_of_odd {type : UInt8} (hsarm : type ≠ Platform.sarmCode) (h : type &&& 0x01 ≠ 0) :
    tally (type :: payload) = .other := by
  rw [tally, if_neg hsarm, if_neg h]

@[simp] theorem tally_ua : tally (Platform.uaCode :: payload) = .other :=
  tally_of_odd (Ne.symm Platform.sarm_ne_ua) (odd_of_unnumbered Platform.ua_unnumbered)

/-- An information frame is counted under its NS. -/
theorem tally_of_even {type : UInt8} (h : type &&& 0x01 = 0) :
    tally (type :: payload) = .numbered (nsField type) := by
  have hsarm : type ≠ Platform.sarmCode := by
    rintro rfl
    exact odd_of_unnumbered Platform.sarm_unnumbered h
  rw [tally, if_neg hsarm, if_pos h]

@[simp] theorem tally_infoType : tally (infoType nr ns p :: payload) = .numbered ns := by
  rw [tally_of_even (infoType_even nr ns p), nsField_infoType]

@[simp] theorem tally_rrType : tally (rrType nr f :: payload) = .other :=
  tally_of_odd (fun h => rrType_numbered nr f (h ▸ Platform.sarm_unnumbered)) (rrType_odd nr f)

end

/-! ## What a path sends -/

namespace Link

variable [Platform] {c : PathConf} {now : Int} {l l' l'' : Link}

/-- The number the path expects, while its input is connected. -/
def input (l : Link) : Option (Fin 8) :=
  if l.protocolState = .inputConnected ∨ l.protocolState = .connected then some l.nr else none

/-- The output is connected. -/
def OutputUp (l : Link) : Prop :=
  l.protocolState = .outputConnected ∨ l.protocolState = .connected

/-- **The path numbers the frames it sends**: they are counted from its number in sending. -/
structure Numbers (l l' : Link) : Prop where
  protocolState : l'.protocolState = l.protocolState
  frames : l.frames <+: l'.frames
  count : l.OutputUp → ((l.sentSince l').map tally).foldl Tally.count l.ns = l'.ns

namespace Numbers

/-- One frame is sent, and counted. -/
theorem of_frame {frame : Frame} (hstate : l'.protocolState = l.protocolState)
    (hframes : l'.frames = l.frames ++ [frame])
    (hcount : l.OutputUp → Tally.count l.ns (tally frame.bytes) = l'.ns) : l.Numbers l' := by
  refine ⟨hstate, ⟨[frame], hframes.symm⟩, ?_⟩
  rwa [sentSince_of_frames hframes]

/-- None is. -/
theorem of_same (hstate : l'.protocolState = l.protocolState) (hframes : l'.frames = l.frames)
    (hns : l'.ns = l.ns) : l.Numbers l' := by
  refine ⟨hstate, by rw [hframes], fun _ => ?_⟩
  rw [sentSince_of_same hframes]
  exact hns.symm

theorem rfl : l.Numbers l := of_same (.refl _) (.refl _) (.refl _)

theorem trans (h : l.Numbers l') (h' : l'.Numbers l'') : l.Numbers l'' := by
  refine ⟨h'.protocolState.trans h.protocolState, h.frames.trans h'.frames, fun hup => ?_⟩
  have hup' : l'.OutputUp := by rw [OutputUp, h.protocolState]; exact hup
  rw [← sentSince_trans h.frames h'.frames, List.map_append, List.foldl_append, h.count hup,
    h'.count hup']

end Numbers

/-- Timers and commands send nothing. -/
theorem numbers_of_core (h : l'.core = l.core) : l.Numbers l' :=
  .of_same (congrArg Core.protocolState h) (congrArg Core.frames h) (congrArg Core.ns h)

/-- A message that is transmitted takes the next number; one that is not takes none. -/
theorem numbers_transmit (m : Message) : l.Numbers (l.transmit c now m) := by
  by_cases h : l.admits c m.payload
  · rw [transmit_of_admits h]
    refine .of_frame rfl rfl fun _ => ?_
    rw [tally_infoType]
    exact if_pos rfl
  · rw [transmit_of_not_admits h]
    exact .rfl

/-- A submission transmits its message, or lets it wait, or drops it. -/
theorem numbers_sendInfo (msg : List UInt8) : l.Numbers (l.sendInfo c now msg).2 := by
  rw [sendInfo_eq]
  split_ifs
  · have htaken : l.Numbers (l.take msg) := .of_same rfl rfl rfl
    exact htaken.trans (numbers_transmit _)
  · exact .of_same rfl rfl rfl
  · exact .rfl

omit [Platform] in
theorem nr_sendInfo (msg : List UInt8) : (l.sendInfo c now msg).2.nr = l.nr := by
  rw [sendInfo_eq]
  split_ifs
  · exact kept_transmit.nr
  · rfl
  · rfl

theorem numbers_transmitAll (ms : List Message) : l.Numbers (l.transmitAll c now ms) := by
  induction ms generalizing l with
  | nil => exact .rfl
  | cons m ms ih => exact (numbers_transmit m).trans ih

/-- An acknowledgement lets waiting messages go, each with the next number. -/
theorem numbers_receivedRR {nr : Fin 8} {f b : Bool} (h : l.receivedRR c now nr f = .ok (b, l')) :
    l.Numbers l' := by
  obtain ⟨-, -, -, h⟩ | rfl := receivedRR_cases h
  · obtain ⟨out, rest, -, -, rfl, -⟩ := releaseWaiting_cases h
    have hacknowledged : l.Numbers (l.acknowledged nr now) := .of_same rfl rfl rfl
    exact hacknowledged.trans ((numbers_transmitAll out).trans (.of_same rfl rfl rfl))
  · exact .rfl

/-- Supervision frames are not counted. -/
theorem numbers_sendFrame {bytes : List UInt8} (usePAAddr : Bool) (htally : tally bytes = .other) :
    l.Numbers (l.sendFrame c now bytes usePAAddr none) := by
  refine .of_frame rfl rfl fun _ => ?_
  rw [htally]
  rfl

/-- An information frame acknowledges, too, and is answered by RR. -/
theorem numbers_sendRR {p b : Bool} {ns nr : Fin 8} (h : l.sendRR c now p ns nr = .ok (b, l')) :
    l.Numbers l' := by
  obtain ⟨l₁, h₁, h⟩ := sendRR_cases h
  have hrr : ∀ (x : Link) (nr : Fin 8) (f : Bool), x.Numbers { x.sendFrame c now [rrType nr f] true
      none with lastMsgTime := now } := fun x nr f =>
    have hsent : x.Numbers (x.sendFrame c now [rrType nr f] true none) :=
      numbers_sendFrame true tally_rrType
    hsent.trans (.of_same rfl rfl rfl)
  refine (numbers_receivedRR h₁).trans ?_
  obtain ⟨-, rfl⟩ | ⟨-, -, rfl⟩ | ⟨-, -, -, rfl⟩ | ⟨-, -, -, rfl⟩ := h
  · exact .rfl
  · have hnext : l₁.Numbers { l₁ with nr := l₁.nr + 1 } := .of_same rfl rfl rfl
    exact hnext.trans (hrr _ _ _)
  · exact hrr _ _ _
  · exact .of_same rfl rfl rfl

/-- A retransmission is not counted if its number is an old one. -/
theorem numbers_resend {m : Message} (h : m.ns ≠ l.ns) : l.Numbers (l.resend c now m) := by
  refine .of_frame rfl rfl fun _ => ?_
  rw [tally_infoType]
  exact if_neg h

/-- SARM is sent while the output is down. -/
theorem numbers_sendSARM (h : l.protocolState = .connection ∨ l.protocolState = .inputConnected) :
    l.Numbers (l.sendSARM c now) := by
  refine .of_frame rfl rfl fun hup => ?_
  rcases h with h | h <;> simp [OutputUp, h] at hup

theorem numbers_sendUA : l.Numbers (l.sendUA c now) := numbers_sendFrame true tally_ua

/-! ## Transitions -/

/-- **A transition that no SARM fires** closes the input or leaves it, and the output goes on or begins
anew. -/
theorem transition_inStep {e : ConnectionEvent} (hkeeps : l.KeepsCount e) (he : e ≠ .receivedSarm) :
    ((l.transition now e).input = none ∨ (l.transition now e).input = l.input) ∧
      ((l.transition now e).OutputUp → (l.OutputUp ∧ (l.transition now e).ns = l.ns) ∨
        (l.restarted = true ∧ (l.transition now e).ns = 0)) := by
  unfold input OutputUp
  rw [protocolState_transition, nr_transition, ns_transition]
  unfold KeepsCount at hkeeps
  cases hl : l.protocolState <;> cases e <;>
    simp_all [transitionMap, performs, restartsInput, restartsOutput]

omit [Platform] in
/-- **A SARM that is obeyed** opens the input at zero, and leaves the output alone or closes it. -/
theorem transition_sarm :
    (l.transition now .receivedSarm).input = some 0 ∧
      ((l.transition now .receivedSarm).OutputUp →
        l.OutputUp ∧ (l.transition now .receivedSarm).ns = l.ns) := by
  unfold input OutputUp
  rw [protocolState_transition, nr_transition, ns_transition]
  cases hl : l.protocolState <;>
    simp [transitionMap, performs, restartsInput, restartsOutput]

end Link

end Hnz
