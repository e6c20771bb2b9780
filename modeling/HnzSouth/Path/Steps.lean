import HnzSouth.Machinery.Run
import HnzSouth.Model.Link

/-!
# Path/Steps — what can happen to a link

Every operation of a path is one of six kinds of step, or a transition of its automaton.  An
invariant of paths is proved kind by kind; what the plugin does with a path is then a run of these.
-/

namespace Hnz

open Machinery

namespace Link

variable {c : PathConf} {now : Int} {l l' : Link}

/-! ## The part of a link that carries messages -/

/-- The protocol state, the queues, the numbers, and the history. -/
structure Core where
  protocolState : ProtocolState
  msgWaiting : List Message
  msgSent : List Message
  nr : Fin 8
  ns : Fin 8
  nrr : Fin 8
  repeats : Nat
  frames : List Frame
  taken : List (List UInt8)

def core (l : Link) : Core :=
  ⟨l.protocolState, l.msgWaiting, l.msgSent, l.nr, l.ns, l.nrr, l.repeats, l.frames, l.taken⟩

/-! ## Steps -/

/-- The kinds of step, the automaton apart. -/
inductive Op
  /-- A message was submitted, and sent or not. -/
  | submit (msg : List UInt8) (sent : Bool)
  /-- RR of this type byte was received. -/
  | acknowledge (type : UInt8)
  /-- An information frame of this type byte was received. -/
  | inform (type : UInt8)
  /-- The first unacknowledged message was sent back. -/
  | resend
  /-- A frame that carries no message was sent. -/
  | supervise
  /-- Timers, commands and the TCP connection. -/
  | touch
  deriving DecidableEq

/-- **A step of a link.** -/
inductive Step (c : PathConf) : Link → Op → Link → Prop
  | submit (now : Int) (msg : List UInt8) (l : Link) :
    Step c l (.submit msg (l.sendInfo c now msg).1) (l.sendInfo c now msg).2
  | acknowledge {now : Int} {type : UInt8} {b : Bool} {l l' : Link}
    (h : l.receivedRR c now (nrField type) (pfField type) = .ok (b, l')) :
    Step c l (.acknowledge type) l'
  | inform {now : Int} {type : UInt8} {b : Bool} {l l' : Link}
    (h : l.sendRR c now (pfField type) (nsField type) (nrField type) = .ok (b, l')) :
    Step c l (.inform type) l'
  | resend {now rt : Int} {current : Nat} {m : Message} {l : Link}
    (h : l.timeout c rt current = .resend m) : Step c l .resend (l.resend c now m)
  | supervise (now : Int) (bytes : List UInt8) (usePAAddr : Bool) (l : Link) :
    Step c l .supervise (l.sendFrame c now bytes usePAAddr none)
  | touch {l l' : Link} (h : l'.core = l.core) : Step c l .touch l'

/-- The step moves messages that the path holds already. -/
def Op.Moves : Op → Prop
  | .acknowledge _ | .inform _ | .resend => True
  | _ => False

/-! ## The shape of the operations -/

/-- A refused message leaves the link as it was; the others are sent. -/
theorem sendInfoImmediately_of_admits {m : Message} (h : l.admits c m.payload) :
    l.sendInfoImmediately c now m =
      (true, { l.sendFrame c now (infoType l.nr l.ns false :: m.payload) false (some m.id) with
        lastSentTime := if l.msgSent.isEmpty then now else l.lastSentTime
        msgSent := l.msgSent ++ [{ m with ns := l.ns }]
        ns := l.ns + 1 }) := by
  simp [sendInfoImmediately, h, sendFrame]

theorem sendInfoImmediately_of_not_admits {m : Message} (h : ¬l.admits c m.payload) :
    l.sendInfoImmediately c now m = (false, l) := by
  simp [sendInfoImmediately, h]

theorem admits_of_connected (h : l.protocolState = .connected) (msg : List UInt8) :
    l.admits c msg := by simp [admits, h]

/-- **The link after a transmission.** -/
def transmit (c : PathConf) (now : Int) (m : Message) (l : Link) : Link :=
  (l.sendInfoImmediately c now m).2

/-- Whether a message is taken depends on nothing a transmission changes. -/
theorem admits_congr (h : l'.protocolState = l.protocolState) (msg : List UInt8) :
    l'.admits c msg = l.admits c msg := by rw [admits, admits, h]

@[simp] theorem protocolState_transmit (m : Message) :
    (l.transmit c now m).protocolState = l.protocolState := by
  unfold transmit sendInfoImmediately
  split_ifs <;> rfl

/-- The submission of a message that is not discarded: it has its place in the history. -/
def take (msg : List UInt8) (l : Link) : Link := { l with taken := l.taken ++ [msg] }

/-- The message of a submission. -/
def submitted (msg : List UInt8) (l : Link) : Message := ⟨0, msg, l.taken.length⟩

/-- **The three fates of a submitted message**: sent, queued, discarded. -/
theorem sendInfo_eq (msg : List UInt8) :
    l.sendInfo c now msg =
      if l.admits c msg then
        if l.msgSent.length < c.anticipationRatio then
          (true, (l.take msg).transmit c now (l.submitted msg))
        else (false, { l.take msg with msgWaiting := l.msgWaiting ++ [l.submitted msg] })
      else (false, l) := by
  unfold sendInfo
  by_cases h : l.admits c msg
  · have h' : (l.take msg).admits c (l.submitted msg).payload := h
    rw [if_pos h, if_neg (by simp [h])]
    by_cases h₂ : l.msgSent.length < c.anticipationRatio
    · have hs : sendInfoImmediately c now (l.submitted msg) (l.take msg) =
          (true, (l.take msg).transmit c now (l.submitted msg)) := by
        rw [transmit, sendInfoImmediately_of_admits h']
      exact (if_pos h₂).trans (hs.trans (if_pos h₂).symm)
    · exact (if_neg h₂).trans (if_neg h₂).symm
  · rw [if_neg h, if_pos (by simp [h])]

/-- A message that was sent left in one frame. -/
theorem sendInfo_of_sent {msg : List UInt8} (h : (l.sendInfo c now msg).1 = true) :
    (l.sendInfo c now msg).2.frames =
        l.frames ++ [⟨c.addressARP, infoType l.nr l.ns false :: msg, some l.taken.length⟩] ∧
      (l.sendInfo c now msg).2.commandSent = l.commandSent := by
  rw [sendInfo_eq] at h ⊢
  split_ifs at h ⊢ with hadmits
  have hm : (l.take msg).admits c (l.submitted msg).payload := hadmits
  rw [transmit, sendInfoImmediately_of_admits hm]
  exact ⟨rfl, rfl⟩

theorem protocolState_sendInfo (msg : List UInt8) :
    (l.sendInfo c now msg).2.protocolState = l.protocolState := by
  rw [sendInfo_eq]
  split_ifs
  · exact protocolState_transmit _
  · rfl
  · rfl

/-- **The release loop**: what it returns was reached by sending the released messages in turn. -/
theorem releaseWaiting_cons {m : Message} {ms : List Message} :
    releaseWaiting c now (m :: ms) l =
      if l.msgSent.length < c.anticipationRatio then
        if l.admits c m.payload then releaseWaiting c now ms (l.transmit c now m)
        else .error .hang
      else .ok { l with msgWaiting := m :: ms } := by
  rw [releaseWaiting]
  split_ifs with h₁ h₂
  · rw [sendInfoImmediately_of_admits h₂, transmit, sendInfoImmediately_of_admits h₂]
  · rw [sendInfoImmediately_of_not_admits h₂]
  · rfl

theorem releaseWaiting_protocolState {ms : List Message}
    (h : releaseWaiting c now ms l = .ok l') : l'.protocolState = l.protocolState := by
  induction ms generalizing l with
  | nil => cases h; rfl
  | cons m ms ih =>
    rw [releaseWaiting_cons] at h
    split_ifs at h
    · exact (ih h).trans (protocolState_transmit m)
    · cases h; rfl

/-- The link after an accepted NR, before the waiting messages leave. -/
def acknowledged (nr : Fin 8) (now : Int) (l : Link) : Link :=
  { l with
    msgSent := l.msgSent.drop (nr - l.nrr).val
    nrr := nr
    repeats := 0
    lastSentTime := if (l.msgSent.drop (nr - l.nrr).val).isEmpty then l.lastSentTime else now }

/-- The offset of `m_NRAccepted` is the difference modulo 8. -/
theorem nrOffset_eq : ∀ a b : Fin 8,
    (((a.val - b.val : Int).tmod 8 + 8).tmod 8).toNat = (a - b).val := by decide +kernel

theorem nrAccepted_eq (nr : Fin 8) :
    l.nrAccepted c now nr = releaseWaiting c now l.msgWaiting (l.acknowledged nr now) := by
  rw [nrAccepted, nrOffset_eq]
  rfl

/-- **A valid NR** lies between the last acknowledged number and the next number to send, around
the circle. -/
theorem isNRValid_iff {nr : Fin 8} : l.isNRValid nr ↔ nr - l.nrr ≤ l.ns - l.nrr := by
  have key : ∀ nr nrr ns : Fin 8, (if nr ≠ nrr then
      if ns < nrr then if nrr < nr then true else if nr ≤ ns then true else nrr < nr && nr ≤ ns
      else nrr < nr && nr ≤ ns else true) = true ↔ nr - nrr ≤ ns - nrr := by decide +kernel
  exact key nr l.nrr l.ns

theorem isNRValid_of_core {nr : Fin 8} (h : l'.core = l.core) : l'.isNRValid nr = l.isNRValid nr := by
  have hns : l'.ns = l.ns := congrArg Core.ns h
  have hnrr : l'.nrr = l.nrr := congrArg Core.nrr h
  rw [isNRValid, hns, hnrr, isNRValid]

/-- What a received NR does: it is taken, or it changes nothing. -/
theorem receivedRR_cases {nr : Fin 8} {f b : Bool} (h : l.receivedRR c now nr f = .ok (b, l')) :
    (nr ≠ l.nrr ∧ l.isNRValid nr ∧ b = true ∧
      releaseWaiting c now l.msgWaiting (l.acknowledged nr now) = .ok l') ∨ l' = l := by
  unfold receivedRR at h
  split_ifs at h with h₁ h₂ h₃
  · left
    rw [nrAccepted_eq] at h
    cases hr : releaseWaiting c now l.msgWaiting (l.acknowledged nr now) with
    | error e => rw [hr] at h; cases h
    | ok x => rw [hr] at h; cases h; exact ⟨h₁, h₂, rfl, rfl⟩
  all_goals cases h; exact Or.inr rfl

theorem receivedRR_protocolState {nr : Fin 8} {f b : Bool}
    (h : l.receivedRR c now nr f = .ok (b, l')) : l'.protocolState = l.protocolState := by
  obtain ⟨-, -, -, h⟩ | rfl := receivedRR_cases h
  · exact (releaseWaiting_protocolState h :)
  · rfl

/-- **What a received information frame does**: its NR first; if that is valid, the frame is
acknowledged when its number is the expected one, and the last acknowledgement is repeated when it
is another number with the P bit. -/
theorem sendRR_cases {p b : Bool} {ns nr : Fin 8} (h : l.sendRR c now p ns nr = .ok (b, l')) :
    ∃ l₁, l.receivedRR c now nr false = .ok (b, l₁) ∧
      ((b = false ∧ l' = l₁) ∨
        (b = true ∧ ns = l₁.nr ∧ l' = { ({ l₁ with nr := l₁.nr + 1 }.sendFrame c now
          [rrType (l₁.nr + 1) p] true none) with lastMsgTime := now }) ∨
        (b = true ∧ ns ≠ l₁.nr ∧ p = true ∧ l' = { (l₁.sendFrame c now
          [rrType l₁.nr true] true none) with lastMsgTime := now }) ∨
        (b = true ∧ ns ≠ l₁.nr ∧ p = false ∧ l' = { l₁ with lastMsgTime := now })) := by
  unfold sendRR at h
  cases hr : l.receivedRR c now nr false with
  | error e => rw [hr] at h; cases h
  | ok x =>
    obtain ⟨valid, l₁⟩ := x
    rw [hr] at h
    refine ⟨l₁, ?_⟩
    cases valid with
    | false => cases h; exact ⟨rfl, Or.inl ⟨rfl, rfl⟩⟩
    | true =>
      cases h
      refine ⟨rfl, Or.inr ?_⟩
      split_ifs with h₁ h₂
      · exact Or.inl ⟨rfl, h₁, rfl⟩
      · exact Or.inr (Or.inl ⟨rfl, h₁, h₂, rfl⟩)
      · exact Or.inr (Or.inr ⟨rfl, h₁, by simpa using h₂, rfl⟩)

/-- **No step but a transition changes the protocol state.** -/
theorem Step.protocolState {op : Op} (h : Step c l op l') :
    l'.protocolState = l.protocolState := by
  cases h with
  | submit => exact protocolState_sendInfo _
  | acknowledge h => exact receivedRR_protocolState h
  | inform h =>
    obtain ⟨l₁, h₁, h⟩ := sendRR_cases h
    have := receivedRR_protocolState h₁
    obtain ⟨-, rfl⟩ | ⟨-, -, rfl⟩ | ⟨-, -, -, rfl⟩ | ⟨-, -, -, rfl⟩ := h <;> exact this
  | resend => rfl
  | supervise => rfl
  | touch h => exact congrArg Core.protocolState h

/-! ## Transitions -/

/-- The event performs, in this protocol state, an action of this kind. -/
def performs (kind : Action → Bool) (st : ProtocolState) (e : ConnectionEvent) : Bool :=
  (transitionMap st e).any fun entry => entry.2.any kind

/-- **What a transition does to a part of the link** that the actions of one kind reset and the
others leave alone. -/
theorem view_transition {α : Type} {F : Link → α} (kind : Action → Bool) {v : α}
    (hstate : ∀ (x : Link) (st : ProtocolState), F { x with protocolState := st } = F x)
    (hact : ∀ (a : Action) (x : Link), F (x.act now a) = if kind a then v else F x)
    (e : ConnectionEvent) :
    F (l.transition now e) = if performs kind l.protocolState e then v else F l := by
  have hfold : ∀ (acts : List Action) (x : Link),
      F (acts.foldl (fun l a => l.act now a) x) = if acts.any kind then v else F x := by
    intro acts
    induction acts with
    | nil => exact fun _ => rfl
    | cons a acts ih =>
      intro x
      rw [List.foldl_cons, ih, hact]
      by_cases ha : kind a <;> simp [ha]
  unfold transition performs
  cases transitionMap l.protocolState e with
  | none => rfl
  | some entry => exact (hfold _ _).trans (by rw [hstate]; rfl)

/-- What no action resets, a transition leaves alone. -/
theorem view_transition_same {α : Type} {F : Link → α}
    (hstate : ∀ (x : Link) (st : ProtocolState), F { x with protocolState := st } = F x)
    (hact : ∀ (a : Action) (x : Link), F (x.act now a) = F x) (e : ConnectionEvent) :
    F (l.transition now e) = F l := by
  rw [view_transition (v := F l) (fun _ => false) hstate hact e, ite_self]

theorem protocolState_transition (now : Int) (e : ConnectionEvent) :
    (l.transition now e).protocolState =
      ((transitionMap l.protocolState e).map Prod.fst).getD l.protocolState := by
  have hfold : ∀ (acts : List Action) (x : Link),
      (acts.foldl (fun l a => l.act now a) x).protocolState = x.protocolState := by
    intro acts
    induction acts with
    | nil => exact fun _ => rfl
    | cons a acts ih => exact fun x => (ih _).trans (by cases a <;> rfl)
  unfold transition
  cases transitionMap l.protocolState e with
  | none => rfl
  | some entry => exact hfold _ _

end Link

end Hnz
