import HnzSouth.Behaviour.Links
import HnzSouth.Behaviour.Reports
import HnzSouth.Path.History

/-!
# Sending/Transmissions — what a path has transmitted

The history of frames is also a history of messages.  A message is transmitted when it is submitted
and the window is open; later only by a step that moves it from one queue to the other, so that it
was held before.  Whenever the plugin notes that it has sent a GI request, one was transmitted for
the first time (`notified_of_step`).
-/

namespace Hnz

open Machinery

namespace Link

variable {c : PathConf} {now : Int} {l l' : Link} {op : Op}

/-! ## Transmitted messages -/

/-- The messages a path has transmitted, each as often as it was. -/
def transmitted (l : Link) : List (Nat × List UInt8) := l.frames.filterMap Frame.body

theorem transmitted_of_frames {new : List Frame} (h : l'.frames = l.frames ++ new) :
    l'.transmitted = l.transmitted ++ new.filterMap Frame.body := by
  rw [transmitted, h, List.filterMap_append, transmitted]

/-- A frame transmits at most one message. -/
theorem transmitted_sendFrame (now : Int) (bytes : List UInt8) (usePAAddr : Bool) (origin : Option Nat) :
    (l.sendFrame c now bytes usePAAddr origin).transmitted =
      l.transmitted ++ (origin.map fun k => (k, bytes.tail)).toList := by
  have hframes : (l.sendFrame c now bytes usePAAddr origin).frames = l.frames ++ [_] := rfl
  rw [transmitted_of_frames hframes]
  cases origin <;> rfl

theorem transmitted_transition (e : ConnectionEvent) :
    (l.transition now e).transmitted = l.transmitted := by
  rw [transmitted, frames_transition, transmitted]

theorem transmitted_sendInfo (msg : List UInt8) :
    (l.sendInfo c now msg).2.transmitted =
      l.transmitted ++ if (l.sendInfo c now msg).1 then [(l.taken.length, msg)] else [] := by
  rw [sendInfo_eq]
  split_ifs with hadmits hroom h h h
  · have hm : (l.take msg).admits c (l.submitted msg).payload := hadmits
    rw [transmit_of_admits hm]
    exact transmitted_sendFrame now (infoType l.nr l.ns false :: msg) false (some l.taken.length)
  · exact absurd rfl h
  · cases h
  · exact (List.append_nil _).symm
  · cases h
  · exact (List.append_nil _).symm

/-- The number is a new one, of a message that was sent. -/
def Core.Advances (x : Core) (nr : Fin 8) : Prop := nr ≠ x.nrr ∧ nr - x.nrr ≤ x.ns - x.nrr

instance (x : Core) (nr : Fin 8) : Decidable (x.Advances nr) := inferInstanceAs (Decidable (_ ∧ _))

/-- A received number transmits waiting messages, if it is a new one; they are unacknowledged from
then on. -/
theorem transmitted_receivedRR {nr : Fin 8} {f b : Bool}
    (h : l.receivedRR c now nr f = .ok (b, l')) :
    ∃ out, l'.transmitted = l.transmitted ++ out ∧
      (∀ x ∈ out, x ∈ l.msgWaiting.map Message.body ∧ l.core.Advances nr) ∧
      l'.msgSent.map Message.body ⊆ l.msgSent.map Message.body ++ out := by
  obtain ⟨hne, hvalid, -, h⟩ | rfl := receivedRR_cases h
  · obtain ⟨out, rest, hwaiting, hout, rfl, -⟩ := releaseWaiting_cases h
    obtain ⟨-, new, hframes, hnew⟩ := exists_transmitAll now hout
    refine ⟨out.map Message.body, ?_, ?_, ?_⟩
    · have hbodies : new.filterMap Frame.body = out.map Message.body := by
        have hid := congrArg (List.filterMap id) hnew
        simpa [List.filterMap_map, Function.comp_def] using hid
      exact (transmitted_of_frames (l := l.acknowledged nr now) hframes).trans (by rw [hbodies]; rfl)
    · intro x hx
      refine ⟨?_, hne, isNRValid_iff.mp hvalid⟩
      rw [hwaiting, List.map_append]
      exact List.mem_append_left _ hx
    · change ((l.acknowledged nr now).transmitAll c now out).msgSent.map Message.body ⊆ _
      rw [transmitAll_msgSent now hout]
      exact List.append_subset.mpr ⟨List.subset_append_of_subset_left _
        (List.map_subset _ (List.drop_subset _ _)), List.subset_append_right _ _⟩
  · exact ⟨[], (List.append_nil _).symm, List.forall_mem_nil _, by simp⟩

/-- **Why a step transmits a message**: it is submitted, or the first unacknowledged one is sent back,
or it waited and a new number lets it out. -/
inductive Cause (l : Link) : Op → Nat × List UInt8 → Prop
  | submit (msg : List UInt8) : Cause l (.submit msg true) (l.taken.length, msg)
  | resend {m : Message} (h : m ∈ l.msgSent) : Cause l .resend m.body
  | acknowledge {type : UInt8} {m : Message} (h : m ∈ l.msgWaiting)
    (hnr : l.core.Advances (nrField type)) : Cause l (.acknowledge type) m.body
  | inform {type : UInt8} {m : Message} (h : m ∈ l.msgWaiting)
    (hnr : l.core.Advances (nrField type)) : Cause l (.inform type) m.body

/-- **Whatever a step transmits has its cause.** -/
theorem Step.transmitted (h : Step c l op l') :
    ∃ new, l'.transmitted = l.transmitted ++ new ∧ ∀ b ∈ new, l.Cause op b := by
  cases h with
  | submit now msg =>
    refine ⟨_, transmitted_sendInfo msg, fun b hb => ?_⟩
    split_ifs at hb with hsent
    · rw [List.mem_singleton.mp hb, hsent]
      exact .submit msg
    · cases hb
  | acknowledge h =>
    obtain ⟨out, hout, hwaiting, -⟩ := transmitted_receivedRR h
    refine ⟨out, hout, fun b hb => ?_⟩
    obtain ⟨hmem, hnr⟩ := hwaiting b hb
    obtain ⟨m, hm, rfl⟩ := List.mem_map.mp hmem
    exact .acknowledge hm hnr
  | @inform now type b _ _ h =>
    obtain ⟨l₁, h₁, h⟩ := sendRR_cases h
    obtain ⟨out, hout, hwaiting, -⟩ := transmitted_receivedRR h₁
    have hl' : l'.transmitted = l₁.transmitted := by
      obtain ⟨-, rfl⟩ | ⟨-, -, rfl⟩ | ⟨-, -, -, rfl⟩ | ⟨-, -, -, rfl⟩ := h
      · rfl
      · exact (transmitted_sendFrame now _ true none).trans (List.append_nil _)
      · exact (transmitted_sendFrame now _ true none).trans (List.append_nil _)
      · rfl
    refine ⟨out, hl'.trans hout, fun b hb => ?_⟩
    obtain ⟨hmem, hnr⟩ := hwaiting b hb
    obtain ⟨m, hm, rfl⟩ := List.mem_map.mp hmem
    exact .inform hm hnr
  | @resend now rt current m l h =>
    obtain ⟨rest, hsent⟩ := msgSent_of_timeout h
    refine ⟨[m.body], transmitted_sendFrame now (infoType l.nr m.ns true :: m.payload) false
      (some m.id), fun b hb => ?_⟩
    rw [List.mem_singleton.mp hb]
    exact .resend (by simp [hsent])
  | supervise now => exact ⟨[], transmitted_sendFrame now _ _ none, by simp⟩
  | touch h =>
    refine ⟨[], ?_, by simp⟩
    exact (congrArg (List.filterMap Frame.body) (congrArg Core.frames h)).trans (List.append_nil _).symm

/-- Whatever was transmitted stays so. -/
theorem Step.subset (h : Step c l op l') : l.transmitted ⊆ l'.transmitted := by
  obtain ⟨new, hnew, -⟩ := h.transmitted
  rw [hnew]
  exact List.subset_append_left _ _

/-- **Every message held or transmitted** is the submission whose place it has. -/
structure Traced (l : Link) : Prop where
  recorded : l.Recorded
  transmitted : ∀ b ∈ l.transmitted, l.taken[b.1]? = some b.2

/-- The place of the next submission is free. -/
theorem Traced.fresh (h : l.Traced) (msg : List UInt8) : (l.taken.length, msg) ∉ l.transmitted := by
  intro hmem
  have := h.transmitted _ hmem
  simp at this

theorem Traced.step (h : l.Traced) (hst : Step c l op l') : l'.Traced := by
  refine ⟨h.recorded.step hst, fun b hb => ?_⟩
  have hgrow : ∀ b : Nat × List UInt8, l.taken[b.1]? = some b.2 → l'.taken[b.1]? = some b.2 := by
    intro b hget
    rw [hst.taken, List.getElem?_append_left (List.getElem?_eq_some_iff.mp hget).1]
    exact hget
  obtain ⟨new, hnew, hbodies⟩ := hst.frames
  rw [transmitted_of_frames hnew] at hb
  rcases List.mem_append.mp hb with hb | hb
  · exact hgrow b (h.transmitted b hb)
  · obtain ⟨f, hf, hbody⟩ := List.mem_filterMap.mp hb
    exact h.recorded.step hst b (hbodies f hf b hbody)

theorem Traced.transition (h : l.Traced) (now : Int) (e : ConnectionEvent) :
    (l.transition now e).Traced := by
  refine ⟨h.recorded.transition e, fun b hb => ?_⟩
  rw [transmitted_transition] at hb
  rw [taken_transition]
  exact h.transmitted b hb

end Link

theorem linkInvariant_traced : LinkInvariant (fun _ _ _ => True) fun _ l => l.Traced where
  init h := by
    refine ⟨fun b hb => ?_, fun b hb => ?_⟩
    · rw [Link.held_of_core h] at hb; cases hb
    · have hframes : Link.frames _ = [] := congrArg Link.Core.frames h
      rw [Link.transmitted, hframes] at hb
      cases hb
  step h hst _ := h.step hst
  transition now e h := h.transition now e

/-! ## First transmissions -/

namespace System

variable {s t u : System} {p : PathId} {now : Instant} {ok : Work → Prop} {msg : List UInt8}

/-- **A message with this payload was transmitted for the first time.** -/
def Transmits (msg : List UInt8) (s t : System) : Prop :=
  ∃ p ∈ [PathId.A, PathId.B], ∃ b ∈ (t.path p).transmitted, b.2 = msg ∧ b ∉ (s.path p).transmitted

instance : Decidable (Transmits msg s t) := inferInstanceAs (Decidable (∃ p ∈ _, _))

theorem transmits_iff :
    Transmits msg s t ↔ ∃ p k, (k, msg) ∈ (t.path p).transmitted ∧ (k, msg) ∉ (s.path p).transmitted := by
  constructor
  · rintro ⟨p, -, ⟨k, m⟩, hb, rfl, hnew⟩
    exact ⟨p, k, hb, hnew⟩
  · rintro ⟨p, k, hb, hnew⟩
    exact ⟨p, by cases p <;> simp, (k, msg), hb, rfl, hnew⟩

/-- Nothing that was transmitted is forgotten. -/
def Remembers (s t : System) : Prop :=
  ∀ p, ∀ b ∈ (s.path p).transmitted, b ∈ (t.path p).transmitted

theorem Remembers.trans (h : s.Remembers t) (h' : t.Remembers u) : s.Remembers u :=
  fun p b hb => h' p b (h p b hb)

theorem Transmits.mono (h : Transmits msg s t) (h' : t.Remembers u) : Transmits msg s u := by
  obtain ⟨p, k, hb, hnew⟩ := transmits_iff.mp h
  exact transmits_iff.mpr ⟨p, k, h' p _ hb, hnew⟩

theorem Transmits.of_remembers (h : s.Remembers t) (h' : Transmits msg t u) : Transmits msg s u := by
  obtain ⟨p, k, hb, hnew⟩ := transmits_iff.mp h'
  exact transmits_iff.mpr ⟨p, k, hb, fun hold => hnew (h p _ hold)⟩

theorem transmitted_congr (h : t.connection.path = s.connection.path) (p : PathId) :
    (t.path p).transmitted = (s.path p).transmitted := by rw [path, path, h]

theorem WorkStep.remembers {w : Work} (h : WorkStep s w t) : s.Remembers t := by
  intro p
  obtain hsame | ⟨op, -, hl⟩ := h.link_cases p
  · rw [hsame]; exact fun b hb => hb
  · exact fun b hb => hl.subset hb

/-- A piece of work keeps an invariant of links. -/
theorem WorkStep.holds {I : PathConf → Link → Prop} (hI : LinkInvariant (fun _ _ _ => True) I)
    {w : Work} (h : WorkStep s w t) (hs : LinkInvariant.Holds I s) : LinkInvariant.Holds I t := by
  intro p
  rw [pathConf, h.conf]
  obtain hsame | ⟨op, -, hl⟩ := h.link_cases p
  · rw [hsame]; exact hs p
  · exact hI.step (hs p) hl fun _ => trivial

/-- **A request that is noted was transmitted for the first time.** -/
theorem WorkStep.notified {w : Work} (h : WorkStep s w t)
    (hs : LinkInvariant.Holds (fun _ l => l.Traced) s) :
    t.connection.giNotified = s.connection.giNotified ∨ Transmits giPayload s t := by
  cases h with
  | link => exact Or.inl rfl
  | other h => exact Or.inl h.giNotified
  | interrogate p now =>
    rw [sendGeneralInterrogation_eq]
    by_cases hsent : (s.sendInfo p now giPayload).1 = true
    · rw [if_pos hsent]
      refine Or.inr (transmits_iff.mpr ⟨p, (s.path p).taken.length, ?_, (hs p).fresh giPayload⟩)
      have hlink : ((s.sendInfo p now giPayload).2.path p).toLink =
          ((s.path p).toLink.sendInfo (s.pathConf p) now.ms giPayload).2 := by
        rw [sendInfo, link_modifyLink, if_pos rfl]
      have hnotify : ((notifyGIsent now (s.sendInfo p now giPayload).2).path p).transmitted =
          ((s.sendInfo p now giPayload).2.path p).transmitted :=
        transmitted_congr (by rw [connection_notifyGIsent]) p
      rw [hnotify, hlink, Link.transmitted_sendInfo]
      rw [if_pos (by exact hsent)]
      simp
    · rw [if_neg hsent]
      exact Or.inl rfl

/-- The requests noted since `s` were transmitted. -/
structure Accounts (s u : System) : Prop where
  traced : LinkInvariant.Holds (fun _ l => l.Traced) u
  remembers : s.Remembers u
  notified : u.connection.giNotified = s.connection.giNotified ∨ Transmits giPayload s u

theorem Works.accounts (h : Works ok t u) (hs : s.Accounts t) : s.Accounts u :=
  h.invariant (I := s.Accounts) (fun {v w a} _ hv hst =>
    { traced := hst.holds linkInvariant_traced hv.traced
      remembers := hv.remembers.trans hst.remembers
      notified := by
        obtain heq | htransmits := hst.notified hv.traced
        · rw [heq]
          exact hv.notified.imp_right fun h => h.mono hst.remembers
        · exact Or.inr (htransmits.of_remembers hv.remembers) }) hs

theorem Accounts.fire (hs : s.Accounts t) (f : Option (PathId × ConnectionEvent)) :
    s.Accounts (t.fire now f) := by
  cases f with
  | none => exact hs
  | some pe =>
    obtain ⟨p, e⟩ := pe
    have hsame : ∀ q, ((t.protocolStateTransition p e now).path q).transmitted =
        (t.path q).transmitted := by
      intro q
      rw [link_protocolStateTransition]
      split_ifs with hq
      · rw [hq, Link.transmitted_transition]
      · rfl
    have hremembers : t.Remembers (t.protocolStateTransition p e now) :=
      fun q b hb => (hsame q).symm ▸ hb
    obtain ⟨_, _, _, _, _, hconn⟩ := arbitrates_protocolStateTransition (s := t) (p := p) e now
    have hnotified := congrArg HNZConnection.giNotified hconn
    refine ⟨linkInvariant_traced.protocolStateTransition hs.traced, hs.remembers.trans hremembers, ?_⟩
    exact hs.notified.imp hnotified.trans fun h => h.mono hremembers

variable [Platform]

/-- **The requests an event notes were transmitted.** -/
theorem notified_of_step {ev : Event} (h : s.step ev = some t)
    (hs : LinkInvariant.Holds (fun _ l => l.Traced) s) :
    s.Remembers t ∧
      (t.connection.giNotified = s.connection.giNotified ∨ Transmits giPayload s t) := by
  obtain ⟨-, u, now, hpre, hpost⟩ := step_cases h
  have hfirst : s.Accounts s := ⟨hs, fun _ _ hb => hb, Or.inl rfl⟩
  have hlast := hpost.accounts ((hpre.accounts hfirst).fire (s.fires ev))
  exact ⟨hlast.remembers, hlast.notified⟩

end System

end Hnz
