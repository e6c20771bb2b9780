import HnzSouth.Path.Release

/-!
# Path/Queues — the messages a path holds

A path holds the messages it has sent and not seen acknowledged, and the ones that wait.  A step
adds to them at most the message that is submitted (`Step.held`), and every message held is one that
the protocol state admits (`Admitted`): before the connection there is none, while only the output
is connected there are only BULLE.  Hence no acknowledgement hangs (`Admitted.exists_receivedRR`).
-/

namespace Hnz

namespace Link

variable {c : PathConf} {now : Int} {l l' : Link} {op : Op} {nr : Fin 8}

/-! ## Held messages -/

/-- The messages a path holds, without their numbers. -/
def held (l : Link) : List (Nat × List UInt8) := (l.msgSent ++ l.msgWaiting).map Message.body

theorem held_of_core (h : l'.core = l.core) : l'.held = l.held := by
  simp only [core, Core.mk.injEq] at h
  rw [held, h.2.1, h.2.2.1, held]

/-- The loop moves messages from one queue to the other. -/
theorem held_releaseWaiting {ms : List Message} (h : releaseWaiting c now ms l = .ok l') :
    l'.held = l.msgSent.map Message.body ++ ms.map Message.body := by
  obtain ⟨out, rest, rfl, hout, rfl, -⟩ := releaseWaiting_cases h
  simp only [held, List.map_append, transmitAll_msgSent now hout, List.append_assoc]

/-- The number of messages that a received number acknowledges. -/
def acknowledges (nr : Fin 8) (repetition : Bool) (l : Link) : Nat :=
  if nr ≠ l.nrr ∧ l.isNRValid nr = true ∧ (!repetition || 0 < l.repeats) = true then
    (nr - l.nrr).val
  else 0

/-- A received number that is accepted starts the loop, and any other changes nothing. -/
theorem receivedRR_acknowledges {f b : Bool} (h : l.receivedRR c now nr f = .ok (b, l')) :
    (l.acknowledges nr f = (nr - l.nrr).val ∧
      releaseWaiting c now l.msgWaiting (l.acknowledged nr now) = .ok l') ∨
      l.acknowledges nr f = 0 ∧ l' = l := by
  unfold acknowledges
  by_cases hok : nr ≠ l.nrr ∧ l.isNRValid nr = true ∧ (!f || 0 < l.repeats) = true
  · rw [if_pos hok]
    simp only [receivedRR, if_pos hok.1, if_pos hok.2.1, if_pos hok.2.2, nrAccepted_eq,
      bind_eq_ok] at h
    obtain ⟨x, hx, h⟩ := h
    cases h
    exact Or.inl ⟨rfl, hx⟩
  · rw [if_neg hok]
    unfold receivedRR at h
    split_ifs at h with h₁ h₂ h₃
    · exact absurd ⟨h₁, h₂, h₃⟩ hok
    all_goals cases h; exact Or.inr ⟨rfl, rfl⟩

/-- **An NR drops the messages it acknowledges**, but none that waits. -/
theorem held_receivedRR {f b : Bool} (h : l.receivedRR c now nr f = .ok (b, l')) :
    l'.held = l.held.drop (min (l.acknowledges nr f) l.msgSent.length) := by
  obtain ⟨hn, h⟩ | ⟨hn, rfl⟩ := receivedRR_acknowledges h
  · have hsent : (l.acknowledged nr now).msgSent = l.msgSent.drop (nr - l.nrr).val := rfl
    rw [hn, held_releaseWaiting h, held, List.map_append, hsent,
      List.drop_append_of_le_length (by simp), List.map_drop]
    rcases le_total (nr - l.nrr).val l.msgSent.length with hle | hle
    · rw [min_eq_left hle]
    · rw [min_eq_right hle, List.drop_of_length_le (by simpa using hle),
        List.drop_of_length_le (by simp)]
  · rw [hn, Nat.zero_min, List.drop_zero]

/-- The other half of an information frame. -/
theorem held_sendRR {p b : Bool} {ns : Fin 8} (h : l.sendRR c now p ns nr = .ok (b, l')) :
    l'.held = l.held.drop (min (l.acknowledges nr false) l.msgSent.length) := by
  obtain ⟨l₁, h₁, h⟩ := sendRR_cases h
  rw [← held_receivedRR h₁]
  obtain ⟨-, rfl⟩ | ⟨-, -, rfl⟩ | ⟨-, -, -, rfl⟩ | ⟨-, -, -, rfl⟩ := h <;> rfl

/-- A retransmission moves messages back. -/
theorem held_resend (m : Message) : (l.resend c now m).held = l.held := by
  change ((l.msgSent.take 1 ++ (l.msgSent.drop 1 ++ l.msgWaiting)).map Message.body) = l.held
  rw [← List.append_assoc, List.take_append_drop, held]

/-- **What a step adds**: a submitted message that the protocol state admits. -/
theorem Step.held (h : Step c l op l') {b : Nat × List UInt8} (hb : b ∈ l'.held) :
    b ∈ l.held ∨ ∃ msg sent, op = .submit msg sent ∧ b = (l.taken.length, msg) ∧ l.admits c msg := by
  cases h with
  | submit now msg =>
    rw [sendInfo_eq] at hb
    split_ifs at hb with hadmits hroom
    · have hm : (l.take msg).admits c (l.submitted msg).payload := hadmits
      rw [transmit_of_admits hm] at hb
      simp only [Link.held, take, sendFrame, List.append_assoc, List.map_append, List.map_cons,
        List.map_nil, List.mem_append, List.mem_singleton] at hb
      rcases hb with hb | rfl | hb
      · exact Or.inl (by simp [Link.held, hb])
      · exact Or.inr ⟨msg, _, rfl, rfl, hadmits⟩
      · exact Or.inl (by simp [Link.held, hb])
    · simp only [Link.held, take, List.map_append, List.map_cons, List.map_nil, List.mem_append,
        List.mem_singleton] at hb
      rcases hb with hb | hb | rfl
      · exact Or.inl (by simp [Link.held, hb])
      · exact Or.inl (by simp [Link.held, hb])
      · exact Or.inr ⟨msg, _, rfl, rfl, hadmits⟩
    · exact Or.inl hb
  | acknowledge h =>
    exact Or.inl (List.mem_of_mem_drop (held_receivedRR h ▸ hb))
  | inform h =>
    exact Or.inl (List.mem_of_mem_drop (held_sendRR h ▸ hb))
  | resend h =>
    rw [held_resend] at hb
    exact Or.inl hb
  | supervise => exact Or.inl hb
  | touch h => exact Or.inl (held_of_core h ▸ hb)

/-! ## Admitted messages -/

/-- **The protocol state admits every message held.** -/
def Admitted (c : PathConf) (l : Link) : Prop := ∀ b ∈ l.held, l.admits c b.2

theorem Admitted.step (h : l.Admitted c) (hst : Step c l op l') : l'.Admitted c := by
  intro b hb
  rw [admits_congr hst.protocolState]
  obtain hb | ⟨msg, -, -, rfl, hmsg⟩ := hst.held hb
  · exact h b hb
  · exact hmsg

/-! ## Transitions -/

/-- The actions that discard. -/
def discards : Action → Bool := (· == .discardMessages)

theorem held_transition (e : ConnectionEvent) :
    (l.transition now e).held = if performs discards l.protocolState e then [] else l.held :=
  view_transition discards (fun _ _ => rfl) (fun a _ => by cases a <;> rfl) e

/-- **The table discards the messages** of a path that leaves `outputConnected` or `connected`,
unless it becomes `connected`. -/
theorem performs_discards {ps st : ProtocolState} {e : ConnectionEvent} {acts : List Action}
    (h : transitionMap ps e = some (st, acts)) :
    performs discards ps e ∨ st = .connected ∨ ps = .connection ∨ ps = .inputConnected := by
  cases ps <;> cases e <;> cases h <;> simp [performs, transitionMap, discards]

theorem Admitted.held_eq_nil (h : l.Admitted c)
    (hp : l.protocolState = .connection ∨ l.protocolState = .inputConnected) : l.held = [] := by
  refine List.eq_nil_iff_forall_not_mem.mpr fun b hb => ?_
  have := h b hb
  rcases hp with hp | hp <;> simp [admits, hp] at this

/-- **A transition keeps them admitted.** -/
theorem Admitted.transition (h : l.Admitted c) (e : ConnectionEvent) :
    (l.transition now e).Admitted c := by
  intro b hb
  rw [held_transition] at hb
  have hst := protocolState_transition (l := l) now e
  cases hmap : transitionMap l.protocolState e with
  | none =>
    rw [hmap] at hst
    rw [performs, hmap] at hb
    rw [admits_congr (c := c) (show _ = l.protocolState from hst)]
    exact h b hb
  | some entry =>
    obtain ⟨st, acts⟩ := entry
    rw [hmap] at hst
    obtain hd | rfl | hp := performs_discards hmap
    · rw [if_pos hd] at hb; cases hb
    · exact admits_of_connected hst b.2
    · rw [h.held_eq_nil hp] at hb
      split_ifs at hb <;> cases hb

/-! ## No acknowledgement hangs -/

theorem Admitted.exists_receivedRR (h : l.Admitted c) (now : Int) (nr : Fin 8) (f : Bool) :
    ∃ b l', l.receivedRR c now nr f = .ok (b, l') := by
  have hwait : ∀ m ∈ l.msgWaiting, (l.acknowledged nr now).admits c m.payload := fun m hm =>
    h m.body (List.mem_map_of_mem (List.mem_append_right _ hm))
  obtain ⟨x, hx⟩ := exists_releaseWaiting now hwait
  unfold receivedRR
  split_ifs
  · rw [nrAccepted_eq, hx]; exact ⟨true, x, rfl⟩
  all_goals exact ⟨_, _, rfl⟩

theorem Admitted.exists_sendRR (h : l.Admitted c) (now : Int) (p : Bool) (ns nr : Fin 8) :
    ∃ b l', l.sendRR c now p ns nr = .ok (b, l') := by
  obtain ⟨b, x, hx⟩ := h.exists_receivedRR now nr false
  unfold sendRR
  rw [hx]
  cases b with
  | false => exact ⟨false, x, rfl⟩
  | true => exact ⟨true, _, rfl⟩

end Link

end Hnz
