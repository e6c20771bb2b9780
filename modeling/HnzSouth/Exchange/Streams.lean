import HnzSouth.Exchange.Frames

/-!
# Exchange/Streams — a path that sends in order

The messages of a connected path that never takes back what it has sent leave in the order of their
submission, and the number of a message is its place, up to a constant.  One lemma for each
operation says which messages it puts on the wire, and that it goes on like this.
-/

namespace Hnz

open Machinery

namespace Link

variable {c : PathConf} {now : Int} {l l' : Link} {d nr : Fin 8} {b : Nat}

/-- **The path sends in order**: it holds the submissions from place `b` on, a window of them was
sent, and the number of a message is its place plus `d`. -/
structure Streams (c : PathConf) (d : Fin 8) (b : Nat) (l : Link) : Prop where
  connected : l.protocolState = .connected
  inOrder : l.InOrder b
  window : l.InWindow c
  nrr : l.nrr = d + Fin.ofNat 8 b
  full : l.msgWaiting = [] ∨ c.anticipationRatio ≤ l.msgSent.length

namespace Streams

theorem ns (h : l.Streams c d b) : l.ns = d + Fin.ofNat 8 (b + l.msgSent.length) := by
  rw [h.window.consecutive.next, h.nrr, ofNat_add, add_assoc]

theorem waiting (h : l.Streams c d b) :
    l.msgWaiting.map Message.body = l.numbered.drop (b + l.msgSent.length) := by
  have hheld := congrArg (List.drop l.msgSent.length) h.inOrder.held
  rw [Link.held, List.map_append, List.drop_left' (List.length_map _), List.drop_drop] at hheld
  exact hheld

theorem place_le (h : l.Streams c d b) : b + l.msgSent.length ≤ l.taken.length := by
  have hlength := congrArg List.length h.inOrder.held
  rw [Link.held, List.length_map, List.length_append, List.length_drop, length_numbered] at hlength
  have hle := h.inOrder.le
  omega

theorem congr (h : l.Streams c d b) (hcore : l'.protocolState = l.protocolState)
    (hsent : l'.msgSent = l.msgSent) (hwaiting : l'.msgWaiting = l.msgWaiting) (hns : l'.ns = l.ns)
    (hnrr : l'.nrr = l.nrr) (htaken : l'.taken = l.taken) : l'.Streams c d b where
  connected := hcore.trans h.connected
  inOrder := by
    refine ⟨?_, htaken ▸ h.inOrder.le⟩
    rw [Link.held, hsent, hwaiting, numbered, htaken]
    exact h.inOrder.held
  window := h.window.congr hsent hns hnrr
  nrr := hnrr.trans h.nrr
  full := by rw [hsent, hwaiting]; exact h.full

/-- Other work. -/
theorem touch (h : l.Streams c d b) (hcore : l'.core = l.core) : l'.Streams c d b :=
  h.congr (congrArg Core.protocolState hcore) (congrArg Core.msgSent hcore)
    (congrArg Core.msgWaiting hcore) (congrArg Core.ns hcore) (congrArg Core.nrr hcore)
    (congrArg Core.taken hcore)

/-! ## Submissions -/

/-- **A submission** goes on the wire if the window is open. -/
theorem sendInfo (h : l.Streams c d b) (hratio : c.anticipationRatio < 8) (now : Int)
    (msg : List UInt8) :
    (l.sendInfo c now msg).2.Streams c d b ∧
      (l.sendInfo c now msg).2.taken = l.taken ++ [msg] ∧
      ∃ sent : List Message, sent.length ≤ 1 ∧
        (l.sendInfo c now msg).2.msgSent.length = l.msgSent.length + sent.length ∧
        sent.map Message.body <+:
          (l.sendInfo c now msg).2.numbered.drop (b + l.msgSent.length) ∧
        l.sentSince (l.sendInfo c now msg).2 = infoFrames l.nr l.ns sent := by
  have hadmits : l.admits c msg := admits_of_connected h.connected msg
  have hstep : Step c l (.submit msg (l.sendInfo c now msg).1) (l.sendInfo c now msg).2 :=
    .submit now msg l
  have htaken : (l.sendInfo c now msg).2.taken = l.taken ++ [msg] := by
    rw [hstep.taken, Op.takes, if_pos hadmits]
  have hserves : Serves c l (.submit msg (l.sendInfo c now msg).1) := fun _ => h.full
  have hinOrder : (l.sendInfo c now msg).2.InOrder b := (h.inOrder.step_iff hstep).mpr hserves
  have hwindow := h.window.step hratio hstep (by rintro ⟨⟩)
  have hconnected : (l.sendInfo c now msg).2.protocolState = .connected :=
    hstep.protocolState.trans h.connected
  have hnumbered := numbered_of_taken htaken
  rw [sendInfo_eq, if_pos hadmits] at hinOrder hwindow hconnected hnumbered htaken ⊢
  by_cases hroom : l.msgSent.length < c.anticipationRatio
  · rw [if_pos hroom] at hinOrder hwindow hconnected hnumbered htaken ⊢
    have hm : (l.take msg).admits c (l.submitted msg).payload := hadmits
    have hnil : l.msgWaiting = [] := h.full.resolve_right (not_le.mpr hroom)
    have hplace : b + l.msgSent.length = l.taken.length := by
      have hwaiting := congrArg List.length h.waiting
      rw [hnil, List.map_nil, List.length_nil, List.length_drop, length_numbered] at hwaiting
      have hle := h.place_le
      omega
    have hlength : ((l.take msg).transmit c now (l.submitted msg)).msgSent.length =
        l.msgSent.length + 1 := by
      rw [transmit_of_admits hm]
      simp [take]
    refine ⟨⟨hconnected, hinOrder, hwindow, ?_, ?_⟩, htaken, [l.submitted msg], le_rfl, hlength,
      ?_, ?_⟩
    · exact kept_transmit.nrr.trans h.nrr
    · exact Or.inl (kept_transmit.msgWaiting.trans hnil)
    · rw [hnumbered, hplace, List.drop_append_of_le_length (by simp),
        List.drop_of_length_le (by simp)]
      exact List.prefix_rfl
    · have hall : ∀ m ∈ [l.submitted msg], (l.take msg).admits c m.payload := by
        intro m hmem
        rw [List.mem_singleton.mp hmem]
        exact hm
      obtain ⟨new, hnew, hbytes⟩ := frames_transmitAll hall
      have hframes : ((l.take msg).transmit c now (l.submitted msg)).frames = l.frames ++ new := hnew
      exact (sentSince_of_frames hframes).trans hbytes
  · rw [if_neg hroom] at hinOrder hwindow hconnected hnumbered htaken ⊢
    refine ⟨⟨hconnected, hinOrder, hwindow, h.nrr, Or.inr (not_lt.mp hroom)⟩, htaken, [],
      Nat.zero_le _, rfl, List.nil_prefix, ?_⟩
    exact sentSince_of_same rfl

/-! ## Retransmission -/

/-- **A retransmission that finds one message** repeats its frame. -/
theorem resend (h : l.Streams c d b) (now : Int) {m : Message} {repeatTimeout : Int}
    {current : Nat} (htimeout : l.timeout c repeatTimeout current = .resend m) (halone : l.msgSent.length ≤ 1) :
    (l.resend c now m).Streams c d b ∧ (l.resend c now m).taken = l.taken ∧
      (l.resend c now m).msgSent = l.msgSent ∧ l.msgSent.length = 1 ∧
      l.taken[b]? = some m.payload ∧
      l.sentSince (l.resend c now m) = [infoType l.nr (d + Fin.ofNat 8 b) true :: m.payload] := by
  obtain ⟨rest, hsent⟩ := msgSent_of_timeout htimeout
  have hrest : rest = [] := by
    rw [hsent, List.length_cons] at halone
    exact List.eq_nil_of_length_eq_zero (by omega)
  rw [hrest] at hsent
  have hkept : (l.resend c now m).msgSent = l.msgSent := by
    change l.msgSent.take 1 = l.msgSent
    rw [hsent]
    rfl
  have hwaiting : (l.resend c now m).msgWaiting = l.msgWaiting := by
    change l.msgSent.drop 1 ++ l.msgWaiting = l.msgWaiting
    rw [hsent]
    rfl
  have hns : m.ns = d + Fin.ofNat 8 b := by
    rw [h.window.consecutive.sent 0 m (by rw [hsent]; rfl), h.nrr]
    exact add_zero _
  have hpayload : l.taken[b]? = some m.payload := by
    have hfirst : l.numbered[b]? = some m.body := by
      rw [← List.head?_drop, ← h.inOrder.held, Link.held, hsent]
      rfl
    rw [numbered, List.getElem?_mapIdx, Option.map_eq_some_iff] at hfirst
    obtain ⟨payload, hget, hbody⟩ := hfirst
    rw [hget]
    exact congrArg some (congrArg Prod.snd hbody)
  refine ⟨h.congr rfl hkept hwaiting rfl rfl rfl, rfl, hkept, by rw [hsent]; rfl, hpayload, ?_⟩
  have hframes : (l.resend c now m).frames =
      l.frames ++ [⟨c.addressARP, infoType l.nr m.ns true :: m.payload, some m.id⟩] := rfl
  rw [sentSince_of_frames hframes, ← hns]
  rfl

/-! ## Received numbers -/

/-- **A received number** that is taken acknowledges messages and lets out others; one that is not
changes nothing. -/
theorem receivedRR (h : l.Streams c d b) (hratio : c.anticipationRatio < 8) {f ok : Bool}
    (hrr : l.receivedRR c now nr f = .ok (ok, l')) :
    (∃ (k : Nat) (out : List Message), k ≤ l.msgSent.length ∧ nr = d + Fin.ofNat 8 (b + k) ∧
        l'.Streams c d (b + k) ∧
        b + k + l'.msgSent.length = b + l.msgSent.length + out.length ∧
        out.map Message.body <+: l.numbered.drop (b + l.msgSent.length) ∧
        l.sentSince l' = infoFrames l.nr l.ns out) ∨
      (l' = l ∧ nr ≠ l.nrr) := by
  have hlen : l.msgSent.length < 8 := h.window.length_le.trans_lt hratio
  obtain ⟨hne, hvalid, -, hrel⟩ | rfl := receivedRR_cases hrr
  · refine Or.inl ?_
    obtain ⟨k, hk, hnr⟩ := (h.window.consecutive.isNRValid_iff hlen).mp hvalid
    have hoffset := offset_eq (hk.trans_lt hlen) hnr
    obtain ⟨out, rest, hwaiting, hout, hl', hfull, -⟩ := releaseWaiting_cases hrel
    have hkept : Kept (l.acknowledged nr now) ((l.acknowledged nr now).transmitAll c now out) :=
      kept_transmitAll
    have hnrr' : l'.nrr = nr := by
      rw [hl']
      exact hkept.nrr
    have hacks : l.acknowledges nr f = k := by
      obtain ⟨hacks, -⟩ | ⟨-, hsame⟩ := receivedRR_acknowledges hrr
      · exact hacks.trans hoffset
      · exact absurd (hnrr'.symm.trans (congrArg Link.nrr hsame)) hne
    have htaken : l'.taken = l.taken := by
      rw [hl']
      exact hkept.taken
    have hinOrder : l'.InOrder (b + k) := by
      have hle := (Nat.add_le_add_left hk b).trans h.place_le
      have hheld := held_receivedRR hrr
      rw [hacks] at hheld
      have hmin := (inOrder_iff_of_drop htaken hheld h.inOrder).mpr (Or.inr hk)
      rwa [min_eq_left hle] at hmin
    have hsum : l.nrr + Fin.ofNat 8 k = d + Fin.ofNat 8 (b + k) := by
      rw [h.nrr, ofNat_add, add_assoc]
    refine ⟨k, out, hk, hnr.trans hsum,
      ⟨?_, hinOrder, h.window.receivedRR hratio hrr, hnrr'.trans (hnr.trans hsum), ?_⟩, ?_, ?_, ?_⟩
    · rw [hl']
      exact hkept.protocolState.trans h.connected
    · rw [hl']
      rcases rest.eq_nil_or_concat with hnil | ⟨_, _, hcons⟩
      · exact Or.inl hnil
      · exact Or.inr (hfull (by simp [hcons]))
    · have hsent : (l.acknowledged nr now).msgSent = l.msgSent.drop k := by rw [← hoffset]; rfl
      obtain ⟨⟨new, hnew, hbodies⟩, -⟩ := exists_transmitAll now hout
      have hnewlen := congrArg List.length hbodies
      rw [List.length_map, List.length_map] at hnewlen
      rw [hl']
      simp only [hnew, hsent, List.length_append, List.length_drop, hnewlen]
      omega
    · rw [← h.waiting, hwaiting, List.map_append]
      exact List.prefix_append _ _
    · obtain ⟨new, hnew, hbytes⟩ := frames_transmitAll hout
      have hframes : l'.frames = l.frames ++ new := by
        rw [hl']
        exact hnew
      exact (sentSince_of_frames hframes).trans hbytes
  · by_cases hnrr : nr = l'.nrr
    · refine Or.inl ⟨0, [], Nat.zero_le _, hnrr.trans h.nrr, h, rfl, List.nil_prefix, ?_⟩
      exact sentSince_of_same rfl
    · exact Or.inr ⟨rfl, hnrr⟩

end Streams

end Link

end Hnz
