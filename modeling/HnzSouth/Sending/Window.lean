import HnzSouth.Behaviour.Links
import HnzSouth.Path.Numbers

/-!
# Sending/Window — the window of unacknowledged messages

The unacknowledged messages carry the numbers from `nrr` on, and `ns` is the number after them
(`Consecutive`).  The operations keep this, with one exception: a retransmission moves all messages
but the first back to the waiting queue, and leaves `ns` where it was.  In a run whose
retransmissions all find one message, the valid NRs are the ones that acknowledge a prefix.
-/

namespace Hnz

open Machinery

namespace Link

variable {c : PathConf} {now : Int} {l l' : Link} {op : Op} {nr : Fin 8} {ms : List Message}

/-! ## Consecutive numbers -/

/-- The unacknowledged messages carry the numbers from `nrr` up to `ns`. -/
structure Consecutive (l : Link) : Prop where
  sent : ∀ i m, l.msgSent[i]? = some m → m.ns = l.nrr + Fin.ofNat 8 i
  next : l.ns = l.nrr + Fin.ofNat 8 l.msgSent.length

theorem Consecutive.congr (h : l.Consecutive) (hsent : l'.msgSent = l.msgSent) (hns : l'.ns = l.ns)
    (hnrr : l'.nrr = l.nrr) : l'.Consecutive :=
  ⟨by rw [hsent, hnrr]; exact h.sent, by rw [hsent, hns, hnrr]; exact h.next⟩

theorem consecutive_of_nil (hsent : l.msgSent = []) (hns : l.ns = l.nrr) : l.Consecutive :=
  ⟨by simp [hsent], by simp [hsent, hns]⟩

/-- A transmission gives the next number. -/
theorem Consecutive.transmit (c : PathConf) (now : Int) (h : l.Consecutive) (m : Message) :
    (l.transmit c now m).Consecutive := by
  by_cases hm : l.admits c m.payload
  · rw [transmit_of_admits hm]
    refine ⟨fun i x hx => ?_, ?_⟩
    · rcases lt_or_ge i l.msgSent.length with hi | hi
      · rw [List.getElem?_append_left hi] at hx
        exact h.sent i x hx
      · rw [List.getElem?_append_right hi, List.getElem?_singleton] at hx
        split_ifs at hx with hi'
        cases hx
        rw [show i = l.msgSent.length by omega]
        exact h.next
    · simp only [List.length_append, List.length_singleton, ofNat_add, ofNat_one, ← add_assoc]
      exact congrArg (· + 1) h.next
  · rwa [transmit_of_not_admits hm]

theorem Consecutive.transmitAll (c : PathConf) (now : Int) (h : l.Consecutive) (ms : List Message) :
    (l.transmitAll c now ms).Consecutive := by
  induction ms generalizing l with
  | nil => exact h
  | cons m ms ih => exact ih (h.transmit c now m)

/-! ## Valid NRs -/

/-- **A valid NR acknowledges a prefix** of the unacknowledged messages. -/
theorem Consecutive.isNRValid_iff (h : l.Consecutive) (hlen : l.msgSent.length < 8) :
    l.isNRValid nr ↔ ∃ k ≤ l.msgSent.length, nr = l.nrr + Fin.ofNat 8 k := by
  rw [Link.isNRValid_iff, h.next, add_sub_cancel_left, Fin.le_def, val_ofNat_of_lt hlen]
  constructor
  · intro hle
    exact ⟨(nr - l.nrr).val, hle, by simp⟩
  · rintro ⟨k, hk, rfl⟩
    rwa [add_sub_cancel_left, val_ofNat_of_lt (by omega)]

/-- The offset is the length of that prefix. -/
theorem offset_eq {k : Nat} (hk : k < 8) (hnr : nr = l.nrr + Fin.ofNat 8 k) :
    (nr - l.nrr).val = k := by
  rw [hnr, add_sub_cancel_left, val_ofNat_of_lt hk]

theorem Consecutive.acknowledged (now : Int) {k : Nat} (h : l.Consecutive) (hlen : l.msgSent.length < 8)
    (hk : k ≤ l.msgSent.length) (hnr : nr = l.nrr + Fin.ofNat 8 k) :
    (l.acknowledged nr now).Consecutive := by
  have hsent : (l.acknowledged nr now).msgSent = l.msgSent.drop k := by
    rw [← offset_eq (by omega) hnr]; rfl
  refine ⟨fun i m hm => ?_, ?_⟩
  · rw [hsent, List.getElem?_drop] at hm
    rw [h.sent _ m hm, ofNat_add, ← add_assoc, ← hnr]
    rfl
  · have hsplit : l.msgSent.length = k + (l.msgSent.drop k).length := by
      rw [List.length_drop]; omega
    rw [hsent]
    change l.ns = nr + _
    rw [hnr, add_assoc, ← ofNat_add, ← hsplit]
    exact h.next

/-! ## The invariant -/

/-- The path sends information frames. -/
def Sends (st : ProtocolState) : Prop := st = .connected ∨ st = .outputConnected

/-- **The window**: consecutive numbers, and no more messages than the anticipation ratio. -/
structure InWindow (c : PathConf) (l : Link) : Prop where
  consecutive : l.Consecutive
  length_le : l.msgSent.length ≤ c.anticipationRatio

theorem InWindow.receivedRR (h : l.InWindow c) (hratio : c.anticipationRatio < 8) {f b : Bool}
    (hrr : l.receivedRR c now nr f = .ok (b, l')) : l'.InWindow c := by
  obtain ⟨-, hvalid, -, hrel⟩ | rfl := receivedRR_cases hrr
  · have hlen : l.msgSent.length < 8 := h.length_le.trans_lt hratio
    obtain ⟨k, hk, hnr⟩ := (h.consecutive.isNRValid_iff hlen).mp hvalid
    obtain ⟨out, rest, -, -, rfl, -, hfits⟩ := releaseWaiting_cases hrel
    have hcons := (h.consecutive.acknowledged now hlen hk hnr).transmitAll c now out
    refine ⟨⟨hcons.sent, hcons.next⟩, ?_⟩
    rcases out.eq_nil_or_concat with rfl | ⟨_, _, hne⟩
    · exact (List.length_drop .. ▸ Nat.sub_le _ _).trans h.length_le
    · exact hfits (by simp [hne])
  · exact h

theorem InWindow.congr (h : l.InWindow c) (hsent : l'.msgSent = l.msgSent) (hns : l'.ns = l.ns)
    (hnrr : l'.nrr = l.nrr) : l'.InWindow c :=
  ⟨h.consecutive.congr hsent hns hnrr, hsent ▸ h.length_le⟩

/-- **The step lemma**: no step leaves the window, unless it sends back one message of several. -/
theorem InWindow.step (h : l.InWindow c) (hratio : c.anticipationRatio < 8)
    (hst : Step c l op l') (halone : op = .resend → l.msgSent.length ≤ 1) : l'.InWindow c := by
  cases hst with
  | submit now msg =>
    rw [sendInfo_eq]
    split_ifs with hadmits hroom
    · have htake : (l.take msg).InWindow c := h.congr rfl rfl rfl
      refine ⟨htake.consecutive.transmit c now _, ?_⟩
      have hm : (l.take msg).admits c (l.submitted msg).payload := hadmits
      rw [transmit_of_admits hm]
      simpa [take] using hroom
    · exact h.congr rfl rfl rfl
    · exact h
  | acknowledge hrr => exact h.receivedRR hratio hrr
  | inform hrr =>
    obtain ⟨l₁, h₁, hl'⟩ := sendRR_cases hrr
    have hl₁ := h.receivedRR hratio h₁
    obtain ⟨-, rfl⟩ | ⟨-, -, rfl⟩ | ⟨-, -, -, rfl⟩ | ⟨-, -, -, rfl⟩ := hl'
    · exact hl₁
    all_goals exact hl₁.congr rfl rfl rfl
  | resend =>
    refine h.congr ?_ rfl rfl
    exact List.take_of_length_le (halone rfl)
  | supervise => exact h.congr rfl rfl rfl
  | touch hcore =>
    exact h.congr (congrArg Core.msgSent hcore) (congrArg Core.ns hcore)
      (congrArg Core.nrr hcore)

/-! ## Transitions -/

/-- **The table**: a path that starts sending restarts its numbers, and one that goes on sending
either does so with empty queues or keeps numbers and queues. -/
theorem transitionMap_sends (ps : ProtocolState) (e : ConnectionEvent)
    (h : Sends (((transitionMap ps e).map Prod.fst).getD ps)) :
    (performs restartsOutput ps e = true ∧ (performs discards ps e = true ∨ ¬Sends ps)) ∨
      (performs restartsOutput ps e = false ∧ performs discards ps e = false ∧ Sends ps) := by
  cases ps <;> cases e <;> simp_all [Sends, transitionMap, performs, restartsOutput, discards]

/-- A path that sends nothing holds nothing. -/
theorem Admitted.held_of_not_sends (h : l.Admitted c) (hps : ¬Sends l.protocolState) :
    l.held = [] := by
  refine h.held_eq_nil ?_
  cases hst : l.protocolState <;> simp_all [Sends]

theorem msgSent_transition (e : ConnectionEvent) :
    (l.transition now e).msgSent = if performs discards l.protocolState e then [] else l.msgSent :=
  view_transition discards (fun _ _ => rfl) (fun a _ => by cases a <;> rfl) e

theorem InWindow.transition (h : Sends l.protocolState → l.InWindow c) (hadm : l.Admitted c)
    (e : ConnectionEvent) (hsends : Sends (l.transition now e).protocolState) :
    (l.transition now e).InWindow c := by
  rw [protocolState_transition] at hsends
  obtain ⟨hrestart, hempty⟩ | ⟨hrestart, hdiscard, hps⟩ := transitionMap_sends _ e hsends
  · have hnil : (l.transition now e).msgSent = [] := by
      rw [msgSent_transition]
      split_ifs with hd
      · rfl
      · have hheld := hadm.held_of_not_sends (hempty.resolve_left hd)
        exact (List.append_eq_nil_iff.mp (List.map_eq_nil_iff.mp hheld)).1
    exact ⟨consecutive_of_nil hnil (by rw [ns_transition, nrr_transition, if_pos hrestart,
      if_pos hrestart]), by simp [hnil]⟩
  · exact (h hps).congr (by simp [msgSent_transition, hdiscard])
      (by simp [ns_transition, hrestart]) (by simp [nrr_transition, hrestart])

/-! ## What the numbers are for -/

/-- An accepted NR removes the prefix it acknowledges, before the waiting messages join. -/
theorem msgSent_nrAccepted (h : l.nrAccepted c now nr = .ok l') {k : Nat} (hk : k < 8)
    (hnr : nr = l.nrr + Fin.ofNat 8 k) :
    ∃ out, l'.msgSent = l.msgSent.drop k ++ out ∧
      out.map Message.body <+: l.msgWaiting.map Message.body := by
  rw [nrAccepted_eq] at h
  obtain ⟨out, rest, hwait, hout, rfl, -⟩ := releaseWaiting_cases h
  have hsent : (l.acknowledged nr now).msgSent = l.msgSent.drop k := by
    rw [← offset_eq hk hnr]; rfl
  obtain ⟨⟨new, hnew, hbodies⟩, -⟩ := exists_transmitAll now hout
  refine ⟨new, by rw [hnew, hsent], ?_⟩
  rw [hbodies, hwait, List.map_append]
  exact List.prefix_append _ _

/-- **The send window**: the numbers, and what they say about a received NR. -/
structure SendWindow (c : PathConf) (l : Link) : Prop where
  length_le : l.msgSent.length ≤ c.anticipationRatio
  sent : ∀ i m, l.msgSent[i]? = some m → m.ns = l.nrr + Fin.ofNat 8 i
  next : l.ns = l.nrr + Fin.ofNat 8 l.msgSent.length
  /-- A valid NR acknowledges a prefix, possibly empty. -/
  valid_iff : ∀ nr, l.isNRValid nr ↔ ∃ k ≤ l.msgSent.length, nr = l.nrr + Fin.ofNat 8 k
  /-- That prefix is what it removes. -/
  removes : ∀ k ≤ l.msgSent.length, ∀ now l',
    l.nrAccepted c now (l.nrr + Fin.ofNat 8 k) = .ok l' →
      ∃ out, l'.msgSent = l.msgSent.drop k ++ out ∧
        out.map Message.body <+: l.msgWaiting.map Message.body

theorem InWindow.sendWindow (h : l.InWindow c) (hratio : c.anticipationRatio < 8) :
    l.SendWindow c where
  length_le := h.length_le
  sent := h.consecutive.sent
  next := h.consecutive.next
  valid_iff _ := h.consecutive.isNRValid_iff (h.length_le.trans_lt hratio)
  removes _ hk _ _ hok := msgSent_nrAccepted hok ((hk.trans h.length_le).trans_lt hratio) rfl

/-- A retransmission finds one message. -/
def ResendsAlone (_ : PathConf) (x : Core) (op : Op) : Prop :=
  op = .resend → x.msgSent.length ≤ 1

instance (c : PathConf) (x : Core) (op : Op) : Decidable (ResendsAlone c x op) :=
  inferInstanceAs (Decidable (_ → _))

end Link

/-- **The window is an invariant** of the links that resend alone. -/
theorem linkInvariant_window : LinkInvariant Link.ResendsAlone fun c l =>
    l.Admitted c ∧ (c.anticipationRatio < 8 → Link.Sends l.protocolState → l.InWindow c) where
  init {c l} h := by
    refine ⟨linkInvariant_admitted.init h, fun _ hs => ?_⟩
    have hp : l.protocolState = .connection := congrArg Link.Core.protocolState h
    simp [Link.Sends, hp] at hs
  step {c l l' op} h hst hgood := by
    refine ⟨h.1.step hst, fun hratio hs => ?_⟩
    rw [hst.protocolState] at hs
    exact (h.2 hratio hs).step hratio hst fun hop => hgood (hop ▸ trivial) hop
  transition now e h :=
    ⟨h.1.transition e, fun hratio hs => .transition (h.2 hratio) h.1 e hs⟩

/-! ## Runs of the plugin -/

namespace Plugin

variable [Platform]

/-- **The send window**, in every run whose retransmissions find one message each. -/
theorem sendWindow_of_run {pl : Plugin} {calls : List Call} {c : HNZConnection}
    (h : Run (Under (LinkInvariant.PluginMovesWell Link.ResendsAlone) Step) {} calls pl)
    (hc : pl.connection = some c) (p : PathId)
    (hratio : (c.conf.pathConf p).anticipationRatio ∈ Set.Icc 1 7)
    (hst : (c.path p).protocolState = .connected ∨ (c.path p).protocolState = .outputConnected) :
    (c.path p).toLink.SendWindow (c.conf.pathConf p) := by
  have hlt : (c.conf.pathConf p).anticipationRatio < 8 := by have := hratio.2; omega
  exact ((linkInvariant_window.plugin h hc p).2 hlt hst).sendWindow hlt

end Plugin

/-! ## Two commands without an answer -/

namespace Plugin

open Sample

/-- Path A is connected, and two commands were sent on it. -/
def commanding : List Call :=
  listening ++ [.event (.protocol .A .receivedUa 0),
    .event (.operation "HNZCommand" [("co_type", "TC"), ("co_addr", "31"), ("co_value", "1")] 0),
    .event (.operation "HNZCommand" [("co_type", "TC"), ("co_addr", "32"), ("co_value", "1")] 0)]

set_option maxRecDepth 8000 in
/-- The window holds the two commands. -/
theorem sendWindow_commanding :
    ∃ pl c, exec Plugin.step {} commanding = some pl ∧ pl.connection = some c ∧
      (c.path .A).msgSent.map Message.ns = [0, 1] ∧ (c.path .A).toLink.SendWindow (c.conf.pathConf .A) := by
  let pl : Plugin := (exec Plugin.step {} commanding).get rfl
  let c : HNZConnection := pl.connection.get rfl
  have hpl : exec Plugin.step {} commanding = some pl := rfl
  have hc : pl.connection = some c := rfl
  have hrun : Run (Under (LinkInvariant.PluginMovesWell Link.ResendsAlone) Step) {} commanding pl :=
    run_under_iff.mpr rfl
  exact ⟨pl, c, hpl, hc, by rfl, sendWindow_of_run hrun hc .A (by decide) (Or.inl rfl)⟩

/-- The same, and three seconds without an answer. -/
def resending : List Call :=
  commanding ++ [.event (.currentTime 4000000000), .event (.checkTimer .A 4000000000)]

set_option maxRecDepth 8000 in
/-- The first command is sent back; the second one is moved back to the waiting queue, but the next
number stays: an NR that acknowledges two messages is valid. -/
theorem not_sendWindow_resending :
    ∃ pl c, exec Plugin.step {} resending = some pl ∧ pl.connection = some c ∧
      (c.path .A).protocolState = .connected ∧ (c.path .A).msgSent.map Message.ns = [0] ∧
      (c.path .A).nrr = 0 ∧ (c.path .A).ns = 2 ∧ (c.path .A).isNRValid 2 = true ∧
      ¬(c.path .A).toLink.SendWindow (c.conf.pathConf .A) := by
  let pl : Plugin := (exec Plugin.step {} resending).get rfl
  let c : HNZConnection := pl.connection.get rfl
  have hsent : (c.path .A).msgSent.map Message.ns = [0] := by rfl
  have hnrr : (c.path .A).nrr = 0 := rfl
  have hns : (c.path .A).ns = 2 := rfl
  refine ⟨pl, c, rfl, rfl, rfl, hsent, hnrr, hns, rfl, fun h => ?_⟩
  have hlen : (c.path .A).msgSent.length = 1 :=
    (List.length_map _).symm.trans (congrArg List.length hsent)
  have hnext := h.next
  rw [hlen, hnrr, hns] at hnext
  exact absurd hnext (by decide)

end Plugin

end Hnz
