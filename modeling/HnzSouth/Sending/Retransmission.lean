import HnzSouth.Sending.Order
import HnzSouth.Sending.Transmissions

/-!
# Sending/Retransmission — the counter of retransmissions

`m_repeat` belongs to the path, not to a message.  It still counts for one message: in every
reachable state it is the number of times the first unacknowledged message was sent back, and the
messages behind it were never sent back (`Counted`).  Whatever changes the head of the queue resets
the counter, and a path that starts sending starts from zero.
-/

namespace Hnz

open Machinery

/-- The frame sends this message back: `sendBackInfo` alone sets the P bit of an information
frame. -/
def Frame.sendsBack (id : Nat) (f : Frame) : Bool :=
  f.origin == some id && pfField (f.bytes.headD 0)

theorem sendsBack_infoType {address : UInt8} {nr ns : Fin 8} {p : Bool} {payload : List UInt8}
    {id k : Nat} : (Frame.mk address (infoType nr ns p :: payload) (some id)).sendsBack k =
      (id == k && p) := by
  simp [Frame.sendsBack]

namespace Link

variable {c : PathConf} {now : Int} {l l' : Link} {op : Op} {k : Nat} {m : Message}

/-! ## Retransmissions -/

/-- **How often a message was sent back.** -/
def resends (id : Nat) (l : Link) : Nat := l.frames.countP (Frame.sendsBack id)

theorem resends_congr (h : l'.frames = l.frames) : l'.resends k = l.resends k := by
  rw [resends, h, resends]

theorem resends_snoc {f : Frame} (h : l'.frames = l.frames ++ [f]) :
    l'.resends k = l.resends k + if f.sendsBack k then 1 else 0 := by
  rw [resends, h, List.countP_append, List.countP_singleton, resends]

/-- A message that was never transmitted was never sent back. -/
theorem Traced.resends_eq_zero (h : l.Traced) (hk : l.taken.length ≤ k) : l.resends k = 0 := by
  refine List.countP_eq_zero.mpr fun f hf hback => ?_
  simp only [Frame.sendsBack, Bool.and_eq_true, beq_iff_eq] at hback
  have hbody : f.body = some (k, f.bytes.tail) := by rw [Frame.body, hback.1]; rfl
  have hget := h.transmitted _ (List.mem_filterMap.mpr ⟨f, hf, hbody⟩)
  rw [List.getElem?_eq_none hk] at hget
  cases hget

/-- A transmission is no retransmission. -/
theorem resends_transmit : (l.transmit c now m).resends k = l.resends k := by
  by_cases hm : l.admits c m.payload
  · rw [transmit_of_admits hm, resends_snoc (l := l) rfl, sendsBack_infoType]
    simp
  · rw [transmit_of_not_admits hm]

theorem resends_transmitAll {ms : List Message} :
    (l.transmitAll c now ms).resends k = l.resends k := by
  induction ms generalizing l with
  | nil => rfl
  | cons m ms ih => exact ih.trans resends_transmit

theorem resends_receivedRR {nr : Fin 8} {f b : Bool} (h : l.receivedRR c now nr f = .ok (b, l')) :
    l'.resends k = l.resends k := by
  obtain ⟨-, -, -, h⟩ | rfl := receivedRR_cases h
  · obtain ⟨out, rest, -, -, rfl, -⟩ := releaseWaiting_cases h
    exact (resends_transmitAll (l := l.acknowledged nr now) :)
  · rfl

/-- A frame without a message sends nothing back. -/
theorem resends_of_supervision {address : UInt8} {bytes : List UInt8}
    (h : l'.frames = l.frames ++ [⟨address, bytes, none⟩]) : l'.resends k = l.resends k := by
  rw [resends_snoc h]
  simp [Frame.sendsBack]

/-- **Only a retransmission counts**, and only for the first unacknowledged message. -/
theorem Step.resends (h : Step c l op l') :
    l'.resends k = l.resends k +
      if op = .resend ∧ l.msgSent.head?.map Message.id = some k then 1 else 0 := by
  cases h with
  | submit now msg =>
    rw [if_neg (by simp), sendInfo_eq]
    split_ifs
    · exact resends_transmit
    · rfl
    · rfl
  | acknowledge h => rw [if_neg (by simp)]; exact resends_receivedRR h
  | inform h =>
    rw [if_neg (by simp)]
    obtain ⟨l₁, h₁, h⟩ := sendRR_cases h
    refine Eq.trans ?_ (resends_receivedRR h₁)
    obtain ⟨-, rfl⟩ | ⟨-, -, rfl⟩ | ⟨-, -, -, rfl⟩ | ⟨-, -, -, rfl⟩ := h
    · rfl
    · exact resends_of_supervision rfl
    · exact resends_of_supervision rfl
    · rfl
  | @resend now rt current m l h =>
    obtain ⟨rest, hsent⟩ := msgSent_of_timeout h
    rw [hsent, resends_snoc (l := l) rfl, sendsBack_infoType]
    simp
  | supervise => rw [if_neg (by simp)]; exact resends_of_supervision rfl
  | touch h => rw [if_neg (by simp)]; exact resends_congr (congrArg Core.frames h)

theorem resends_transition (e : ConnectionEvent) :
    (l.transition now e).resends k = l.resends k := resends_congr (frames_transition e)

/-! ## The messages behind the first one -/

/-- The messages held behind the first unacknowledged one. -/
def behind (l : Link) : List (Nat × List UInt8) := (l.msgSent.tail ++ l.msgWaiting).map Message.body

theorem behind_subset_held : l.behind ⊆ l.held := by
  refine List.map_subset _ (List.append_subset.mpr ⟨fun m hm => ?_, List.subset_append_right _ _⟩)
  exact List.mem_append_left _ (List.mem_of_mem_tail hm)

/-- A number that acknowledges something leaves only messages that are behind. -/
theorem remaining_subset_behind (hk : 0 < k) :
    (l.msgSent.drop k).map Message.body ++ l.msgWaiting.map Message.body ⊆ l.behind := by
  rw [← List.map_append]
  refine List.map_subset _ (List.append_subset.mpr ⟨fun m hm => ?_, List.subset_append_right _ _⟩)
  refine List.mem_append_left _ ?_
  rw [← List.drop_one]
  exact List.drop_subset_drop_left _ hk hm

/-! ## Places -/

/-- The places of the messages a path holds. -/
def places (l : Link) : List Nat := l.held.map Prod.fst

theorem Recorded.place_lt (h : l.Recorded) (hk : k ∈ l.places) : k < l.taken.length := by
  obtain ⟨b, hb, rfl⟩ := List.mem_map.mp hk
  exact (List.getElem?_eq_some_iff.mp (h b hb)).1

/-- **No message is held twice.** -/
theorem nodup_places_step (hrec : l.Recorded) (h : l.places.Nodup) (hst : Step c l op l') :
    l'.places.Nodup := by
  cases hst with
  | submit now msg =>
    by_cases hadmits : l.admits c msg
    · have hnew : (l.taken.length :: l.places).Nodup :=
        List.nodup_cons.mpr ⟨fun hmem => (hrec.place_lt hmem).false, h⟩
      refine (List.Perm.nodup_iff ?_).mpr hnew
      rw [places, held_sendInfo hadmits]
      split_ifs
      · simp [places, held]
      · simp [places]
    · rw [sendInfo_eq, if_neg hadmits]
      exact h
  | acknowledge hrr =>
    rw [places, held_receivedRR hrr, List.map_drop]
    exact h.sublist (List.drop_sublist _ _)
  | inform hrr =>
    rw [places, held_sendRR hrr, List.map_drop]
    exact h.sublist (List.drop_sublist _ _)
  | resend => rw [places, held_resend]; exact h
  | supervise => exact h
  | touch hcore => rw [places, held_of_core hcore]; exact h

theorem nodup_places_transition (h : l.places.Nodup) (e : ConnectionEvent) :
    (l.transition now e).places.Nodup := by
  rw [places, held_transition]
  split_ifs
  · exact List.nodup_nil
  · exact h

/-! ## The invariant -/

/-- **The counter of retransmissions**: it counts for the first unacknowledged message, while the
path sends; nothing behind that message was sent back. -/
structure Counted (c : PathConf) (l : Link) : Prop where
  fresh : ∀ b ∈ l.behind, l.resends b.1 = 0
  repeats : Sends l.protocolState → l.repeats = (l.msgSent.head?.map fun m => l.resends m.id).getD 0
  le : Sends l.protocolState → l.repeats ≤ max 0 c.repeatMax

/-- What neither moves a message nor sends one back. -/
theorem Counted.congr (h : l.Counted c) (hstate : Sends l'.protocolState → Sends l.protocolState)
    (hsent : l'.msgSent = l.msgSent) (hwaiting : l'.msgWaiting = l.msgWaiting)
    (hrepeats : l'.repeats = l.repeats) (hresends : ∀ k, l'.resends k = l.resends k) :
    l'.Counted c := by
  refine ⟨fun b hb => ?_, fun hs => ?_, fun hs => ?_⟩
  · rw [behind, hsent, hwaiting] at hb
    rw [hresends]
    exact h.fresh b hb
  · simp only [hrepeats, hsent, hresends]
    exact h.repeats (hstate hs)
  · rw [hrepeats]
    exact h.le (hstate hs)

/-- A counter that was reset counts for a message that was never sent back. -/
theorem counted_of_held (hrepeats : l.repeats = 0) (hheld : ∀ b ∈ l.held, l.resends b.1 = 0) :
    l.Counted c := by
  refine ⟨fun b hb => hheld b (behind_subset_held hb), fun _ => ?_, fun _ => ?_⟩
  · rw [hrepeats]
    cases hsent : l.msgSent with
    | nil => rfl
    | cons m rest => exact (hheld m.body (by simp [held, hsent])).symm
  · rw [hrepeats]
    exact le_max_left _ _

/-- **An acknowledgement** starts again at zero, or changes nothing. -/
theorem Counted.receivedRR (h : l.Counted c) {nr : Fin 8} {f b : Bool}
    (hrr : l.receivedRR c now nr f = .ok (b, l')) : l'.Counted c := by
  have hresends : ∀ k, l'.resends k = l.resends k := fun k => resends_receivedRR hrr
  obtain ⟨hne, -, -, hrel⟩ | rfl := receivedRR_cases hrr
  · have hk : 0 < (nr - l.nrr).val := Nat.pos_of_ne_zero fun hz => hne (sub_eq_zero.mp (Fin.ext hz))
    have hheld := held_releaseWaiting hrel
    obtain ⟨out, rest, -, -, rfl, -⟩ := releaseWaiting_cases hrel
    refine counted_of_held kept_transmitAll.repeats fun b hb => ?_
    rw [hheld] at hb
    rw [hresends]
    exact h.fresh b (remaining_subset_behind hk hb)
  · exact h

/-- A submitted message joins the ones behind, if it does not become the first one. -/
theorem mem_behind_sendInfo {msg : List UInt8} {b : Nat × List UInt8}
    (hb : b ∈ (l.sendInfo c now msg).2.behind) : b ∈ l.behind ∨ b = (l.submitted msg).body := by
  rw [sendInfo_eq] at hb
  split_ifs at hb with hadmits hroom
  · have hm : (l.take msg).admits c (l.submitted msg).payload := hadmits
    rw [transmit_of_admits hm] at hb
    cases hsent : l.msgSent with
    | nil => exact Or.inl (by simpa [behind, take, sendFrame, hsent] using hb)
    | cons m rest =>
      simp only [behind, take, hsent, List.cons_append, List.tail_cons, List.map_append,
        List.map_cons, List.map_nil, List.mem_append, List.mem_singleton] at hb ⊢
      obtain (hb | rfl) | hb := hb
      · exact Or.inl (Or.inl hb)
      · exact Or.inr rfl
      · exact Or.inl (Or.inr hb)
  · simp only [behind, take, List.map_append, List.map_cons, List.map_nil, List.mem_append,
      List.mem_singleton] at hb ⊢
    obtain hb | hb | rfl := hb
    · exact Or.inl (Or.inl hb)
    · exact Or.inl (Or.inr hb)
    · exact Or.inr rfl
  · exact Or.inl hb

/-- **A submitted message** is new, and takes its place behind the first one. -/
theorem Counted.submit (h : l.Counted c) (htraced : l.Traced) (now : Int) (msg : List UInt8) :
    (l.sendInfo c now msg).2.Counted c := by
  have hnew : l.resends (l.submitted msg).id = 0 := htraced.resends_eq_zero le_rfl
  have hresends : ∀ k, (l.sendInfo c now msg).2.resends k = l.resends k := fun k =>
    (Step.submit (c := c) now msg l).resends.trans (by simp)
  refine ⟨fun b hb => ?_, ?_, ?_⟩
  · rw [hresends]
    obtain hb | rfl := mem_behind_sendInfo hb
    · exact h.fresh b hb
    · exact hnew
  · simp only [hresends]
    rw [sendInfo_eq]
    split_ifs with hadmits hroom
    · have hm : (l.take msg).admits c (l.submitted msg).payload := hadmits
      rw [transmit_of_admits hm]
      refine fun hs => (h.repeats hs).trans ?_
      cases hsent : l.msgSent with
      | nil => simp [take, hsent, hnew]
      | cons m rest => simp [take, hsent]
    · exact h.repeats
    · exact h.repeats
  · rw [protocolState_sendInfo]
    intro hs
    have hkept : (l.sendInfo c now msg).2.repeats = l.repeats := by
      rw [sendInfo_eq]
      split_ifs
      · exact kept_transmit.repeats
      · rfl
      · rfl
    rw [hkept]
    exact h.le hs

/-- **A retransmission** counts for the first message, and finds the counter below its limit. -/
theorem Counted.resend (h : l.Counted c) (hnodup : l.places.Nodup) {rt : Int} {current : Nat}
    (htimeout : l.timeout c rt current = .resend m) : (l.resend c now m).Counted c := by
  obtain ⟨rest, hsent⟩ := msgSent_of_timeout htimeout
  have hlt : (l.repeats : Int) < c.repeatMax := by
    unfold timeout at htimeout
    simp only [hsent] at htimeout
    split_ifs at htimeout with hdue hmax
    exact not_le.mp hmax
  have hst : Step c l .resend (l.resend c now m) := .resend htimeout
  have hresends : ∀ k, (l.resend c now m).resends k = l.resends k + if m.id = k then 1 else 0 :=
    fun k => hst.resends.trans (by simp [hsent])
  have hhead : (l.resend c now m).msgSent = [m] := by
    change l.msgSent.take 1 = [m]
    rw [hsent, List.take_succ_cons, List.take_zero]
  have hwaiting : (l.resend c now m).msgWaiting = rest ++ l.msgWaiting := by
    change l.msgSent.drop 1 ++ l.msgWaiting = rest ++ l.msgWaiting
    rw [hsent, List.drop_succ_cons, List.drop_zero]
  have hbehind : (l.resend c now m).behind = l.behind := by
    rw [behind, hhead, hwaiting, behind, hsent]
    rfl
  refine ⟨fun b hb => ?_, fun hs => ?_, fun hs => ?_⟩
  · rw [hbehind] at hb
    have hne : m.id ≠ b.1 := fun heq => by
      rw [places, held, hsent, List.cons_append, List.map_cons, List.map_cons] at hnodup
      refine (List.nodup_cons.mp hnodup).1 (List.mem_map.mpr ⟨b, ?_, heq.symm⟩)
      rwa [behind, hsent] at hb
    rw [hresends, if_neg hne]
    exact h.fresh b hb
  · have hcount := h.repeats hs
    simp only [hsent, List.head?_cons, Option.map_some, Option.getD_some] at hcount
    rw [hhead, List.head?_cons, Option.map_some, Option.getD_some, hresends, if_pos rfl, ← hcount]
    rfl
  · refine le_max_of_le_right ?_
    change ((l.repeats + 1 : Nat) : Int) ≤ c.repeatMax
    omega

/-- **The step lemma.** -/
theorem Counted.step (h : l.Counted c) (htraced : l.Traced) (hnodup : l.places.Nodup)
    (hst : Step c l op l') : l'.Counted c := by
  cases hst with
  | submit now msg => exact h.submit htraced now msg
  | acknowledge hrr => exact h.receivedRR hrr
  | inform hrr =>
    obtain ⟨l₁, h₁, hl'⟩ := sendRR_cases hrr
    have hl₁ := h.receivedRR h₁
    obtain ⟨-, rfl⟩ | ⟨-, -, rfl⟩ | ⟨-, -, -, rfl⟩ | ⟨-, -, -, rfl⟩ := hl'
    · exact hl₁
    · exact hl₁.congr id rfl rfl rfl fun k => resends_of_supervision rfl
    · exact hl₁.congr id rfl rfl rfl fun k => resends_of_supervision rfl
    · exact hl₁.congr id rfl rfl rfl fun k => rfl
  | resend htimeout => exact h.resend hnodup htimeout
  | supervise => exact h.congr id rfl rfl rfl fun k => resends_of_supervision rfl
  | touch hcore =>
    have hstep : Step c l .touch l' := .touch hcore
    simp only [core, Core.mk.injEq] at hcore
    exact h.congr (hcore.1 ▸ id) hcore.2.2.1 hcore.2.1 hcore.2.2.2.2.2.2.1 fun k =>
      hstep.resends.trans (by simp)

theorem msgWaiting_transition (e : ConnectionEvent) :
    (l.transition now e).msgWaiting =
      if performs discards l.protocolState e then [] else l.msgWaiting :=
  view_transition discards (fun _ _ => rfl) (fun a _ => by cases a <;> rfl) e

theorem repeats_transition (e : ConnectionEvent) :
    (l.transition now e).repeats = if performs restartsOutput l.protocolState e then 0 else l.repeats :=
  view_transition restartsOutput (fun _ _ => rfl) (fun a _ => by cases a <;> rfl) e

/-- **A path that starts sending** holds nothing and starts from zero; one that goes on sending goes
on counting. -/
theorem Counted.transition (h : l.Counted c) (hadm : l.Admitted c) (now : Int)
    (e : ConnectionEvent) : (l.transition now e).Counted c := by
  have hresends : ∀ k, (l.transition now e).resends k = l.resends k := fun k => resends_transition e
  have hsends : Sends (l.transition now e).protocolState → (l.transition now e).Counted c := by
    intro hs
    rw [protocolState_transition] at hs
    obtain ⟨hrestart, hempty⟩ | ⟨hrestart, hdiscard, hps⟩ := transitionMap_sends _ e hs
    · refine counted_of_held (by rw [repeats_transition, if_pos hrestart]) fun b hb => ?_
      rw [held_transition] at hb
      split_ifs at hb with hd
      · cases hb
      · rw [hadm.held_of_not_sends (hempty.resolve_left hd)] at hb
        cases hb
    · exact h.congr (fun _ => hps) (by simp [msgSent_transition, hdiscard])
        (by simp [msgWaiting_transition, hdiscard]) (by simp [repeats_transition, hrestart]) hresends
  refine ⟨fun b hb => ?_, fun hs => (hsends hs).repeats hs, fun hs => (hsends hs).le hs⟩
  rw [behind, msgSent_transition, msgWaiting_transition] at hb
  rw [hresends]
  split_ifs at hb
  · cases hb
  · exact h.fresh b hb

/-! ## The limit -/

/-- Only a path that sends holds messages it has sent. -/
theorem Admitted.sends (h : l.Admitted c) (hsent : l.msgSent ≠ []) : Sends l.protocolState := by
  by_contra hps
  exact hsent (List.append_eq_nil_iff.mp (List.map_eq_nil_iff.mp (h.held_of_not_sends hps))).1

/-- A path that sends and gives up drops its messages, and is not connected any more. -/
theorem performs_maxSend {ps : ProtocolState} (h : Sends ps) :
    performs discards ps .maxSend = true ∧
      ((transitionMap ps .maxSend).map Prod.fst).getD ps ≠ .connected := by
  obtain rfl | rfl := h
  · exact ⟨rfl, by simp [transitionMap]⟩
  · exact ⟨rfl, by simp [transitionMap]⟩

/-- A timeout that finds the counter at its limit gives up. -/
theorem timeout_eq_maxSend {rt : Int} {current : Nat} (hsent : l.msgSent ≠ [])
    (htcp : l.tcpConnected = true) (hdue : u64 (l.lastSentTime + rt) < current)
    (hmax : c.repeatMax ≤ l.repeats) : l.timeout c rt current = .maxSend := by
  unfold timeout
  cases hmsgs : l.msgSent with
  | nil => exact absurd hmsgs hsent
  | cons m rest => simp [htcp, hdue, hmax]

end Link

/-- **The counter is an invariant** of the links. -/
theorem linkInvariant_counted : LinkInvariant (fun _ _ _ => True) fun c l =>
    (l.Admitted c ∧ l.Traced ∧ l.places.Nodup) ∧ l.Counted c where
  init {c l} h := by
    have hheld : l.held = [] := Link.held_of_core h
    refine ⟨⟨linkInvariant_admitted.init h, linkInvariant_traced.init (c := c) h, ?_⟩, ?_⟩
    · rw [Link.places, hheld]
      exact List.nodup_nil
    · exact Link.counted_of_held (congrArg Link.Core.repeats h) (by simp [hheld])
  step h hst _ :=
    ⟨⟨h.1.1.step hst, h.1.2.1.step hst, Link.nodup_places_step h.1.2.1.recorded h.1.2.2 hst⟩,
      h.2.step h.1.2.1 h.1.2.2 hst⟩
  transition now e h :=
    ⟨⟨h.1.1.transition e, h.1.2.1.transition now e, Link.nodup_places_transition h.1.2.2 e⟩,
      h.2.transition h.1.1 now e⟩

/-! ## Runs of the plugin -/

namespace System

variable {s : System} {p : PathId}

/-- The most that `m_repeat` may reach: one less than the configured count. -/
def repeatBound (s : System) (p : PathId) : Int :=
  max 0 ((s.connection.conf.pathsRepeat p).toNat - 1)

theorem repeatMax_le : (s.pathConf p).repeatMax ≤ s.repeatBound p :=
  le_max_of_le_right (sub_le_sub_right (int32_le _) 1)

variable [Platform]

/-- **A timeout at the limit** fires `MAX_SEND`, which leaves the queues empty. -/
theorem checkTimer_maxSend (hadm : (s.path p).toLink.Admitted (s.pathConf p)) (now : Instant)
    (h : (s.path p).toLink.timeout (s.pathConf p) s.connection.repeatTimeout
      s.connection.current = .maxSend) :
    s.checkRepeat p now = s.protocolStateTransition p .maxSend now ∧
      ((s.checkTimer p now).path p).msgSent = [] ∧ ((s.checkTimer p now).path p).msgWaiting = [] := by
  have hrepeat : s.checkRepeat p now = s.protocolStateTransition p .maxSend now := by
    rw [checkRepeat, h]
  have hsends : Link.Sends (s.path p).protocolState := by
    refine hadm.sends fun hnil => ?_
    rw [Link.timeout, hnil] at h
    cases h
  obtain ⟨hdiscard, hstate⟩ := Link.performs_maxSend hsends
  have hlink : ((s.checkRepeat p now).path p).toLink =
      (s.path p).toLink.transition now.ms .maxSend := by
    rw [hrepeat, link_protocolStateTransition, if_pos rfl]
  have hinit : s.checkTimer p now = s.checkRepeat p now := by
    refine if_neg fun hconnected => hstate ?_
    rw [← Link.protocolState_transition now.ms, ← hlink]
    exact hconnected.1
  rw [hinit, hlink, Link.msgSent_transition, Link.msgWaiting_transition, if_pos hdiscard,
    if_pos hdiscard]
  exact ⟨hrepeat, rfl, rfl⟩

/-- **What the counter of a path says**, and where it ends. -/
structure CountsResends (s : System) (p : PathId) : Prop where
  /-- It counts the retransmissions of the first unacknowledged message. -/
  counts : ∀ m rest, (s.path p).msgSent = m :: rest →
    (s.path p).repeats = (s.path p).resends m.id
  /-- They all took place since that message is the first one: the others have none. -/
  fresh : ∀ m ∈ (s.path p).msgSent.tail ++ (s.path p).msgWaiting, (s.path p).resends m.id = 0
  nodup : (((s.path p).msgSent ++ (s.path p).msgWaiting).map Message.id).Nodup
  le : (s.path p).msgSent ≠ [] → (s.path p).repeats ≤ s.repeatBound p
  maxSend : (s.path p).msgSent ≠ [] → (s.path p).tcpConnected = true →
    u64 ((s.path p).lastSentTime + s.connection.repeatTimeout) < s.connection.current →
    (s.path p).repeats = s.repeatBound p → ∀ now,
      s.checkRepeat p now = s.protocolStateTransition p .maxSend now ∧
        ((s.checkTimer p now).path p).msgSent = [] ∧ ((s.checkTimer p now).path p).msgWaiting = []

theorem countsResends (hadm : (s.path p).toLink.Admitted (s.pathConf p))
    (hnodup : (s.path p).places.Nodup) (h : (s.path p).toLink.Counted (s.pathConf p)) :
    s.CountsResends p where
  counts m rest hsent := by
    have hcount := h.repeats (hadm.sends (by simp [hsent]))
    rwa [hsent, List.head?_cons, Option.map_some, Option.getD_some] at hcount
  fresh m hm := h.fresh m.body (List.mem_map_of_mem hm)
  nodup := by
    rw [Link.places, Link.held, List.map_map] at hnodup
    exact hnodup
  le hsent := (h.le (hadm.sends hsent)).trans (max_le (le_max_left _ _) repeatMax_le)
  maxSend hsent htcp hdue hbound now :=
    checkTimer_maxSend hadm now
      (Link.timeout_eq_maxSend hsent htcp hdue (repeatMax_le.trans hbound.ge))

end System

namespace Plugin

variable [Platform]

/-- **The counter of retransmissions**, in every run and for every configured count. -/
theorem countsResends_of_run {pl : Plugin} {calls : List Call} {c : HNZConnection}
    (h : Run Step {} calls pl) (hc : pl.connection = some c) (p : PathId) :
    System.CountsResends ⟨pl.hnz, c⟩ p := by
  obtain ⟨⟨hadm, -, hnodup⟩, hcounted⟩ := linkInvariant_counted.plugin_always h hc p
  exact System.countsResends hadm hnodup hcounted

end Plugin

/-! ## A command without an answer -/

namespace Plugin

open Sample

/-- The first command is sent back a second time, and four more seconds pass. -/
def exhausting : List Call :=
  resending ++ [.event (.currentTime 8000000000), .event (.checkTimer .A 8000000000),
    .event (.currentTime 12000000000)]

set_option maxRecDepth 8000 in
/-- The counter is at the limit of three transmissions; the next timeout gives up. -/
theorem countsResends_exhausting :
    ∃ pl c, exec Plugin.step {} exhausting = some pl ∧ pl.connection = some c ∧
      (c.path .A).msgSent.map Message.id = [0] ∧ (c.path .A).msgWaiting.map Message.id = [1] ∧
      (c.path .A).repeats = 2 ∧ System.repeatBound ⟨pl.hnz, c⟩ .A = 2 ∧
      System.CountsResends ⟨pl.hnz, c⟩ .A ∧
      ((System.checkTimer .A 12000000000 ⟨pl.hnz, c⟩).path .A).msgSent = [] := by
  let pl : Plugin := (exec Plugin.step {} exhausting).get rfl
  let c : HNZConnection := pl.connection.get rfl
  have hpl : exec Plugin.step {} exhausting = some pl := rfl
  have hids : (c.path .A).msgSent.map Message.id = [0] := by rfl
  have hrepeats : (c.path .A).repeats = 2 := rfl
  have hbound : System.repeatBound ⟨pl.hnz, c⟩ .A = 2 := rfl
  have hlast : (c.path .A).lastSentTime = 8000 := rfl
  have htimeout : c.repeatTimeout = 3000 := by decide +kernel
  have hcurrent : c.current = 12000 := rfl
  have hcounts : System.CountsResends ⟨pl.hnz, c⟩ .A :=
    countsResends_of_run (run_det_iff.mpr hpl) rfl .A
  have hsent : (c.path .A).msgSent ≠ [] := fun hnil => by rw [hnil] at hids; cases hids
  have hdue : u64 ((c.path .A).lastSentTime + c.repeatTimeout) < c.current := by
    rw [hlast, htimeout, hcurrent]
    decide
  have hlimit : ((c.path .A).repeats : Int) = System.repeatBound ⟨pl.hnz, c⟩ .A := by
    rw [hrepeats, hbound]
    rfl
  obtain ⟨-, hempty, -⟩ := hcounts.maxSend hsent rfl hdue hlimit 12000000000
  exact ⟨pl, c, hpl, rfl, hids, rfl, hrepeats, hbound, hcounts, hempty⟩

end Plugin

end Hnz
