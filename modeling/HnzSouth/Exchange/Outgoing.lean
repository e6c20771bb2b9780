import HnzSouth.Exchange.Streams

/-!
# Exchange/Outgoing — the messages of the path

In a session in which no retransmission takes back what was sent, the messages of the path are a
transfer (`Outgoing.step`): places count without end, and the numbers on the wire are their residues.
So the station accepts the submissions, in their order, each once (`Session.exactlyOnce_of_run`), and
what the path has forgotten was accepted (`Session.delivered_of_run`).
-/

namespace Hnz

open Machinery

variable {c : PathConf} {window n : Nat} {d : Fin 8} {s s' : Session} {t : Transfer}
  {a : Session.Act}

/-! ## Prefixes -/

theorem prefix_concat {α : Type*} {xs ys : List α} {y : α} (h : xs <+: ys)
    (hy : ys[xs.length]? = some y) : xs ++ [y] <+: ys := by
  obtain ⟨rest, rfl⟩ := h
  rw [List.getElem?_append_right le_rfl, Nat.sub_self] at hy
  obtain ⟨z, zs, rfl⟩ := List.exists_cons_of_ne_nil (l := rest) (by rintro rfl; cases hy)
  obtain rfl := Option.some.inj hy
  exact ⟨zs, by simp⟩

theorem drop_prefix_append {α : Type*} (n : Nat) (xs more : List α) :
    xs.drop n <+: (xs ++ more).drop n := by
  rw [List.drop_append]
  exact List.prefix_append _ _

/-! ## The transfer -/

/-- **The messages of the path are this transfer**: of the submissions from place `n` on, the station
has taken those it has accepted, and the path has sent those it does not keep waiting. -/
structure Outgoing (c : PathConf) (d : Fin 8) (n : Nat) (s : Session) (t : Transfer) : Prop where
  streams : s.link.Streams c d t.base
  next : t.next = t.base + s.link.msgSent.length
  vr : s.station.vr = d + Fin.ofNat 8 t.received
  received : t.received = n + s.station.accepted.length
  accepted : s.station.accepted <+: s.link.taken.drop n
  data : List.Forall₂ (Carries d s.link.taken) (s.toStation.filter isInfo) t.data
  acks : List.Forall₂ (Reports d) s.toPath t.acks

/-- The transfer follows to this session. -/
def Outgoing.Follows (c : PathConf) (d : Fin 8) (n : Nat) (t : Transfer) (s' : Session) : Prop :=
  ∃ xs t', Run (Transfer.Step c.anticipationRatio 8) t xs t' ∧ Outgoing c d n s' t'

namespace Outgoing

/-- What the station expects is on no other message under way. -/
theorem vr_eq_iff (h : Outgoing c d n s t) (j : Nat) :
    d + Fin.ofNat 8 j = s.station.vr ↔ j ≡ t.received [MOD 8] := by
  rw [h.vr, add_right_inj, ofNat_inj]

/-- The path has moved, and sent frames. -/
theorem emit (h : Outgoing c d n s t) (l : Link) {b k : Nat} {js acks : List Nat}
    {more : List (List UInt8)} (hstation : s'.station = s.station) (hlink : s'.link = l)
    (hwire : s'.toStation = s.toStation ++ s.link.sentSince l)
    (hstreams : l.Streams c d b) (hnext : t.next + k = b + l.msgSent.length)
    (htaken : l.taken = s.link.taken ++ more)
    (hdata : List.Forall₂ (Carries d l.taken) ((s.link.sentSince l).filter isInfo) js)
    (hacks : List.Forall₂ (Reports d) s'.toPath acks) :
    Outgoing c d n s' ⟨b, t.next + k, t.received, t.data ++ js, acks⟩ where
  streams := hlink ▸ hstreams
  next := by rw [hlink]; exact hnext
  vr := by rw [hstation]; exact h.vr
  received := by rw [hstation]; exact h.received
  accepted := by
    rw [hstation, hlink, htaken]
    exact h.accepted.trans (drop_prefix_append n _ _)
  data := by
    rw [hlink, hwire, List.filter_append]
    refine List.rel_append (h.data.imp fun bytes j hj => ?_) hdata
    rw [htaken]
    exact hj.mono more
  acks := hacks

/-- The station has done something that is none of this transfer's business, but for its reports. -/
theorem reported (h : Outgoing c d n s t) {reports : List (List UInt8)} {k : Nat}
    (hlink : s'.link = s.link) (hvr : s'.station.vr = s.station.vr)
    (haccepted : s'.station.accepted = s.station.accepted) (htoStation : s'.toStation = s.toStation)
    (htoPath : s'.toPath = s.toPath ++ reports)
    (hreports : List.Forall₂ (Reports d) reports (List.replicate k t.received)) :
    Outgoing c d n s' { t with acks := t.acks ++ List.replicate k t.received } where
  streams := by rw [hlink]; exact h.streams
  next := by rw [hlink]; exact h.next
  vr := hvr.trans h.vr
  received := by rw [haccepted]; exact h.received
  accepted := by rw [haccepted, hlink]; exact h.accepted
  data := by rw [hlink, htoStation]; exact h.data
  acks := by rw [htoPath]; exact List.rel_append h.acks hreports

/-! ## The steps of the path -/

theorem step_sendInfo (h : Outgoing c d n s t) (hratio : c.anticipationRatio < 8)
    {msg : List UInt8} {now : Int} (hst : s.step c window (.sendInfo msg now) = some s') :
    Follows c d n t s' := by
  obtain rfl := Option.some.inj hst
  obtain ⟨hstreams, htaken, sent, -, hlength, hsent, hwire⟩ := h.streams.sendInfo hratio now msg
  have hns : s.link.ns = d + Fin.ofNat 8 t.next := by rw [h.streams.ns, h.next]
  rw [hns] at hwire
  rw [← h.next] at hsent
  have hnext : t.next + sent.length = t.base + (s.link.sendInfo c now msg).2.msgSent.length := by
    rw [hlength, h.next, Nat.add_assoc]
  have hroom : t.next + sent.length ≤ t.base + c.anticipationRatio := by
    rw [hnext]
    exact Nat.add_le_add_left hstreams.window.length_le _
  have hdata : List.Forall₂ (Carries d (s.link.sendInfo c now msg).2.taken)
      ((s.link.sentSince (s.link.sendInfo c now msg).2).filter isInfo)
      (List.range' t.next sent.length) := by
    rw [hwire, filter_infoFrames]
    exact carries_infoFrames hsent
  exact ⟨_, _, Transfer.run_sends 8 hroom,
    h.emit (s.link.sendInfo c now msg).2 rfl rfl rfl hstreams hnext htaken hdata h.acks⟩

theorem step_checkTimer (h : Outgoing c d n s t) {repeatTimeout now : Int} {current : Nat}
    (halone : s.Alone c (.checkTimer repeatTimeout current now))
    (hst : s.step c window (.checkTimer repeatTimeout current now) = some s') :
    Follows c d n t s' := by
  simp only [Session.step] at hst
  cases htimeout : s.link.timeout c repeatTimeout current with
  | none =>
    rw [htimeout] at hst
    obtain rfl := Option.some.inj hst
    exact ⟨[], t, .nil t, h⟩
  | maxSend =>
    rw [htimeout] at hst
    cases hst
  | resend m =>
    rw [htimeout] at hst
    obtain rfl := Option.some.inj hst
    have hlen : s.link.msgSent.length ≤ 1 := by
      rcases halone with hnone | hlen
      · rw [htimeout] at hnone
        cases hnone
      · exact hlen
    obtain ⟨hstreams, htaken, hkept, hone, hpayload, hwire⟩ :=
      h.streams.resend now htimeout hlen
    have hlast : t.base < t.next := by
      rw [h.next, hone]
      exact Nat.lt_succ_self _
    refine ⟨_, _, .single (.resend le_rfl hlast), ?_⟩
    have hdata : List.Forall₂ (Carries d (s.link.resend c now m).taken)
        ((s.link.sentSince (s.link.resend c now m)).filter isInfo) [t.base] := by
      rw [hwire, htaken, List.filter_cons_of_pos (by simp)]
      exact .cons ⟨_, _, rfl, nsField_infoType _ _ _, hpayload⟩ .nil
    have hnext : t.next + 0 = t.base + (s.link.resend c now m).msgSent.length := by
      rw [hkept, Nat.add_zero, h.next]
    have hemit : Outgoing c d n (s.emit (s.link.resend c now m))
        ⟨t.base, t.next + 0, t.received, t.data ++ [t.base], t.acks⟩ :=
      h.emit (s.link.resend c now m) rfl rfl rfl hstreams hnext
        (htaken.trans (List.append_nil _).symm) hdata h.acks
    exact hemit

theorem step_touch (h : Outgoing c d n s t) {l : Link}
    (hst : s.step c window (.touch l) = some s') : Follows c d n t s' := by
  simp only [Session.step] at hst
  split_ifs at hst with hcore
  obtain rfl := Option.some.inj hst
  have hwire : s.link.sentSince l = [] :=
    Link.sentSince_of_same (congrArg Link.Core.frames hcore)
  refine ⟨[], t, .nil t, ?_⟩
  have hsent : l.msgSent = s.link.msgSent := congrArg Link.Core.msgSent hcore
  have htaken : l.taken = s.link.taken := congrArg Link.Core.taken hcore
  have hemit : Outgoing c d n (s.emit l) ⟨t.base, t.next + 0, t.received, t.data ++ [], t.acks⟩ :=
    h.emit l rfl rfl rfl (h.streams.touch hcore) (by rw [Nat.add_zero, h.next, hsent])
      (htaken.trans (List.append_nil _).symm) (by rw [hwire]; exact .nil) h.acks
  rwa [Nat.add_zero, List.append_nil] at hemit

/-- What a received NR does, whichever frame brought it; `l` is the link after the rest of that
frame's work. -/
theorem received_nr (h : Outgoing c d n s t) (hratio : c.anticipationRatio < 8) {now : Int}
    {type : UInt8} {payload : List UInt8} {rest : List (List UInt8)} {f ok : Bool} {l₁ l : Link}
    (hpath : s.toPath = (type :: payload) :: rest)
    (hrr : s.link.receivedRR c now (nrField type) f = .ok (ok, l₁))
    (hl : l.protocolState = l₁.protocolState ∧ l.msgSent = l₁.msgSent ∧
      l.msgWaiting = l₁.msgWaiting ∧ l.ns = l₁.ns ∧ l.nrr = l₁.nrr ∧ l.taken = l₁.taken)
    (hinfo : (s.link.sentSince l).filter isInfo = (s.link.sentSince l₁).filter isInfo)
    (hstation : s'.station = s.station) (hlink : s'.link = l)
    (hwire : s'.toStation = s.toStation ++ s.link.sentSince l) (hrest : s'.toPath = rest) :
    Follows c d n t s' := by
  obtain ⟨hstate, hsent, hwaiting, hns, hnrr, htaken⟩ := hl
  have hacks := h.acks
  rw [hpath] at hacks
  obtain ⟨x, xs, ⟨_, _, hcons, hx⟩, hxs, hts⟩ := List.forall₂_cons_left_iff.mp hacks
  obtain ⟨rfl, rfl⟩ := List.cons.inj hcons
  have htakenRR : l₁.taken = s.link.taken := Link.taken_receivedRR hrr
  rcases h.streams.receivedRR hratio hrr with
    ⟨k, out, hk, hnr, hstreams, hlength, hout, hsince⟩ | ⟨rfl, hne⟩
  · have hstreams' : l.Streams c d (t.base + k) := hstreams.congr hstate hsent hwaiting hns hnrr htaken
    have hbase : t.base + k ≤ t.next := by rw [h.next]; omega
    have hmod : t.base + k ≡ x [MOD 8] := by
      rw [← ofNat_inj]
      exact add_left_cancel (hnr.symm.trans hx)
    rw [← h.next] at hlength hout
    have hnext : t.next + out.length = t.base + k + l.msgSent.length := by rw [hsent, hlength]
    have hroom : t.next + out.length ≤ t.base + k + c.anticipationRatio := by
      rw [hnext]
      exact Nat.add_le_add_left hstreams'.window.length_le _
    have hdata : List.Forall₂ (Carries d l.taken) ((s.link.sentSince l).filter isInfo)
        (List.range' t.next out.length) := by
      rw [hinfo, hsince, filter_infoFrames, htaken, htakenRR, h.streams.ns, ← h.next]
      exact carries_infoFrames hout
    have hmore : l.taken = s.link.taken ++ [] := by rw [htaken, htakenRR, List.append_nil]
    exact ⟨_, _, .cons (.acknowledge hts hbase hmod) (Transfer.run_sends 8 hroom),
      h.emit l hstation hlink hwire hstreams' hnext hmore hdata (hrest ▸ hxs)⟩
  · have hnone : (s.link.sentSince l).filter isInfo = [] := by
      rw [hinfo, Link.sentSince_of_same rfl]
      rfl
    have hkept : xs.Sublist t.acks := hts ▸ List.sublist_cons_self x xs
    refine ⟨_, _, .single (.forget hkept), ?_⟩
    have hemit : Outgoing c d n s' ⟨t.base, t.next + 0, t.received, t.data ++ [], xs⟩ :=
      h.emit l hstation hlink hwire (h.streams.congr hstate hsent hwaiting hns hnrr htaken)
        (by rw [hsent, Nat.add_zero, h.next]) (htaken.trans (List.append_nil _).symm)
        (by rw [hnone]; exact .nil) (hrest ▸ hxs)
    rwa [Nat.add_zero, List.append_nil] at hemit

theorem step_receive (h : Outgoing c d n s t) (hratio : c.anticipationRatio < 8) {now : Int}
    (hst : s.step c window (.receive now) = some s') : Follows c d n t s' := by
  obtain ⟨type, payload, rest, hpath, ⟨-, ok, l, hrr, rfl⟩ | ⟨-, ok, l, hrr, rfl⟩⟩ :=
    Session.step_receive hst
  · obtain ⟨l₁, h₁, hl⟩ := Link.sendRR_cases hrr
    obtain ⟨-, -, infos, hinfos, -⟩ := Link.receivedRR_spec h₁
    have hfields : l.protocolState = l₁.protocolState ∧ l.msgSent = l₁.msgSent ∧
        l.msgWaiting = l₁.msgWaiting ∧ l.ns = l₁.ns ∧ l.nrr = l₁.nrr ∧ l.taken = l₁.taken := by
      obtain ⟨-, rfl⟩ | ⟨-, -, rfl⟩ | ⟨-, -, -, rfl⟩ | ⟨-, -, -, rfl⟩ := hl <;>
        exact ⟨rfl, rfl, rfl, rfl, rfl, rfl⟩
    -- an RR may follow; it carries nothing
    have hframes : l.frames = l₁.frames ∨
        ∃ address nr f, l.frames = l₁.frames ++ [⟨address, [rrType nr f], none⟩] := by
      obtain ⟨-, rfl⟩ | ⟨-, -, rfl⟩ | ⟨-, -, -, rfl⟩ | ⟨-, -, -, rfl⟩ := hl
      · exact Or.inl rfl
      · exact Or.inr ⟨_, _, _, rfl⟩
      · exact Or.inr ⟨_, _, _, rfl⟩
      · exact Or.inl rfl
    have hinfo : (s.link.sentSince l).filter isInfo = (s.link.sentSince l₁).filter isInfo := by
      rw [Link.sentSince_of_frames hinfos]
      obtain hsame | ⟨address, nr, f, hmore⟩ := hframes
      · rw [Link.sentSince_of_frames (hsame.trans hinfos)]
      · rw [hinfos, List.append_assoc] at hmore
        rw [Link.sentSince_of_frames hmore, List.map_append, List.filter_append]
        simp [rrType_odd]
    exact h.received_nr hratio hpath h₁ hfields hinfo rfl rfl rfl rfl
  · exact h.received_nr hratio hpath hrr ⟨rfl, rfl, rfl, rfl, rfl, rfl⟩ rfl rfl rfl rfl rfl

/-! ## The steps of the station -/

/-- A frame of the station reports what it has taken. -/
theorem step_frame (h : Outgoing c d n s t) (hlink : s'.link = s.link)
    (hvr : s'.station.vr = s.station.vr) (haccepted : s'.station.accepted = s.station.accepted)
    (htoStation : s'.toStation = s.toStation) {j : Nat} {p : Bool}
    (htoPath : s'.toPath = s.toPath ++ [s.station.frame j p]) : Follows c d n t s' := by
  have hreport : List.Forall₂ (Reports d) [s.station.frame j p] (List.replicate 1 t.received) :=
    .cons ⟨_, _, rfl, (nrField_infoType _ _ _).trans h.vr⟩ .nil
  refine ⟨_, _, .single (.report t), ?_⟩
  exact h.reported hlink hvr haccepted htoStation htoPath hreport

/-- **The station takes the next frame**: a message that it expects is the next submission. -/
theorem step_answer (h : Outgoing c d n s t) (hv : t.Valid c.anticipationRatio)
    (hratio : c.anticipationRatio < 8) (hst : s.step c window .answer = some s') :
    Follows c d n t s' := by
  simp only [Session.step] at hst
  split at hst
  · next type payload rest hwire =>
    obtain rfl := Option.some.inj hst
    have hdata := h.data
    rw [hwire] at hdata
    simp only [Station.receive]
    by_cases hinfo : type &&& 0x01 = 0
    · rw [if_pos hinfo]
      rw [List.filter_cons_of_pos (by simp [hinfo])] at hdata
      obtain ⟨j, js, ⟨_, _, hcons, hns, hpayload⟩, hjs, hts⟩ := List.forall₂_cons_left_iff.mp hdata
      obtain ⟨rfl, rfl⟩ := List.cons.inj hcons
      by_cases hvr : nsField type = s.station.vr
      · have hj : j ≡ t.received [MOD 8] := (h.vr_eq_iff j).mp (hns ▸ hvr)
        have hplace : j = t.received := hv.eq_of_accept hratio hts hj
        have hnew : s.station.vr + 1 = d + Fin.ofNat 8 (t.received + 1) := by
          rw [ofNat_add, ofNat_one, ← add_assoc, h.vr]
        refine ⟨_, _, .single (.accept hts hj), ?_⟩
        refine ⟨h.streams, h.next, ?_, ?_, ?_, hjs, ?_⟩
        · simp [hvr, hnew]
        · simp [hvr, h.received, Nat.add_assoc]
        · simp only [Station.vr_acknowledge, Station.accepted_acknowledge, if_pos hvr]
          refine prefix_concat h.accepted ?_
          rw [List.getElem?_drop, ← h.received, ← hplace]
          exact hpayload
        · refine List.rel_append h.acks (.cons ⟨_, _, rfl, ?_⟩ .nil)
          simp [hvr, hnew]
      · have hj : ¬j ≡ t.received [MOD 8] := fun hmod => hvr (hns.trans ((h.vr_eq_iff j).mpr hmod))
        refine ⟨_, _, .cons (.refuse hts hj) (.single (.report _)), ?_⟩
        refine ⟨h.streams, h.next, ?_, ?_, ?_, hjs, ?_⟩
        · simpa [hvr] using h.vr
        · simp [hvr, h.received]
        · simpa [hvr] using h.accepted
        · refine List.rel_append h.acks (.cons ⟨_, _, rfl, ?_⟩ .nil)
          simpa [hvr] using h.vr
    · rw [if_neg hinfo]
      rw [List.filter_cons_of_neg (by simp [hinfo])] at hdata
      refine ⟨[], t, .nil t, ?_⟩
      exact ⟨h.streams, h.next, by simp [h.vr], by simp [h.received], by simpa using h.accepted, hdata,
        by simpa using h.acks⟩
  · cases hst

/-! ## Runs -/

/-- **The step lemma.** -/
theorem step (h : Outgoing c d n s t) (hv : t.Valid c.anticipationRatio)
    (hratio : c.anticipationRatio < 8) (halone : s.Alone c a)
    (hst : s.step c window a = some s') : Follows c d n t s' := by
  cases a with
  | sendInfo msg now => exact h.step_sendInfo hratio hst
  | checkTimer repeatTimeout current now => exact h.step_checkTimer halone hst
  | touch l => exact h.step_touch hst
  | receive now => exact h.step_receive hratio hst
  | submit msg =>
    obtain rfl := Option.some.inj hst
    exact ⟨[], t, .nil t, ⟨h.streams, h.next, h.vr, h.received, h.accepted, h.data, h.acks⟩⟩
  | send =>
    simp only [Session.step] at hst
    split_ifs at hst
    obtain rfl := Option.some.inj hst
    exact h.step_frame rfl rfl rfl rfl rfl
  | «repeat» j p =>
    simp only [Session.step] at hst
    split_ifs at hst
    obtain rfl := Option.some.inj hst
    exact h.step_frame rfl rfl rfl rfl rfl
  | answer => exact h.step_answer hv hratio hst
  | lose toStation toPath =>
    simp only [Session.step] at hst
    split_ifs at hst with hlost
    obtain rfl := Option.some.inj hst
    obtain ⟨data, hdata, hcarries⟩ := exists_sublist h.data (hlost.1.filter isInfo)
    obtain ⟨acks, hacks, hreports⟩ := exists_sublist h.acks hlost.2
    refine ⟨_, _, .cons (.lose hdata) (.single (.forget hacks)), ?_⟩
    exact ⟨h.streams, h.next, h.vr, h.received, h.accepted, hcarries, hreports⟩

/-- A session that begins. -/
theorem of_fresh (hs : s.Fresh) :
    Outgoing c (s.link.ns - Fin.ofNat 8 s.link.taken.length) s.link.taken.length s
      ⟨s.link.taken.length, s.link.taken.length, s.link.taken.length, [], []⟩ where
  streams := by
    refine ⟨hs.connected, ⟨?_, le_rfl⟩, ⟨Link.consecutive_of_nil hs.sent hs.ns, ?_⟩, ?_,
      Or.inl hs.waiting⟩
    · rw [Link.held, hs.sent, hs.waiting, List.drop_of_length_le (by simp)]
      rfl
    · rw [hs.sent]
      exact Nat.zero_le _
    · rw [sub_add_cancel, hs.ns]
  next := by rw [hs.sent]; rfl
  vr := by rw [sub_add_cancel, hs.vr]
  received := by rw [hs.accepted]; rfl
  accepted := by rw [hs.accepted]; exact List.nil_prefix
  data := by rw [hs.toStation]; exact .nil
  acks := by rw [hs.toPath]; exact .nil

/-- **The run lemma.** -/
theorem run (hratio : c.anticipationRatio < 8) {as : List Session.Act}
    (hrun : Run (Under (Session.Alone c) (Session.Step c window)) s as s')
    (h : ∃ t, t.Valid c.anticipationRatio ∧ Outgoing c d n s t) :
    ∃ t, t.Valid c.anticipationRatio ∧ Outgoing c d n s' t := by
  refine hrun.invariant (I := fun s => ∃ t, t.Valid c.anticipationRatio ∧ Outgoing c d n s t) ?_ h
  rintro s a s' ⟨t, hv, ht⟩ ⟨halone, hst⟩
  obtain ⟨xs, t', hxs, ht'⟩ := ht.step hv hratio halone hst
  exact ⟨t', hv.run hratio hxs, ht'⟩

end Outgoing

/-! ## Delivery -/

namespace Session

/-- **What the path has sent was delivered**, of its submissions from place `n` on: the station has
accepted a prefix, and whatever the path does not hold any more is in it. -/
structure Delivered (n : Nat) (s : Session) : Prop where
  accepted : s.station.accepted <+: s.link.taken.drop n
  kept : ∃ b, s.link.held = s.link.numbered.drop b ∧ b ≤ n + s.station.accepted.length
  waiting : s.station.accepted.length + s.link.msgWaiting.length ≤ (s.link.taken.drop n).length

theorem Delivered.of_outgoing (hv : t.Valid c.anticipationRatio) (h : Outgoing c d n s t) :
    s.Delivered n where
  accepted := h.accepted
  kept := ⟨t.base, h.streams.inOrder.held, h.received ▸ hv.base_le⟩
  waiting := by
    have hlength := congrArg List.length h.streams.waiting
    rw [List.length_map, List.length_drop, Link.length_numbered, ← h.next] at hlength
    have hplace := h.streams.place_le
    rw [← h.next] at hplace
    have hreceived := hv.received_le
    rw [h.received] at hreceived
    rw [List.length_drop]
    omega

/-- **Delivery**: in every session of a connected path with a window of at most seven messages, whose
retransmissions find one message each, the station accepts the submissions in their order, none twice
and none left out, and the path forgets none before it was accepted. -/
theorem delivered_of_run (hratio : c.anticipationRatio ∈ Set.Icc 1 7) (hs : s.Fresh)
    {as : List Act} (hrun : Run (Under (Alone c) (Step c window)) s as s') :
    s'.Delivered s.link.taken.length := by
  have hlt : c.anticipationRatio < 8 := Nat.lt_succ_of_le hratio.2
  obtain ⟨t, hv, ht⟩ := Outgoing.run hlt hrun
    ⟨_, Transfer.valid_start c.anticipationRatio s.link.taken.length, .of_fresh hs⟩
  exact .of_outgoing hv ht

/-- A path that has just been connected, and its station. -/
def begun : Session where link := { protocolState := .connected, tcpConnected := true }

theorem fresh_begun : begun.Fresh := by
  constructor <;> rfl

/-- A command is lost, repeated after three seconds, and acknowledged. -/
def repeating : List Act :=
  [.sendInfo [0x19, 0x1F, 0x08] 0, .lose [] [], .checkTimer 3000 4000 4000, .answer,
    .receive 4000]

set_option maxRecDepth 4000 in
/-- The station has accepted it once. -/
theorem delivered_repeating :
    ∃ s, exec (step (HNZConf.sample.pathConf .A) 7) begun repeating = some s ∧
      s.station.accepted = [[0x19, 0x1F, 0x08]] ∧ s.Delivered 0 := by
  let s : Session := (exec (step (HNZConf.sample.pathConf .A) 7) begun repeating).get rfl
  have hrun : Run (Under (Alone (HNZConf.sample.pathConf .A))
      (Step (HNZConf.sample.pathConf .A) 7)) begun repeating s := run_under_iff.mpr rfl
  exact ⟨s, rfl, rfl, delivered_of_run (by decide) fresh_begun hrun⟩

/-! ## Exactly once -/

/-- The payload that the act submits. -/
def Act.submission? : Act → Option (List UInt8)
  | .sendInfo msg _ => some msg
  | _ => none

/-- A connected path takes what is submitted, and stays connected. -/
theorem taken_step (hconn : s.link.protocolState = .connected)
    (hst : s.step c window a = some s') :
    s'.link.protocolState = .connected ∧
      s'.link.taken = s.link.taken ++ a.submission?.toList := by
  have hsame : s.link.protocolState = .connected ∧
      s.link.taken = s.link.taken ++ ([] : List (List UInt8)) := ⟨hconn, (List.append_nil _).symm⟩
  cases a with
  | sendInfo msg now =>
    obtain rfl := Option.some.inj hst
    have hstep : Link.Step c s.link (.submit msg (s.link.sendInfo c now msg).1)
        (s.link.sendInfo c now msg).2 := .submit now msg s.link
    refine ⟨hstep.protocolState.trans hconn, hstep.taken.trans ?_⟩
    rw [Link.Op.takes, if_pos (Link.admits_of_connected hconn msg)]
    rfl
  | checkTimer repeatTimeout current now =>
    simp only [step] at hst
    split at hst
    · obtain rfl := Option.some.inj hst
      exact hsame
    · obtain rfl := Option.some.inj hst
      exact hsame
    · cases hst
  | touch l =>
    simp only [step] at hst
    split_ifs at hst with hcore
    obtain rfl := Option.some.inj hst
    have hstep : Link.Step c s.link .touch l := .touch hcore
    exact ⟨hstep.protocolState.trans hconn, hstep.taken⟩
  | receive now =>
    obtain ⟨type, payload, rest, -, ⟨-, ok, l, hrr, rfl⟩ | ⟨-, ok, l, hrr, rfl⟩⟩ := step_receive hst
    · have hstep : Link.Step c s.link (.inform type) l := .inform hrr
      exact ⟨hstep.protocolState.trans hconn, hstep.taken⟩
    · have hstep : Link.Step c s.link (.acknowledge type) l := .acknowledge hrr
      exact ⟨hstep.protocolState.trans hconn, hstep.taken⟩
  | submit msg =>
    obtain rfl := Option.some.inj hst
    exact hsame
  | answer =>
    simp only [step] at hst
    split at hst <;> cases hst
    exact hsame
  | send | «repeat» | lose =>
    simp only [step] at hst
    split_ifs at hst
    obtain rfl := Option.some.inj hst
    exact hsame

/-- **What a run takes** is what its acts submit. -/
theorem taken_of_run {as : List Act} (hconn : s.link.protocolState = .connected)
    (hrun : Run (Step c window) s as s') :
    s'.link.taken = s.link.taken ++ as.filterMap Act.submission? := by
  induction hrun with
  | nil => exact (List.append_nil _).symm
  | @cons s u s' a as hst _ ih =>
    obtain ⟨hconn', htaken⟩ := taken_step hconn hst
    rw [ih hconn', htaken, List.append_assoc]
    cases ha : a.submission? with
    | none => rw [List.filterMap_cons_none ha]; rfl
    | some msg => rw [List.filterMap_cons_some ha]; rfl

/-- **Exactly once, in order**: in every run whose retransmissions find one message each, what the
station accepts is a prefix of what was submitted. -/
theorem exactlyOnce_of_run (hratio : c.anticipationRatio ∈ Set.Icc 1 7) (hs : s.Fresh)
    {as : List Act} (hrun : Run (Under (Alone c) (Step c window)) s as s') :
    s'.station.accepted <+: as.filterMap Act.submission? := by
  obtain ⟨t, -, ht⟩ := Outgoing.run (Nat.lt_succ_of_le hratio.2) hrun
    ⟨_, Transfer.valid_start c.anticipationRatio s.link.taken.length, .of_fresh hs⟩
  have haccepted := ht.accepted
  rw [taken_of_run hs.connected hrun.of_under, List.drop_left] at haccepted
  exact haccepted

/-- The acknowledgement of a command is lost, and the command repeated; then there is another one. -/
def mending : List Act :=
  [.sendInfo [0x19, 0x1F, 0x08] 0, .answer, .lose [] [], .checkTimer 3000 4000 4000, .answer,
    .receive 4000, .sendInfo [0x19, 0x20, 0x08] 5000, .answer]

set_option maxRecDepth 4000 in
theorem exactlyOnce_mending :
    ∃ s, exec (step (HNZConf.sample.pathConf .A) 7) begun mending = some s ∧
      s.station.accepted = [[0x19, 0x1F, 0x08], [0x19, 0x20, 0x08]] ∧
      s.station.accepted <+: mending.filterMap Act.submission? := by
  let s : Session := (exec (step (HNZConf.sample.pathConf .A) 7) begun mending).get rfl
  have hrun : Run (Under (Alone (HNZConf.sample.pathConf .A))
      (Step (HNZConf.sample.pathConf .A) 7)) begun mending s := run_under_iff.mpr rfl
  exact ⟨s, rfl, rfl, exactlyOnce_of_run (by decide) fresh_begun hrun⟩

/-- The acknowledgements of two commands are lost, and the first one is repeated. -/
def doubling : List Act :=
  [.sendInfo [0x19, 0x1F, 0x08] 0, .sendInfo [0x19, 0x20, 0x08] 0, .answer, .answer, .lose [] [],
    .checkTimer 3000 4000 4000, .answer, .receive 4000, .answer]

set_option maxRecDepth 4000 in
/-- **The second command is accepted twice**: it was moved back, and left again under a new number. -/
theorem not_exactlyOnce_doubling :
    ∃ s, exec (step (HNZConf.sample.pathConf .A) 7) begun doubling = some s ∧
      s.link.protocolState = .connected ∧
      s.station.accepted = [[0x19, 0x1F, 0x08], [0x19, 0x20, 0x08], [0x19, 0x20, 0x08]] ∧
      ¬s.station.accepted <+: doubling.filterMap Act.submission? := by
  let s : Session := (exec (step (HNZConf.sample.pathConf .A) 7) begun doubling).get rfl
  have haccepted : s.station.accepted =
      [[0x19, 0x1F, 0x08], [0x19, 0x20, 0x08], [0x19, 0x20, 0x08]] := rfl
  refine ⟨s, rfl, rfl, haccepted, fun h => ?_⟩
  have hlength := h.length_le
  rw [haccepted] at hlength
  exact absurd hlength (by decide)

end Session

end Hnz
