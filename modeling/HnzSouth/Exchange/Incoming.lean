import HnzSouth.Exchange.Outgoing

/-!
# Exchange/Incoming — the messages of the station

The messages of the station are a transfer as well (`Incoming.step`), whatever the path does with its
own: every frame of the path reports how many it has counted.  So the path counts the submissions of
the station, in their order, each once, and the station is told of no other
(`Session.heard_of_run`).

The path hands on more than it counts: a frame it has had, or one that came too early.  If nothing is
lost and nothing repeated, the two are the same (`Session.handed_of_run`).
-/

namespace Hnz

open Machinery

variable {c : PathConf} {window k : Nat} {d : Fin 8} {s s' : Session} {t : Transfer}
  {a : Session.Act}

/-! ## The reports of the path -/

namespace Link

variable {l l' : Link} {now : Int} {nr : Fin 8}

/-- A submission sends no other number than the one expected. -/
theorem reports_sendInfo (c : PathConf) (now : Int) (hnr : l.nr = d + Fin.ofNat 8 k)
    (msg : List UInt8) :
    (l.sendInfo c now msg).2.nr = l.nr ∧ ∃ n,
      List.Forall₂ (Reports d) (l.sentSince (l.sendInfo c now msg).2) (List.replicate n k) := by
  rw [sendInfo_eq]
  split_ifs with hadmits hroom
  · refine ⟨kept_transmit.nr, 1, ?_⟩
    have hm : (l.take msg).admits c (l.submitted msg).payload := hadmits
    have hframes : ((l.take msg).transmit c now (l.submitted msg)).frames = l.frames ++
        [⟨c.addressARP, infoType l.nr l.ns false :: msg, some l.taken.length⟩] := by
      rw [transmit_of_admits hm]
      rfl
    rw [sentSince_of_frames hframes]
    exact .cons ⟨_, _, rfl, (nrField_infoType _ _ _).trans hnr⟩ .nil
  · refine ⟨rfl, 0, ?_⟩
    rw [List.replicate_zero, List.forall₂_nil_right_iff]
    exact sentSince_of_same rfl
  · refine ⟨rfl, 0, ?_⟩
    rw [List.replicate_zero, List.forall₂_nil_right_iff]
    exact sentSince_of_same rfl

/-- Neither does a retransmission. -/
theorem reports_resend (hnr : l.nr = d + Fin.ofNat 8 k) (m : Message) :
    List.Forall₂ (Reports d) (l.sentSince (l.resend c now m)) (List.replicate 1 k) := by
  have hframes : (l.resend c now m).frames = l.frames ++
      [⟨c.addressARP, infoType l.nr m.ns true :: m.payload, some m.id⟩] := rfl
  rw [sentSince_of_frames hframes]
  exact .cons ⟨_, _, rfl, (nrField_infoType _ _ _).trans hnr⟩ .nil

/-- Nor the messages that a received number lets out. -/
theorem reports_receivedRR (hnr : l.nr = d + Fin.ofNat 8 k) {f ok : Bool}
    (hrr : l.receivedRR c now nr f = .ok (ok, l')) :
    l'.nr = l.nr ∧ ∃ n new, l'.frames = l.frames ++ new ∧
      List.Forall₂ (Reports d) (new.map Frame.bytes) (List.replicate n k) := by
  refine ⟨(receivedRR_spec hrr).1, ?_⟩
  obtain ⟨-, -, -, hrel⟩ | rfl := receivedRR_cases hrr
  · obtain ⟨out, rest, -, hout, rfl, -⟩ := releaseWaiting_cases hrel
    obtain ⟨new, hnew, hbytes⟩ := frames_transmitAll hout
    refine ⟨out.length, new, hnew, ?_⟩
    rw [hbytes]
    exact reports_infoFrames hnr
  · exact ⟨0, [], (List.append_nil _).symm, .nil⟩

end Link

/-! ## The transfer -/

/-- **The messages of the station are this transfer**: the path has taken those it has counted. -/
structure Incoming (d : Fin 8) (s : Session) (t : Transfer) : Prop where
  base : t.base = s.station.acked
  next : t.next = s.station.next
  received : t.received = s.heard.length
  first : s.station.first = d
  nr : s.link.nr = d + Fin.ofNat 8 s.heard.length
  submitted : s.station.next ≤ s.station.submitted.length
  heard : s.heard <+: s.station.submitted
  handed : s.heard.Sublist s.handed
  known : ∀ payload ∈ s.handed, payload ∈ s.station.submitted.take s.station.next
  data : List.Forall₂ (Carries d s.station.submitted) (s.toPath.filter isInfo) t.data
  acks : List.Forall₂ (Reports d) s.toStation t.acks

/-- The transfer follows to this session, by faithful steps if the condition holds. -/
def Incoming.Follows (window : Nat) (d : Fin 8) (t : Transfer) (s' : Session) (clean : Prop) : Prop :=
  ∃ xs t', Run (Transfer.Step window 8) t xs t' ∧ Incoming d s' t' ∧
    (clean → ∀ x ∈ xs, x.Faithful)

/-- The path refuses no information frame that comes next. -/
def Session.Heeds (s : Session) : Prop :=
  ∀ type payload rest, s.toPath = (type :: payload) :: rest → type &&& 0x01 = 0 →
    s.link.isNRValid (nrField type)

namespace Incoming

/-- Faithful steps, by name. -/
theorem faithful_of_all {xs : List Transfer.Act} (h : xs.all fun x => x.Faithful) {clean : Prop} :
    clean → ∀ x ∈ xs, x.Faithful := fun _ x hx => by simpa using List.all_eq_true.mp h x hx

theorem faithful_reports (n : Nat) : ∀ x ∈ List.replicate n Transfer.Act.report, x.Faithful := by
  intro x hx
  rw [List.eq_of_mem_replicate hx]
  decide

/-- The path has sent frames that report what it had counted. -/
theorem reported (h : Incoming d s t) {n : Nat} {reports : List (List UInt8)} {clean : Prop}
    (hstation : s'.station = s.station) (hheard : s'.heard = s.heard)
    (hhanded : s'.handed = s.handed) (hnr : s'.link.nr = s.link.nr)
    (htoPath : s'.toPath.filter isInfo = s.toPath.filter isInfo)
    (htoStation : s'.toStation = s.toStation ++ reports)
    (hreports : List.Forall₂ (Reports d) reports (List.replicate n s.heard.length)) :
    Follows window d t s' clean := by
  rw [← h.received] at hreports
  refine ⟨_, _, Transfer.run_reports window 8 n t, ?_, fun _ => faithful_reports n⟩
  exact {
    base := by rw [hstation]; exact h.base
    next := by rw [hstation]; exact h.next
    received := by rw [hheard]; exact h.received
    first := by rw [hstation]; exact h.first
    nr := by rw [hnr, hheard]; exact h.nr
    submitted := by rw [hstation]; exact h.submitted
    heard := by rw [hheard, hstation]; exact h.heard
    handed := by rw [hheard, hhanded]; exact h.handed
    known := by rw [hhanded, hstation]; exact h.known
    data := by rw [hstation, htoPath]; exact h.data
    acks := by rw [htoStation]; exact List.rel_append h.acks hreports }

/-! ## The steps of the path -/

/-- An information frame: the messages its NR lets out still report the old number. -/
theorem step_inform (h : Incoming d s t) (hv : t.Valid window) (hwindow : window < 8) {now : Int}
    {type : UInt8} {payload : List UInt8} {rest : List (List UInt8)} {ok : Bool} {l : Link}
    (hpath : s.toPath = (type :: payload) :: rest) (hinfo : type &&& 0x01 = 0)
    (hrr : s.link.sendRR c now (pfField type) (nsField type) (nrField type) = .ok (ok, l)) :
    Follows window d t { ({ s with toPath := rest } : Session).emit l with
      heard := if l.nr = s.link.nr then s.heard else s.heard ++ [payload]
      handed := if ok then s.handed ++ [payload] else s.handed } (ok = true) := by
  have hdata := h.data
  rw [hpath, List.filter_cons_of_pos (by simp [hinfo])] at hdata
  obtain ⟨j, js, ⟨_, _, hcons, hns, hpayload⟩, hjs, hts⟩ := List.forall₂_cons_left_iff.mp hdata
  obtain ⟨rfl, rfl⟩ := List.cons.inj hcons
  obtain ⟨l₁, h₁, hl⟩ := Link.sendRR_cases hrr
  obtain ⟨hnr₁, n, new, hnew, hreports⟩ := Link.reports_receivedRR h.nr h₁
  rw [← h.received] at hreports
  have hexpected : nsField type = s.link.nr ↔ j ≡ t.received [MOD 8] := by
    rw [hns, h.nr, ← h.received, add_right_inj, ofNat_inj]
  -- what is handed on was sent
  have hlt : j < s.station.next := h.next ▸ hv.data_lt j (hts ▸ List.mem_cons_self)
  have hmem : payload ∈ s.station.submitted.take s.station.next :=
    List.mem_of_getElem? ((List.getElem?_take_of_lt hlt).trans hpayload)
  have hmore : s.heard.Sublist (s.handed ++ [payload]) :=
    h.handed.trans (List.sublist_append_left _ _)
  have hknown : ∀ x ∈ s.handed ++ [payload], x ∈ s.station.submitted.take s.station.next :=
    List.forall_mem_append.mpr ⟨h.known, List.forall_mem_singleton.mpr hmem⟩
  -- the frames that leave before the frame is counted
  have hsent := List.rel_append h.acks hreports
  have hrun := Transfer.run_reports window 8 n t
  have hfaithful : ∀ {xs : List Transfer.Act}, (xs.all fun x => x.Faithful) →
      ∀ x ∈ List.replicate n .report ++ xs, x.Faithful := fun hxs x hx =>
    (List.mem_append.mp hx).elim (faithful_reports n x) fun hx => by
      simpa using List.all_eq_true.mp hxs x hx
  obtain ⟨rfl, rfl⟩ | ⟨rfl, hnr, rfl⟩ | ⟨rfl, hne, -, rfl⟩ | ⟨rfl, hne, -, rfl⟩ := hl
  · have hrest : js.Sublist t.data := hts ▸ List.sublist_cons_self j js
    refine ⟨_, _, hrun.snoc (.lose hrest), ?_, nofun⟩
    simp only [if_pos hnr₁, Session.emit]
    rw [Link.sentSince_of_frames hnew]
    exact ⟨h.base, h.next, h.received, h.first, hnr₁.trans h.nr, h.submitted, h.heard, h.handed,
      h.known, hjs, hsent⟩
  · have hj : j ≡ t.received [MOD 8] := hexpected.mp (hnr.trans hnr₁)
    have hplace : j = t.received := hv.eq_of_accept hwindow hts hj
    have hcounted : l₁.nr + 1 ≠ s.link.nr := by
      rw [hnr₁]
      exact fun heq => absurd (add_eq_left.mp heq) (by decide)
    have hnext : l₁.nr + 1 = d + Fin.ofNat 8 (t.received + 1) := by
      rw [hnr₁, h.nr, ← h.received, ofNat_add, ofNat_one, add_assoc]
    have hframes : ({ ({ l₁ with nr := l₁.nr + 1 } : Link).sendFrame c now
        [rrType (l₁.nr + 1) (pfField type)] true none with lastMsgTime := now } : Link).frames =
          s.link.frames ++ (new ++ [⟨c.addressPA, [rrType (l₁.nr + 1) (pfField type)], none⟩]) := by
      simp [Link.sendFrame, hnew]
    refine ⟨_, _, hrun.append (.single (.accept hts hj)), ?_, fun _ => hfaithful rfl⟩
    refine ⟨h.base, h.next, ?_, h.first, ?_, h.submitted, ?_, ?_, hknown, hjs, ?_⟩
    · simp [Link.sendFrame, hcounted, h.received]
    · simp only [Session.emit, Link.sendFrame, if_neg hcounted, List.length_append,
        List.length_singleton, ← h.received]
      exact hnext
    · simp only [Session.emit, Link.sendFrame, if_neg hcounted]
      refine prefix_concat h.heard ?_
      rw [← h.received, ← hplace]
      exact hpayload
    · simp only [Link.sendFrame, if_neg hcounted]
      exact h.handed.append_right [payload]
    · simp only [Session.emit]
      rw [Link.sentSince_of_frames hframes, List.map_append, ← List.append_assoc]
      exact List.rel_append hsent (.cons ⟨_, _, rfl, (nrField_rrType _ _).trans hnext⟩ .nil)
  · have hj : ¬j ≡ t.received [MOD 8] := fun hmod => hne ((hexpected.mpr hmod).trans hnr₁.symm)
    have hframes : ({ l₁.sendFrame c now [rrType l₁.nr true] true none with
        lastMsgTime := now } : Link).frames =
          s.link.frames ++ (new ++ [⟨c.addressPA, [rrType l₁.nr true], none⟩]) := by
      simp [Link.sendFrame, hnew]
    refine ⟨_, _, hrun.append (.cons (.refuse hts hj) (.single (.report _))), ?_,
      fun _ => hfaithful rfl⟩
    refine ⟨h.base, h.next, ?_, h.first, ?_, h.submitted, ?_, ?_, hknown, hjs, ?_⟩
    · simp [Link.sendFrame, hnr₁, h.received]
    · simp [Session.emit, Link.sendFrame, hnr₁, h.nr]
    · simpa [Session.emit, Link.sendFrame, hnr₁] using h.heard
    · simpa [Session.emit, Link.sendFrame, hnr₁] using hmore
    · simp only [Session.emit]
      rw [Link.sentSince_of_frames hframes, List.map_append, ← List.append_assoc]
      refine List.rel_append hsent (.cons ⟨_, _, rfl, (nrField_rrType _ _).trans ?_⟩ .nil)
      rw [hnr₁, h.nr, h.received]
  · have hj : ¬j ≡ t.received [MOD 8] := fun hmod => hne ((hexpected.mpr hmod).trans hnr₁.symm)
    refine ⟨_, _, hrun.append (.single (.refuse hts hj)), ?_, fun _ => hfaithful rfl⟩
    have hframes : ({ l₁ with lastMsgTime := now } : Link).frames = s.link.frames ++ new := hnew
    simp only [if_pos hnr₁, Session.emit]
    rw [Link.sentSince_of_frames hframes]
    exact ⟨h.base, h.next, h.received, h.first, hnr₁.trans h.nr, h.submitted, h.heard, hmore, hknown,
      hjs, hsent⟩

theorem step_receive (h : Incoming d s t) (hv : t.Valid window) (hwindow : window < 8) {now : Int}
    (hst : s.step c window (.receive now) = some s') : Follows window d t s' s.Heeds := by
  obtain ⟨type, payload, rest, hpath, ⟨hinfo, ok, l, hrr, rfl⟩ | ⟨hinfo, ok, l, hrr, rfl⟩⟩ :=
    Session.step_receive hst
  · obtain ⟨xs, t', hrun, ht', hxs⟩ := h.step_inform hv hwindow hpath hinfo hrr
    refine ⟨xs, t', hrun, ht', fun hheeds => hxs ?_⟩
    obtain ⟨l₁, h₁, -⟩ := Link.sendRR_cases hrr
    exact ((Link.receivedRR_spec h₁).2.1 rfl).trans (hheeds type payload rest hpath hinfo)
  · obtain ⟨hnr, n, new, hnew, hreports⟩ := Link.reports_receivedRR h.nr hrr
    rw [← Link.sentSince_of_frames hnew] at hreports
    refine h.reported rfl rfl rfl hnr ?_ rfl hreports
    · rw [hpath, List.filter_cons_of_neg (by simp [hinfo])]
      rfl

/-! ## The steps of the station -/

/-- The frame of a message that was submitted carries it. -/
theorem carries_frame (h : Incoming d s t) {j : Nat} (hj : j < s.station.submitted.length)
    (p : Bool) : Carries d s.station.submitted (s.station.frame j p) j := by
  refine ⟨_, _, rfl, ?_, ?_⟩
  · rw [nsField_infoType, Station.number, h.first]
  · rw [List.getElem?_eq_getElem hj, List.getD_eq_getElem?_getD, List.getElem?_eq_getElem hj]
    rfl

theorem filter_frame (st : Station) (j : Nat) (p : Bool) (wire : List (List UInt8)) :
    (wire ++ [st.frame j p]).filter isInfo = wire.filter isInfo ++ [st.frame j p] := by
  rw [List.filter_append, List.filter_cons_of_pos (by simp [Station.frame])]
  rfl

/-- **The station takes the next frame**: whatever it reports, the station believes at most that. -/
theorem step_answer (h : Incoming d s t) (hst : s.step c window .answer = some s') {clean : Prop} :
    Follows window d t s' clean := by
  simp only [Session.step] at hst
  split at hst
  · next type payload rest hwire =>
    obtain rfl := Option.some.inj hst
    have hacks := h.acks
    rw [hwire] at hacks
    obtain ⟨x, xs, ⟨_, _, hcons, hx⟩, hxs, hts⟩ := List.forall₂_cons_left_iff.mp hacks
    obtain ⟨rfl, rfl⟩ := List.cons.inj hcons
    -- the answer is RR, and carries nothing
    have hreplies : ((s.station.receive type payload).2).filter isInfo = [] := by
      simp only [Station.receive]
      split_ifs <;> simp [rrType_odd]
    have hkept : ∀ st, st = s.station.acknowledge (nrField type) →
        (s.station.receive type payload).1.acked = st.acked ∧
          (s.station.receive type payload).1.next = st.next ∧
          (s.station.receive type payload).1.first = st.first ∧
          (s.station.receive type payload).1.submitted = st.submitted := by
      rintro st rfl
      simp only [Station.receive]
      split_ifs <;> exact ⟨rfl, rfl, rfl, rfl⟩
    obtain ⟨hacked, hnext, hfirst, hsubmitted⟩ := hkept _ rfl
    have hdata : List.Forall₂ (Carries d (s.station.receive type payload).1.submitted)
        ((s.toPath ++ (s.station.receive type payload).2).filter isInfo) t.data ↔
          List.Forall₂ (Carries d (s.station.acknowledge (nrField type)).submitted)
            (s.toPath.filter isInfo) t.data := by
      rw [hsubmitted, List.filter_append, hreplies, List.append_nil]
    obtain ⟨k, hnr, hk, hacknowledged⟩ | hignored :=
      Station.acknowledge_cases (nrField type) s.station
    · have hmod : t.base + k ≡ x [MOD 8] := by
        rw [← ofNat_inj, h.base]
        rw [Station.number, h.first] at hnr
        exact add_left_cancel (hnr.symm.trans hx)
      have hbase : t.base + k ≤ t.next := by rw [h.base, h.next]; exact hk
      refine ⟨_, _, .single (.acknowledge hts hbase hmod), ?_, faithful_of_all rfl⟩
      rw [hacknowledged] at hacked hnext hfirst hsubmitted hdata
      exact ⟨by rw [hacked, ← h.base], hnext ▸ h.next, h.received, hfirst.trans h.first, h.nr,
        hnext ▸ hsubmitted ▸ h.submitted, hsubmitted ▸ h.heard, h.handed,
        hnext ▸ hsubmitted ▸ h.known,
        hdata.mpr h.data, hxs⟩
    · have hrest : xs.Sublist t.acks := hts ▸ List.sublist_cons_self x xs
      refine ⟨_, _, .single (.forget hrest), ?_, faithful_of_all rfl⟩
      rw [hignored] at hacked hnext hfirst hsubmitted hdata
      exact ⟨hacked ▸ h.base, hnext ▸ h.next, h.received, hfirst.trans h.first, h.nr,
        hnext ▸ hsubmitted ▸ h.submitted, hsubmitted ▸ h.heard, h.handed,
        hnext ▸ hsubmitted ▸ h.known,
        hdata.mpr h.data, hxs⟩
  · cases hst

/-! ## Runs -/

/-- **The step lemma.** -/
theorem step (h : Incoming d s t) (hv : t.Valid window) (hwindow : window < 8)
    (hst : s.step c window a = some s') : Follows window d t s' (a.Clean ∧ s.Heeds) := by
  cases a with
  | sendInfo msg now =>
    obtain rfl := Option.some.inj hst
    obtain ⟨hnr, n, hreports⟩ := Link.reports_sendInfo c now h.nr msg
    exact h.reported rfl rfl rfl hnr rfl rfl hreports
  | checkTimer repeatTimeout current now =>
    simp only [Session.step] at hst
    split at hst
    · obtain rfl := Option.some.inj hst
      exact ⟨[], t, .nil t, h, faithful_of_all rfl⟩
    · obtain rfl := Option.some.inj hst
      exact h.reported rfl rfl rfl rfl rfl rfl (Link.reports_resend h.nr _)
    · cases hst
  | touch l =>
    simp only [Session.step] at hst
    split_ifs at hst with hcore
    obtain rfl := Option.some.inj hst
    have hwire : s.link.sentSince l = [] :=
      Link.sentSince_of_same (congrArg Link.Core.frames hcore)
    have hreports : List.Forall₂ (Reports d) (s.link.sentSince l)
        (List.replicate 0 s.heard.length) := by
      rw [hwire]
      exact .nil
    exact h.reported rfl rfl rfl (congrArg Link.Core.nr hcore) rfl rfl hreports
  | receive now =>
    obtain ⟨xs, t', hrun, ht', hxs⟩ := h.step_receive hv hwindow hst
    exact ⟨xs, t', hrun, ht', fun hclean => hxs hclean.2⟩
  | submit msg =>
    obtain rfl := Option.some.inj hst
    refine ⟨[], t, .nil t, ?_, faithful_of_all rfl⟩
    refine ⟨h.base, h.next, h.received, h.first, h.nr, ?_, ?_, h.handed, ?_, ?_, h.acks⟩
    · exact h.submitted.trans (List.prefix_append _ _).length_le
    · exact h.heard.trans (List.prefix_append _ _)
    · rw [List.take_append_of_le_length h.submitted]
      exact h.known
    · exact h.data.imp fun _ _ hj => hj.mono [msg]
  | send =>
    simp only [Session.step] at hst
    split_ifs at hst with hroom
    obtain rfl := Option.some.inj hst
    have hw : t.next < t.base + window := by rw [h.next, h.base]; exact hroom.2
    refine ⟨_, _, .single (.send hw), ?_, faithful_of_all rfl⟩
    refine ⟨h.base, congrArg (· + 1) h.next, h.received, h.first, h.nr, hroom.1, h.heard, h.handed,
      ?_, ?_, h.acks⟩
    · exact fun x hx => List.take_subset_take_left _ (Nat.le_succ _) (h.known x hx)
    change List.Forall₂ _ ((s.toPath ++ [s.station.frame s.station.next false]).filter isInfo) _
    rw [filter_frame, h.next]
    exact List.rel_append h.data (.cons (h.carries_frame hroom.1 false) .nil)
  | «repeat» j p =>
    simp only [Session.step] at hst
    split_ifs at hst with hj
    obtain rfl := Option.some.inj hst
    have hsent : j < t.next := by rw [h.next]; exact hj.2
    refine ⟨_, _, .single (.resend (h.base ▸ hj.1) hsent), ?_, fun hclean => hclean.1.elim⟩
    refine ⟨h.base, h.next, h.received, h.first, h.nr, h.submitted, h.heard, h.handed, h.known, ?_,
      h.acks⟩
    change List.Forall₂ _ ((s.toPath ++ [s.station.frame j p]).filter isInfo) _
    rw [filter_frame]
    exact List.rel_append h.data (.cons (h.carries_frame (hj.2.trans_le h.submitted) p) .nil)
  | answer => exact h.step_answer hst
  | lose toStation toPath =>
    simp only [Session.step] at hst
    split_ifs at hst with hlost
    obtain rfl := Option.some.inj hst
    obtain ⟨data, hdata, hcarries⟩ := exists_sublist h.data (hlost.2.filter isInfo)
    obtain ⟨acks, hacks, hreports⟩ := exists_sublist h.acks hlost.1
    refine ⟨_, _, .cons (.lose hdata) (.single (.forget hacks)), ?_, fun hclean => hclean.1.elim⟩
    exact ⟨h.base, h.next, h.received, h.first, h.nr, h.submitted, h.heard, h.handed, h.known,
      hcarries, hreports⟩

/-- A session that begins. -/
theorem of_fresh (hs : s.Fresh) : Incoming s.link.nr s ⟨0, 0, 0, [], []⟩ where
  base := hs.acked.symm
  next := hs.next.symm
  received := by rw [hs.heard]; rfl
  first := hs.first
  nr := by rw [hs.heard]; exact (add_zero _).symm
  submitted := by rw [hs.next]; exact Nat.zero_le _
  heard := by rw [hs.heard]; exact List.nil_prefix
  handed := by rw [hs.heard]; exact List.nil_sublist _
  known := by rw [hs.handed]; exact List.forall_mem_nil _
  data := by rw [hs.toPath]; exact .nil
  acks := by rw [hs.toStation]; exact .nil

/-- **The run lemma.** -/
theorem run (hwindow : window < 8) {as : List Session.Act}
    (hrun : Run (Session.Step c window) s as s') (h : ∃ t, t.Valid window ∧ Incoming d s t) :
    ∃ t, t.Valid window ∧ Incoming d s' t := by
  refine hrun.invariant (I := fun s => ∃ t, t.Valid window ∧ Incoming d s t) ?_ h
  rintro s a s' ⟨t, hv, ht⟩ hst
  obtain ⟨xs, t', hxs, ht', -⟩ := ht.step hv hwindow hst
  exact ⟨t', hv.run hwindow hxs, ht'⟩

end Incoming

/-! ## What the path has of the station -/

namespace Session

/-- **What the station is told is true**: the path has counted a prefix of its submissions, which holds
those that were acknowledged; all that was counted was handed on, and all that was handed on was
sent. -/
structure Heard (s : Session) : Prop where
  heard : s.heard <+: s.station.submitted
  acked : s.station.acked ≤ s.heard.length
  handed : s.heard.Sublist s.handed
  known : ∀ payload ∈ s.handed, payload ∈ s.station.submitted.take s.station.next

/-- **Reception**: in every session with a station whose window is smaller than eight, the path counts
the messages of the station in their order, none twice and none left out, and acknowledges none that
it has not counted — whatever is lost, repeated or sent back by either party. -/
theorem heard_of_run (hwindow : window < 8) (hs : s.Fresh) {as : List Act}
    (hrun : Run (Step c window) s as s') : s'.Heard := by
  obtain ⟨t, hv, ht⟩ := Incoming.run hwindow hrun ⟨_, Transfer.valid_start window 0, .of_fresh hs⟩
  exact ⟨ht.heard, ht.base ▸ ht.received ▸ hv.base_le, ht.handed, ht.known⟩

/-- The acknowledgement of a change of a TS is lost; it is repeated. -/
def repeated : List Act :=
  [.submit [0x0B, 0x33, 0x28, 0x36, 0xF2], .send, .receive 0, .lose [] [], .repeat 0 true,
    .receive 3000, .answer]

set_option maxRecDepth 4000 in
/-- It has been counted once, and handed on twice. -/
theorem heard_repeated :
    ∃ s, exec (step (HNZConf.sample.pathConf .A) 7) begun repeated = some s ∧ s.Heard ∧
      s.heard.length = 1 ∧ s.handed.length = 2 := by
  let s : Session := (exec (step (HNZConf.sample.pathConf .A) 7) begun repeated).get rfl
  have hrun : Run (Step (HNZConf.sample.pathConf .A) 7) begun repeated s := run_det_iff.mpr rfl
  exact ⟨s, rfl, heard_of_run (by decide) fresh_begun hrun, rfl, rfl⟩

end Session

/-! ## Nothing lost, nothing repeated -/

/-- The payloads of the frames of consecutive places. -/
theorem payloads_of_carries {messages frames : List (List UInt8)} {j k : Nat}
    (h : List.Forall₂ (Carries d messages) frames (List.range' j k)) :
    frames.map List.tail = (messages.drop j).take k := by
  induction k generalizing frames j with
  | zero =>
    obtain rfl := List.forall₂_nil_right_iff.mp h
    simp
  | succ k ih =>
    rw [List.range'_succ] at h
    obtain ⟨_, _, ⟨type, payload, rfl, -, hget⟩, hrest, rfl⟩ := List.forall₂_cons_right_iff.mp h
    obtain ⟨hj, hget⟩ := List.getElem?_eq_some_iff.mp hget
    rw [List.map_cons, ih hrest, List.drop_eq_getElem_cons hj, List.take_succ_cons, hget]
    rfl

/-- A station that takes what it is sent reports numbers that the path knows. -/
theorem Outgoing.heeds {n : Nat} (h : Outgoing c d n s t) (hv : t.Valid c.anticipationRatio)
    (hratio : c.anticipationRatio < 8) : s.Heeds := by
  intro type payload rest hpath _
  have hacks := h.acks
  rw [hpath] at hacks
  obtain ⟨x, xs, ⟨_, _, hcons, hx⟩, -, hts⟩ := List.forall₂_cons_left_iff.mp hacks
  obtain ⟨rfl, rfl⟩ := List.cons.inj hcons
  obtain ⟨hbase, hreceived⟩ := hv.acks_mem x (hts ▸ List.mem_cons_self)
  have hlen := h.streams.window.length_le
  have hnext := hv.received_le
  rw [h.next] at hnext
  refine (h.streams.window.consecutive.isNRValid_iff (hlen.trans_lt hratio)).mpr
    ⟨x - t.base, by omega, ?_⟩
  rw [hx, h.streams.nrr, add_assoc, ← ofNat_add, Nat.add_sub_cancel' hbase]

namespace Session

/-- Only a frame that the path takes is heard or handed on. -/
theorem handed_step (hst : s.step c window a = some s') :
    (s'.handed = s.handed ∧ s'.heard = s.heard) ∨
      (s'.station = s.station ∧ s'.handed.length ≤ s.handed.length + 1 ∧
        (s.toPath.filter isInfo).length = (s'.toPath.filter isInfo).length + 1) := by
  cases a with
  | receive now =>
    obtain ⟨type, payload, rest, hpath, ⟨hinfo, ok, l, -, rfl⟩ | ⟨-, ok, l, -, rfl⟩⟩ :=
      step_receive hst
    · refine Or.inr ⟨rfl, ?_, ?_⟩
      · simp only
        split_ifs <;> simp
      · rw [hpath, List.filter_cons_of_pos (by simp [hinfo])]
        rfl
    · exact Or.inl ⟨rfl, rfl⟩
  | sendInfo msg now =>
    obtain rfl := Option.some.inj hst
    exact Or.inl ⟨rfl, rfl⟩
  | submit msg =>
    obtain rfl := Option.some.inj hst
    exact Or.inl ⟨rfl, rfl⟩
  | checkTimer repeatTimeout current now =>
    simp only [step] at hst
    split at hst <;> cases hst <;> exact Or.inl ⟨rfl, rfl⟩
  | answer =>
    simp only [step] at hst
    split at hst <;> cases hst
    exact Or.inl ⟨rfl, rfl⟩
  | touch | send | «repeat» | lose =>
    simp only [step] at hst
    split_ifs at hst
    obtain rfl := Option.some.inj hst
    exact Or.inl ⟨rfl, rfl⟩

/-- **A session without loss**: both transfers, the one of the station with every message under way. -/
structure Lossless (c : PathConf) (window : Nat) (d e : Fin 8) (n : Nat) (s : Session) : Prop where
  outgoing : ∃ t, t.Valid c.anticipationRatio ∧ Outgoing c d n s t
  incoming : ∃ u, u.Valid window ∧ Incoming e s u ∧ u.Consecutive
  handed : s.handed = s.heard

theorem Lossless.step {e : Fin 8} {n : Nat} (h : Lossless c window d e n s)
    (hratio : c.anticipationRatio < 8) (hwindow : window < 8) (halone : s.Alone c a)
    (hclean : a.Clean) (hst : s.step c window a = some s') : Lossless c window d e n s' := by
  obtain ⟨t, hv, ht⟩ := h.outgoing
  obtain ⟨u, hw, hu, hcons⟩ := h.incoming
  obtain ⟨xs, t', hxs, ht'⟩ := ht.step hv hratio halone hst
  obtain ⟨ys, u', hys, hu', hfaithful⟩ := hu.step hw hwindow hst
  have hw' := hw.run hwindow hys
  have hcons' := hcons.run hwindow hys (hfaithful ⟨hclean, ht.heeds hv hratio⟩) hw
  refine ⟨⟨t', hv.run hratio hxs, ht'⟩, ⟨u', hw', hu', hcons'⟩, ?_⟩
  obtain ⟨hhanded, hheard⟩ | ⟨hstation, hhanded, hcount⟩ := handed_step hst
  · rw [hhanded, hheard, h.handed]
  · -- a message left the channel at its turn, so it was counted
    have hlength := hu.data.length_eq
    have hlength' := hu'.data.length_eq
    rw [hcons, List.length_range'] at hlength
    rw [hcons', List.length_range'] at hlength'
    have hnext : u'.next = u.next := by rw [hu'.next, hu.next, hstation]
    have hcounted : u'.received = u.received + 1 := by
      have hle := hw'.received_le
      omega
    rw [hu'.received, hu.received] at hcounted
    rw [h.handed, ← hcounted] at hhanded
    exact (hu'.handed.eq_of_length_le hhanded).symm

/-- **Every message of the station reaches the plugin once**: in a session without loss or repetition,
whose retransmissions find one message each, the path has handed on what the station sent, in its
order, but for what is still under way. -/
theorem handed_of_run (hratio : c.anticipationRatio ∈ Set.Icc 1 7) (hwindow : window < 8)
    (hs : s.Fresh) {as : List Act}
    (hrun : Run (Under (fun s a => s.Alone c a ∧ a.Clean) (Step c window)) s as s') :
    s'.handed ++ (s'.toPath.filter isInfo).map List.tail =
      s'.station.submitted.take s'.station.next := by
  have hlt : c.anticipationRatio < 8 := Nat.lt_succ_of_le hratio.2
  have hbegins : Lossless c window (s.link.ns - Fin.ofNat 8 s.link.taken.length) s.link.nr
      s.link.taken.length s :=
    ⟨⟨_, Transfer.valid_start _ _, .of_fresh hs⟩, ⟨_, Transfer.valid_start _ 0, .of_fresh hs, rfl⟩,
      by rw [hs.handed, hs.heard]⟩
  have hends : Lossless c window (s.link.ns - Fin.ofNat 8 s.link.taken.length) s.link.nr
      s.link.taken.length s' :=
    hrun.invariant (fun h hst => h.step hlt hwindow hst.1.1 hst.1.2 hst.2) hbegins
  obtain ⟨u, hv, hu, hcons⟩ := hends.incoming
  have hdata := hu.data
  rw [hcons] at hdata
  have hle := hv.received_le
  rw [hu.received, hu.next] at hle hdata
  rw [payloads_of_carries hdata, hends.handed]
  calc s'.heard ++ (s'.station.submitted.drop s'.heard.length).take
          (s'.station.next - s'.heard.length)
      = s'.station.submitted.take s'.heard.length ++
          (s'.station.submitted.drop s'.heard.length).take
            (s'.station.next - s'.heard.length) :=
        congrArg (· ++ _) (List.prefix_iff_eq_take.mp hu.heard)
    _ = s'.station.submitted.take s'.station.next := by
        rw [← List.take_add, Nat.add_sub_cancel' hle]

/-- Two changes of a TS are reported and acknowledged. -/
def reporting : List Act :=
  [.submit [0x0B, 0x33, 0x28, 0x36, 0xF2], .submit [0x0B, 0x33, 0x29, 0x36, 0xF3], .send, .send,
    .receive 0, .answer]

set_option maxRecDepth 4000 in
/-- One has been handed on, the other is under way. -/
theorem handed_reporting :
    ∃ s, exec (step (HNZConf.sample.pathConf .A) 7) begun reporting = some s ∧
      s.handed ++ (s.toPath.filter isInfo).map List.tail =
        s.station.submitted.take s.station.next ∧ s.station.acked = 1 := by
  let s : Session := (exec (step (HNZConf.sample.pathConf .A) 7) begun reporting).get rfl
  have hrun : Run (Under (fun s a => s.Alone (HNZConf.sample.pathConf .A) a ∧ a.Clean)
      (Step (HNZConf.sample.pathConf .A) 7)) begun reporting s := run_under_iff.mpr rfl
  exact ⟨s, rfl, handed_of_run (by decide) (by decide) fresh_begun hrun, rfl⟩

end Session

end Hnz
