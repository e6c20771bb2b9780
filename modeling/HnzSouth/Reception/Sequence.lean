import HnzSouth.Arbitration.Plugin
import HnzSouth.Behaviour.Links
import HnzSouth.Path.Numbers
import HnzSouth.Reception.Payload

/-!
# Reception/Sequence — which frames deliver their messages

A frame should deliver its messages once, when its NS is the number in reception.  The code extracts
the messages first and drops them only if the NR is invalid, so that a frame received a second time,
or out of sequence, delivers them again (`inSequence_iff_numbered`).  Over a run in which no such
frame comes, the frames that deliver are numbered consecutively (`delivers_run`).
-/

namespace Hnz

open Machinery

namespace System

variable {s t u v : System} {p : PathId} {now : Instant} {data : List UInt8} {type : UInt8}
  {extracted messages : List (List UInt8)} {ev : Event}

/-! ## One frame -/

/-- The frame of this type byte is the one the path expects. -/
def Expects (s : System) (p : PathId) (type : UInt8) : Prop :=
  (s.path p).protocolState.live ∧ (s.path p).isNRValid (nrField type) ∧
    nsField type = (s.path p).nr

instance : Decidable (s.Expects p type) := inferInstanceAs (Decidable (_ ∧ _ ∧ _))

/-- Its number, if its NR is valid, is the expected one. -/
def Numbered (s : System) (p : PathId) (type : UInt8) : Prop :=
  (s.path p).isNRValid (nrField type) → nsField type = (s.path p).nr

/-- Work that acknowledges nothing leaves the number in reception. -/
theorem Works.nr (h : Works Work.Keeps s t) : (t.path p).nr = (s.path p).nr :=
  h.invariant (I := fun u => (u.path p).nr = (s.path p).nr) (fun {u v w} hw hu hst => by
    rw [← hu]
    obtain hsame | ⟨op, hop, hl⟩ := hst.link_cases p
    · rw [hsame]
    · exact hl.nr fun type htype => hop.not_moves hw (htype ▸ trivial)) rfl

variable [Platform]

/-- **Reception in sequence**: the expected frame delivers its messages, advances the number in
reception, and is acknowledged by one RR with the new number, after the messages its NR lets out; any
other frame delivers nothing and leaves the number. -/
def InSequence (s : System) (p : PathId) (data : List UInt8) (type : UInt8)
    (extracted : List (List UInt8)) (now : Instant) : Prop :=
  ∃ messages t, s.receivedINFO p data now = .ok (messages, t) ∧
    (s.Expects p type → messages = extracted ∧ (t.path p).nr = (s.path p).nr + 1 ∧
      ∃ infos, (t.path p).frames = (s.path p).frames ++ infos ++
          [⟨(s.pathConf p).addressPA, [rrType ((s.path p).nr + 1) (pfField type)], none⟩] ∧
        ∀ f ∈ infos, f.origin ≠ none) ∧
    (¬s.Expects p type → messages = [] ∧ (t.path p).nr = (s.path p).nr)

/-- Extraction gets through a well-sized payload. -/
theorem extract_of_wellSized (now : Instant) (hx : s.canPathExtractMessage p = true) (hsize : data.length < 2 ^ 31)
    (hwell : WellSized (s.pathConf p).testMsgReceive (payloadOf data) extracted) :
    ∃ l, s.extract p data now = .ok (extracted, s.modifyLink p fun _ => l) ∧
      l.core = (s.path p).core := by
  obtain ⟨l, hl⟩ := extractMessages_of_wellSized (l := (s.path p).toLink) hsize hwell now.ms
  refine ⟨l, ?_, extractMessages_core hl⟩
  unfold extract
  rw [if_pos hx, hl]
  rfl

/-- **A well-sized frame on the path that extracts**: the NR decides whether the messages are
delivered, the NS whether the number in reception advances. -/
theorem receivedINFO_spec (now : Instant) (hs : s.Reachable) (hx : s.canPathExtractMessage p = true)
    (htype : data[1]? = some type) (hsize : data.length < 2 ^ 31)
    (hwell : WellSized (s.pathConf p).testMsgReceive (payloadOf data) extracted) :
    ∃ t, s.receivedINFO p data now =
        .ok (if (s.path p).isNRValid (nrField type) then extracted else [], t) ∧
      (t.path p).nr = (if s.Expects p type then (s.path p).nr + 1 else (s.path p).nr) ∧
      (s.Expects p type → ∃ infos, (t.path p).frames = (s.path p).frames ++ infos ++
          [⟨(s.pathConf p).addressPA, [rrType ((s.path p).nr + 1) (pfField type)], none⟩] ∧
        ∀ f ∈ infos, f.origin ≠ none) := by
  have hlive := hs.live hx
  obtain ⟨l, hl, hcore⟩ := extract_of_wellSized now hx hsize hwell
  have hnr : l.nr = (s.path p).nr := congrArg Link.Core.nr hcore
  have hframes : l.frames = (s.path p).frames := congrArg Link.Core.frames hcore
  have hvalid : l.isNRValid (nrField type) = (s.path p).isNRValid (nrField type) :=
    Link.isNRValid_of_core hcore
  have hadm : l.Admitted (s.pathConf p) := (linkInvariant_admitted.reachable hs p).step (.touch hcore)
  obtain ⟨b, l', hrr⟩ := hadm.exists_sendRR now.ms (pfField type) (nsField type)
    (nrField type)
  obtain ⟨rfl, hnr', hrr'⟩ := Link.sendRR_spec hrr
  rw [hnr, hvalid] at hnr' hrr'
  have hexp : s.Expects p type ↔
      (s.path p).isNRValid (nrField type) ∧ nsField type = (s.path p).nr := by
    simp only [Expects, hlive, true_and]
  have hu : ((s.modifyLink p fun _ => l).path p).toLink = l := by
    rw [link_modifyLink, if_pos rfl]
  refine ⟨(s.modifyLink p fun _ => l).modifyLink p fun _ => l', ?_, ?_, ?_⟩
  · have hout : (s.path p).protocolState ≠ .outputConnected := by
      rcases hlive with h | h <;> rw [h] <;> decide
    unfold receivedINFO
    rw [readByte_eq_ok.mpr htype]
    simp only [bind_eq_ok]
    refine ⟨_, rfl, ?_⟩
    rw [if_neg hout, bind_eq_ok]
    refine ⟨_, hl, ?_⟩
    simp only [bind_eq_ok]
    rw [hu]
    refine ⟨_, hrr, ?_⟩
    rw [hvalid]
    rfl
  · simp only [hexp, link_modifyLink, if_true]
    exact hnr'
  · rw [hexp, link_modifyLink, if_pos rfl]
    intro h
    rw [← hframes]
    exact hrr' h

/-- **The frames that are received in sequence** are those that carry the expected number, or an
invalid NR. -/
theorem inSequence_iff_numbered (hs : s.Reachable) (hx : s.canPathExtractMessage p = true)
    (htype : data[1]? = some type) (hsize : data.length < 2 ^ 31)
    (hwell : WellSized (s.pathConf p).testMsgReceive (payloadOf data) extracted) :
    s.InSequence p data type extracted now ↔ s.Numbered p type := by
  have hlive := hs.live hx
  obtain ⟨t, ht, hnr, hrr⟩ := receivedINFO_spec now hs hx htype hsize hwell
  constructor
  · rintro ⟨messages, t', ht', -, hno⟩ hvalid
    by_contra hns
    rw [ht, if_pos hvalid] at ht'
    cases ht'
    exact hwell.ne_nil (hno fun h => hns h.2.2).1
  · intro hnum
    refine ⟨_, t, ht, fun hexp => ⟨if_pos hexp.2.1, ?_, hrr hexp⟩, fun hexp => ⟨if_neg ?_, ?_⟩⟩
    · rw [hnr, if_pos hexp]
    · exact fun hvalid => hexp ⟨hlive, hvalid, hnum hvalid⟩
    · rw [hnr, if_neg hexp]

/-! ## What a step delivers -/

/-- The event restarts the numbering of the frames the path receives. -/
def restarts (s : System) (p : PathId) (ev : Event) : Bool :=
  match s.fires ev with
  | some (q, e) => q == p && Link.performs Link.restartsInput (s.path p).protocolState e
  | none => false

/-- The messages an event delivers from the path, with the number of their frame. -/
def delivered (s : System) (p : PathId) : Event → List (Fin 8 × List (List UInt8))
  | .frame q data now =>
    match s.frameKind q data, s.analyzeFrame q data now with
    | some (.info type), .ok (m :: messages, _) => if q = p then [(nsField type, m :: messages)] else []
    | _, _ => []
  | _ => []

/-- The steps, each with what it delivers from the path. -/
def Delivers (p : PathId) (s : System) (a : Event × List (Fin 8 × List (List UInt8))) (t : System) :
    Prop :=
  s.step a.1 = some t ∧ a.2 = s.delivered p a.1

/-- The information frames of the path come in order: it extracts them, they are well sized, and
they carry the expected number or an invalid NR. -/
def InOrder (p : PathId) (s : System) (a : Event × List (Fin 8 × List (List UInt8))) : Prop :=
  s.restarts p a.1 = false ∧
    ∀ data now type, a.1 = .frame p data now → s.frameKind p data = some (.info type) →
      s.canPathExtractMessage p = true ∧ data.length < 2 ^ 31 ∧
        (∃ extracted, WellSized (s.pathConf p).testMsgReceive (payloadOf data) extracted) ∧
        s.Numbered p type

/-- **Only an information frame of the path changes its number in reception**, unless the numbering
restarts. -/
theorem nr_step (h : s.step ev = some t) (hrestart : s.restarts p ev = false)
    (hmoves : ∀ type, s.moves ev ≠ some (p, .inform type)) :
    (t.path p).nr = (s.path p).nr := by
  cases hk : s.moves ev with
  | none =>
    obtain ⟨u, now, hpre, hpost⟩ := step_keeps h hk
    rw [hpost.nr, ← hpre.keeps.nr]
    unfold restarts at hrestart
    cases hf : s.fires ev with
    | none => rfl
    | some qe =>
      obtain ⟨q, e⟩ := qe
      rw [hf] at hrestart
      simp only [fire, link_protocolStateTransition]
      split_ifs with hq
      · subst hq
        have hst : (u.path p).protocolState = (s.path p).protocolState := (hpre.onLink).2.2 p
        rw [Link.nr_transition, hst, if_neg (by simpa using hrestart)]
      · rfl
  | some qop =>
    obtain ⟨q, op⟩ := qop
    obtain ⟨l, l', hcore, hl, hpost⟩ := step_moves h hk
    rw [hpost.nr, link_modifyLink]
    split_ifs with hq
    · subst hq
      rw [hl.nr fun type hop => hmoves type (hop ▸ hk)]
      exact congrArg Link.Core.nr hcore
    · rfl

/-- Only an information frame of the path delivers messages from it. -/
theorem delivered_eq_nil (hmoves : ∀ type, s.moves ev ≠ some (p, .inform type)) :
    s.delivered p ev = [] := by
  cases ev with
  | frame q data now =>
    simp only [delivered]
    split
    · next type m messages t hk hok =>
      split_ifs with hq
      · -- a frame that delivers is one that acknowledges
        subst hq
        have hcases := analyzeFrame_cases hok
        simp only [hk] at hcases
        obtain ⟨-, hmessages, -⟩ | ⟨hout, -⟩ := receivedINFO_cases hcases.1 hcases.2.2
        · cases hmessages
        · exact absurd (by simp only [moves, hk, if_neg hout]) (hmoves type)
      · rfl
    · rfl
  | _ => rfl

theorem moves_inform (hmoves : s.moves ev = some (p, .inform type)) :
    ∃ data now, ev = .frame p data now ∧ s.frameKind p data = some (.info type) := by
  cases ev with
  | frame q data now =>
    simp only [moves] at hmoves
    cases hk : s.frameKind q data with
    | none => simp only [hk] at hmoves; cases hmoves
    | some kind =>
      cases kind with
      | info type =>
        simp only [hk] at hmoves
        split_ifs at hmoves
        cases hmoves
        exact ⟨data, now, rfl, hk⟩
      | _ => simp only [hk] at hmoves; cases hmoves
  | checkTimer => simp only [moves] at hmoves; split at hmoves <;> cases hmoves
  | _ => cases hmoves

/-- **One step in order**: it delivers the messages of the expected frame and counts it, or
delivers nothing and leaves the number. -/
theorem delivers_step {a : Event × List (Fin 8 × List (List UInt8))} (hs : s.Reachable)
    (hgood : InOrder p s a) (h : Delivers p s a t) :
    (a.2 = [] ∧ (t.path p).nr = (s.path p).nr) ∨
      ∃ messages, a.2 = [((s.path p).nr, messages)] ∧ (t.path p).nr = (s.path p).nr + 1 := by
  obtain ⟨ev, out⟩ := a
  obtain ⟨hst, hout⟩ := h
  obtain ⟨hrestart, hframe⟩ := hgood
  simp only at hst hout hrestart hframe
  subst hout
  by_cases hmoves : ∃ type, s.moves ev = some (p, .inform type)
  · obtain ⟨type, hmoves⟩ := hmoves
    obtain ⟨data, now, rfl, hk⟩ := moves_inform hmoves
    obtain ⟨hx, hsize, ⟨extracted, hwell⟩, hnum⟩ := hframe data now type rfl hk
    obtain ⟨messages, hok⟩ := analyzeFrame_of_step hst
    have hcases := analyzeFrame_cases hok
    simp only [hk] at hcases
    obtain ⟨htype, -, hinfo⟩ := hcases
    obtain ⟨t', ht', hnr, -⟩ := receivedINFO_spec now hs hx htype hsize hwell
    obtain ⟨rfl, rfl⟩ := Prod.mk.inj (Except.ok.inj (ht'.symm.trans hinfo))
    by_cases hexp : s.Expects p type
    · rw [if_pos hexp] at hnr
      refine Or.inr ⟨extracted, ?_, hnr⟩
      obtain ⟨m, rest, rfl⟩ := List.exists_cons_of_ne_nil hwell.ne_nil
      simp only [delivered, hk, hok, if_pos hexp.2.1, if_true, hexp.2.2]
    · rw [if_neg hexp] at hnr
      have hinvalid : ¬(s.path p).isNRValid (nrField type) = true :=
        fun hvalid => hexp ⟨hs.live hx, hvalid, hnum hvalid⟩
      exact Or.inl ⟨by simp only [delivered, hk, hok, if_neg hinvalid], hnr⟩
  · have hmoves' : ∀ type, s.moves ev ≠ some (p, .inform type) :=
      fun type h => hmoves ⟨type, h⟩
    exact Or.inl ⟨delivered_eq_nil hmoves', nr_step hst hrestart hmoves'⟩

/-- **Over a run in order, the frames that deliver are numbered consecutively**, from the number in
reception on, and the number counts them. -/
theorem delivers_run {as : List (Event × List (Fin 8 × List (List UInt8)))} (hs : s.Reachable)
    (h : Run (Under (InOrder p) (Delivers p)) s as t) :
    (as.flatMap Prod.snd).map Prod.fst =
        (List.range (as.flatMap Prod.snd).length).map (fun i => (s.path p).nr + Fin.ofNat 8 i) ∧
      (t.path p).nr = (s.path p).nr + Fin.ofNat 8 (as.flatMap Prod.snd).length := by
  induction h with
  | nil => simp
  | @cons s u t a as hst _ ih =>
    obtain ⟨hgood, hst⟩ := hst
    obtain ⟨hnums, hlast⟩ := ih (hs.step hst.1)
    obtain ⟨hnil, hnr⟩ | ⟨messages, hout, hnr⟩ := delivers_step hs hgood hst
    · simp only [List.flatMap_cons, hnil, List.nil_append, ← hnr]
      exact ⟨hnums, hlast⟩
    · rw [hnr] at hnums hlast
      simp only [List.flatMap_cons, hout, List.singleton_append, List.map_cons, List.length_cons,
        List.range_succ_eq_map, List.map_map, hnums, hlast]
      refine ⟨?_, by rw [add_assoc, ← ofNat_one, ← ofNat_add, Nat.add_comm 1]⟩
      rw [List.cons.injEq]
      refine ⟨by simp, List.map_congr_left fun i _ => ?_⟩
      rw [Function.comp_apply, add_assoc, ← ofNat_one, ← ofNat_add, Nat.add_comm 1]

/-- **Reception in sequence**: a well-sized frame is received in sequence exactly if it carries the
expected number or an invalid NR; and over a run of such frames the messages are those of
consecutively numbered frames, each once. -/
theorem inSequence (hs : s.Reachable) (p : PathId) :
    (∀ data type extracted now, s.canPathExtractMessage p = true → data[1]? = some type →
      data.length < 2 ^ 31 → WellSized (s.pathConf p).testMsgReceive (payloadOf data) extracted →
      (s.InSequence p data type extracted now ↔ s.Numbered p type)) ∧
    ∀ as t, Run (Under (InOrder p) (Delivers p)) s as t →
      (as.flatMap Prod.snd).map Prod.fst =
          (List.range (as.flatMap Prod.snd).length).map (fun i => (s.path p).nr + Fin.ofNat 8 i) ∧
        (t.path p).nr = (s.path p).nr + Fin.ofNat 8 (as.flatMap Prod.snd).length :=
  ⟨fun _ _ _ _ hx htype hsize hwell => inSequence_iff_numbered hs hx htype hsize hwell,
    fun _ _ h => delivers_run hs h⟩

omit [Platform]

/-- An information frame with one TSCE. -/
def tsceFrame (type : UInt8) : List UInt8 :=
  [0x05, type, 0x0B, 0x33, 0x28, 0x1D, 0x4C, 0xC0, 0xDE]

set_option maxRecDepth 8000 in
/-- The expected frame is received in sequence, and the next one delivers after it. -/
theorem inSequence_listening : letI : Platform := .sample
    ∃ s : System, s.Reachable ∧
      s.InSequence .A (tsceFrame 0x00) 0x00 [[0x0B, 0x33, 0x28, 0x1D, 0x4C]] 0 ∧
      ∃ as t, Run (Under (InOrder .A) (Delivers .A)) s as t ∧
        (as.flatMap Prod.snd).map Prod.fst = [0, 1] := by
  let : Platform := .sample
  let pl : Plugin := (exec Plugin.step {} Plugin.listening).get rfl
  let s : System := ⟨pl.hnz, pl.connection.get rfl⟩
  have hs : s.Reachable := ⟨rfl, Plugin.listening, pl, run_det_iff.mpr rfl, rfl, rfl⟩
  have hwell : ∀ type, WellSized ⟨0x13, 0x04⟩ (payloadOf (tsceFrame type))
    [[0x0B, 0x33, 0x28, 0x1D, 0x4C]] := fun _ => .last rfl
  obtain ⟨t, hrun⟩ : ∃ t, Run (Under (InOrder .A) (Delivers .A)) s
      [(.frame .A (tsceFrame 0x00) 0, [(0, [[0x0B, 0x33, 0x28, 0x1D, 0x4C]])]),
        (.frame .A (tsceFrame 0x02) 0, [(1, [[0x0B, 0x33, 0x28, 0x1D, 0x4C]])])] t := by
    refine ⟨_, .cons ⟨⟨rfl, ?_⟩, rfl, rfl⟩ (.cons ⟨⟨rfl, ?_⟩, rfl, rfl⟩ (.nil _))⟩
    · rintro data now type ⟨⟩ ⟨⟩
      exact ⟨rfl, by decide, ⟨_, hwell 0x00⟩, fun _ => rfl⟩
    · rintro data now type ⟨⟩ ⟨⟩
      exact ⟨rfl, by decide, ⟨_, hwell 0x02⟩, fun _ => rfl⟩
  refine ⟨s, hs, ?_, _, t, hrun, ((inSequence hs .A).2 _ _ hrun).1⟩
  exact ((inSequence hs .A).1 _ _ _ _ rfl rfl (by decide) (hwell 0x00)).mpr fun _ => rfl

set_option maxRecDepth 8000 in
/-- The same frame repeated, with the P bit, delivers its messages again. -/
theorem not_inSequence_repeated : letI : Platform := .sample
    ∃ pl c, exec Plugin.step {} (Plugin.listening ++ [.event (.frame .A (tsceFrame 0x00) 0)]) = some pl ∧
      pl.connection = some c ∧ c.isRunning = true ∧
      System.canPathExtractMessage ⟨pl.hnz, c⟩ .A = true ∧
      WellSized (c.conf.pathConf .A).testMsgReceive (payloadOf (tsceFrame 0x10))
        [[0x0B, 0x33, 0x28, 0x1D, 0x4C]] ∧
      ¬System.Expects ⟨pl.hnz, c⟩ .A 0x10 ∧
      ∃ t, System.receivedINFO .A (tsceFrame 0x10) 0 ⟨pl.hnz, c⟩ =
        .ok ([[0x0B, 0x33, 0x28, 0x1D, 0x4C]], t) := by
  let : Platform := .sample
  exact ⟨_, _, rfl, rfl, rfl, rfl, .last (by decide), by decide, _, rfl⟩

end System

end Hnz
