import HnzSouth.Exchange.Counting
import HnzSouth.Reception.Sarm

/-!
# Exchange/Synchrony — a path and its terminal count alike

Each direction has its invariant: what the receiver expects once it has counted what is under way is
what the sender numbers next (`Agree`).  The work of the path upholds it, and so do the frames it
receives and whatever the terminal does; so the counters are in step in every run whose steps keep
them so (`synchronised_of_run`).
-/

namespace Hnz

open Machinery

/-! ## The invariant -/

/-- **The two sides agree**: the path `l` and the terminal `r`, with the frames from the path (`sent`)
and those to the path (`coming`) under way. -/
structure Agree [Platform] (l : Link) (r : Terminal) (sent coming : List (List UInt8)) : Prop where
  /-- The path will expect what the terminal sends next, or sends first. -/
  input : ∀ n, (coming.map tally).foldl Tally.listen l.input = some n →
    n = if r.up then r.vs else 0
  /-- A terminal that is down has a SARM under way, or its answer; or the path takes no frame. -/
  answered : r.up = false →
    Tally.restart ∈ coming.map tally ∨ [Platform.uaCode] ∈ sent ∨ l.input = none
  /-- The terminal will expect what the path sends next. -/
  output : l.OutputUp → (sent.map tally).foldl Tally.count r.vr = l.ns
  /-- After a SARM of the path it will expect the first frame. -/
  restarted : l.restarted = true → (sent.map tally).foldl Tally.count r.vr = 0

namespace Link

variable [Platform] {c : PathConf} {now : Int} {l l' l'' : Link} {r : Terminal}
  {sent coming : List (List UInt8)} {frame : List UInt8}

/-! ## The work of the path -/

/-- **The output goes on, or begins anew**: it begins at zero only after a SARM. -/
structure Continues (l l' : Link) : Prop where
  frames : l.frames <+: l'.frames
  count : l'.OutputUp → ∃ n, (l.OutputUp ∧ n = l.ns ∨ l.restarted = true ∧ n = 0) ∧
    ((l.sentSince l').map tally).foldl Tally.count n = l'.ns

theorem Numbers.continues (h : l.Numbers l') : l.Continues l' where
  frames := h.frames
  count hup := by
    have hup' : l.OutputUp := by rw [OutputUp, ← h.protocolState]; exact hup
    exact ⟨l.ns, Or.inl ⟨hup', .refl _⟩, h.count hup'⟩

theorem continues_transition {e : ConnectionEvent} (hkeeps : l.KeepsCount e) (he : e ≠ .receivedSarm) :
    l.Continues (l.transition now e) where
  frames := by rw [frames_transition]
  count hup := by
    rw [sentSince_of_same (frames_transition e)]
    obtain ⟨hup', hns⟩ | ⟨hrestarted, hns⟩ := (transition_inStep hkeeps he).2 hup
    · exact ⟨l.ns, Or.inl ⟨hup', rfl⟩, hns.symm⟩
    · exact ⟨0, Or.inr ⟨hrestarted, rfl⟩, hns.symm⟩

/-- UA is sent, and SARM obeyed. -/
theorem continues_sarm : l.Continues ((l.sendUA c now).transition now .receivedSarm) := by
  have hua : l.Numbers (l.sendUA c now) := numbers_sendUA
  have hframes : ((l.sendUA c now).transition now .receivedSarm).frames = (l.sendUA c now).frames :=
    frames_transition .receivedSarm
  refine ⟨by rw [hframes]; exact hua.frames, fun hup => ?_⟩
  obtain ⟨hup', hns⟩ := transition_sarm.2 hup
  have hup'' : l.OutputUp := by rw [OutputUp, ← hua.protocolState]; exact hup'
  refine ⟨l.ns, Or.inl ⟨hup'', rfl⟩, ?_⟩
  rw [sentSince, hframes, hns, ← hua.count hup'']
  rfl

theorem Continues.restarted_eq (h : l.Continues l') :
    l'.restarted = ((l.sentSince l').map tally).foldl Tally.restarts l.restarted := by
  obtain ⟨new, hnew⟩ := h.frames
  rw [sentSince_of_frames hnew.symm, restarted, restarted, ← hnew, List.map_append, List.foldl_append,
    List.map_map]
  rfl

/-- What the path sends keeps the agreement of the output. -/
theorem Continues.output (h : l.Continues l')
    (houtput : l.OutputUp → (sent.map tally).foldl Tally.count r.vr = l.ns)
    (hrestarted : l.restarted = true → (sent.map tally).foldl Tally.count r.vr = 0) :
    (l'.OutputUp →
        ((sent ++ l.sentSince l').map tally).foldl Tally.count r.vr = l'.ns) ∧
      (l'.restarted = true →
        ((sent ++ l.sentSince l').map tally).foldl Tally.count r.vr = 0) := by
  rw [List.map_append, List.foldl_append]
  refine ⟨fun hup => ?_, fun hafter => ?_⟩
  · obtain ⟨n, ⟨hup', rfl⟩ | ⟨hbefore, rfl⟩, hcount⟩ := h.count hup
    · rw [houtput hup', hcount]
    · rw [hrestarted hbefore, hcount]
  · rw [h.restarted_eq] at hafter
    exact Tally.foldl_count_of_restarts hrestarted hafter

/-- **The path upholds the agreement**, with the frames it sends under way. -/
structure Upholds (l l' : Link) : Prop where
  frames : l.frames <+: l'.frames
  agree : ∀ {r sent coming}, Agree l r sent coming → Agree l' r (sent ++ l.sentSince l') coming

theorem Upholds.rfl : l.Upholds l where
  frames := List.prefix_rfl
  agree h := by rwa [sentSince_of_same (.refl _), List.append_nil]

theorem Upholds.trans (h : l.Upholds l') (h' : l'.Upholds l'') : l.Upholds l'' where
  frames := h.frames.trans h'.frames
  agree hagree := by
    rw [← sentSince_trans h.frames h'.frames, ← List.append_assoc]
    exact h'.agree (h.agree hagree)

/-- Its input goes on, or is closed. -/
theorem Continues.upholds (h : l.Continues l') (hinput : l'.input = none ∨ l'.input = l.input) :
    l.Upholds l' where
  frames := h.frames
  agree {r sent coming} hagree := by
    obtain ⟨houtput, hrestarted⟩ := h.output hagree.output hagree.restarted
    refine ⟨fun n hn => hagree.input n ?_, fun hdown => ?_, houtput, hrestarted⟩
    · rcases hinput with hinput | hinput
      · rw [hinput] at hn
        exact Tally.foldl_listen_of_none hn _
      · rwa [hinput] at hn
    · obtain hcoming | hsent | hnone := hagree.answered hdown
      · exact Or.inl hcoming
      · exact Or.inr (Or.inl (List.mem_append_left _ hsent))
      · exact Or.inr (Or.inr (hinput.elim id fun h => h.trans hnone))

omit [Platform] in
theorem input_congr (hstate : l'.protocolState = l.protocolState) (hnr : l'.nr = l.nr) :
    l'.input = l.input := by
  rw [input, hstate, hnr, input]

theorem Numbers.upholds (h : l.Numbers l') (hnr : l'.nr = l.nr) : l.Upholds l' :=
  h.continues.upholds (Or.inr (input_congr h.protocolState hnr))

theorem upholds_transition {e : ConnectionEvent} (hkeeps : l.KeepsCount e) (he : e ≠ .receivedSarm) :
    l.Upholds (l.transition now e) :=
  (continues_transition hkeeps he).upholds (transition_inStep hkeeps he).1

/-! ## The frames it receives -/

/-- **The next frame is counted.** -/
theorem Continues.receive (h : l.Continues l')
    (hinput : l'.input = none ∨ l'.input = Tally.listen l.input (tally frame))
    (hua : tally frame = .restart → [Platform.uaCode] ∈ l.sentSince l')
    (hagree : Agree l r sent (frame :: coming)) : Agree l' r (sent ++ l.sentSince l') coming := by
  obtain ⟨houtput, hrestarted⟩ := h.output hagree.output hagree.restarted
  refine ⟨fun n hn => hagree.input n ?_, fun hdown => ?_, houtput, hrestarted⟩
  · change (coming.map tally).foldl Tally.listen (Tally.listen l.input (tally frame)) = some n
    rcases hinput with hinput | hinput
    · rw [hinput] at hn
      exact Tally.foldl_listen_of_none hn _
    · rwa [hinput] at hn
  · obtain hcoming | hsent | hnone := hagree.answered hdown
    · rcases List.mem_cons.mp hcoming with hframe | hcoming
      · exact Or.inr (Or.inl (List.mem_append_right _ (hua hframe.symm)))
      · exact Or.inl hcoming
    · exact Or.inr (Or.inl (List.mem_append_left _ hsent))
    · by_cases hframe : tally frame = .restart
      · exact Or.inr (Or.inl (List.mem_append_right _ (hua hframe)))
      · refine Or.inr (Or.inr (hinput.elim id fun h => h.trans ?_))
        rw [hnone, Tally.listen_none hframe]

/-- An information frame is counted, unless its number is the next one and its NR invalid. -/
theorem input_sendRR {p b : Bool} {ns nr : Fin 8} (h : l.sendRR c now p ns nr = .ok (b, l'))
    (hvalid : l.protocolState = .inputConnected ∨ l.protocolState = .connected → ns = l.nr →
      l.isNRValid nr) : l'.input = Tally.listen l.input (.numbered ns) := by
  have hstate : l'.protocolState = l.protocolState := (numbers_sendRR h).protocolState
  obtain ⟨-, hnr, -⟩ := sendRR_spec h
  rw [input, hstate, input]
  split_ifs with hup
  · rw [Tally.listen_some, Tally.count, hnr]
    by_cases hns : ns = l.nr
    · rw [if_pos hns, if_pos ⟨hvalid hup hns, hns⟩]
    · rw [if_neg hns, if_neg fun h => hns h.2]
  · rfl

end Link

/-! ## The terminal -/

section
variable [Platform] {l : Link} {r : Terminal} {sent coming : List (List UInt8)} {frame : List UInt8}

/-- **What a terminal does with a frame**: it counts it; its answers bear no number; and it is up after
UA, with its first number if it was down. -/
theorem Terminal.receive_spec (frame : List UInt8) (reply : Bool) (r : Terminal) :
    (r.receive frame reply).1.vr = Tally.count r.vr (tally frame) ∧
      (∀ f ∈ (r.receive frame reply).2, tally f = .other) ∧
      (if (r.receive frame reply).1.up then (r.receive frame reply).1.vs else 0) =
        (if r.up then r.vs else 0) ∧
      ((r.receive frame reply).1.up = false → r.up = false ∧ frame ≠ [Platform.uaCode]) := by
  cases frame with
  | nil => exact ⟨rfl, List.forall_mem_nil _, rfl, fun h => ⟨h, (List.cons_ne_nil _ _).symm⟩⟩
  | cons type payload =>
    have hne : type ≠ Platform.uaCode → type :: payload ≠ [Platform.uaCode] := fun hua h =>
      hua (List.cons.inj h).1
    by_cases hsarm : type = Platform.sarmCode
    · have hua : type ≠ Platform.uaCode := hsarm ▸ Platform.sarm_ne_ua
      rw [show tally (type :: payload) = .restart from if_pos hsarm]
      simp only [receive, if_pos hsarm]
      exact ⟨rfl, by simp, trivial, fun h => ⟨h, hne hua⟩⟩
    by_cases heven : type &&& 0x01 = 0
    · have hua : type ≠ Platform.uaCode := by
        rintro rfl
        exact odd_of_unnumbered Platform.ua_unnumbered heven
      rw [tally_of_even heven]
      simp only [receive, if_neg hsarm, if_neg hua, if_pos heven, Tally.count]
      by_cases hns : nsField type = r.vr
      · simp only [hns, if_true]
        exact ⟨trivial, by cases reply <;> simp, trivial, fun h => ⟨h, hne hua⟩⟩
      · simp only [if_neg hns]
        exact ⟨trivial, by cases reply <;> simp, trivial, fun h => ⟨h, hne hua⟩⟩
    rw [tally_of_odd hsarm heven]
    by_cases hua : type = Platform.uaCode
    · simp only [receive, if_neg hsarm, if_pos hua]
      cases hup : r.up
      · exact ⟨rfl, List.forall_mem_nil _, rfl, by simp⟩
      · simp [hup, Tally.count]
    · simp only [receive, if_neg hsarm, if_neg hua, if_neg heven]
      exact ⟨rfl, List.forall_mem_nil _, trivial, fun h => ⟨h, hne hua⟩⟩

namespace Agree

/-- The terminal takes a frame, and answers it. -/
theorem answer (h : Agree l r (frame :: sent) coming) (reply : Bool) :
    Agree l (r.receive frame reply).1 sent (coming ++ (r.receive frame reply).2) := by
  obtain ⟨hvr, hothers, hvs, hdown⟩ := r.receive_spec frame reply
  have hothers' : ∀ s ∈ (r.receive frame reply).2.map tally, s = .other := by
    simpa using hothers
  refine ⟨fun n hn => ?_, fun h' => ?_, fun hup => ?_, fun hrestarted => ?_⟩
  · rw [List.map_append, List.foldl_append, Tally.foldl_listen_others hothers'] at hn
    exact (h.input n hn).trans hvs.symm
  · obtain ⟨hbefore, hne⟩ := hdown h'
    obtain hcoming | hsent | hnone := h.answered hbefore
    · exact Or.inl (by rw [List.map_append]; exact List.mem_append_left _ hcoming)
    · exact Or.inr (Or.inl ((List.mem_cons.mp hsent).resolve_left (Ne.symm hne)))
    · exact Or.inr (Or.inr hnone)
  · rw [hvr]
    exact h.output hup
  · rw [hvr]
    exact h.restarted hrestarted

/-- It sends SARM. -/
theorem sarm (h : Agree l r sent coming) :
    Agree l { r with up := false } sent (coming ++ [[Platform.sarmCode]]) where
  input := by
    rw [List.map_append, List.map_singleton, tally_sarm]
    exact Tally.foldl_listen_restart
  answered _ := Or.inl (by simp [tally_sarm])
  output := h.output
  restarted := h.restarted

/-- It sends an information frame. -/
theorem send (h : Agree l r sent coming) (hup : r.up) (nr : Fin 8) (p : Bool) (payload : List UInt8) :
    Agree l { r with vs := r.vs + 1 } sent (coming ++ [infoType nr r.vs p :: payload]) where
  input := by
    have hinput := h.input
    simp only [hup, if_true] at hinput ⊢
    rw [List.map_append, List.map_singleton, tally_infoType]
    exact fun n hn => (Tally.foldl_listen_numbered hinput _ n hn).trans (if_pos rfl)
  answered hdown := absurd hup (by simp [show r.up = false from hdown])
  output := h.output
  restarted := h.restarted

/-- It repeats one. -/
theorem again (h : Agree l r sent coming) (hup : r.up) {ns : Fin 8} (hns : ns ≠ r.vs) (nr : Fin 8)
    (p : Bool) (payload : List UInt8) :
    Agree l r sent (coming ++ [infoType nr ns p :: payload]) where
  input := by
    have hinput := h.input
    simp only [hup, if_true] at hinput ⊢
    rw [List.map_append, List.map_singleton, tally_infoType]
    exact fun n hn => (Tally.foldl_listen_numbered hinput _ n hn).trans (if_neg hns)
  answered hdown := absurd hup (by simp [hdown])
  output := h.output
  restarted := h.restarted

/-- It acknowledges. -/
theorem acknowledge (h : Agree l r sent coming) (nr : Fin 8) (f : Bool) :
    Agree l r sent (coming ++ [[rrType nr f]]) where
  input n hn := by
    rw [List.map_append, List.map_singleton, tally_rrType, List.foldl_append] at hn
    exact h.input n (by rwa [Tally.foldl_listen_others (by simp)] at hn)
  answered hdown := by
    obtain hcoming | hrest := h.answered hdown
    · exact Or.inl (by rw [List.map_append]; exact List.mem_append_left _ hcoming)
    · exact Or.inr hrest
  output := h.output
  restarted := h.restarted

end Agree

end

/-! ## The plugin -/

namespace System

variable [Platform] {s t u : System} {p : PathId} {ev : Event} {now : Instant}

/-- What the events of a path do to it: its links before and after. -/
abbrev Upholds (p : PathId) (s t : System) : Prop :=
  (s.path p).toLink.Upholds (t.path p).toLink

theorem upholds_of_same (h : (t.path p).toLink = (s.path p).toLink) : Upholds p s t := by
  rw [Upholds, h]
  exact .rfl

/-- Work on one link is work on the path only if it is its link. -/
theorem upholds_modifyLink {q : PathId} {f : Link → Link}
    (h : q = p → (s.path p).toLink.Upholds (f (s.path p).toLink)) :
    Upholds p s (s.modifyLink q f) := by
  rw [Upholds, path_modifyLink]
  split_ifs with hpq
  · subst hpq
    exact h rfl
  · exact .rfl

/-- **The effects** that neither a received frame nor a retransmission has. -/
theorem upholds_of_effect {e : Effect} (h : EffectStep s e t) (he : e.Spares p) : Upholds p s t := by
  cases h with
  | @submit q msg now _ =>
    exact upholds_modifyLink (f := fun l => (l.sendInfo (s.pathConf q) now.ms msg).2) fun _ =>
      (Link.numbers_sendInfo msg).upholds (Link.nr_sendInfo msg)
  | @receive q op l hop h => exact upholds_modifyLink fun hq => absurd hq he
  | resend now h => exact upholds_modifyLink fun hq => absurd hq he
  | touch h =>
    refine upholds_modifyLink fun hq => ?_
    subst hq
    exact (Link.numbers_of_core h).upholds (congrArg Link.Core.nr h)
  | sendSARM now h =>
    refine upholds_modifyLink fun hq => ?_
    subst hq
    exact (Link.numbers_sendSARM h).upholds rfl
  | sendUA q now => exact upholds_modifyLink fun hq => absurd hq he
  | answer =>
    refine upholds_of_same ?_
    rw [System.path, kept_request.path, System.path]
  | other h hp =>
    refine upholds_of_same ?_
    rw [System.path, h.path, System.path]

theorem upholds_of_effects {ok : Effect → Prop} (hok : ∀ {e}, ok e → e.Spares p)
    (h : Effects ok s t) : Upholds p s t :=
  h.invariant (I := fun u => Upholds p s u)
    (fun he hu hst => hu.trans (upholds_of_effect hst (hok he))) .rfl

/-- **A transition** that keeps the count, or of the other path. -/
theorem upholds_fire {f : Option (PathId × ConnectionEvent)}
    (hkeeps : ∀ e, f = some (p, e) → (s.path p).toLink.KeepsCount e ∧ e ≠ .receivedSarm) :
    Upholds p s (s.fire now f) := by
  cases f with
  | none => exact .rfl
  | some a =>
    obtain ⟨q, e⟩ := a
    rw [Upholds, fire, link_protocolStateTransition]
    split_ifs with hq
    · subst hq
      obtain ⟨hkeep, he⟩ := hkeeps e rfl
      exact Link.upholds_transition hkeep he
    · exact .rfl

/-- The watch over the acknowledgements repeats an old number, or gives up. -/
theorem upholds_checkRepeat (hfires : s.FiresInStep p (.checkTimer p now)) (hold : s.RepeatsOld p) :
    Upholds p s (s.checkRepeat p now) := by
  unfold checkRepeat
  unfold RepeatsOld at hold
  simp only [FiresInStep, fires, before] at hfires
  cases hto : (s.path p).timeout (s.pathConf p) s.connection.repeatTimeout s.connection.current with
  | none => exact .rfl
  | maxSend =>
    rw [if_pos hto] at hfires
    refine upholds_fire (f := some (p, .maxSend)) fun e he => ?_
    obtain ⟨-, rfl⟩ := Prod.mk.inj (Option.some.inj he)
    exact ⟨hfires rfl, by decide⟩
  | resend m =>
    rw [hto] at hold
    exact upholds_modifyLink fun _ => (Link.numbers_resend hold).upholds rfl

/-- Only a frame fires what only a frame fires. -/
theorem ne_receivedSarm_of_fires {e : ConnectionEvent} (hev : ev.Received p = false)
    (h : s.fires ev = some (p, e)) : e ≠ .receivedSarm := by
  rintro rfl
  cases ev with
  | frame q data now =>
    obtain rfl : q = p := Option.some.inj (target_of_fires h)
    simp [Event.Received] at hev
  | protocol q e now =>
    cases h
    simp [Event.Received] at hev
  | manage q now =>
    simp only [fires] at h
    split at h <;> (try split_ifs at h) <;> cases h
  | checkTimer q now => simp only [fires] at h; split_ifs at h; cases h
  | _ => cases h

/-- **Every event but a received frame.** -/
theorem upholds_of_step (hev : ev.Received p = false) (hin : s.InStep p ev)
    (h : s.step ev = some t) : Upholds p s t := by
  have hinit : ∀ {u v : System}, Effects Effect.Free u v → Upholds p u v :=
    upholds_of_effects fun {e} he => by cases e <;> trivial
  by_cases htimer : ∃ now, ev = .checkTimer p now
  · obtain ⟨now, rfl⟩ := htimer
    obtain ⟨-, hrun⟩ := run_of_step h
    obtain rfl := Except.ok.inj hrun
    exact (upholds_checkRepeat hin.1 (hin.2 rfl)).trans (hinit effects_checkInit)
  · have hframe : ∀ data now, ev ≠ .frame p data now := by
      rintro data now rfl
      simp [Event.Received] at hev
    have hspares : ∀ {u v : System}, Effects (Effect.Allowed s ev) u v → Upholds p u v :=
      upholds_of_effects fun he => spares_of_allowed hframe (fun now hnow => htimer ⟨now, hnow⟩) he
    obtain ⟨now, hbefore, hafter⟩ := staged_of_step h
    refine (hspares hbefore).trans (.trans (upholds_fire fun e he => ?_) (hspares hafter))
    have hfires := hin.1
    simp only [FiresInStep, he] at hfires
    exact ⟨hfires trivial, ne_receivedSarm_of_fires hev he⟩

/-! ## Received frames -/

variable {r : Terminal} {sent coming messages : List (List UInt8)} {address type : UInt8}
  {payload more : List UInt8}

/-- What a frame of the terminal is. -/
theorem frameKind_of_addressed (more : List UInt8) (h : s.Addressed p address type) :
    s.frameKind p (address :: type :: more) =
      if type = Platform.uaCode then some .ua
      else if type = Platform.sarmCode then some .sarm
      else if (s.path p).protocolState = .connection then none
      else if type &&& 0x01 = 0 then some (.info type)
      else some (.rr type) := by
  simp only [Addressed, Bool.and_eq_true, beq_iff_eq] at h
  rw [frameKind, if_neg (not_not.mpr h.1), if_neg (not_not.mpr h.2)]

/-- A path whose input is not connected counts nothing. -/
theorem agree_of_closed (hagree : Agree (s.path p).toLink r sent ((type :: payload) :: coming))
    (hsarm : type ≠ Platform.sarmCode) (hclosed : (s.path p).toLink.input = none) :
    Agree (s.path p).toLink r (sent ++ (s.path p).toLink.sentSince (s.path p).toLink) coming := by
  refine Link.Numbers.rfl.continues.receive (Or.inl hclosed) (fun hrestart => ?_) hagree
  by_cases heven : type &&& 0x01 = 0
  · rw [tally_of_even heven] at hrestart
    cases hrestart
  · rw [tally_of_odd hsarm heven] at hrestart
    cases hrestart

/-- **SARM.** -/
theorem agree_of_sarm (haddr : s.Addressed p address Platform.sarmCode)
    (hin : s.CountsFrame p (address :: Platform.sarmCode :: more) now)
    (hagree : Agree (s.path p).toLink r sent ((Platform.sarmCode :: payload) :: coming)) :
    Agree ((s.receivedSARM p now).path p).toLink r
      (sent ++ (s.path p).toLink.sentSince ((s.receivedSARM p now).path p).toLink) coming := by
  have hkind := frameKind_of_addressed more haddr
  rw [if_neg Platform.sarm_ne_ua, if_pos rfl] at hkind
  simp only [CountsFrame, hkind] at hin
  have hua : [Platform.uaCode] ∈
      (s.path p).toLink.sentSince ((s.receivedSARM p now).path p).toLink := by
    rw [link_receivedSARM, Link.sentSince_of_frames Link.frames_receivedSARM]
    exact List.mem_singleton_self _
  rw [link_receivedSARM] at hua ⊢
  by_cases hrecent : (s.path p).toLink.TooRecent (s.pathConf p) now.ms
  · rw [Link.receivedSARM_of_tooRecent hrecent] at hua ⊢
    refine Link.numbers_sendUA.continues.receive ?_ (fun _ => hua) hagree
    change (s.path p).toLink.input = none ∨ (s.path p).toLink.input = _
    rw [tally_sarm, Link.input]
    split_ifs with hup
    · exact Or.inr (congrArg some (hin hup hrecent))
    · exact Or.inl rfl
  · rw [Link.receivedSARM_of_not_tooRecent hrecent] at hua ⊢
    refine Link.continues_sarm.receive (Or.inr ?_) (fun _ => hua) hagree
    rw [tally_sarm]
    exact Link.transition_sarm.1

/-- **An information frame.** -/
theorem agree_of_info (hkind : s.frameKind p (address :: type :: more) = some (.info type))
    (heven : type &&& 0x01 = 0) (hin : s.CountsFrame p (address :: type :: more) now)
    (hagree : Agree (s.path p).toLink r sent ((type :: payload) :: coming))
    (h : s.receivedINFO p (address :: type :: more) now = .ok (messages, t)) :
    Agree (t.path p).toLink r (sent ++ (s.path p).toLink.sentSince (t.path p).toLink) coming := by
  have hsarm : type ≠ Platform.sarmCode := by
    rintro rfl
    exact odd_of_unnumbered Platform.sarm_unnumbered heven
  simp only [CountsFrame, hkind] at hin
  obtain ⟨hout, -, rfl⟩ | ⟨-, u, extracted, ok, l, hu, hl, -, rfl⟩ := receivedINFO_cases rfl h
  · exact agree_of_closed hagree hsarm (by simp [Link.input, hout])
  · obtain ⟨l₁, hcore, rfl⟩ := extract_cases hu
    simp only [link_modifyLink, if_true] at hl ⊢
    have hnumbers := (Link.numbers_of_core hcore).trans (Link.numbers_sendRR hl)
    refine hnumbers.continues.receive (Or.inr ?_) (fun hrestart => ?_) hagree
    · have hstate : l₁.protocolState = (s.path p).protocolState :=
        congrArg Link.Core.protocolState hcore
      have hnr : l₁.nr = (s.path p).nr := congrArg Link.Core.nr hcore
      rw [tally_of_even heven, ← Link.input_congr hstate hnr]
      refine Link.input_sendRR hl fun hup hns => ?_
      rw [Link.isNRValid_of_core hcore]
      exact hin (hstate ▸ hup) (hns.trans hnr)
    · rw [tally_of_even heven] at hrestart
      cases hrestart

/-- **The next frame of the terminal.** -/
theorem agree_of_frame (haddr : s.Addressed p address type)
    (hin : s.InStep p (.frame p (address :: type :: more) now))
    (hagree : Agree (s.path p).toLink r sent ((type :: payload) :: coming))
    (h : s.step (.frame p (address :: type :: more) now) = some t) :
    Agree (t.path p).toLink r (sent ++ (s.path p).toLink.sentSince (t.path p).toLink) coming := by
  obtain ⟨-, hrun⟩ := run_of_step h
  obtain ⟨⟨messages, u⟩, hu, rfl⟩ := map_eq_ok.mp hrun
  obtain ⟨hfires, hcounts⟩ := hin
  have hkind := frameKind_of_addressed more haddr
  have hcases := analyzeFrame_cases hu
  by_cases hua : type = Platform.uaCode
  · subst hua
    rw [if_pos rfl] at hkind
    rw [hkind] at hcases
    obtain ⟨-, rfl⟩ := hcases
    have hskip : Agree (s.path p).toLink r sent coming := by
      have hagree' := Link.Numbers.rfl.continues.receive
        (Or.inr (by rw [tally_ua, Tally.listen_other])) (fun h => by rw [tally_ua] at h; cases h) hagree
      rwa [Link.sentSince_of_same rfl, List.append_nil] at hagree'
    simp only [FiresInStep, fires, hkind, before, reduceCtorEq, Option.some.injEq, if_false] at hfires
    rw [receivedUA, link_protocolStateTransition, if_pos rfl]
    exact (Link.upholds_transition (hfires trivial) (by decide)).agree hskip
  by_cases hsarm : type = Platform.sarmCode
  · subst hsarm
    rw [if_neg hua, if_pos rfl] at hkind
    rw [hkind] at hcases
    obtain ⟨-, rfl⟩ := hcases
    exact agree_of_sarm haddr (hcounts rfl) hagree
  rw [if_neg hua, if_neg hsarm] at hkind
  by_cases hclosed : (s.path p).protocolState = .connection
  · rw [if_pos hclosed] at hkind
    rw [hkind] at hcases
    obtain ⟨-, rfl⟩ := hcases
    exact agree_of_closed hagree hsarm (by simp [Link.input, hclosed])
  rw [if_neg hclosed] at hkind
  by_cases heven : type &&& 0x01 = 0
  · rw [if_pos heven] at hkind
    rw [hkind] at hcases
    exact agree_of_info hkind heven (hcounts rfl) hagree hcases.2.2
  · rw [if_neg heven] at hkind
    rw [hkind] at hcases
    obtain ⟨-, -, -, hrr⟩ := hcases
    obtain ⟨⟨ok, l⟩, hl, hrr⟩ := bind_eq_ok.mp hrr
    obtain rfl := Except.ok.inj hrr
    simp only [link_modifyLink, if_true]
    have hnumbers := Link.numbers_receivedRR hl
    refine hnumbers.continues.receive (Or.inr ?_) (fun hrestart => ?_) hagree
    · rw [tally_of_odd hsarm heven, Tally.listen_other]
      exact Link.input_congr hnumbers.protocolState (Link.receivedRR_spec hl).1
    · rw [tally_of_odd hsarm heven] at hrestart
      cases hrestart

end System

/-! ## Both together -/

namespace Joint

section
variable [Platform] {p : PathId} {x y : Joint} {a : Act}

/-- **A path and its terminal agree** on the numbers to come. -/
def Agrees (p : PathId) (x : Joint) : Prop :=
  Agree (x.system.path p).toLink x.terminal x.toTerminal x.toPath

/-- Before the first SARM there is nothing to agree on. -/
theorem Fresh.agrees (h : x.Fresh p) : x.Agrees p where
  input n hn := by simp [h.toPath, Link.input, h.protocolState] at hn
  answered _ := Or.inr (Or.inr (by simp [Link.input, h.protocolState]))
  output hup := by simp [Link.OutputUp, h.protocolState] at hup
  restarted hrestarted := by simp [Link.restarted, h.frames] at hrestarted

/-- **The step lemma.** -/
theorem Agrees.step (h : x.Agrees p) (hin : x.InStep p a) (hst : x.step p a = some y) :
    y.Agrees p := by
  cases a with
  | event ev =>
    simp only [Joint.step] at hst
    split_ifs at hst with hev
    obtain ⟨t, ht, rfl⟩ := Option.map_eq_some_iff.mp hst
    exact (System.upholds_of_step (Bool.eq_false_of_not_eq_true hev) hin ht).agree h
  | deliver address crc₁ crc₂ now =>
    simp only [Joint.step] at hst
    split at hst
    · next type payload rest hpath =>
      split_ifs at hst with haddr
      obtain ⟨t, ht, rfl⟩ := Option.map_eq_some_iff.mp hst
      simp only [Joint.InStep, hpath] at hin
      rw [Agrees, hpath] at h
      exact System.agree_of_frame haddr hin h ht
    · cases hst
  | sarm =>
    obtain rfl := Option.some.inj hst
    exact h.sarm
  | send payload f =>
    simp only [Joint.step] at hst
    split_ifs at hst with hup
    obtain rfl := Option.some.inj hst
    exact h.send hup _ f payload
  | again ns payload f =>
    simp only [Joint.step] at hst
    split_ifs at hst with hup
    obtain rfl := Option.some.inj hst
    exact h.again hup.1 hup.2 _ f payload
  | acknowledge f =>
    obtain rfl := Option.some.inj hst
    exact h.acknowledge _ f
  | answer reply =>
    simp only [Joint.step] at hst
    split at hst
    · next frame rest hterminal =>
      obtain rfl := Option.some.inj hst
      rw [Agrees, hterminal] at h
      exact h.answer reply
    · cases hst

/-- Once nothing is under way, both sides have counted everything. -/
theorem Agrees.synchronised (h : x.Agrees p) : x.Synchronised p := by
  intro hterminal hpath
  refine ⟨fun hup => ?_, fun hup => ?_⟩
  · have hinput : (x.system.path p).toLink.input = some (x.system.path p).nr := if_pos hup
    have hnr : (x.system.path p).nr = if x.terminal.up then x.terminal.vs else 0 :=
      h.input _ (by rw [hpath]; exact hinput)
    rw [hnr]
    refine if_pos (Bool.eq_true_of_not_eq_false fun hdown => ?_)
    obtain hcoming | hsent | hnone := h.answered hdown
    · rw [hpath] at hcoming
      cases hcoming
    · rw [hterminal] at hsent
      cases hsent
    · rw [hinput] at hnone
      cases hnone
  · have houtput := h.output hup
    rw [hterminal] at houtput
    exact houtput.symm

/-- **Synchrony**: in every run whose steps keep the numbers in step — any order of SARM, UA,
information frames, acknowledgements, repetitions and silences — the counters agree whenever nothing
is under way. -/
theorem synchronised_of_run (hx : x.Fresh p) {as : List Act}
    (hrun : Run (Under (InStep p) (Step p)) x as y) : y.Synchronised p :=
  (hrun.invariant (I := Agrees p) (fun h hst => h.step hst.1 hst.2) hx.agrees).synchronised

end

/-! ## A path and its terminal -/

open Sample

/-- The TCP connection of path A is there, and nothing else. -/
def starting : Joint where
  system :=
    { hnz := { conf := .sample, remoteAddress := 1, connStatus := .started }
      connection :=
        { conf := .sample
          path := fun p => if p = .A then { tcpConnected := true } else {}
          isRunning := true
          repeatTimeout := 3000 } }

theorem fresh_starting : starting.Fresh .A := by
  constructor <;> rfl

/-- Both sides connect, the terminal reports a change of a TS, and the path sends a command. -/
def talking : List Act :=
  [.sarm, .deliver 4 0 0 4000000000, .answer false, .event (.manage .A 4000000000), .answer false,
    .deliver 6 0 0 4000000000, .send [0x0B, 0x33, 0x28, 0x36, 0xF2] false, .deliver 4 0 0 4000000000,
    .answer false, .event (.operation "HNZCommand"
      [("co_type", "TC"), ("co_addr", "31"), ("co_value", "1")] 5000000000), .answer false]

/-- The terminal acknowledges the command, restarts, and reports another change. -/
def restarting : List Act :=
  [.acknowledge false, .deliver 6 0 0 6000000000, .sarm, .deliver 4 0 0 8000000000, .answer false,
    .event (.manage .A 12000000000), .answer false, .deliver 6 0 0 12000000000,
    .send [0x0B, 0x33, 0x28, 0x36, 0xF2] false, .deliver 4 0 0 13000000000, .answer false]

/-- It never acknowledges the command. -/
def withholding : List Act :=
  [.event (.currentTime 9000000000), .event (.checkTimer .A 9000000000), .answer false,
    .event (.currentTime 13000000000), .event (.checkTimer .A 13000000000), .answer false,
    .event (.currentTime 17000000000), .event (.checkTimer .A 17000000000), .answer false,
    .answer false]

/-- It acknowledges the command, and says nothing more. -/
def fallingSilent : List Act :=
  [.acknowledge false, .deliver 6 0 0 6000000000, .event (.manage .A 190000000000), .answer false]

set_option maxRecDepth 8000 in
/-- The restart is followed on both sides. -/
theorem synchronised_restarting :
    ∃ y, Run (Step .A) starting (talking ++ restarting) y ∧ y.Synchronised .A ∧
      y.toTerminal = [] ∧ y.toPath = [] ∧ (y.system.path .A).protocolState = .connected ∧
      y.terminal = ⟨1, 0, true⟩ := by
  let y : Joint := (exec (fun x a => if x.InStep .A a then x.step .A a else none) starting
    (talking ++ restarting)).get (by decide +kernel)
  have hrun : Run (Under (InStep .A) (Step .A)) starting (talking ++ restarting) y :=
    run_under_iff.mpr (Option.some_get _).symm
  exact ⟨y, hrun.of_under, synchronised_of_run fresh_starting hrun, by decide +kernel⟩

set_option maxRecDepth 8000 in
/-- **Two resets that the terminal does not make**: after too many repetitions the path expects 0 though
the terminal sends 1 next, and after a silence it sends 0 next though the terminal expects 2. -/
theorem not_synchronised :
    starting.Fresh .A ∧
    (∃ y, Run (Step .A) starting (talking ++ withholding) y ∧ ¬y.Synchronised .A ∧
      (y.system.path .A).protocolState = .inputConnected ∧ (y.system.path .A).nr = 0 ∧
      y.terminal.vs = 1) ∧
    ∃ y, Run (Step .A) starting (talking ++ fallingSilent) y ∧ ¬y.Synchronised .A ∧
      (y.system.path .A).protocolState = .outputConnected ∧ (y.system.path .A).ns = 0 ∧
      y.terminal.vr = 2 := by
  let y : Joint := (exec (step .A) starting (talking ++ withholding)).get (by decide +kernel)
  let z : Joint := (exec (step .A) starting (talking ++ fallingSilent)).get (by decide +kernel)
  exact ⟨fresh_starting, ⟨y, run_det_iff.mpr (Option.some_get _).symm, by decide +kernel⟩,
    z, run_det_iff.mpr (Option.some_get _).symm, by decide +kernel⟩

end Joint

end Hnz
