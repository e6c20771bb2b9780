import HnzSouth.Behaviour.Pieces

/-!
# Behaviour/Events — every event is work around at most one transition

`fires` reads off the state, before an event, which transition the event will fire.  The main result
is `step_cases`: some work on links, that transition, and some more work.
-/

namespace Hnz

open Machinery

/-- The event is about one path, and never about the GI. -/
def Event.OfPath : Event → Prop
  | .protocol .. | .connect .. | .disconnect .. | .loseTCP .. | .frame .. | .manage ..
  | .checkCommandTimer .. => True
  | _ => False

namespace System

variable {s t u : System} {p : PathId} {now : Instant} {data : List UInt8} {ev : Event}

/-! ## Transitions -/

/-- An optional transition. -/
def fire (now : Instant) (f : Option (PathId × ConnectionEvent)) (s : System) : System :=
  match f with
  | none => s
  | some (p, e) => s.protocolStateTransition p e now

/-- Some work on links, a transition, and some more work. -/
def Around (ok : Work → Prop) (f : Option (PathId × ConnectionEvent)) (s t : System) : Prop :=
  ∃ u now, Works Work.OnLink s u ∧ Works ok (u.fire now f) t

/-- Work without a transition. -/
theorem Around.of_works {ok : Work → Prop} (h : Works ok s t) : Around ok none s t :=
  ⟨s, 0, .refl, h⟩

theorem Around.mono {ok ok' : Work → Prop} {f : Option (PathId × ConnectionEvent)}
    (hok : ∀ {a}, ok a → ok' a) (h : Around ok f s t) : Around ok' f s t := by
  obtain ⟨u, now, hpre, hpost⟩ := h
  exact ⟨u, now, hpre, hpost.mono hok⟩

theorem Around.of_fire {ok : Work → Prop} {f : Option (PathId × ConnectionEvent)}
    (hpre : Works Work.OnLink s u) (hpost : Works ok (u.fire now f) t) : Around ok f s t :=
  ⟨u, now, hpre, hpost⟩

variable [Platform]

/-- The transition an event fires. -/
def fires (s : System) : Event → Option (PathId × ConnectionEvent)
  | .protocol p e _ => some (p, e)
  | .disconnect p _ => some (p, .tcpCnxLost)
  | .frame p data now =>
    match s.frameKind p data with
    | some .ua => some (p, .receivedUa)
    | some .sarm =>
      if now.ms - (s.path p).lastConnected > (s.pathConf p).repeatTimeout then
        some (p, .receivedSarm)
      else none
    | _ => none
  | .manage p now =>
    let silent := now.ms - (s.path p).lastMsgTime > int32 ((s.pathConf p).inaccTimeout * 1000)
    match (s.path p).protocolState with
    | .connection | .inputConnected =>
      if silent then some (p, .toRecv)
      else if now.ms - (s.path p).lastSarmSentTime < (s.pathConf p).repeatTimeout then none
      else if (s.path p).nbrSarmSent = (s.pathConf p).maxSarm then some (p, .maxSarmSent)
      else none
    | .connected => if silent then some (p, .toRecv) else none
    | .outputConnected => none
  | .checkTimer p _ =>
    if (s.path p).timeout (s.pathConf p) s.connection.repeatTimeout s.connection.current = .maxSend
    then some (p, .maxSend) else none
  | _ => none

/-- The transition of a path that an event fires is its own. -/
theorem target_of_fires {e : ConnectionEvent} (h : s.fires ev = some (p, e)) :
    ev.target = some p := by
  cases ev with
  | frame q data now =>
    simp only [fires] at h
    split at h
    · cases h; rfl
    · split_ifs at h; cases h; rfl
    · cases h
  | manage q now =>
    simp only [fires] at h
    split at h <;> (try split_ifs at h) <;> cases h <;> rfl
  | checkTimer q now => simp only [fires] at h; split_ifs at h; cases h; rfl
  | _ => first | (cases h; rfl) | cases h

/-! ## Events -/

/-- A received frame. -/
theorem around_frame {messages : List (List UInt8)}
    (h : s.analyzeFrame p data now = .ok (messages, t)) :
    Around (fun a => a.Allowed s (.frame p data now) ∧ a.Linked) (s.fires (.frame p data now)) s t := by
  have hcases := analyzeFrame_cases h
  cases hk : s.frameKind p data with
  | none =>
    rw [hk] at hcases
    obtain ⟨-, rfl⟩ := hcases
    simp only [fires, hk]
    exact .of_works .refl
  | some kind =>
    cases kind with
    | ua =>
      rw [hk] at hcases
      obtain ⟨-, rfl⟩ := hcases
      simp only [fires, hk]
      exact .of_fire .refl .refl
    | sarm =>
      rw [hk] at hcases
      obtain ⟨-, rfl⟩ := hcases
      have hua : Works Work.OnLink s (s.modifyLink p (Link.sendUA (s.pathConf p) now.ms)) :=
        works_supervise [Platform.uaCode] true now.ms
      have hlast : ((s.modifyLink p (Link.sendUA (s.pathConf p) now.ms)).path p).lastConnected =
          (s.path p).lastConnected := by
        simp [Link.sendUA, Link.sendFrame]
      simp only [fires, hk, receivedSARM, hlast, gt_iff_lt]
      by_cases hrecent : (s.pathConf p).repeatTimeout < now.ms - (s.path p).lastConnected
      · rw [if_pos hrecent, if_pos (by exact hrecent)]
        exact .of_fire hua .refl
      · rw [if_neg hrecent, if_neg (by exact hrecent)]
        exact .of_works (hua.mono fun ha => ⟨ha.keeps.allowed, ha.linked⟩)
    | info type =>
      rw [hk] at hcases
      simp only [fires, hk]
      exact .of_works (works_receivedINFO hk hcases.1 hcases.2.2)
    | rr type =>
      rw [hk] at hcases
      simp only [fires, hk]
      exact .of_works (works_receivedRR hk hcases.2.2.2)

/-- The upkeep while a side is not connected. -/
theorem around_manageUnconnected
    (hp : (s.path p).protocolState = .connection ∨ (s.path p).protocolState = .inputConnected) :
    Around Work.OnLink (s.fires (.manage p now)) s (s.manageUnconnected p now).2 := by
  have hfires : s.fires (.manage p now) =
      if now.ms - (s.path p).lastMsgTime > int32 ((s.pathConf p).inaccTimeout * 1000) then
        some (p, .toRecv)
      else if now.ms - (s.path p).lastSarmSentTime < (s.pathConf p).repeatTimeout then none
      else if (s.path p).nbrSarmSent = (s.pathConf p).maxSarm then some (p, .maxSarmSent)
      else none := by
    rcases hp with hp | hp <;> simp only [fires, hp]
  rw [hfires]
  unfold manageUnconnected
  simp only
  by_cases hsilent : now.ms - (s.path p).lastMsgTime ≤ int32 ((s.pathConf p).inaccTimeout * 1000)
  · rw [if_pos hsilent, if_neg (not_lt.mpr hsilent)]
    by_cases hwait : now.ms - (s.path p).lastSarmSentTime < (s.pathConf p).repeatTimeout
    · rw [if_pos hwait, if_pos hwait]
      exact .of_works .refl
    · rw [if_neg hwait, if_neg hwait]
      by_cases hmax : (s.path p).nbrSarmSent = (s.pathConf p).maxSarm
      · rw [if_pos hmax, if_pos hmax]
        exact .of_fire .refl
          (works_sendSARM _ (pathConf_protocolStateTransition _ _).symm _)
      · rw [if_neg hmax, if_neg hmax]
        exact .of_works (works_sendSARM _ rfl _)
  · rw [if_neg hsilent, if_pos (not_le.mp hsilent)]
    exact .of_fire .refl .refl

/-- The upkeep while the output is connected. -/
theorem around_manageConnected
    (hp : (s.path p).protocolState = .connected ∨ (s.path p).protocolState = .outputConnected) :
    Around Work.OnLink (s.fires (.manage p now)) s (s.manageConnected p now).2 := by
  have hfires : s.fires (.manage p now) =
      if now.ms - (s.path p).lastMsgTime > int32 ((s.pathConf p).inaccTimeout * 1000) ∧
        (s.path p).protocolState = .connected then some (p, .toRecv) else none := by
    rcases hp with hp | hp <;> simp only [fires, hp] <;> simp
  rw [hfires]
  unfold manageConnected
  simp only
  have hbulle : Works Work.OnLink s (s.modifyLink p (Link.sendBULLE (s.pathConf p) now.ms)) :=
    works_sendBULLE _ rfl _
  split_ifs
  · exact .of_fire hbulle .refl
  · exact .of_fire .refl .refl
  · exact .of_works hbulle
  · exact .of_works .refl

/-- The upkeep of the protocol. -/
theorem around_manage :
    Around Work.OnLink (s.fires (.manage p now)) s (s.manageHNZProtocolState p now).2 := by
  unfold manageHNZProtocolState
  split
  · exact around_manageUnconnected (Or.inl ‹_›)
  · exact around_manageUnconnected (Or.inr ‹_›)
  · exact around_manageConnected (Or.inl ‹_›)
  · exact around_manageConnected (Or.inr ‹_›)

/-- The watch over the acknowledgements. -/
theorem around_checkTimer :
    Around (Work.Allowed s (.checkTimer p now)) (s.fires (.checkTimer p now)) s
      (s.checkTimer p now) := by
  simp only [fires, checkTimer, checkRepeat]
  cases hto : (s.path p).timeout (s.pathConf p) s.connection.repeatTimeout s.connection.current with
  | none => exact .of_works (works_checkInit.mono Work.Keeps.allowed)
  | maxSend => exact .of_fire .refl (works_checkInit.mono Work.Keeps.allowed)
  | resend m =>
    have hresend : Works (Work.Allowed s (.checkTimer p now)) s
        (s.modifyLink p (Link.resend (s.pathConf p) now.ms m)) :=
      .single (a := .link p .resend) (.link (.resend hto) nofun) fun _ => by simp [moves, hto]
    exact .of_works (hresend.trans (works_checkInit.mono Work.Keeps.allowed))

theorem run_of_step (h : s.step ev = some t) : s.enabled ev ∧ s.run ev = .ok t := by
  unfold step at h
  split_ifs at h with hen
  refine ⟨hen, ?_⟩
  cases hr : s.run ev with
  | error => rw [hr] at h; cases h
  | ok x => rw [hr] at h; exact congrArg _ (Option.some.inj h)

/-- **One event**: some work on links, the transition it fires, and some more work; only the step
that `moves` names moves messages. -/
theorem step_cases (h : s.step ev = some t) :
    (∀ p, ev.target = some p → s.configured p) ∧
      Around (Work.Allowed s ev) (s.fires ev) s t := by
  obtain ⟨hen, hrun⟩ := run_of_step h
  have hmono : ∀ {f}, Around Work.Keeps f s t → Around (Work.Allowed s ev) f s t :=
    fun h => h.mono Work.Keeps.allowed
  refine ⟨fun p hp => by simpa [enabled, hp] using hen, ?_⟩
  cases ev with
  | protocol p e now => cases hrun; exact .of_fire .refl .refl
  | connect p now => cases hrun; exact hmono (.of_works works_connect.keeps)
  | disconnect p now => cases hrun; exact hmono (.of_fire .refl works_stopTCP.keeps)
  | loseTCP p => cases hrun; exact hmono (.of_works works_stopTCP.keeps)
  | frame p data now =>
    obtain ⟨⟨messages, u⟩, hu, rfl⟩ := map_eq_ok.mp hrun
    exact (around_frame hu).mono And.left
  | message data now => exact hmono (.of_works (works_handleMessage hrun))
  | manage p now => cases hrun; exact hmono (around_manage.mono Work.OnLink.keeps)
  | startSchedule now =>
    cases hrun
    exact hmono (.of_works (works_quiet ⟨rfl, rfl, rfl, rfl, rfl, rfl, rfl, rfl, rfl, rfl⟩ rfl))
  | currentTime now =>
    cases hrun
    exact hmono (.of_works (works_quiet ⟨rfl, rfl, rfl, rfl, rfl, rfl, rfl, rfl, rfl, rfl⟩ rfl))
  | checkTimer p now => cases hrun; exact around_checkTimer
  | checkCommandTimer p =>
    cases hrun; exact hmono (.of_works works_checkCommandTimer.keeps)
  | checkGI now => exact hmono (.of_works (works_checkGI hrun))
  | qualityTimer now => exact hmono (.of_works (works_updateQualityUpdateTimer hrun))
  | operation name params now =>
    cases hrun; exact hmono (.of_works (works_operation name params))

/-- **Such an event** is a transition and some work on links. -/
theorem around_of_path (h : s.step ev = some t) (hev : ev.OfPath) :
    Around Work.Linked (s.fires ev) s t := by
  obtain ⟨-, hrun⟩ := run_of_step h
  have hmono : ∀ {f}, Around Work.OnLink f s t → Around Work.Linked f s t :=
    fun h => h.mono Work.OnLink.linked
  cases ev with
  | protocol p e now => cases hrun; exact .of_fire .refl .refl
  | connect p now => cases hrun; exact hmono (.of_works works_connect)
  | disconnect p now => cases hrun; exact hmono (.of_fire .refl works_stopTCP)
  | loseTCP p => cases hrun; exact hmono (.of_works works_stopTCP)
  | frame p data now =>
    obtain ⟨⟨messages, u⟩, hu, rfl⟩ := map_eq_ok.mp hrun
    exact (around_frame hu).mono And.right
  | manage p now => cases hrun; exact hmono around_manage
  | checkCommandTimer p => cases hrun; exact hmono (.of_works works_checkCommandTimer)
  | _ => exact hev.elim

/-- **An event that moves no message.** -/
theorem step_keeps (h : s.step ev = some t) (hmoves : s.moves ev = none) :
    Around Work.Keeps (s.fires ev) s t := by
  obtain ⟨u, now, hpre, hpost⟩ := (step_cases h).2
  refine ⟨u, now, hpre, hpost.mono fun {a} ha => ?_⟩
  cases a with
  | link => exact fun hr => by simpa [hmoves] using ha hr
  | _ => trivial

theorem analyzeFrame_of_step (h : s.step (.frame p data now) = some t) :
    ∃ messages, s.analyzeFrame p data now = .ok (messages, t) := by
  obtain ⟨⟨messages, u⟩, hu, rfl⟩ := map_eq_ok.mp (run_of_step h).2
  exact ⟨messages, hu⟩

/-- **An event that moves messages** does so first, and fires no transition. -/
theorem step_moves {op : Link.Op} (h : s.step ev = some t)
    (hmoves : s.moves ev = some (p, op)) :
    ∃ l l', l.core = (s.path p).core ∧ Link.Step (s.pathConf p) l op l' ∧
      Works Work.Keeps (s.modifyLink p fun _ => l') t := by
  cases ev with
  | frame q data now =>
    obtain ⟨messages, hu⟩ := analyzeFrame_of_step h
    have hcases := analyzeFrame_cases hu
    simp only [moves] at hmoves
    cases hk : s.frameKind q data with
    | none => simp only [hk] at hmoves; cases hmoves
    | some kind =>
      cases kind with
      | ua => simp only [hk] at hmoves; cases hmoves
      | sarm => simp only [hk] at hmoves; cases hmoves
      | info type =>
        simp only [hk] at hmoves hcases
        obtain ⟨htype, -, hinfo⟩ := hcases
        split_ifs at hmoves with hout
        cases hmoves
        obtain ⟨hout', -⟩ | ⟨-, v, extracted, ok, l', hv, hl', -, rfl⟩ :=
          receivedINFO_cases htype hinfo
        · exact absurd hout' hout
        · obtain ⟨l, hcore, rfl⟩ := extract_cases hv
          rw [link_modifyLink, if_pos rfl] at hl'
          exact ⟨l, l', hcore, .inform hl', modifyLink_modifyLink l (fun _ => l') ▸ .refl⟩
      | rr type =>
        simp only [hk] at hmoves hcases
        cases hmoves
        obtain ⟨-, -, -, hrr⟩ := hcases
        unfold receivedRR at hrr
        simp only [bind_eq_ok] at hrr
        obtain ⟨⟨ok, l'⟩, hl', hrr⟩ := hrr
        cases hrr
        exact ⟨_, l', rfl, .acknowledge hl', .refl⟩
  | checkTimer q now =>
    obtain ⟨-, hrun⟩ := run_of_step h
    cases hrun
    simp only [moves] at hmoves
    split at hmoves
    · next m hto =>
      cases hmoves
      refine ⟨_, Link.resend (s.pathConf p) now.ms m (s.path p).toLink, rfl, .resend hto, ?_⟩
      simp only [checkTimer, checkRepeat, hto]
      exact works_checkInit
    · cases hmoves
  | _ => cases hmoves

end System

end Hnz
