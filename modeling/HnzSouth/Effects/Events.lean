import HnzSouth.Behaviour.Events
import HnzSouth.Effects.Messages

/-!
# Effects/Events — every event, effect by effect

One lemma for each event, and all of them together (`staged_of_step`): an event has some effects,
fires its transition if it has one, and has some more effects.  Besides the effects that are free to
any event there are those that its kind allows; what comes before a transition is known exactly
(`before`).
-/

namespace Hnz

open Machinery

/-- The event asks for the two statuses. -/
def Event.Asks : Event → Prop
  | .operation name _ _ => name = "request_connection_status"
  | _ => False

namespace System

variable [Platform] {s t : System} {p : PathId} {now : Instant} {data : List UInt8} {ev : Event}

/-! ## Operations -/

theorem effects_northStatus (params : List (String × String)) :
    Effects Effect.Free s (s.northStatus params now).2 := by
  obtain h | h := s.northStatus_cases params
  · rw [h]
    exact .refl
  · rw [h]
    exact effects_triggerGI

/-- A command is submitted to the active path, and registered if it was sent. -/
theorem effects_processCommandOperation (params : List (String × String)) :
    Effects Effect.Free s (s.processCommandOperation params now).2 := by
  have hregister : ∀ (u : System) (q : PathId) (type : String) (sent : Bool) (addr : Int),
      Effects Effect.Free u (u.modifyLink q
        (Link.registerCommandIfSent (u.pathConf q) now.ms type sent addr)) := by
    intro u q type sent addr
    refine effects_touch fun l => ?_
    unfold Link.registerCommandIfSent
    split_ifs <;> rfl
  obtain ⟨-, h⟩ | ⟨address, value, p, -, -, hp, ⟨-, h⟩ | ⟨-, h⟩⟩ :=
    processCommandOperation_cases params now s
  · rw [h]
    exact .refl
  · rw [h]
    exact (effects_sendInfo (Or.inl hp)).trans (hregister _ p "TC" _ address)
  · rw [h]
    exact (effects_sendInfo (Or.inl hp)).trans (hregister _ p "TVC" _ (u8 address).toNat)

/-! ## Timers -/

theorem effects_sendBULLE :
    Effects Effect.Free s (s.modifyLink p (Link.sendBULLE (s.pathConf p) now.ms)) := by
  have hserves : s.Serves p
      [(s.pathConf p).testMsgSend.first, (s.pathConf p).testMsgSend.second] := by
    refine Or.inr (Or.inr ?_)
    simp [PathConf.isBULLE]
  exact effects_sendInfo hserves

/-- The init messages go to a path that is active. -/
theorem effects_checkInit : Effects Effect.Free s (s.checkInit p now) := by
  have hlast : ∀ u : System, Effects Effect.Free u
      (u.modifyLink p fun l => { l with lastConnected := 0 }) := fun u =>
    effects_touch (f := fun l => { l with lastConnected := 0 }) fun _ => rfl
  obtain h | h | ⟨hactive, h⟩ := s.checkInit_cases p now
  · rw [h]
    exact .refl
  · rw [h]
    exact hlast s
  · rw [h]
    have hserves : ∀ (u : System) (msg : List UInt8),
        (u.path p).connectionState = (s.path p).connectionState → u.Serves p msg := fun u msg hu =>
      Or.inr (Or.inl (hu.trans hactive))
    have hkept : ∀ (u : System) (msg : List UInt8),
        ((u.sendInfo p now msg).2.path p).connectionState = (u.path p).connectionState := by
      intro u msg
      simp [sendInfo, path_modifyLink]
    have hdate : Effects Effect.Free s (s.sendDateSetting p now) := effects_sendInfo (hserves _ _ rfl)
    have htime : Effects Effect.Free (s.sendDateSetting p now)
        ((s.sendDateSetting p now).sendTimeSetting p now) :=
      (effects_sendInfo (hserves _ _ (hkept _ _))).trans
        (effects_quiet ⟨rfl, rfl, rfl, rfl, rfl⟩ rfl rfl rfl rfl rfl)
    have hgi : Effects Effect.Free ((s.sendDateSetting p now).sendTimeSetting p now)
        (((s.sendDateSetting p now).sendTimeSetting p now).sendGeneralInterrogation p now) :=
      effects_sendGeneralInterrogation (hserves _ _ ((hkept _ _).trans (hkept _ _)))
    exact hdate.trans (htime.trans (hgi.trans ((hlast _).trans
      (effects_quiet ⟨rfl, rfl, rfl, rfl, rfl⟩ rfl rfl rfl rfl rfl))))

/-! ## Events -/

/-- The effects of an event: the free ones, and those of its kind. -/
def Effect.Allowed (s : System) (ev : Event) : Effect → Prop
  | .receive p op => s.moves ev = some (p, op)
  | .resend p => s.moves ev = some (p, .resend)
  | .sendUA p => ∃ data now, ev = .frame p data now ∧ s.frameKind p data = some .sarm
  | .sendSARM p => ∃ now, ev = .manage p now
  | .answer => ev.Asks
  | .submit _ _ | .touch _ | .other => True

theorem Effect.Free.allowed {e : Effect} (h : e.Free) : e.Allowed s ev := by
  cases e <;> trivial

/-- The effect is none of a received frame on this path, and no retransmission. -/
def Effect.Spares (p : PathId) : Effect → Prop
  | .receive q _ | .resend q | .sendUA q => q ≠ p
  | _ => True

/-- Only a frame on the path and the watch over its acknowledgements do more. -/
theorem spares_of_allowed (hframe : ∀ data now, ev ≠ .frame p data now)
    (htimer : ∀ now, ev ≠ .checkTimer p now) {e : Effect} (he : e.Allowed s ev) : e.Spares p := by
  have hmoves : ∀ {q op}, s.moves ev = some (q, op) → q ≠ p := by
    rintro q op hm rfl
    cases ev with
    | frame r data now =>
      refine hframe data now ?_
      simp only [moves] at hm
      split at hm
      · split_ifs at hm
        rw [(Prod.mk.inj (Option.some.inj hm)).1]
      · rw [(Prod.mk.inj (Option.some.inj hm)).1]
      · cases hm
    | checkTimer r now =>
      refine htimer now ?_
      simp only [moves] at hm
      split at hm
      · rw [(Prod.mk.inj (Option.some.inj hm)).1]
      · cases hm
    | _ => cases hm
  cases e with
  | receive q op => exact hmoves he
  | resend q => exact hmoves he
  | sendUA q =>
    obtain ⟨data, now, rfl, -⟩ := he
    exact fun heq => hframe data now (by rw [heq])
  | _ => trivial

/-- **An operation.** -/
theorem effects_operation (name : String) (params : List (String × String)) :
    Effects (Effect.Allowed s (.operation name params now)) s (s.operation name params now).2 := by
  unfold operation
  split_ifs with _ hname
  · exact (effects_processCommandOperation params).mono Effect.Free.allowed
  · exact .single (.answer s) hname
  · exact (effects_northStatus params).mono Effect.Free.allowed
  · exact .refl

/-- **The state in which an event fires its transition**: UA has been sent, or a BULLE. -/
def before (s : System) : Event → System
  | .frame p data now =>
    if s.frameKind p data = some .sarm then s.modifyLink p (Link.sendUA (s.pathConf p) now.ms) else s
  | .manage p now =>
    let l := s.path p
    if (l.protocolState = .connected ∨ l.protocolState = .outputConnected) ∧
        now.ms - l.lastMsgSentTime ≥ ((s.pathConf p).bulleTime * 1000 % 2 ^ 32 : Nat) then
      s.modifyLink p (Link.sendBULLE (s.pathConf p) now.ms)
    else s
  | _ => s

/-- **Some effects, a transition, and some more effects.** -/
def Staged (ok : Effect → Prop) (f : Option (PathId × ConnectionEvent)) (s u t : System) : Prop :=
  ∃ now, Effects ok s u ∧ Effects ok (u.fire now f) t

/-- Effects without a transition. -/
theorem Staged.of_effects {ok : Effect → Prop} (h : Effects ok s t) : Staged ok none s s t :=
  ⟨0, .refl, h⟩

theorem Staged.of_fire {ok : Effect → Prop} {f : Option (PathId × ConnectionEvent)} {u : System}
    (hpre : Effects ok s u) (hpost : Effects ok (u.fire now f) t) : Staged ok f s u t :=
  ⟨now, hpre, hpost⟩

/-- **A received frame.** -/
theorem staged_frame {messages : List (List UInt8)}
    (h : s.analyzeFrame p data now = .ok (messages, t)) :
    Staged (Effect.Allowed s (.frame p data now)) (s.fires (.frame p data now)) s
      (s.before (.frame p data now)) t := by
  have hcases := analyzeFrame_cases h
  simp only [before]
  cases hk : s.frameKind p data with
  | none =>
    rw [hk] at hcases
    obtain ⟨-, rfl⟩ := hcases
    simp only [fires, hk, reduceCtorEq, if_false]
    exact .of_effects .refl
  | some kind =>
    cases kind with
    | ua =>
      rw [hk] at hcases
      obtain ⟨-, rfl⟩ := hcases
      simp only [fires, hk, Option.some.injEq, reduceCtorEq, if_false]
      exact .of_fire .refl .refl
    | sarm =>
      rw [hk] at hcases
      obtain ⟨-, rfl⟩ := hcases
      rw [if_pos rfl]
      have hua : Effects (Effect.Allowed s (.frame p data now)) s
          (s.modifyLink p (Link.sendUA (s.pathConf p) now.ms)) :=
        .single (.sendUA s p now) ⟨data, now, rfl, hk⟩
      have hlast : ((s.modifyLink p (Link.sendUA (s.pathConf p) now.ms)).path p).lastConnected =
          (s.path p).lastConnected := by
        simp [Link.sendUA, Link.sendFrame]
      simp only [fires, hk, receivedSARM, hlast, gt_iff_lt]
      by_cases hrecent : (s.pathConf p).repeatTimeout < now.ms - (s.path p).lastConnected
      · rw [if_pos hrecent, if_pos (by exact hrecent)]
        exact .of_fire hua .refl
      · rw [if_neg hrecent, if_neg (by exact hrecent)]
        exact ⟨now, hua, .refl⟩
    | info type =>
      rw [hk] at hcases
      obtain ⟨htype, -, hinfo⟩ := hcases
      simp only [fires, hk, Option.some.injEq, reduceCtorEq, if_false]
      obtain ⟨-, -, rfl⟩ | ⟨hout, u, extracted, ok, l, hu, hl, -, rfl⟩ := receivedINFO_cases htype hinfo
      · exact .of_effects .refl
      · obtain ⟨l₁, hcore, rfl⟩ := extract_cases hu
        refine .of_effects (.trans (.single (.touch hcore) trivial)
          (.single (.receive ⟨type, Or.inr rfl⟩ (.inform hl)) ?_))
        simp [Effect.Allowed, moves, hk, hout]
    | rr type =>
      rw [hk] at hcases
      obtain ⟨-, -, -, hrr⟩ := hcases
      simp only [fires, hk, Option.some.injEq, reduceCtorEq, if_false]
      unfold receivedRR at hrr
      simp only [bind_eq_ok] at hrr
      obtain ⟨⟨ok, l⟩, hl, hrr⟩ := hrr
      obtain rfl := Except.ok.inj hrr
      refine .of_effects (.single (.receive ⟨type, Or.inl rfl⟩ (.acknowledge hl)) ?_)
      simp [Effect.Allowed, moves, hk]

/-- The upkeep while a side is not connected: SARM frames, and a transition. -/
theorem staged_manageUnconnected
    (hp : (s.path p).protocolState = .connection ∨ (s.path p).protocolState = .inputConnected) :
    Staged (Effect.Allowed s (.manage p now)) (s.fires (.manage p now)) s
      (s.before (.manage p now)) (s.manageUnconnected p now).2 := by
  have hbefore : s.before (.manage p now) = s :=
    if_neg fun h => by rcases hp with hp | hp <;> simp [hp] at h
  have hfires : s.fires (.manage p now) =
      if now.ms - (s.path p).lastMsgTime > int32 ((s.pathConf p).inaccTimeout * 1000) then
        some (p, .toRecv)
      else if now.ms - (s.path p).lastSarmSentTime < (s.pathConf p).repeatTimeout then none
      else if (s.path p).nbrSarmSent = (s.pathConf p).maxSarm then some (p, .maxSarmSent)
      else none := by
    rcases hp with hp | hp <;> simp only [fires, hp]
  rw [hfires, hbefore]
  unfold manageUnconnected
  simp only
  by_cases hsilent : now.ms - (s.path p).lastMsgTime ≤ int32 ((s.pathConf p).inaccTimeout * 1000)
  · rw [if_pos hsilent, if_neg (not_lt.mpr hsilent)]
    by_cases hwait : now.ms - (s.path p).lastSarmSentTime < (s.pathConf p).repeatTimeout
    · rw [if_pos hwait, if_pos hwait]
      exact .of_effects .refl
    · rw [if_neg hwait, if_neg hwait]
      by_cases hmax : (s.path p).nbrSarmSent = (s.pathConf p).maxSarm
      · rw [if_pos hmax, if_pos hmax]
        have hstate : ((s.protocolStateTransition p .maxSarmSent now).path p).protocolState =
            .connection := by
          rw [link_protocolStateTransition, if_pos rfl, Link.transition]
          rcases hp with hp | hp <;> rw [hp] <;> rfl
        have hsarm : Effects (Effect.Allowed s (.manage p now))
            (s.protocolStateTransition p .maxSarmSent now)
            ((s.protocolStateTransition p .maxSarmSent now).modifyLink p
              (Link.sendSARM (s.pathConf p) now.ms)) := by
          rw [← pathConf_protocolStateTransition (s := s) (p := p) .maxSarmSent now]
          exact .single (.sendSARM now (Or.inl hstate)) ⟨now, rfl⟩
        exact .of_fire .refl hsarm
      · rw [if_neg hmax, if_neg hmax]
        exact .of_effects (.single (.sendSARM now hp) ⟨now, rfl⟩)
  · rw [if_neg hsilent, if_pos (not_le.mp hsilent)]
    exact .of_fire .refl .refl

/-- The upkeep while the output is connected: a BULLE, and a transition. -/
theorem staged_manageConnected
    (hp : (s.path p).protocolState = .connected ∨ (s.path p).protocolState = .outputConnected) :
    Staged (Effect.Allowed s (.manage p now)) (s.fires (.manage p now)) s
      (s.before (.manage p now)) (s.manageConnected p now).2 := by
  have hfires : s.fires (.manage p now) =
      if now.ms - (s.path p).lastMsgTime > int32 ((s.pathConf p).inaccTimeout * 1000) ∧
        (s.path p).protocolState = .connected then some (p, .toRecv) else none := by
    rcases hp with hp | hp <;> simp only [fires, hp] <;> simp
  have hbulle : Effects (Effect.Allowed s (.manage p now)) s
      (s.modifyLink p (Link.sendBULLE (s.pathConf p) now.ms)) :=
    effects_sendBULLE.mono Effect.Free.allowed
  rw [hfires]
  unfold manageConnected
  simp only [before, hp, true_and]
  split_ifs
  · exact .of_fire hbulle .refl
  · exact .of_fire .refl .refl
  · exact ⟨now, hbulle, .refl⟩
  · exact .of_effects .refl

/-- **The upkeep of the protocol.** -/
theorem staged_manage : Staged (Effect.Allowed s (.manage p now)) (s.fires (.manage p now)) s
    (s.before (.manage p now)) (s.manageHNZProtocolState p now).2 := by
  unfold manageHNZProtocolState
  split
  · exact staged_manageUnconnected (Or.inl ‹_›)
  · exact staged_manageUnconnected (Or.inr ‹_›)
  · exact staged_manageConnected (Or.inl ‹_›)
  · exact staged_manageConnected (Or.inr ‹_›)

/-- **The watch over the acknowledgements.** -/
theorem staged_checkTimer :
    Staged (Effect.Allowed s (.checkTimer p now)) (s.fires (.checkTimer p now)) s s
      (s.checkTimer p now) := by
  have hinit : ∀ u : System, Effects (Effect.Allowed s (.checkTimer p now)) u (u.checkInit p now) :=
    fun u => effects_checkInit.mono Effect.Free.allowed
  simp only [fires, checkTimer, checkRepeat]
  cases hto : (s.path p).timeout (s.pathConf p) s.connection.repeatTimeout s.connection.current with
  | none => exact .of_effects (hinit s)
  | maxSend => exact .of_fire .refl (hinit _)
  | resend m =>
    refine .of_effects (.trans (.single (.resend now hto) ?_) (hinit _))
    simp [Effect.Allowed, moves, hto]

/-- **One event.** -/
theorem staged_of_step (h : s.step ev = some t) :
    Staged (Effect.Allowed s ev) (s.fires ev) s (s.before ev) t := by
  obtain ⟨-, hrun⟩ := run_of_step h
  have hfree : ∀ u, Effects Effect.Free s u → Staged (Effect.Allowed s ev) none s s u :=
    fun u h => .of_effects (h.mono Effect.Free.allowed)
  cases ev with
  | protocol p e now =>
    obtain rfl := Except.ok.inj hrun
    exact .of_fire .refl .refl
  | connect p now =>
    obtain rfl := Except.ok.inj hrun
    exact hfree _ (effects_touch (f := fun l =>
      { l with lastMsgTime := now.ms, lastMsgSentTime := now.ms, tcpConnected := true }) fun _ => rfl)
  | disconnect p now =>
    obtain rfl := Except.ok.inj hrun
    exact .of_fire .refl
      ((effects_touch (f := Link.stopTCP) fun _ => rfl).mono Effect.Free.allowed)
  | loseTCP p =>
    obtain rfl := Except.ok.inj hrun
    exact hfree _ (effects_touch (f := Link.stopTCP) fun _ => rfl)
  | frame p data now =>
    obtain ⟨⟨messages, u⟩, hu, rfl⟩ := map_eq_ok.mp hrun
    exact staged_frame hu
  | message data now => exact hfree _ (effects_handleMessage hrun)
  | manage p now =>
    obtain rfl := Except.ok.inj hrun
    exact staged_manage
  | startSchedule now =>
    obtain rfl := Except.ok.inj hrun
    exact hfree _ (effects_quiet ⟨rfl, rfl, rfl, rfl, rfl⟩ rfl rfl rfl rfl rfl)
  | currentTime now =>
    obtain rfl := Except.ok.inj hrun
    exact hfree _ (effects_quiet ⟨rfl, rfl, rfl, rfl, rfl⟩ rfl rfl rfl rfl rfl)
  | checkTimer p now =>
    obtain rfl := Except.ok.inj hrun
    exact staged_checkTimer
  | checkCommandTimer p =>
    obtain rfl := Except.ok.inj hrun
    exact hfree _ (effects_touch (f := Link.checkCommandTimer _) fun _ => rfl)
  | checkGI now => exact hfree _ (effects_checkGI hrun)
  | qualityTimer now => exact hfree _ (effects_updateQualityUpdateTimer hrun)
  | operation name params now =>
    obtain rfl := Except.ok.inj hrun
    exact .of_effects (effects_operation name params)

end System

end Hnz
