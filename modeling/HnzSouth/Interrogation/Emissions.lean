import HnzSouth.Interrogation.Course

/-!
# Interrogation/Emissions — what Fledge hears of a GI

Readings are only added.  Two kinds of them tell that a GI has ended: its status, and the readings
of the points that did not answer.  They come from the end of a GI and from nowhere else, but for
the status that an operation asks for (`emits_step`, `emits_completing`).
-/

namespace Hnz

/-! ## Readings -/

namespace Reading

/-- The GI has ended. -/
def EndsGi (r : Reading) : Prop :=
  r.get? "gi_status" = some (.str "finished") ∨ r.get? "gi_status" = some (.str "failed")

/-- A TS becomes invalid, and its value is not given. -/
def MarksInvalid (r : Reading) : Prop :=
  r.get? "do_type" = some (.str "TS") ∧ r.get? "do_value" = none ∧ r.get? "do_valid" = some (.int 1)

/-- Neither of the two. -/
def Ordinary (r : Reading) : Prop := ¬r.EndsGi ∧ ¬r.MarksInvalid

/-- A reading that gives the value of a measurement or of a TS. -/
def givesValue (r : Reading) : Bool :=
  (r.get? "do_type" == some (.str "TM") || r.get? "do_type" == some (.str "TS")) &&
    (r.get? "do_value").isSome

/-- **Neither of the two, and no value**: what the plugin sends between the messages. -/
def Quiet (r : Reading) : Prop := r.Ordinary ∧ r.givesValue = false

/-- A status gives none. -/
theorem no_value {r : Reading} (h : r.get? "do_type" = none) : r.givesValue = false := by
  rw [givesValue, h]
  rfl

theorem AboutConnection.quiet {r : Reading} (h : r.AboutConnection) : r.Quiet := by
  refine ⟨⟨?_, ?_⟩, no_value h.2⟩
  · rintro (hr | hr) <;> simp [h.1] at hr
  · rintro ⟨hr, -⟩
    simp [h.2] at hr

end Reading

/-- A reading with a value marks no point, nor does one that is valid. -/
theorem ordinary_prepareReading {params : ReadingParameters}
    (h : params.qualityUpdate = false ∨ params.msgCode ≠ "TS" ∨ params.valid = 0) :
    (prepareReading params).Ordinary := by
  have hstatus : (prepareReading params).get? "gi_status" = none := by
    unfold Reading.get? prepareReading
    split_ifs <;> simp <;> (intro a b hab ha; subst ha; simp at hab)
  refine ⟨?_, ?_⟩
  · rintro (hr | hr) <;> rw [hstatus] at hr <;> cases hr
  · rintro ⟨htype, hvalue, hvalid⟩
    have htype' : (prepareReading params).get? "do_type" = some (.str params.msgCode) := by
      simp [Reading.get?, prepareReading]
    rw [htype', Option.some.injEq, DatapointValue.str.injEq] at htype
    rcases h with h | h | h
    · simp [Reading.get?, prepareReading, List.lookup_cons, h] at hvalue
    · exact h htype
    · cases hq : params.qualityUpdate <;>
        simp [Reading.get?, prepareReading, List.lookup_cons, h, hq] at hvalid

/-- A quality reading has no value. -/
theorem givesValue_of_qualityUpdate {params : ReadingParameters} (h : params.qualityUpdate = true) :
    (prepareReading params).givesValue = false := by
  have hvalue : (prepareReading params).get? "do_value" = none := by
    refine List.lookup_eq_none_iff.mpr ?_
    rintro ⟨name, value⟩ hmem
    refine bne_iff_ne.mpr ?_
    rintro rfl
    simp [prepareReading, h] at hmem
  rw [Reading.givesValue, hvalue, Option.isSome_none, Bool.and_false]

/-! ## Emissions -/

/-- **Readings were added**, all of this kind. -/
def HNZ.Emits (P : Reading → Prop) (h h' : HNZ) : Prop :=
  ∃ new, h'.readings = h.readings ++ new ∧ ∀ r ∈ new, P r

namespace HNZ.Emits

variable {P : Reading → Prop} {h h' h'' : HNZ}

theorem of_eq (heq : h'.readings = h.readings) : h.Emits P h' := ⟨[], by simp [heq], by simp⟩

theorem trans (a : h.Emits P h') (b : h'.Emits P h'') : h.Emits P h'' := by
  obtain ⟨new, ha, hnew⟩ := a
  obtain ⟨new', hb, hnew'⟩ := b
  refine ⟨new ++ new', by rw [hb, ha, List.append_assoc], fun r hr => ?_⟩
  exact (List.mem_append.mp hr).elim (hnew r) (hnew' r)

theorem mono {Q : Reading → Prop} (a : h.Emits P h') (hPQ : ∀ r, P r → Q r) : h.Emits Q h' := by
  obtain ⟨new, ha, hnew⟩ := a
  exact ⟨new, ha, fun r hr => hPQ r (hnew r hr)⟩

theorem of_reports (a : h.Reports h') : h.Emits Reading.Quiet h' := by
  obtain ⟨new, _, _, _, hnew, rfl⟩ := a
  exact ⟨new, rfl, fun r hr => (hnew r hr).quiet⟩

end HNZ.Emits

namespace System

variable {s t u : System} {p : PathId} {now : Instant} {data : List UInt8} {ev : Event}

theorem emits_sendToFledge {P : Reading → Prop} {readings : List Reading} (h : ∀ r ∈ readings, P r) :
    s.hnz.Emits P (s.sendToFledge readings).hnz := ⟨readings, rfl, h⟩

theorem emits_linked (h : Works Work.Linked s t) : s.hnz.Emits Reading.Quiet t.hnz :=
  .of_eq (by rw [h.linked.1])

/-- The event of a status. -/
theorem emits_updateGiStatus {P : Reading → Prop} {x : GiStatus}
    (hP : ∀ r : Reading, r.get? "do_type" = none → r.get? "gi_status" ≠ none →
      (¬x.Running ∨ ¬r.EndsGi) → P r) :
    s.hnz.Emits P (s.updateGiStatus x).hnz := by
  unfold updateGiStatus
  by_cases h : s.hnz.giStatus = x
  · rw [if_pos h]
    exact .of_eq rfl
  rw [if_neg h]
  unfold sendSouthMonitoringEvent
  by_cases hasset : s.hnz.conf.connxStatus = ""
  · simp only [if_pos hasset]
    exact .of_eq rfl
  · simp only [if_neg hasset, Bool.not_true, Bool.and_false, Bool.false_eq_true, if_false]
    refine emits_sendToFledge (s := { s with hnz.giStatus := x }) fun r hr => ?_
    rw [List.mem_singleton] at hr
    subst hr
    refine hP _ ?_ ?_ ?_ <;> cases x <;>
      simp [Reading.get?, List.lookup_cons, Reading.EndsGi, GiStatus.Running]

theorem emits_running {x : GiStatus} (hx : x.Running) :
    s.hnz.Emits Reading.Quiet (s.updateGiStatus x).hnz := by
  refine emits_updateGiStatus fun r htype _ hr =>
    ⟨⟨hr.resolve_left fun h => h hx, ?_⟩, Reading.no_value htype⟩
  rintro ⟨h, -⟩
  rw [htype] at h
  cases h

/-- A request. -/
theorem emits_sendGeneralInterrogation :
    s.hnz.Emits Reading.Quiet (s.sendGeneralInterrogation p now).hnz := by
  have hnotify : ∀ u : System, u.hnz.Emits Reading.Quiet (u.notifyGIsent now).hnz := by
    intro u
    unfold notifyGIsent
    split_ifs
    · exact emits_running (Or.inl rfl)
    · exact .of_eq rfl
  rw [sendGeneralInterrogation_eq]
  split_ifs
  · exact hnotify _
  · exact .of_eq rfl

theorem emits_triggerGI : s.hnz.Emits Reading.Quiet (s.triggerGI now).hnz := by
  obtain h | ⟨-, h⟩ | ⟨p, -, h⟩ := s.triggerGI_cases now
  · rw [h]
    exact .of_eq rfl
  · rw [h]
    exact .of_eq rfl
  · rw [h]
    exact emits_sendGeneralInterrogation

theorem emits_northStatus (params : List (String × String)) :
    s.hnz.Emits Reading.Quiet (s.northStatus params now).2.hnz := by
  obtain h | h := s.northStatus_cases params
  · rw [h]
    exact .of_eq rfl
  · rw [h]
    exact emits_triggerGI

/-! ## Quality readings -/

theorem emits_sendAllTIQualityReadings {params : ReadingParameters} {filter : List Nat}
    (hq : params.qualityUpdate = true) (hvalid : params.msgCode ≠ "TS" ∨ params.valid = 0)
    (h : s.sendAllTIQualityReadings params filter = .ok t) :
    s.hnz.Emits Reading.Quiet t.hnz := by
  unfold sendAllTIQualityReadings at h
  split at h
  · cases h
  split at h
  · cases h
  · cases h
    refine emits_sendToFledge fun r hr => ?_
    obtain ⟨kvp, -, rfl⟩ := List.mem_map.mp hr
    exact ⟨ordinary_prepareReading (Or.inr hvalid), givesValue_of_qualityUpdate hq⟩

theorem emits_updateQualityUpdateTimer (h : s.updateQualityUpdateTimer now = .ok t) :
    s.hnz.Emits Reading.Quiet t.hnz := by
  obtain rfl | ⟨timer, rfl⟩ | ⟨u, hu, h⟩ := updateQualityUpdateTimer_cases h
  · exact .of_eq rfl
  · exact .of_eq rfl
  · exact (emits_sendAllTIQualityReadings rfl (Or.inl (by simp)) hu).trans
      (emits_sendAllTIQualityReadings rfl (Or.inr rfl) h)

/-! ## Messages -/

theorem emits_hears (addresses : List Nat) :
    s.hnz.Emits Reading.Quiet (s.hears addresses).hnz := by
  have hrecords : s.hnz.Emits Reading.Quiet (s.records addresses).hnz := .of_eq rfl
  unfold hears
  split_ifs
  · exact hrecords.trans (emits_running (Or.inr rfl))
  · exact hrecords

theorem emits_receivedCommandACK (type : String) (addr : Int) :
    s.hnz.Emits Reading.Quiet (s.receivedCommandACK type addr).hnz :=
  emits_linked ((works_receivedCommandACK type addr).mono Work.OnLink.linked)

section
variable [Platform]

theorem Handles.emits {type : UInt8} (h : Handles type now s t) :
    s.hnz.Emits Reading.Quiet t.hnz := by
  cases h with
  | idle => exact .of_eq rfl
  | modulo => exact .of_eq rfl
  | trigger => exact emits_triggerGI
  | hear => exact emits_hears _
  | acknowledge => exact emits_receivedCommandACK _ _

theorem Tells.ordinary {type : UInt8} {readings : List Reading} (h : s.Tells type readings) :
    ∀ r ∈ readings, r.Ordinary := by
  intro r hr
  obtain ⟨params, rfl, hparams⟩ := h r hr
  exact ordinary_prepareReading (Or.inl hparams.qualityUpdate)

theorem handleTSCG_ordinary {readings : List Reading} (h : s.handleTSCG data = .ok (readings, t)) :
    s.hnz.Emits Reading.Ordinary t.hnz ∧ ∀ r ∈ readings, r.Ordinary := by
  obtain ⟨points, hpoints, rfl, rfl⟩ := handleTSCG_eq_ok h
  exact ⟨(emits_hears _).mono fun _ hr => hr.1, (tells_handleTSCG hpoints).ordinary⟩

/-- **The switch** only gives ordinary readings. -/
theorem dispatch_ordinary {type : UInt8} {readings : List Reading}
    (h : s.dispatch type data now = .ok (readings, t)) :
    s.hnz.Emits Reading.Ordinary t.hnz ∧ ∀ r ∈ readings, r.Ordinary :=
  (dispatch_cases h).imp (fun h => h.emits.mono fun _ hr => hr.1) Tells.ordinary

end

/-! ## The end of a GI -/

/-- **A completed GI**: the readings of the missing points, and then no other reading that marks a
point or gives a value. -/
theorem emits_giCompleted {success : Bool} (h : s.giCompleted success now = .ok t) :
    ∃ post, t.hnz.readings = s.hnz.readings ++ s.missingReadings s.hnz.giAddressesReceived now ++ post ∧
      ∀ r ∈ post, ¬r.MarksInvalid ∧ r.givesValue = false := by
  set u : System := { s with connection.giRepeat := 0 }.sendToFledge
    (s.missingReadings s.hnz.giAddressesReceived now) with hu
  have hclosed : u.hnz.Emits (fun r => ¬r.MarksInvalid ∧ r.givesValue = false)
      (s.closed success now).hnz := by
    have hstatus : u.hnz.Emits (fun r => ¬r.MarksInvalid ∧ r.givesValue = false)
        (u.updateGiStatus (if success then .finished else .failed)).hnz := by
      refine emits_updateGiStatus fun r htype _ _ => ⟨fun hr => ?_, Reading.no_value htype⟩
      rw [hr.1] at htype
      cases htype
    exact hstatus.trans (.of_eq rfl)
  have hafter : u.hnz.Emits (fun r => ¬r.MarksInvalid ∧ r.givesValue = false) t.hnz := by
    have h := giCompleted_eq_ok h
    split_ifs at h
    · obtain ⟨p, -, rfl⟩ := h
      exact hclosed.trans (emits_sendGeneralInterrogation.mono fun r hr => ⟨hr.1.2, hr.2⟩)
    · exact h ▸ hclosed
  obtain ⟨post, hpost, hmarks⟩ := hafter
  exact ⟨post, hpost, hmarks⟩

/-- A GI that goes on says nothing of an end. -/
theorem emits_repeat (hmore : ¬(s.connection.giRepeat : Int) > s.connection.giRepeatCountMax)
    (h : s.checkGICompleted false now = .ok t) : s.hnz.Emits Reading.Quiet t.hnz := by
  obtain rfl | ⟨p, -, rfl⟩ := checkGICompleted_of_more hmore h
  · exact .of_eq rfl
  · exact HNZ.Emits.trans (.of_eq rfl) (emits_sendGeneralInterrogation (s := s.resetGIQueue))

theorem emits_checkSchedule : s.hnz.Emits Reading.Quiet (s.checkSchedule now).hnz := by
  obtain h | h | ⟨p, -, h⟩ := s.checkSchedule_cases now
  · rw [h]
    exact .of_eq rfl
  · rw [h]
    exact .of_eq rfl
  · rw [h]
    exact emits_sendGeneralInterrogation.trans (.of_eq rfl)

/-- The schedule, on a new day or not. -/
theorem emits_schedule : s.hnz.Emits Reading.Quiet (s.checkNewDay.checkSchedule now).hnz := by
  have hday : s.hnz.Emits Reading.Quiet s.checkNewDay.hnz := by
    obtain h | ⟨time, today, h⟩ := s.checkNewDay_cases <;>
    · rw [h]
      exact .of_eq rfl
  exact hday.trans emits_checkSchedule

variable [Platform]

theorem emits_checkTimer : s.hnz.Emits Reading.Quiet (s.checkTimer p now).hnz := by
  have hrepeat : s.hnz.Emits Reading.Quiet (s.checkRepeat p now).hnz := by
    unfold checkRepeat
    split
    · exact .of_eq rfl
    · exact .of_reports (reports_protocolStateTransition _ _)
    · exact .of_eq rfl
  have hinit : ∀ u : System, u.hnz.Emits Reading.Quiet (u.sendInitMessages p now).hnz := by
    intro u
    have hdate : u.hnz.Emits Reading.Quiet
        ((u.sendDateSetting p now).sendTimeSetting p now).hnz := .of_eq rfl
    exact hdate.trans (emits_sendGeneralInterrogation.trans (.of_eq rfl))
  refine hrepeat.trans ?_
  obtain h | h | ⟨-, h⟩ := (s.checkRepeat p now).checkInit_cases p now
  · rw [checkTimer, h]
    exact .of_eq rfl
  · rw [checkTimer, h]
    exact .of_eq rfl
  · rw [checkTimer, h]
    exact (hinit _).trans (.of_eq rfl)

/-- What a message says of a GI. -/
theorem emits_handleMessage (h : s.handleMessage data now = .ok t)
    (hc : s.completes (.message data now) = false) : s.hnz.Emits Reading.Ordinary t.hnz := by
  unfold handleMessage at h
  simp only [bind_eq_ok] at h
  obtain ⟨type, htype, ⟨readings, u⟩, hu, h⟩ := h
  obtain ⟨hstate, hreadings⟩ := dispatch_ordinary hu
  have hsent := hstate.trans (emits_sendToFledge (s := u) hreadings)
  split_ifs at h with hlast
  · obtain ⟨rfl, hlast⟩ := hlast
    rw [dispatch_codes.1] at hu
    rw [completes, head?_of_readByte htype] at hc
    simp only [beq_self_eq_true, Bool.true_and] at hc
    rw [lastTSReceived_of_handleTSCG hu readings, hc] at hlast
    cases hlast
  · cases h; exact hsent

/-- **Between the messages** the plugin sends quiet readings, unless the GI ends or the statuses are
asked for. -/
theorem emits_quiet (h : s.step ev = some t) (hmessage : ∀ data now, ev ≠ .message data now)
    (hc : s.completes ev = false)
    (hop : ∀ params now, ev ≠ .operation "request_connection_status" params now) :
    s.hnz.Emits Reading.Quiet t.hnz := by
  obtain ⟨-, hrun⟩ := run_of_step h
  have hpath : ev.OfPath → s.hnz.Emits Reading.Quiet t.hnz := by
    intro hev
    obtain ⟨u, now, hpre, hpost⟩ := around_of_path h hev
    refine (emits_linked (hpre.mono Work.OnLink.linked)).trans (.trans ?_ (emits_linked hpost))
    cases s.fires ev with
    | none => exact .of_eq rfl
    | some pe => exact .of_reports (reports_protocolStateTransition _ _)
  cases ev with
  | message data now => exact absurd rfl (hmessage data now)
  | operation name params now =>
    cases hrun
    unfold operation
    split_ifs with h₁ h₂ h₃
    · exact emits_linked ((works_processCommandOperation params).mono Work.OnLink.linked)
    · exact absurd (by rw [h₂]) (hop params now)
    · exact emits_northStatus params
    · exact .of_eq rfl
  | checkTimer p now => cases hrun; exact emits_checkTimer
  | checkGI now =>
    unfold run checkGI at hrun
    simp only [bind_eq_ok] at hrun
    obtain ⟨u, hu, hrun⟩ := hrun
    cases hrun
    refine .trans ?_ emits_schedule
    unfold checkGITimeout at hu
    by_cases hout : s.TimedOut
    · rw [if_pos (by exact hout)] at hu
      refine emits_repeat (fun hmore => ?_) hu
      simp [completes, hout, hmore] at hc
    · rw [if_neg (by exact hout)] at hu
      cases hu; exact .of_eq rfl
  | qualityTimer now => exact emits_updateQualityUpdateTimer hrun
  | startSchedule now => cases hrun; exact .of_eq rfl
  | currentTime now => cases hrun; exact .of_eq rfl
  | _ => exact hpath trivial

/-- **An event that does not end the GI** does not say that it has ended, unless it is asked. -/
theorem emits_step (h : s.step ev = some t) (hc : s.completes ev = false)
    (hop : ∀ params now, ev ≠ .operation "request_connection_status" params now) :
    s.hnz.Emits Reading.Ordinary t.hnz := by
  by_cases hmessage : ∃ data now, ev = .message data now
  · obtain ⟨data, now, rfl⟩ := hmessage
    exact emits_handleMessage (run_of_step h).2 hc
  · simp only [not_exists] at hmessage
    exact (emits_quiet h hmessage hc hop).mono fun _ hr => hr.1

/-- The addresses that the end of a GI takes for received. -/
def heard (s : System) : Event → List Nat
  | .message data _ => s.hnz.giAddressesReceived ++ s.tscgAddresses data
  | _ => s.hnz.giAddressesReceived

/-- **An event that ends the GI**: between other readings, those of the points that were not heard. -/
theorem emits_completing (h : s.step ev = some t) (hc : s.completes ev = true) :
    ∃ before after now, t.hnz.readings = s.hnz.readings ++ before ++
        s.missingReadings (s.heard ev) now ++ after ∧
      (∀ r ∈ before, r.Ordinary) ∧ ∀ r ∈ after, ¬r.MarksInvalid := by
  obtain ⟨-, hrun⟩ := run_of_step h
  cases ev with
  | message data now =>
    obtain ⟨hcg, hlast⟩ := completes_message.mp hc
    unfold run handleMessage at hrun
    simp only [bind_eq_ok] at hrun
    obtain ⟨type, htype, ⟨readings, u⟩, hu, hrun⟩ := hrun
    rw [head?_of_readByte htype, Option.some.injEq] at hcg
    subst hcg
    obtain ⟨hstate, hreadings⟩ := dispatch_ordinary hu
    obtain ⟨before, hbefore, hordinary⟩ := hstate.trans (emits_sendToFledge (s := u) hreadings)
    rw [dispatch_codes.1] at hu
    obtain ⟨hact, -, hconf, hremote⟩ := handleTSCG_spec hu
    rw [if_pos ⟨rfl, (lastTSReceived_of_handleTSCG hu readings).trans hlast⟩] at hrun
    obtain ⟨after, hafter, hmarks⟩ := emits_giCompleted (by exact hrun)
    have hheard : u.hnz.giAddressesReceived = s.heard (.message data now) :=
      congrArg Interrogation.received hact
    have hmissing : ∀ received, (u.sendToFledge readings).missingReadings received now =
        s.missingReadings received now := by
      intro received
      have hconf' : (u.sendToFledge readings).hnz.conf = s.hnz.conf := hconf
      have hremote' : (u.sendToFledge readings).hnz.remoteAddress = s.hnz.remoteAddress := hremote
      have hpoint : (u.sendToFledge readings).invalidTS now = s.invalidTS now := by
        funext point
        rw [invalidTS, invalidTS, hremote']
      rw [missingReadings, missingReadings, configuredTS, configuredTS, hconf', hremote', hpoint]
    refine ⟨before, after, now, ?_, hordinary, fun r hr => (hmarks r hr).1⟩
    rw [hafter, hbefore, hmissing]
    exact congrArg (fun l => _ ++ s.missingReadings l now ++ _) hheard
  | checkGI now =>
    obtain ⟨hout, hmore⟩ := completes_checkGI.mp hc
    unfold run checkGI at hrun
    simp only [bind_eq_ok] at hrun
    obtain ⟨u, hu, hrun⟩ := hrun
    cases hrun
    unfold checkGITimeout checkGICompleted at hu
    rw [if_pos (by exact hout), if_neg (by decide), if_pos hmore] at hu
    obtain ⟨after, hafter, hmarks⟩ := emits_giCompleted hu
    obtain ⟨after', hafter', hordinary⟩ : u.hnz.Emits _ (u.checkNewDay.checkSchedule now).hnz :=
      emits_schedule
    refine ⟨[], after ++ after', now, ?_, by simp, fun r hr => ?_⟩
    · rw [hafter', hafter, List.append_nil, List.append_assoc]
      rfl
    · exact (List.mem_append.mp hr).elim (fun hr => (hmarks r hr).1) fun hr => (hordinary r hr).1.2
  | _ => cases hc

end System

end Hnz
