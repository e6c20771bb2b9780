import HnzSouth.Interrogation.Acts
import HnzSouth.Interrogation.Armed

/-!
# Interrogation/Course — the acts of each event

`acts` lists what an event is going to do to the interrogation, and `interrogation_step` says that
it does that and nothing else.
-/

namespace Hnz

open Machinery

namespace System

variable {s t u : System} {p : PathId} {now : Instant} {data : List UInt8} {ev : Event}

/-! ## Links -/

/-- Work on links writes nothing but paths, and of a path neither of its two states. -/
theorem Works.linked (h : Works Work.Linked s t) :
    t.hnz = s.hnz ∧ (∃ path, t.connection = { s.connection with path := path }) ∧
      ∀ p, (t.path p).connectionState = (s.path p).connectionState ∧
        (t.path p).protocolState = (s.path p).protocolState :=
  h.invariant
    (I := fun u => u.hnz = s.hnz ∧ (∃ path, u.connection = { s.connection with path := path }) ∧
      ∀ p, (u.path p).connectionState = (s.path p).connectionState ∧
        (u.path p).protocolState = (s.path p).protocolState)
    (fun {u v w} hw ⟨hhnz, ⟨path, hconn⟩, hstates⟩ huv => by
      cases huv with
      | link hl =>
        refine ⟨hhnz, ⟨_, by rw [modifyLink, connection_modifyPath, hconn]⟩, fun q => ?_⟩
        rw [path_modifyLink]
        split_ifs with hq
        · subst hq
          exact ⟨(hstates _).1, hl.protocolState.trans (hstates _).2⟩
        · exact hstates q
      | interrogate => exact hw.elim
      | other => exact hw.elim)
    ⟨rfl, ⟨s.connection.path, rfl⟩, fun _ => ⟨rfl, rfl⟩⟩

theorem Works.interrogation (h : Works Work.Linked s t) : t.interrogation = s.interrogation := by
  obtain ⟨hhnz, ⟨path, hconn⟩, -⟩ := h.linked
  simp only [System.interrogation, gi, hhnz, hconn]

theorem Works.successor (h : Works Work.Linked s t) : t.successor p = s.successor p := by
  obtain ⟨-, ⟨path, hconn⟩, hstates⟩ := h.linked
  simp only [System.successor, configured, hconn, (hstates p.other).1]
  rfl

/-! ## Transitions -/

/-- The act of a transition to this state. -/
def arbitrated (p : PathId) (st : ProtocolState) (s : System) : Act :=
  .arbitrate (st != .connected && s.connection.activePath == some p)
    (if st = .connected then s.connection.activePath.or (some p)
      else if s.connection.activePath = some p then s.successor p
      else s.connection.activePath).isSome

theorem interrogation_protocolStateTransition {e : ConnectionEvent} {st : ProtocolState}
    {acts : List Action} (hmap : transitionMap (s.path p).protocolState e = some (st, acts)) :
    (s.protocolStateTransition p e now).interrogation = s.interrogation.act (s.arbitrated p st) := by
  have hgi : (s.protocolStateTransition p e now).gi = _ := gi_protocolStateTransition hmap
  have hactive : (s.protocolStateTransition p e now).connection.activePath = _ :=
    activePath_protocolStateTransition hmap
  have hrec := (reports_protocolStateTransition (s := s) (p := p) e now).giAddressesReceived
  obtain ⟨_, _, _, _, _, hconn⟩ := arbitrates_protocolStateTransition (s := s) (p := p) e now
  have hstart := congrArg HNZConnection.giStartTime hconn
  have hnotified := congrArg HNZConnection.giNotified hconn
  have hcount := congrArg HNZConnection.giRepeatCountMax hconn
  have htime := congrArg HNZConnection.giTimeMax hconn
  rw [System.interrogation, hgi, hactive, hrec, hstart, hnotified, hcount, htime, arbitrated,
    Interrogation.act]
  have hlost : (st ≠ .connected ∧ s.connection.activePath = some p) ↔
      (st != .connected && s.connection.activePath == some p) = true := by simp
  simp only [hlost]
  rfl

variable [Platform]

/-- What the transition of an event does. -/
def arbitration (s : System) (ev : Event) : List Act :=
  match s.fires ev with
  | none => []
  | some (p, e) =>
    match transitionMap (s.path p).protocolState e with
    | none => []
    | some (st, _) => [s.arbitrated p st]

theorem interrogation_fire (hpre : Works Work.OnLink s u) :
    (u.fire now (s.fires ev)).interrogation = s.interrogation.acts (s.arbitration ev) := by
  have hlinked := hpre.mono Work.OnLink.linked
  obtain ⟨-, ⟨path, hconn⟩, hstates⟩ := hlinked.linked
  unfold arbitration
  cases hf : s.fires ev with
  | none => exact hlinked.interrogation
  | some pe =>
    obtain ⟨p, e⟩ := pe
    simp only [fire]
    rw [← (hstates p).2]
    cases hmap : transitionMap (u.path p).protocolState e with
    | none =>
      rw [protocolStateTransition, hmap]
      exact hlinked.interrogation
    | some entry =>
      obtain ⟨st, acts⟩ := entry
      have harb : u.arbitrated p st = s.arbitrated p st := by
        simp only [arbitrated, hlinked.successor, hconn]
      rw [interrogation_protocolStateTransition hmap, harb, hlinked.interrogation]
      rfl

/-- The events of one path. -/
theorem interrogation_of_path (h : s.step ev = some t) (hev : ev.OfPath) :
    t.interrogation = s.interrogation.acts (s.arbitration ev) := by
  obtain ⟨u, now, hpre, hpost⟩ := around_of_path h hev
  rw [hpost.interrogation, interrogation_fire hpre]

/-! ## Messages -/

theorem handleTSCE_state {readings : List Reading} (h : s.handleTSCE data now = .ok (readings, t)) :
    t = if s.triggers data then s.triggerGI now else s := by
  unfold handleTSCE at h
  simp only [bind_eq_ok, readByte_eq_ok] at h
  obtain ⟨adO, h₁, second, h₂, h⟩ := h
  obtain ⟨a, rest, rfl⟩ : ∃ a rest, data = a :: adO :: second :: rest := by
    rcases data with - | ⟨a, - | ⟨b, - | ⟨c, rest⟩⟩⟩ <;> simp at h₁ h₂
    exact ⟨a, rest, by rw [h₁, h₂]⟩
  simp only [triggers, decide_eq_true_eq]
  split_ifs at h with hlabel htrigger
  · cases h
    rw [if_neg fun h => h.1 hlabel]
  all_goals
    simp only [bind_eq_ok] at h
    obtain ⟨b₃, -, b₄, -, h⟩ := h
    cases h
  · rw [if_pos ⟨hlabel, htrigger⟩]
  · rw [if_neg fun h => htrigger h.2]

omit [Platform] in
theorem interrogation_hears (addresses : List Nat) :
    (s.hears addresses).interrogation = s.interrogation.act (.receive addresses) := by
  rw [Interrogation.act, hears]
  by_cases hstarted : s.hnz.giStatus = .started
  · have hstarted' : s.interrogation.status = .started := hstarted
    rw [if_pos hstarted, interrogation_updateGiStatus, if_pos hstarted']
    rfl
  · have hstarted' : ¬s.interrogation.status = .started := hstarted
    rw [if_neg hstarted, if_neg hstarted']
    rfl

omit [Platform] in
/-- A TSCG is bookkeeping of the plugin object. -/
theorem hears_spec (addresses : List Nat) :
    (s.hears addresses).connection = s.connection ∧ (s.hears addresses).hnz.conf = s.hnz.conf ∧
      (s.hears addresses).hnz.remoteAddress = s.hnz.remoteAddress := by
  unfold hears
  split_ifs
  · exact ⟨connection_updateGiStatus _, (hnz_updateGiStatus .inProgress).2.1,
      remoteAddress_updateGiStatus _⟩
  · exact ⟨rfl, rfl, rfl⟩

omit [Platform] in
/-- **A TSCG** brings its addresses, and the status follows. -/
theorem handleTSCG_spec {readings : List Reading} (h : s.handleTSCG data = .ok (readings, t)) :
    t.interrogation = s.interrogation.act (.receive (s.tscgAddresses data)) ∧
      t.connection = s.connection ∧ t.hnz.conf = s.hnz.conf ∧
      t.hnz.remoteAddress = s.hnz.remoteAddress := by
  obtain ⟨points, hpoints, -, rfl⟩ := handleTSCG_eq_ok h
  have haddr : s.tscgAddresses data = points.reduceOption.map Prod.fst := by
    rw [tscgAddresses, hpoints]
  rw [haddr]
  exact ⟨interrogation_hears _, hears_spec _⟩

omit [Platform] in
/-- The last TS is looked for among the addresses that the TSCG has completed. -/
theorem lastTSReceived_of_handleTSCG {readings : List Reading}
    (h : s.handleTSCG data = .ok (readings, t)) (readings' : List Reading) :
    (t.sendToFledge readings').lastTSReceived = s.bringsLast data := by
  obtain ⟨hact, -, hconf, -⟩ := handleTSCG_spec h
  have hrec : t.hnz.giAddressesReceived = s.hnz.giAddressesReceived ++ s.tscgAddresses data :=
    congrArg Interrogation.received hact
  change (t.hnz.giAddressesReceived.getLast? == some t.hnz.conf.lastTSAddr) = _
  rw [hconf, hrec]
  rfl

/-- A message that is neither TSCG nor TSCE does nothing to the interrogation. -/
theorem Handles.interrogation {type : UInt8} (hcg : type ≠ Platform.tscgCode)
    (hce : type ≠ Platform.tsceCode) (h : Handles type now s t) :
    t.interrogation = s.interrogation := by
  cases h with
  | idle => rfl
  | modulo => rfl
  | trigger h => exact absurd h hce
  | hear _ h => exact absurd h hcg
  | acknowledge =>
    exact ((works_receivedCommandACK _ _).mono Work.OnLink.linked).interrogation

/-- The switch sends a TSCG and a TSCE to their handlers. -/
theorem dispatch_codes :
    s.dispatch Platform.tscgCode data now = s.handleTSCG data ∧
      s.dispatch Platform.tsceCode data now = s.handleTSCE data now := by
  have h := Platform.received_nodup
  simp only [List.nodup_cons, List.mem_cons, not_or, List.not_mem_nil] at h
  obtain ⟨⟨hm₁, hm₂, -⟩, ⟨he₁, -, he₂, -⟩, ⟨-, hg, -⟩, -⟩ := h
  refine ⟨?_, ?_⟩
  · rw [dispatch, if_neg hg, if_neg (Ne.symm hm₂), if_neg (Ne.symm he₁), if_pos rfl]
  · rw [dispatch, if_neg he₂, if_neg (Ne.symm hm₁), if_pos rfl]

/-- The acts of a message. -/
def messageActs (data : List UInt8) (now : Instant) (s : System) : List Act :=
  if data.head? = some Platform.tscgCode then
    .receive (s.tscgAddresses data) :: if s.bringsLast data then s.completed true now else []
  else if data.head? = some Platform.tsceCode ∧ s.triggers data then s.wanted now
  else []

omit [Platform] in
theorem head?_of_readByte {b : UInt8} (h : readByte data 0 = .ok b) : data.head? = some b := by
  rw [readByte_eq_ok] at h
  rwa [List.head?_eq_getElem?]

theorem interrogation_handleMessage (h : s.handleMessage data now = .ok t) :
    t.interrogation = s.interrogation.acts (s.messageActs data now) := by
  unfold handleMessage at h
  simp only [bind_eq_ok] at h
  obtain ⟨type, htype, ⟨readings, u⟩, hu, h⟩ := h
  have hhead := head?_of_readByte htype
  simp only at h
  unfold messageActs
  simp only [hhead, Option.some.injEq]
  by_cases hcg : type = Platform.tscgCode
  · subst hcg
    rw [dispatch_codes.1] at hu
    obtain ⟨hact, hconn, -⟩ := handleTSCG_spec hu
    have hlast : (u.sendToFledge readings).lastTSReceived = s.bringsLast data :=
      lastTSReceived_of_handleTSCG hu readings
    have hcompleted : (u.sendToFledge readings).checked true now = s.completed true now := by
      have hqueue : u.hnz.giInQueue = s.hnz.giInQueue :=
        congrArg (fun i : Interrogation => i.queued) hact
      have hrequest : (u.sendToFledge readings).requestedActive now = s.requestedActive now :=
        requestedActive_congr (congrArg HNZConnection.conf hconn)
          (congrArg HNZConnection.path hconn) (congrArg HNZConnection.activePath hconn)
      rw [checked, if_pos rfl, completed, completed, hrequest]
      exact congrArg (fun b : Bool => Act.complete true :: if b then _ else []) hqueue
    rw [if_pos rfl, Interrogation.acts_cons, ← hact]
    rw [hlast] at h
    simp only [true_and] at h
    split_ifs at h ⊢
    · rw [interrogation_checkGICompleted h, hcompleted]
      rfl
    · cases h; rfl
  · rw [if_neg hcg]
    rw [if_neg fun h => hcg h.1] at h
    cases h
    by_cases hce : type = Platform.tsceCode
    · subst hce
      rw [dispatch_codes.2] at hu
      simp only [true_and]
      rw [handleTSCE_state hu]
      split_ifs
      · exact interrogation_triggerGI
      · rfl
    · rw [if_neg fun h => hce h.1]
      exact ((dispatch_cases hu).1.interrogation hcg hce :)

/-! ## Timers -/

/-- The acts of the init messages. -/
def initActs (p : PathId) (now : Instant) (s : System) : List Act :=
  let x := s.path p
  if (x.protocolState = .connected ∧ 0 < x.lastConnected ∧
      now.ms - x.lastConnected ≥ s.connection.repeatTimeout) ∧
      x.connectionState = .active ∧ s.connection.sendInitNexConnection then
    [((s.sendDateSetting p now).sendTimeSetting p now).requested p now]
  else []

theorem interrogation_sendInitMessages :
    (s.sendInitMessages p now).interrogation =
      s.interrogation.act (((s.sendDateSetting p now).sendTimeSetting p now).requested p now) := by
  exact interrogation_sendGeneralInterrogation
    (s := (s.sendDateSetting p now).sendTimeSetting p now)

theorem interrogation_checkInit :
    (s.checkInit p now).interrogation = s.interrogation.acts (s.initActs p now) := by
  unfold checkInit initActs
  simp only
  by_cases hold : (s.path p).protocolState = .connected ∧ 0 < (s.path p).lastConnected ∧
      now.ms - (s.path p).lastConnected ≥ s.connection.repeatTimeout
  · rw [if_pos hold]
    by_cases hinit : (s.path p).connectionState = .active ∧ s.connection.sendInitNexConnection
    · rw [if_pos hinit, if_pos ⟨hold, hinit⟩]
      exact interrogation_sendInitMessages
    · rw [if_neg hinit, if_neg fun h => hinit h.2]
      rfl
  · rw [if_neg hold, if_neg fun h => hold h.1]
    rfl

theorem interrogation_checkRepeat :
    (s.checkRepeat p now).interrogation =
      s.interrogation.acts (s.arbitration (.checkTimer p now)) := by
  have hfire : (s.fire now (s.fires (.checkTimer p now))).interrogation = _ :=
    interrogation_fire .refl
  rw [← hfire]
  unfold checkRepeat
  simp only [fires]
  cases (s.path p).timeout (s.pathConf p) s.connection.repeatTimeout s.connection.current with
  | none => rfl
  | maxSend => rfl
  | resend m => rfl

/-- The acts of the schedule. -/
def scheduleActs (now : Instant) (s : System) : List Act :=
  if s.Scheduled then s.requestedActive now else []

omit [Platform] in
theorem interrogation_checkSchedule :
    (s.checkSchedule now).interrogation = s.interrogation.acts (s.scheduleActs now) := by
  unfold checkSchedule scheduleActs
  by_cases h : s.Scheduled
  · rw [if_pos h, if_pos (by exact h), ← interrogation_requestedActive]
    rfl
  · rw [if_neg h, if_neg (by exact h)]
    rfl

/-- The acts of `m_check_GI`. -/
def checkGIActs (now : Instant) (s : System) : List Act :=
  (if s.TimedOut then s.checked false now else []) ++
    match s.checkGITimeout now with
    | .ok u => u.checkNewDay.scheduleActs now
    | .error _ => []

omit [Platform] in
theorem interrogation_checkGITimeout (h : s.checkGITimeout now = .ok t) :
    t.interrogation = s.interrogation.acts (if s.TimedOut then s.checked false now else []) := by
  unfold checkGITimeout at h
  by_cases hout : s.TimedOut
  · rw [if_pos hout]
    rw [if_pos (by exact hout)] at h
    exact interrogation_checkGICompleted h
  · rw [if_neg hout]
    rw [if_neg (by exact hout)] at h
    cases h; rfl

omit [Platform] in
theorem interrogation_checkGI (h : s.checkGI now = .ok t) :
    t.interrogation = s.interrogation.acts (s.checkGIActs now) := by
  obtain ⟨u, hu, rfl⟩ := checkGI_cases h
  have hday : u.checkNewDay.interrogation = u.interrogation := by
    obtain h | ⟨time, today, h⟩ := u.checkNewDay_cases
    · rw [h]
    · rw [h]; rfl
  rw [checkGIActs, hu, Interrogation.acts_append, ← interrogation_checkGITimeout hu,
    interrogation_checkSchedule, hday]

omit [Platform] in
theorem interrogation_updateQualityUpdateTimer (h : s.updateQualityUpdateTimer now = .ok t) :
    t.interrogation = s.interrogation := by
  obtain rfl | ⟨timer, rfl⟩ | ⟨u, hu, h⟩ := updateQualityUpdateTimer_cases h
  · rfl
  · rfl
  · obtain ⟨r₁, rfl⟩ := sendAllTIQualityReadings_eq_ok hu
    obtain ⟨r₂, rfl⟩ := sendAllTIQualityReadings_eq_ok h
    rfl

/-! ## Operations -/

/-- The acts of an operation. -/
def operationActs (name : String) (params : List (String × String)) (now : Instant) (s : System) :
    List Act :=
  if name = "north_status" then
    match params with
    | [param] => if param.2 = "init_socket_finished" then s.wanted now else []
    | _ => []
  else []

omit [Platform] in
theorem interrogation_northStatus (params : List (String × String)) :
    (s.northStatus params now).2.interrogation =
      s.interrogation.acts (s.operationActs "north_status" params now) := by
  rcases params with - | ⟨param, - | ⟨second, rest⟩⟩
  · rfl
  · by_cases hname : param.2 = "init_socket_finished"
    · simp only [operationActs, if_true, if_pos hname]
      rw [northStatus_of_finished hname, interrogation_triggerGI]
    · simp only [northStatus, operationActs, if_true, if_neg hname]
      rfl
  · rfl

theorem interrogation_operation (name : String) (params : List (String × String)) :
    (s.operation name params now).2.interrogation =
      s.interrogation.acts (s.operationActs name params now) := by
  unfold operation
  split_ifs with h₁ h₂ h₃
  · subst h₁
    exact ((works_processCommandOperation params).mono Work.OnLink.linked).interrogation
  · subst h₂
    obtain ⟨readings, h⟩ := sendSouthMonitoringEvent_eq (s := s) true true
    rw [h]
    rfl
  · subst h₃
    exact interrogation_northStatus params
  · unfold operationActs
    rw [if_neg h₃]
    rfl

/-! ## Events -/

/-- **The acts of an event.** -/
def acts (s : System) : Event → List Act
  | .message data now => s.messageActs data now
  | .operation name params now => s.operationActs name params now
  | .checkTimer p now => s.arbitration (.checkTimer p now) ++ (s.checkRepeat p now).initActs p now
  | .checkGI now => s.checkGIActs now
  | ev => s.arbitration ev

/-- **The acts of an event account for all that it does to the interrogation.** -/
theorem interrogation_step (h : s.step ev = some t) :
    t.interrogation = s.interrogation.acts (s.acts ev) := by
  obtain ⟨-, hrun⟩ := run_of_step h
  cases ev with
  | message data now => exact interrogation_handleMessage hrun
  | operation name params now => cases hrun; exact interrogation_operation name params
  | checkTimer p now =>
    cases hrun
    rw [acts, Interrogation.acts_append, ← interrogation_checkRepeat, checkTimer,
      interrogation_checkInit]
  | checkGI now => exact interrogation_checkGI hrun
  | qualityTimer now => exact interrogation_updateQualityUpdateTimer hrun
  | startSchedule now => cases hrun; rfl
  | currentTime now => cases hrun; rfl
  | _ => exact interrogation_of_path h trivial

/-! ## What the acts can be -/

/-- The act is neither the arbiter's nor the queue's. -/
def Inner : Act → Prop
  | .arbitrate _ _ | .queue => False
  | _ => True

omit [Platform] in
theorem inner_requestedActive : ∀ a ∈ s.requestedActive now, Inner a := by
  unfold requestedActive
  split
  · simp
  · simp [requested, Inner]

omit [Platform] in
theorem inner_completed (success : Bool) : ∀ a ∈ s.completed success now, Inner a := by
  refine List.forall_mem_cons.mpr ⟨trivial, ?_⟩
  split_ifs
  · exact inner_requestedActive
  · simp

omit [Platform] in
theorem inner_checked (success : Bool) : ∀ a ∈ s.checked success now, Inner a := by
  unfold checked
  split_ifs
  · exact inner_completed true
  · exact inner_completed false
  · exact List.forall_mem_cons.mpr ⟨trivial, inner_requestedActive⟩

omit [Platform] in
theorem inner_checkGIActs : ∀ a ∈ s.checkGIActs now, Inner a := by
  refine List.forall_mem_append.mpr ⟨?_, ?_⟩
  · split_ifs
    · exact inner_checked false
    · simp
  · split
    · unfold scheduleActs
      split_ifs
      · exact inner_requestedActive
      · simp
    · simp

theorem inner_initActs : ∀ a ∈ s.initActs p now, Inner a := by
  unfold initActs
  simp only
  split_ifs
  · simp [requested, Inner]
  · simp

omit [Platform] in
/-- A wanted GI is queued behind the running one, or requested. -/
theorem wanted_shape :
    (s.wanted now = [.queue] ∧ s.interrogation.active = true) ∨ ∀ a ∈ s.wanted now, Inner a := by
  unfold wanted
  by_cases hrun : s.hnz.giStatus = .started ∨ s.hnz.giStatus = .inProgress
  · rw [if_pos hrun]
    by_cases ha : s.connection.activePath = none
    · rw [if_pos ha]
      exact Or.inr (by simp)
    · rw [if_neg ha]
      exact Or.inl ⟨rfl, Option.isSome_iff_ne_none.mpr ha⟩
  · rw [if_neg hrun]
    exact Or.inr inner_requestedActive

/-- **The acts of an event**: a GI is queued, behind an active path; or the arbiter acts, and then
the GI. -/
theorem acts_shape (s : System) (ev : Event) :
    (s.acts ev = [.queue] ∧ s.interrogation.active = true) ∨
      ∃ as, s.acts ev = s.arbitration ev ++ as ∧ ∀ a ∈ as, Inner a := by
  cases ev with
  | message data now =>
    simp only [acts, messageActs]
    split_ifs
    · exact Or.inr ⟨_, rfl, List.forall_mem_cons.mpr ⟨trivial, inner_completed true⟩⟩
    · exact Or.inr ⟨_, rfl, by simp [Inner]⟩
    · exact wanted_shape.imp_right fun h => ⟨_, rfl, h⟩
    · exact Or.inr ⟨[], rfl, by simp⟩
  | operation name params now =>
    simp only [acts, operationActs]
    split_ifs
    · split
      · split_ifs
        · exact wanted_shape.imp_right fun h => ⟨_, rfl, h⟩
        · exact Or.inr ⟨[], rfl, by simp⟩
      · exact Or.inr ⟨[], rfl, by simp⟩
    · exact Or.inr ⟨[], rfl, by simp⟩
  | checkTimer p now => exact Or.inr ⟨_, rfl, inner_initActs⟩
  | checkGI now => exact Or.inr ⟨_, rfl, inner_checkGIActs⟩
  | _ => exact Or.inr ⟨[], (List.append_nil _).symm, by simp⟩

/-! ## Completion -/

/-- **The event ends the GI.** -/
def completes (s : System) : Event → Bool
  | .message data _ => data.head? == some Platform.tscgCode && s.bringsLast data
  | .checkGI _ =>
    decide s.TimedOut && decide ((s.connection.giRepeat : Int) > s.connection.giRepeatCountMax)
  | _ => false

theorem completes_message :
    s.completes (.message data now) = true ↔
      data.head? = some Platform.tscgCode ∧ s.bringsLast data = true := by
  simp [completes]

theorem completes_checkGI :
    s.completes (.checkGI now) = true ↔
      s.TimedOut ∧ (s.connection.giRepeat : Int) > s.connection.giRepeatCountMax := by
  simp [completes]

/-- The event repeats the GI. -/
def repeatsGi (s : System) : Event → Bool
  | .checkGI _ =>
    decide s.TimedOut && !decide ((s.connection.giRepeat : Int) > s.connection.giRepeatCountMax)
  | _ => false

/-- The addresses that the event records. -/
def recorded (s : System) : Event → List Nat
  | .message data _ => if data.head? = some Platform.tscgCode then s.tscgAddresses data else []
  | _ => []

/-- The act neither ends the GI nor touches the addresses received; a request has this time. -/
def Idle (time : Option Instant) : Act → Prop
  | .arbitrate _ _ | .queue => True
  | .request n _ => ∃ now ∈ time, n = now.ms
  | .receive _ | .forget | .complete _ => False

omit [Platform] in
theorem idle_requestedActive : ∀ a ∈ s.requestedActive now, Idle (some now) a := by
  unfold requestedActive
  split
  · simp
  · simp [requested, Idle]

omit [Platform] in
theorem idle_wanted : ∀ a ∈ s.wanted now, Idle (some now) a := by
  unfold wanted
  split_ifs
  · simp
  · simp [Idle]
  · exact idle_requestedActive

omit [Platform] in
theorem idle_scheduleActs : ∀ a ∈ s.scheduleActs now, Idle (some now) a := by
  unfold scheduleActs
  split_ifs
  · exact idle_requestedActive
  · simp

theorem idle_arbitration : ∀ a ∈ s.arbitration ev, Idle ev.time a := by
  unfold arbitration
  split
  · simp
  · split
    · simp
    · simp [arbitrated, Idle]

theorem idle_initActs : ∀ a ∈ s.initActs p now, Idle (some now) a := by
  simp only [initActs]
  split_ifs
  · simp [requested, Idle]
  · simp

omit [Platform] in
theorem idle_operationActs {name : String} {params : List (String × String)} :
    ∀ a ∈ s.operationActs name params now, Idle (some now) a := by
  unfold operationActs
  split_ifs
  · split
    · split_ifs
      · exact idle_wanted
      · simp
    · simp
  · simp

omit [Platform] in
/-- The request that waited for the end of a GI. -/
theorem completed_eq (success : Bool) :
    ∃ as, s.completed success now = .complete success :: as ∧ ∀ a ∈ as, Idle (some now) a := by
  refine ⟨_, rfl, ?_⟩
  split_ifs
  · exact idle_requestedActive
  · simp

/-- **The four kinds of event.** -/
inductive Kind (s : System) (ev : Event) : Prop
  /-- It ends the GI, with a last TSCG or without. -/
  | ends (pre as : List Act) (success : Bool) (hc : s.completes ev = true)
    (hacts : s.acts ev = pre ++ .complete success :: as)
    (hpre : pre = [] ∨ pre = [.receive (s.recorded ev)]) (has : ∀ a ∈ as, Idle ev.time a)
  /-- It repeats the GI. -/
  | again (now : Instant) (rest : List Act) (hev : ev = .checkGI now) (hc : s.completes ev = false)
    (hr : s.repeatsGi ev = true) (hacts : s.acts ev = .forget :: (s.requestedActive now ++ rest))
    (has : ∀ a ∈ s.requestedActive now ++ rest, Idle ev.time a)
  /-- It brings addresses. -/
  | brings (data : List UInt8) (now : Instant) (hev : ev = .message data now)
    (hcg : data.head? = some Platform.tscgCode) (hc : s.completes ev = false)
    (hr : s.repeatsGi ev = false) (hacts : s.acts ev = [.receive (s.recorded ev)])
  /-- None of this. -/
  | idle (hc : s.completes ev = false) (hr : s.repeatsGi ev = false) (hb : s.recorded ev = [])
    (has : ∀ a ∈ s.acts ev, Idle ev.time a)

theorem kind (s : System) (ev : Event) : s.Kind ev := by
  cases ev with
  | message data now =>
    by_cases hcg : data.head? = some Platform.tscgCode
    · have hb : s.recorded (.message data now) = s.tscgAddresses data := if_pos hcg
      by_cases hlast : s.bringsLast data = true
      · obtain ⟨as, heq, has⟩ : ∃ as, s.completed true now = .complete true :: as ∧ _ := completed_eq true
        refine .ends [.receive (s.tscgAddresses data)] as true (completes_message.mpr ⟨hcg, hlast⟩)
          ?_ (Or.inr (by rw [hb])) has
        simp only [acts, messageActs, if_pos hcg, if_pos hlast, heq, List.singleton_append]
      · refine .brings data now rfl hcg (by simp [completes, hlast]) rfl ?_
        simp only [acts, messageActs, if_pos hcg, if_neg hlast, hb]
    · refine .idle (by simp [completes, hcg]) rfl (if_neg hcg) ?_
      simp only [acts, messageActs, if_neg hcg]
      split_ifs
      · exact idle_wanted
      · simp
  | checkGI now =>
    have hrest : ∀ a ∈ (match s.checkGITimeout now with
        | .ok u => u.checkNewDay.scheduleActs now
        | .error _ => []), Idle (some now) a := by
      split
      · exact idle_scheduleActs
      · simp
    by_cases hout : s.TimedOut
    · by_cases hmore : (s.connection.giRepeat : Int) > s.connection.giRepeatCountMax
      · obtain ⟨as, heq, has⟩ : ∃ as, s.completed false now = .complete false :: as ∧ _ := completed_eq false
        refine .ends [] (as ++ _) false (completes_checkGI.mpr ⟨hout, hmore⟩) ?_ (Or.inl rfl)
          (List.forall_mem_append.mpr ⟨has, hrest⟩)
        simp only [acts, checkGIActs, if_pos hout, checked, Bool.false_eq_true, if_false, if_pos hmore,
          heq]
        rfl
      · refine .again now _ rfl (by simp [completes, hmore]) (by simp [repeatsGi, hout, hmore]) ?_
          (List.forall_mem_append.mpr ⟨idle_requestedActive, hrest⟩)
        simp only [acts, checkGIActs, if_pos hout, checked, Bool.false_eq_true, if_false, if_neg hmore]
        rfl
    · refine .idle (by simp [completes, hout]) (by simp [repeatsGi, hout]) rfl ?_
      simp only [acts, checkGIActs, if_neg hout, List.nil_append]
      exact hrest
  | operation name params now => exact .idle rfl rfl rfl idle_operationActs
  | checkTimer p now =>
    exact .idle rfl rfl rfl (List.forall_mem_append.mpr ⟨idle_arbitration, idle_initActs⟩)
  | _ => exact .idle rfl rfl rfl (by simp only [acts]; exact idle_arbitration)

end System

end Hnz
