import HnzSouth.Effects.Replay
import HnzSouth.Interrogation.Delayed
import HnzSouth.Lifecycle.Refused
import HnzSouth.Reception.Rejection
import HnzSouth.Reception.Safety
import HnzSouth.Reception.Sequence

/-!
# Lifecycle/Unfailing — the runs that no fault ends

A call may end in four ways that are no answer: a read outside a buffer, a method of a null path, a
lookup of a missing key, a loop without end.  The first needs a payload that is not cut into whole
messages, the second a delayed GI whose path is given up or a start without a connection, the third
a configuration without one of its two tables; the last never happens.  A sequence of calls that
keeps clear of these (`Plugin.Proper`) is executed to its end (`unfailing`).
-/

namespace Hnz

open Machinery

theorem exists_ok_of_avoids {α : Type} {x : Result α} (h : ∀ e, Avoids e x) : ∃ a, x = .ok a := by
  cases x with
  | ok a => exact ⟨a, rfl⟩
  | error e => exact absurd rfl (h e)

namespace System

variable {s t : System} {p : PathId} {now : Instant} {data : List UInt8} {type : UInt8}

/-! ## The end of a GI -/

section

variable (hread : s.hnz.conf.readable s.hnz.remoteAddress = true)

include hread

theorem exists_giCompleted (h : s.interrogation.Anchored) (success : Bool) :
    ∃ t, s.giCompleted success now = .ok t := by
  rw [HNZConf.readable, Bool.and_eq_true] at hread
  exact exists_ok_of_avoids fun e => avoids_giCompleted (fun _ => hread.2) (fun _ => h) success

theorem exists_checkGICompleted (h : s.interrogation.Anchored) (success : Bool) :
    ∃ t, s.checkGICompleted success now = .ok t := by
  rw [HNZConf.readable, Bool.and_eq_true] at hread
  exact exists_ok_of_avoids fun e => avoids_checkGICompleted (fun _ => hread.2) (fun _ => h) success

theorem exists_checkGI (h : s.interrogation.Anchored) : ∃ t, s.checkGI now = .ok t := by
  obtain ⟨u, hu⟩ : ∃ u, s.checkGITimeout now = .ok u := by
    unfold checkGITimeout
    split_ifs
    · exact exists_checkGICompleted hread h false
    · exact ⟨s, rfl⟩
  unfold checkGI
  rw [hu]
  exact ⟨_, rfl⟩

theorem exists_updateQualityUpdateTimer : ∃ t, s.updateQualityUpdateTimer now = .ok t := by
  obtain ⟨readings, hr⟩ := qualityReadings_of_readable
    { s with hnz.qualityUpdateTimer := 0 } false true now hread
  unfold updateQualityUpdateTimer
  simp only
  split_ifs
  · exact ⟨_, hr⟩
  · exact ⟨_, rfl⟩
  · exact ⟨_, rfl⟩

end

/-! ## Messages -/

variable [Platform]

/-- **A whole message is handled.** -/
theorem exists_handleMessage (hread : s.hnz.conf.readable s.hnz.remoteAddress = true)
    (hs : s.interrogation.Anchored) (h : Whole s.hnz.testMsgReceive data) :
    ∃ t, s.handleMessage data now = .ok t := by
  rw [HNZConf.readable, Bool.and_eq_true] at hread
  exact exists_ok_of_avoids fun e =>
    avoids_handleMessage (fun _ => h) (fun _ => hread.2) fun _ => hs

/-! ## Frames -/

/-- An information frame that can be cut, or is not walked through. -/
theorem exists_receivedINFO (hs : (s.path p).toLink.Admitted (s.pathConf p))
    (htype : data[1]? = some type) (hsize : data.length < 2 ^ 31)
    (hcut : (s.path p).protocolState ≠ .outputConnected → s.canPathExtractMessage p = true →
      ∃ messages, WellSized (s.pathConf p).testMsgReceive (payloadOf data) messages) :
    ∃ r, s.receivedINFO p data now = .ok r := by
  unfold receivedINFO
  rw [readByte_eq_ok.mpr htype]
  simp only [bind, Except.bind]
  split_ifs with hout
  · exact ⟨_, rfl⟩
  obtain ⟨messages, l, hx, hcore⟩ : ∃ messages l,
      s.extract p data now = .ok (messages, s.modifyLink p fun _ => l) ∧
        l.core = (s.path p).core := by
    by_cases hcan : s.canPathExtractMessage p = true
    · obtain ⟨messages, hwell⟩ := hcut hout hcan
      exact ⟨messages, extract_of_wellSized now hcan hsize hwell⟩
    · refine ⟨[], (s.path p).toLink, ?_, rfl⟩
      rw [extract, if_neg hcan, modifyLink_self]
      rfl
  have hlink : ((s.modifyLink p fun _ => l).path p).toLink = l := by
    rw [link_modifyLink, if_pos rfl]
  have hadm : l.Admitted (s.pathConf p) := hs.step (.touch hcore)
  obtain ⟨b, l', hrr⟩ := hadm.exists_sendRR now.ms (pfField type) (nsField type) (nrField type)
  have hconf : (s.modifyLink p fun _ => l).pathConf p = s.pathConf p := rfl
  rw [hx]
  simp only [hlink, hconf, hrr]
  exact ⟨_, rfl⟩

/-- The frame is long enough, and its payload is cut into whole messages where it is walked
through. -/
def Readable (s : System) (p : PathId) (data : List UInt8) : Prop :=
  2 ≤ data.length ∧ data.length < 2 ^ 31 ∧ (s.Walks p data →
    ∃ messages, WellSized (s.pathConf p).testMsgReceive (payloadOf data) messages)

/-- **A readable frame is analyzed.** -/
theorem exists_analyzeFrame (hs : (s.path p).toLink.Admitted (s.pathConf p))
    (h : s.Readable p data) : ∃ r, s.analyzeFrame p data now = .ok r := by
  obtain ⟨hlong, hsize, hcut⟩ := h
  obtain ⟨first, type, rest, rfl⟩ : ∃ first type rest, data = first :: type :: rest := by
    match data, hlong with
    | first :: type :: rest, _ => exact ⟨first, type, rest, rfl⟩
  rw [analyzeFrame_cons]
  split_ifs with haddress hbit hua hsarm hstate hinfo
  all_goals try exact ⟨_, rfl⟩
  · have hkind : s.frameKind p (first :: type :: rest) = some (.info type) := by
      simp only [frameKind, if_neg haddress, if_neg hbit, if_neg hua, if_neg hsarm, if_neg hstate,
        if_pos hinfo]
    exact exists_receivedINFO hs rfl hsize fun hout hcan => hcut ⟨⟨type, hkind⟩, hout, hcan⟩
  · obtain ⟨b, l, hrr⟩ := hs.exists_receivedRR now.ms (nrField type) (pfField type)
    rw [receivedRR, hrr]
    exact ⟨_, rfl⟩

/-- **The messages of a readable frame are whole**, as the path sees them. -/
theorem whole_of_analyzeFrame {messages : List (List UInt8)} (hread : s.Readable p data)
    (h : s.analyzeFrame p data now = .ok (messages, t)) :
    ∀ m ∈ messages, Whole (s.pathConf p).testMsgReceive m := by
  obtain ⟨-, hsize, hcut⟩ := hread
  have hextract : ∀ {type extracted u}, s.frameKind p data = some (.info type) →
      (s.path p).protocolState ≠ .outputConnected → s.extract p data now = .ok (extracted, u) →
      ∀ m ∈ extracted, Whole (s.pathConf p).testMsgReceive m := by
    intro type extracted u hk hout hx
    by_cases hcan : s.canPathExtractMessage p = true
    · obtain ⟨messages, hwell⟩ := hcut ⟨⟨type, hk⟩, hout, hcan⟩
      obtain ⟨l, hl, -⟩ := extract_of_wellSized now hcan hsize hwell
      obtain ⟨rfl, -⟩ := Prod.mk.inj (Except.ok.inj (hl.symm.trans hx))
      exact hwell.whole
    · rw [extract, if_neg hcan] at hx
      cases hx
      exact List.forall_mem_nil _
  have hcases := analyzeFrame_cases h
  cases hk : s.frameKind p data with
  | none => rw [hk] at hcases; rw [hcases.1]; exact List.forall_mem_nil _
  | some kind =>
    rw [hk] at hcases
    cases kind with
    | ua => rw [hcases.1]; exact List.forall_mem_nil _
    | sarm => rw [hcases.1]; exact List.forall_mem_nil _
    | rr type => rw [hcases.2.2.1]; exact List.forall_mem_nil _
    | info type =>
      obtain ⟨htype, -, hinfo⟩ := hcases
      obtain ⟨-, rfl, -⟩ | ⟨hout, u, extracted, ok, l, hu, -, rfl, -⟩ :=
        receivedINFO_cases htype hinfo
      · exact List.forall_mem_nil _
      · split_ifs
        · exact hextract hk hout hu
        · exact List.forall_mem_nil _

/-! ## Events -/

/-- **The event is proper**: its path is there, it does not give up the path of a delayed GI, and
what it brings can be read. -/
structure Proper (s : System) (ev : Event) : Prop where
  enabled : s.enabled ev = true
  keeps : s.abandons ev = false
  frame : ∀ p data now, ev = .frame p data now → s.Readable p data
  message : ∀ data now, ev = .message data now → Whole s.hnz.testMsgReceive data

/-- **A proper event happens.** -/
theorem exists_step {ev : Event} (hread : s.hnz.conf.readable s.hnz.remoteAddress = true)
    (hanchored : s.interrogation.Anchored)
    (hadm : ∀ p, (s.path p).toLink.Admitted (s.pathConf p)) (h : s.Proper ev) :
    ∃ t, s.step ev = some t := by
  obtain ⟨t, ht⟩ : ∃ t, s.run ev = .ok t := by
    cases ev with
    | frame p data now =>
      obtain ⟨r, hr⟩ : ∃ r, s.analyzeFrame p data now = .ok r :=
        exists_analyzeFrame (hadm p) (h.frame p data now rfl)
      exact ⟨r.2, by rw [run, hr]; rfl⟩
    | message data now => exact exists_handleMessage hread hanchored (h.message data now rfl)
    | checkGI now => exact exists_checkGI hread hanchored
    | qualityTimer now => exact exists_updateQualityUpdateTimer hread
    | _ => exact ⟨_, rfl⟩
  exact ⟨t, by rw [step, if_pos h.enabled, ht]; rfl⟩

/-- No event changes the configuration of the connection. -/
theorem conf_step {ev : Event} (h : s.step ev = some t) :
    t.connection.conf = s.connection.conf := by
  obtain ⟨u, now, hpre, hpost⟩ := (step_cases h).2
  refine hpost.conf.trans (Eq.trans ?_ hpre.conf)
  cases s.fires ev with
  | none => rfl
  | some f => exact conf_protocolStateTransition _ _

end System

/-! ## The plugin -/

namespace Plugin

variable [Platform] {pl pl' : Plugin} {now : Instant} {c : HNZConnection}

/-- **The call is proper**: the threads of the connection run between a start and a stop, a complete
configuration has its two tables and comes while no GI is delayed, and a plugin that was stopped is
configured before it is started. -/
def Proper (pl : Plugin) : Call → Prop
  | .event ev => pl.isRunning = true ∧ ∃ c, pl.connection = some c ∧ System.Proper ⟨pl.hnz, c⟩ ev
  | .setJsonConfig conf _ _ => conf.isComplete = true →
      conf.readable conf.remoteStationAddr.toNat = true ∧ pl.hnz.giInQueue = false
  | .start _ => pl.connection = none → pl.isRunning = true ∨ pl.hnz.conf.isComplete = false
  | .stop _ => True

/-- **The plugin is ready** for every proper call. -/
structure Ready (pl : Plugin) : Prop where
  reached : ∃ calls, Run Step {} calls pl
  anchored : pl.Anchored
  tables : pl.hnz.conf.isComplete = true → pl.hnz.conf.readable pl.hnz.remoteAddress = true
  complete : pl.isRunning = true → pl.hnz.conf.isComplete = true
  /-- The plugin object and its connection look for the same BULLE. -/
  bulle : ∀ c, pl.connection = some c → pl.hnz.testMsgReceive = c.conf.testMsgReceive

theorem ready_empty : Ready {} where
  reached := ⟨[], .nil _⟩
  anchored _ hc := by cases hc
  tables hc := by cases hc
  complete hr := by cases hr
  bulle _ hc := by cases hc

/-! ### Progress -/

theorem Ready.exists_event (h : Ready pl) {ev : Event} (hproper : pl.Proper (.event ev)) :
    ∃ pl', pl.step (.event ev) = some pl' := by
  obtain ⟨hr, c, hc, hev⟩ := hproper
  obtain ⟨calls, hrun⟩ := h.reached
  obtain ⟨t, ht⟩ := System.exists_step (s := ⟨pl.hnz, c⟩) (h.tables (h.complete hr)) (h.anchored c hc)
    (linkInvariant_admitted.plugin_always hrun hc) hev
  exact ⟨_, step_event ht hc⟩

omit [Platform] in
/-- A start, with its tables and its connection. -/
theorem exists_start (b : Bool)
    (htables : pl.hnz.conf.isComplete = true → pl.hnz.conf.readable pl.hnz.remoteAddress = true)
    (hnull : pl.connection = none → pl.isRunning = true ∨ pl.hnz.conf.isComplete = false) :
    ∃ q, pl.start b now = .ok q := by
  by_cases hidle : pl.isRunning = true ∨ pl.hnz.conf.isComplete = false
  · exact ⟨_, start_of_idle b now hidle⟩
  · obtain ⟨hr, hc⟩ := not_or.mp hidle
    rw [Bool.not_eq_true] at hr
    rw [Bool.not_eq_false] at hc
    cases hconnection : pl.connection with
    | none => exact absurd (hnull hconnection) hidle
    | some c =>
      obtain ⟨readings, connection, hstart⟩ :=
        start_of_connection b now hr hc (htables hc) hconnection
      exact ⟨_, hstart⟩

omit [Platform] in
theorem exists_setJsonConfig {conf : HNZConf} (name : String)
    (hread : conf.isComplete = true → conf.readable conf.remoteStationAddr.toNat = true) :
    ∃ r, pl.setJsonConfig conf name now = .ok r := by
  cases hc : conf.isComplete with
  | false =>
    obtain ⟨q, hq, -⟩ := setJsonConfig_of_incomplete hc name now pl
    exact ⟨_, hq⟩
  | true =>
    obtain ⟨q, hconf, hremote, hconnection, -, -, hq⟩ := setJsonConfig_of_complete hc name now pl
    rw [hq]
    split_ifs
    · obtain ⟨r, hr⟩ : ∃ r, q.start false now = .ok r := by
        refine exists_start false (fun _ => ?_) fun hnone => ?_
        · rw [hconf, hremote]
          exact hread hc
        · rw [hnone] at hconnection
          cases hconnection
      rw [hr]
      exact ⟨_, rfl⟩
    · exact ⟨_, rfl⟩
    · exact ⟨_, rfl⟩

theorem Ready.exists_step (h : Ready pl) {call : Call} (hproper : pl.Proper call) :
    ∃ pl', pl.Step call pl' := by
  cases call with
  | event ev => exact h.exists_event hproper
  | setJsonConfig conf name now =>
    obtain ⟨r, hr⟩ : ∃ r, pl.setJsonConfig conf name now = .ok r :=
      exists_setJsonConfig name fun hc => (hproper hc).1
    exact ⟨r.2, by rw [Step, Det, step, hr]; rfl⟩
  | start now =>
    obtain ⟨q, hq⟩ : ∃ q, pl.start true now = .ok q := exists_start true h.tables hproper
    exact ⟨q, by rw [Step, Det, step, hq]; rfl⟩
  | stop now => exact ⟨_, rfl⟩

/-! ### Preservation -/

omit [Platform] in
theorem testMsgReceive_of_incomplete {conf : HNZConf} {name : String} {b : Bool}
    (hc : conf.isComplete = false) (h : pl.setJsonConfig conf name now = .ok (b, pl')) :
    pl'.hnz.testMsgReceive = (pl.halted now).hnz.testMsgReceive := by
  unfold setJsonConfig at h
  simp only [hc] at h
  cases h
  rfl

/-- A proper call does not take its path from a delayed GI. -/
theorem Proper.keepsDelayed {call : Call} (h : pl.Proper call) : pl.keepsDelayed call = true := by
  cases call with
  | event ev =>
    obtain ⟨-, c, hc, hev⟩ := h
    simp [Plugin.keepsDelayed, hc, hev.keeps]
  | setJsonConfig conf name now =>
    have hqueue : (pl.hnz.giInQueue && conf.isComplete) = false := by
      cases hc : conf.isComplete with
      | false => rw [Bool.and_false]
      | true => rw [(h hc).2, Bool.false_and]
    cases hc : pl.connection <;> simp [Plugin.keepsDelayed, hc, hqueue]
  | start now => cases hc : pl.connection <;> simp [Plugin.keepsDelayed, hc]
  | stop now => cases hc : pl.connection <;> simp [Plugin.keepsDelayed, hc]

/-- **Proper calls leave the plugin ready.** -/
theorem Ready.step (h : Ready pl) {call : Call} (hproper : pl.Proper call)
    (hst : pl.Step call pl') : Ready pl' := by
  obtain ⟨calls, hrun⟩ := h.reached
  have hreached : ∃ calls, Run Step {} calls pl' := ⟨_, hrun.snoc hst⟩
  have hanchored : pl'.Anchored := anchored_step hst hproper.keepsDelayed h.anchored
  have hcases := step_cases hst
  cases call with
  | event ev =>
    obtain ⟨c, t, hc, ht, rfl⟩ := hcases
    have hsettings : pl.hnz.SameSettings t.hnz :=
      System.sameSettings_of_step (s := ⟨pl.hnz, c⟩) ht
    refine ⟨hreached, hanchored, ?_, ?_, fun d hd => ?_⟩
    · rw [hsettings.conf, hsettings.remoteAddress]
      exact h.tables
    · rw [hsettings.conf]
      exact h.complete
    · obtain rfl : t.connection = d := Option.some.inj hd
      have hconf : t.connection.conf = c.conf := System.conf_step ht
      rw [hsettings.testMsgReceive, hconf]
      exact h.bulle c hc
  | setJsonConfig conf name now =>
    obtain ⟨b, hset⟩ := hcases
    cases hc : conf.isComplete with
    | true =>
      obtain ⟨hnz, c, hconf, hremote, hbulle, hpublishes, hconnection, hc'⟩ :=
        publishes_setJsonConfig hc hset
      have hconf' : pl'.hnz.conf = conf := hpublishes.conf.trans hconf
      refine ⟨hreached, hanchored, fun _ => ?_, fun _ => by rw [hconf', hc], fun d hd => ?_⟩
      · rw [hconf', hpublishes.remoteAddress, hremote]
        exact (hproper hc).1
      · obtain rfl := Option.some.inj (hconnection.symm.trans hd)
        rw [hpublishes.testMsgReceive, hbulle, hc']
    | false =>
      obtain ⟨q, hq, hconf, hconnection, hrunning, -⟩ := setJsonConfig_of_incomplete hc name now pl
      obtain rfl : pl' = q := (Prod.mk.inj (Except.ok.inj (hset.symm.trans hq))).2
      rw [isRunning_halted] at hrunning
      refine ⟨hreached, hanchored, fun h => ?_, fun h => ?_, fun d hd => ?_⟩
      · rw [hconf, hc] at h
        cases h
      · rw [hrunning] at h
        cases h
      · rw [hconnection] at hd
        rw [testMsgReceive_of_incomplete hc hset]
        unfold halted at hd ⊢
        split_ifs at hd ⊢
        · cases hd
        · exact h.bulle d hd
  | start now =>
    obtain ⟨-, hconf, -, hidle⟩ := start_spec hcases
    have hpublishes : pl.hnz.Publishes pl'.hnz := publishes_start hcases
    refine ⟨hreached, hanchored, ?_, fun hr => ?_, fun d hd => ?_⟩
    · rw [hpublishes.conf, hpublishes.remoteAddress]
      exact h.tables
    · rw [hconf]
      by_contra hincomplete
      rw [Bool.not_eq_true] at hincomplete
      rw [hidle hincomplete] at hr
      exact Bool.false_ne_true (hincomplete.symm.trans (h.complete hr))
    · rw [hpublishes.testMsgReceive]
      obtain ⟨-, hconnection⟩ | ⟨c, t, hc, hsame, -, -, hconnection⟩ := start_cases hcases
      · exact h.bulle d (hconnection ▸ hd)
      · obtain rfl := Option.some.inj (hconnection.symm.trans hd)
        rw [hsame.conf]
        exact h.bulle c hc
  | stop now =>
    rw [hcases]
    have hpublishes : pl.hnz.Publishes (pl.stop true now).hnz := publishes_stop true
    refine ⟨hcases ▸ hreached, hcases ▸ hanchored, ?_, fun hr => ?_, fun d hd => ?_⟩
    · rw [hpublishes.conf, hpublishes.remoteAddress]
      exact h.tables
    · cases hr
    · cases hd

/-! ### Runs -/

/-- The messages of a frame, from the point of view of the plugin object. -/
theorem Ready.whole {c : HNZConnection} {p : PathId} {data : List UInt8}
    {messages : List (List UInt8)} {t : System} (h : Ready pl) (hc : pl.connection = some c)
    (hread : System.Readable ⟨pl.hnz, c⟩ p data)
    (hf : System.analyzeFrame p data now ⟨pl.hnz, c⟩ = .ok (messages, t)) :
    ∀ m ∈ messages, Whole pl.hnz.testMsgReceive m := by
  have hbulle : pl.hnz.testMsgReceive = (System.pathConf ⟨pl.hnz, c⟩ p).testMsgReceive := h.bulle c hc
  rw [hbulle]
  exact System.whole_of_analyzeFrame hread hf

/-- **No fault ends a run of proper calls**: it goes on to the last of them.  What the readable frames
of the plugin it reaches bring are proper messages, until another configuration comes. -/
theorem unfailing {calls : List Call} (h : Throughout Step Proper {} calls) :
    ∃ pl, Run Step {} calls pl ∧
      ∀ c p data now messages t, pl.connection = some c → System.Readable ⟨pl.hnz, c⟩ p data →
        System.analyzeFrame p data now ⟨pl.hnz, c⟩ = .ok (messages, t) →
        ∀ rest pl', Run (Under (fun _ call => ¬call.Configures) Step) pl rest pl' →
          pl'.isRunning = true → pl'.connection.isSome = true →
          ∀ m ∈ messages, ∀ now', pl'.Proper (.event (.message m now')) := by
  obtain ⟨pl, hrun, hready⟩ := h.exists_run (I := Ready)
    (fun hs hproper => by
      obtain ⟨t, ht⟩ := hs.exists_step hproper
      exact ⟨t, ht, hs.step hproper ht⟩) ready_empty
  refine ⟨pl, hrun.of_under, ?_⟩
  intro c p data now messages t hc hread hf rest pl' hrest hr hsome m hm now'
  have hwhole := hready.whole hc hread hf m hm
  have hsettings : pl.hnz.SameSettings pl'.hnz :=
    hrest.invariant (I := fun q => pl.hnz.SameSettings q.hnz)
      (fun hq hst => hq.trans (sameSettings_step hst.1 hst.2)) (.refl _)
  obtain ⟨d, hd⟩ := Option.isSome_iff_exists.mp hsome
  refine ⟨hr, d, hd, rfl, ?_, ?_, ?_⟩
  · simp [System.abandons, System.losesActive, System.fires]
  · intro q data now h
    cases h
  · intro data now h
    cases h
    rw [show (⟨pl'.hnz, d⟩ : System).hnz = pl'.hnz from rfl, hsettings.testMsgReceive]
    exact hwhole

end Plugin

namespace Plugin

open Sample

/-- A start, a path with its input connected, a TSCE from it, and a stop. -/
def receiving : List Call :=
  listening ++ [.event (.frame .A (System.tsceFrame 0x00) 0),
    .event (.message [0x0B, 0x33, 0x28, 0x1D, 0x4C] 0), .stop 0]

set_option maxRecDepth 8000 in
theorem unfailing_receiving : ∃ pl, Run Step {} receiving pl := by
  have hother : ∀ {s : System} {ev : Event}, s.enabled ev = true → s.abandons ev = false →
      (∀ p data now, ev ≠ .frame p data now) → (∀ data now, ev ≠ .message data now) →
      s.Proper ev := fun hen hkeep hframe hmessage =>
    ⟨hen, hkeep, fun p data now h => absurd h (hframe p data now),
      fun data now h => absurd h (hmessage data now)⟩
  have hproper : Throughout Step Proper {} receiving := by
    refine (throughout_det_cons rfl).mpr ⟨fun _ => ⟨by decide, rfl⟩, ?_⟩
    refine (throughout_det_cons rfl).mpr ⟨fun h => (by cases h), ?_⟩
    refine (throughout_det_cons rfl).mpr ⟨⟨rfl, _, rfl, hother rfl rfl nofun nofun⟩, ?_⟩
    refine (throughout_det_cons rfl).mpr ⟨⟨rfl, _, rfl, hother rfl rfl nofun nofun⟩, ?_⟩
    refine (throughout_det_cons rfl).mpr ⟨⟨rfl, _, rfl, rfl, rfl, ?_, nofun⟩, ?_⟩
    · rintro p data now ⟨⟩
      exact ⟨by decide, by decide, fun _ => ⟨_, .last rfl⟩⟩
    refine (throughout_det_cons rfl).mpr ⟨⟨rfl, _, rfl, rfl, rfl, nofun, ?_⟩, ?_⟩
    · rintro data now ⟨⟩
      rfl
    exact (throughout_det_cons rfl).mpr ⟨trivial, throughout_nil⟩
  obtain ⟨pl, hrun, -⟩ := unfailing hproper
  exact ⟨pl, hrun⟩

end Plugin

end Hnz
