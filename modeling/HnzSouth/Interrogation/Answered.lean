import HnzSouth.Interrogation.Missing
import HnzSouth.Lifecycle.Unfailing
import HnzSouth.Reception.Decoding

/-!
# Interrogation/Answered — a GI that is answered in full

The station answers a GI with a series of TSCG.  Whatever else happens between two of them, every
configured TS, each with a label that is not empty, is shown to Fledge as the station wrote it, none
is taken for missing, and the TSCG that has the last TS at its end is also the end of the GI
(`answered_of_run`).
-/

namespace Hnz

open Machinery

/-! ## The answer -/

/-- **A TSCG of the station.** -/
structure Tscg where
  base : UInt8
  states : Fin 16 → Bool × Bool

namespace Tscg

def bytes [Platform] (m : Tscg) : List UInt8 := encodeTSCG m.base m.states

def points (m : Tscg) : List Point := tscgPoints m.base m.states

end Tscg

/-- The points of an answer that have a label. -/
def HNZConf.known (conf : HNZConf) (answer : List Tscg) : List Point :=
  (answer.flatMap Tscg.points).filter (conf.labels "TS")

theorem HNZConf.known_append (conf : HNZConf) (answer answer' : List Tscg) :
    conf.known (answer ++ answer') = conf.known answer ++ conf.known answer' := by
  rw [known, List.flatMap_append, List.filter_append, known, known]

theorem HNZConf.known_singleton (conf : HNZConf) (m : Tscg) :
    conf.known [m] = m.points.filter (conf.labels "TS") := by
  rw [known, List.flatMap_singleton]

/-! ## What Fledge is shown -/

/-- **These points were shown**, in order, among readings that mark no point. -/
def HNZ.Showed (conf : HNZConf) (points : List Point) (h h' : HNZ) : Prop :=
  ∃ new, h'.readings = h.readings ++ new ∧ (∀ r ∈ new, ¬r.MarksInvalid) ∧
    ∃ shown, shown.Sublist new ∧ List.Forall₂ (conf.Shows "TS") shown points

namespace HNZ.Showed

variable {conf : HNZConf} {points points' : List Point} {h h' h'' : HNZ}

theorem of_emits (hnew : h.Emits (fun r => ¬r.MarksInvalid) h') : h.Showed conf [] h' := by
  obtain ⟨new, hreadings, hunmarked⟩ := hnew
  exact ⟨new, hreadings, hunmarked, [], List.nil_sublist _, .nil⟩

theorem trans (a : h.Showed conf points h') (b : h'.Showed conf points' h'') :
    h.Showed conf (points ++ points') h'' := by
  obtain ⟨new, hreadings, hunmarked, shown, hsub, hshown⟩ := a
  obtain ⟨new', hreadings', hunmarked', shown', hsub', hshown'⟩ := b
  refine ⟨new ++ new', by rw [hreadings', hreadings, List.append_assoc], ?_, shown ++ shown',
    hsub.append hsub', List.rel_append hshown hshown'⟩
  exact fun r hr => (List.mem_append.mp hr).elim (hunmarked r) (hunmarked' r)

theorem append_emits (a : h.Showed conf points h')
    (hnew : h'.Emits (fun r => ¬r.MarksInvalid) h'') : h.Showed conf points h'' := by
  have hsame : h'.Showed conf [] h'' := of_emits hnew
  have hall := a.trans hsame
  rwa [List.append_nil] at hall

end HNZ.Showed

namespace System

variable {s t u : System} {now : Instant} {ev : Event} {m : Tscg}

/-- The two statuses that an operation asks for mark no point. -/
theorem emits_sendSouthMonitoringEvent (c g : Bool) :
    s.hnz.Emits (fun r => ¬r.MarksInvalid) (s.sendSouthMonitoringEvent c g).hnz := by
  unfold sendSouthMonitoringEvent
  by_cases hasset : s.hnz.conf.connxStatus = ""
  · simp only [if_pos hasset]
    exact .of_eq rfl
  by_cases hnone : (!c && !g) = true
  · simp only [if_neg hasset, if_pos hnone]
    exact .of_eq rfl
  simp only [if_neg hasset, if_neg hnone]
  refine emits_sendToFledge fun r hr => ?_
  rw [List.mem_singleton] at hr
  subst hr
  rintro ⟨htype, -⟩
  revert htype
  cases s.hnz.connStatus <;> cases s.hnz.giStatus <;> cases c <;> cases g <;>
    simp [Reading.get?, List.lookup_cons]

variable [Platform]

/-- **An event that does not end the GI** marks no point. -/
theorem unmarked_step (h : s.step ev = some t) (hc : s.completes ev = false) :
    s.hnz.Emits (fun r => ¬r.MarksInvalid) t.hnz := by
  by_cases hop : ∃ params now, ev = .operation "request_connection_status" params now
  · obtain ⟨params, now, rfl⟩ := hop
    obtain ⟨-, hrun⟩ := run_of_step h
    cases hrun
    exact emits_sendSouthMonitoringEvent (s := s) true true
  · exact (emits_step h hc fun params now hev => hop ⟨params, now, hev⟩).mono fun r hr => hr.2

/-- It leaves a GI running. -/
theorem running_step (h : s.step ev = some t) (hc : s.completes ev = false)
    (hrunning : s.hnz.giStatus.Running) : t.hnz.giStatus.Running := by
  obtain heq | hr := status_of_not_completes h hc
  · rwa [heq]
  · exact hr

/-! ## A TSCG -/

/-- The addresses on the wire are those of the points. -/
theorem wireAddresses_bytes (m : Tscg) : wireAddresses m.bytes = m.points.map Point.address := by
  have hwire : wireAddresses m.bytes =
      (List.range 16).map fun i => 10 * (m.base.toNat + i / 8) + i % 8 := rfl
  rw [hwire, Tscg.points, tscgPoints, List.ofFn_eq_map, List.map_map,
    ← List.map_coe_finRange_eq_range, List.map_map]
  rfl

/-- The addresses that a TSCG of the station records. -/
theorem tscgAddresses_bytes (m : Tscg) :
    s.tscgAddresses m.bytes = (s.hnz.conf.known [m]).map Point.address := by
  obtain ⟨rs, hrs, -⟩ : s.hnz.conf.Reads "TS" ((s.handleTSCG m.bytes).map Prod.fst) m.points :=
    reads_handleTSCG m.states
  obtain ⟨r, hr, -⟩ := map_eq_ok.mp hrs
  rw [tscgAddresses_eq hr, wireAddresses_bytes, List.filter_map, HNZConf.known_singleton]
  rfl

/-- What a TSCG of the station does, up to the verdict on the GI. -/
theorem exists_handleTSCG (s : System) (m : Tscg) :
    ∃ readings u, s.handleTSCG m.bytes = .ok (readings, u) ∧
      s.hnz.Showed s.hnz.conf (s.hnz.conf.known [m]) (u.sendToFledge readings).hnz ∧
      u.interrogation = s.interrogation.act (.receive ((s.hnz.conf.known [m]).map Point.address)) ∧
      s.hnz.SameConf u.hnz := by
  have hreads : s.hnz.conf.Reads "TS" ((s.handleTSCG m.bytes).map Prod.fst) m.points :=
    reads_handleTSCG m.states
  obtain ⟨shown, hshown, hshows⟩ := hreads
  obtain ⟨⟨readings, u⟩, hu, rfl⟩ : ∃ r, s.handleTSCG m.bytes = .ok r ∧ r.1 = shown := by
    cases hr : s.handleTSCG m.bytes with
    | ok r => exact ⟨r, rfl, Except.ok.inj (by rw [← hshown, hr]; rfl)⟩
    | error e => rw [hr] at hshown; cases hshown
  obtain ⟨⟨status, hstatus, hordinary⟩, hreadings⟩ := handleTSCG_ordinary hu
  obtain ⟨hact, -, hconf, hremote⟩ := handleTSCG_spec hu
  rw [tscgAddresses_bytes] at hact
  refine ⟨readings, u, hu, ⟨status ++ readings, ?_, ?_, readings,
    List.sublist_append_right _ _, ?_⟩, hact, ⟨hconf, hremote⟩⟩
  · change u.hnz.readings ++ readings = _
    rw [hstatus, List.append_assoc]
  · intro r hr
    exact (List.mem_append.mp hr).elim (fun h => (hordinary r h).2) fun h => (hreadings r h).2
  · rw [HNZConf.known_singleton]
    exact hshows

/-- A TSCG of the station, and the verdict on the GI. -/
theorem run_tscg {readings : List Reading} (h : s.handleTSCG m.bytes = .ok (readings, u)) :
    s.run (.message m.bytes now) =
      if (u.sendToFledge readings).lastTSReceived = true then
        (u.sendToFledge readings).giCompleted true now
      else .ok (u.sendToFledge readings) := by
  have hcode : readByte m.bytes 0 = .ok Platform.tscgCode := rfl
  simp only [System.run, handleMessage, hcode, dispatch_codes.1, h, bind, Except.bind, pure,
    Except.pure, true_and, checkGICompleted, if_true]

omit [Platform] in
/-- The GI that the last TSCG ends, or the one that was waiting for this. -/
theorem giCompleted_spec (h : s.giCompleted true now = .ok t) :
    t.hnz.giAddressesReceived = [] ∧
      (t.hnz.giStatus = .finished ∨ s.hnz.giInQueue = true ∧ t.hnz.giStatus = .started) := by
  have hacts := interrogation_giCompleted h
  refine ⟨?_, ?_⟩
  · obtain ⟨as, heq, has⟩ : ∃ as, s.completed true now = .complete true :: as ∧
      ∀ a ∈ as, Idle (some now) a := completed_eq true
    rw [heq, Interrogation.acts_cons] at hacts
    exact (congrArg Interrogation.received hacts).trans (Interrogation.acts_idle has).1
  · have hstatus : t.hnz.giStatus = (s.interrogation.acts (s.completed true now)).status :=
      congrArg (fun i : Interrogation => i.status) hacts
    rw [hstatus, completed, Interrogation.acts_cons]
    cases s.hnz.giInQueue with
    | false => exact Or.inl rfl
    | true =>
      rw [if_pos rfl, requestedActive]
      cases s.connection.activePath with
      | none => exact Or.inl rfl
      | some p =>
        simp only [requested]
        cases (s.sendInfo p now giPayload).1 with
        | false => exact Or.inl rfl
        | true => exact Or.inr ⟨trivial, rfl⟩

/-! ## The answer so far -/

/-- **The answer has come so far** since the state `s`. -/
structure Gathered (s : System) (answer : List Tscg) (u : System) : Prop where
  same : s.hnz.SameConf u.hnz
  received : u.hnz.giAddressesReceived = (s.hnz.conf.known answer).map Point.address
  showed : s.hnz.Showed s.hnz.conf (s.hnz.conf.known answer) u.hnz
  running : s.hnz.giStatus.Running → u.hnz.giStatus.Running

/-- The timer of the GI does not run out at the event. -/
def InTime (s : System) (ev : Event) : Prop := ∀ now, ev = .checkGI now → ¬s.TimedOut

/-- The last TS is not among these points. -/
def Lacks (s : System) (points : List Point) : Prop :=
  ∀ pt ∈ points, pt.address ≠ s.hnz.conf.lastTSAddr

omit [Platform] in
theorem Lacks.not_last {points : List Point} (h : s.Lacks points) :
    (points.map Point.address).getLast? ≠ some s.hnz.conf.lastTSAddr := by
  intro hlast
  obtain ⟨pt, hpt, heq⟩ := List.mem_map.mp (List.mem_of_getLast? hlast)
  exact h pt hpt heq

/-- The TSCG that continues an answer. -/
theorem Gathered.bringsLast {answer : List Tscg} (h : s.Gathered answer u) (m : Tscg) :
    u.bringsLast m.bytes = (((s.hnz.conf.known (answer ++ [m])).map Point.address).getLast? ==
      some s.hnz.conf.lastTSAddr) := by
  rw [System.bringsLast, h.received, tscgAddresses_bytes, h.same.1, HNZConf.known_append,
    List.map_append]

/-- **A TSCG that does not end the GI.** -/
theorem Gathered.tscg {answer : List Tscg} (hs : s.Gathered answer u)
    (hmore : s.Lacks (s.hnz.conf.known (answer ++ [m])))
    (h : u.step (.message m.bytes now) = some t) : s.Gathered (answer ++ [m]) t := by
  obtain ⟨-, hrun⟩ := run_of_step h
  obtain ⟨readings, v, hv, hshowed, hact, hsame⟩ := exists_handleTSCG u m
  have hlast : (v.sendToFledge readings).lastTSReceived = false := by
    rw [lastTSReceived_of_handleTSCG hv, hs.bringsLast]
    exact beq_false_of_ne hmore.not_last
  have hrunning : u.hnz.giStatus.Running → t.hnz.giStatus.Running := by
    refine running_step h ?_
    rw [completes, hs.bringsLast, beq_false_of_ne hmore.not_last, Bool.and_false]
  rw [run_tscg hv, if_neg (by rw [hlast]; decide)] at hrun
  obtain rfl := Except.ok.inj hrun
  rw [hs.same.1] at hshowed hact
  refine ⟨hs.same.trans hsame, ?_, ?_, hrunning ∘ hs.running⟩
  · have hreceived : v.hnz.giAddressesReceived = _ := congrArg Interrogation.received hact
    change v.hnz.giAddressesReceived = _
    rw [hreceived, HNZConf.known_append, List.map_append, ← hs.received]
    rfl
  · rw [HNZConf.known_append]
    exact hs.showed.trans hshowed

/-- **Any other event**, while the timer does not run out. -/
theorem Gathered.other {answer : List Tscg} (hs : s.Gathered answer u) (hev : ev.tscg? = none)
    (htime : u.InTime ev) (h : u.step ev = some t) : s.Gathered answer t := by
  have hcg : ∀ data now, ev = .message data now → data.head? ≠ some Platform.tscgCode := by
    rintro data now rfl hhead
    simp [Event.tscg?, hhead] at hev
  have hends : u.completes ev = false := by
    cases ev with
    | message data now => simp [completes, hcg data now rfl]
    | checkGI now => simp [completes, htime now rfl]
    | _ => rfl
  have hreceived : t.hnz.giAddressesReceived = u.hnz.giAddressesReceived := by
    have hact : t.hnz.giAddressesReceived = (u.interrogation.acts (u.acts ev)).received :=
      congrArg Interrogation.received (interrogation_step h)
    rw [hact]
    cases u.kind ev with
    | ends pre as success hc => rw [hends] at hc; cases hc
    | again now rest hgi hc hr =>
      subst hgi
      simp [repeatsGi, htime now rfl] at hr
    | brings data now hmsg hhead => exact absurd hhead (hcg data now hmsg)
    | idle hc hr hb has => exact (Interrogation.acts_idle has).1
  exact ⟨hs.same.trans (sameConf_step h), hreceived.trans hs.received,
    hs.showed.append_emits (unmarked_step h hends), running_step h hends ∘ hs.running⟩

/-- **The answer along a run.** -/
theorem Gathered.along {evs : List Event} {done todo : List Tscg} (hs : s.Gathered done t)
    (h : Run (Under InTime Step) t evs u) (hevs : evs.filterMap Event.tscg? = todo.map Tscg.bytes)
    (hmore : s.Lacks (s.hnz.conf.known (done ++ todo))) : s.Gathered (done ++ todo) u := by
  induction h generalizing done todo with
  | nil =>
    obtain rfl : todo = [] := List.map_eq_nil_iff.mp hevs.symm
    rwa [List.append_nil]
  | @cons t v u ev evs hstep _ ih =>
    obtain ⟨htime, hstep⟩ := hstep
    rw [List.filterMap_cons] at hevs
    cases hev : ev.tscg? with
    | none =>
      rw [hev] at hevs
      exact ih (hs.other hev htime hstep) hevs hmore
    | some data =>
      rw [hev] at hevs
      cases todo with
      | nil => cases hevs
      | cons m todo =>
        obtain ⟨rfl, htodo⟩ := List.cons.inj hevs
        obtain ⟨now, rfl⟩ : ∃ now, ev = .message m.bytes now := by
          unfold Event.tscg? at hev
          split at hev
          · split_ifs at hev
            exact ⟨_, by rw [Option.some.inj hev]⟩
          · cases hev
        rw [List.append_cons] at hmore ⊢
        refine ih (hs.tscg ?_ hstep) htodo hmore
        rw [HNZConf.known_append] at hmore
        exact fun pt hpt => hmore pt (List.mem_append_left _ hpt)

/-! ## The last TSCG -/

/-- **The TSCG that ends the GI.** -/
theorem Gathered.last {answer : List Tscg} (hs : s.Gathered answer u)
    (hread : s.hnz.conf.readable s.hnz.remoteAddress = true) (hdelayed : u.interrogation.Anchored)
    (hall : ∀ point ∈ s.configuredTS, ∃ pt ∈ s.hnz.conf.known (answer ++ [m]), pt.address = point.1)
    (hlast : (s.hnz.conf.known [m]).getLast?.map Point.address = some s.hnz.conf.lastTSAddr)
    (now : Instant) :
    ∃ t, u.step (.message m.bytes now) = some t ∧
      s.hnz.Showed s.hnz.conf (s.hnz.conf.known (answer ++ [m])) t.hnz ∧
      t.hnz.giAddressesReceived = [] ∧
      (t.hnz.giStatus = .finished ∨ u.hnz.giInQueue = true ∧ t.hnz.giStatus = .started) := by
  obtain ⟨readings, v, hv, hshowed, hact, hsame⟩ := exists_handleTSCG u m
  rw [hs.same.1] at hshowed hact
  set w := v.sendToFledge readings with hw
  have hsame' : s.hnz.SameConf w.hnz := hs.same.trans hsame
  have hreceived : w.hnz.giAddressesReceived =
      (s.hnz.conf.known (answer ++ [m])).map Point.address := by
    have hv' : w.hnz.giAddressesReceived = _ := congrArg Interrogation.received hact
    rw [hv', HNZConf.known_append, List.map_append, ← hs.received]
    rfl
  have hends : w.lastTSReceived = true := by
    rw [← List.getLast?_map] at hlast
    rw [lastTSReceived_of_handleTSCG hv, hs.bringsLast, HNZConf.known_append, List.map_append,
      List.getLast?_append, hlast]
    exact beq_self_eq_true _
  have hanchored : w.interrogation.Anchored := by
    change v.interrogation.Anchored
    rw [hact]
    exact hdelayed.acts_inner (show ∀ a ∈ [Act.receive _], Inner a by simp [Inner])
  obtain ⟨t, ht⟩ : ∃ t, w.giCompleted true now = .ok t :=
    exists_giCompleted (by rw [hsame'.1, hsame'.2]; exact hread) hanchored true
  have hnone : w.missingReadings w.hnz.giAddressesReceived now = [] := by
    rw [missingReadings, configuredTS_congr hsame', hreceived, List.map_eq_nil_iff,
      List.filter_eq_nil_iff]
    intro point hpoint
    obtain ⟨pt, hpt, heq⟩ := hall point hpoint
    simp [← heq, List.mem_map_of_mem hpt]
  have hafter : w.hnz.Emits (fun r => ¬r.MarksInvalid) t.hnz := by
    obtain ⟨post, hpost, hunmarked⟩ := emits_giCompleted ht
    rw [hnone, List.append_nil] at hpost
    exact ⟨post, hpost, fun r hr => (hunmarked r hr).1⟩
  have hstep : u.step (.message m.bytes now) = some t := by
    have hrun : u.run (.message m.bytes now) = .ok t := by rw [run_tscg hv, if_pos hends, ht]
    rw [step, if_pos (show u.enabled (.message m.bytes now) = true from rfl), hrun]
    rfl
  obtain ⟨hempty, hstatus⟩ := giCompleted_spec ht
  have hqueue : w.hnz.giInQueue = u.hnz.giInQueue :=
    congrArg (fun i : Interrogation => i.queued) hact
  rw [hqueue] at hstatus
  refine ⟨t, hstep, ?_, hempty, hstatus⟩
  rw [HNZConf.known_append]
  exact (hs.showed.trans hshowed).append_emits hafter

/-- **A GI that is answered in full.**  The station shows every configured TS, each under a label that
is not empty, in a series of TSCG, the last TS at the very end, among any other events and while the
timer does not run out.  Then a running GI ends with the last TSCG and not before; every point of the
series that has a label has been shown with the state that the station gave it, and no TS has been
made invalid. -/
theorem answered_of_run {evs : List Event} {answer : List Tscg} {final : Tscg}
    (hread : s.hnz.conf.readable s.hnz.remoteAddress = true)
    (hempty : s.hnz.giAddressesReceived = [])
    (hall : ∀ point ∈ s.configuredTS, ∃ pt ∈ s.hnz.conf.known (answer ++ [final]),
      pt.address = point.1)
    (hbefore : s.Lacks (s.hnz.conf.known answer))
    (hlast : (s.hnz.conf.known [final]).getLast?.map Point.address = some s.hnz.conf.lastTSAddr)
    (h : Run (Under InTime Step) s evs u)
    (hevs : evs.filterMap Event.tscg? = answer.map Tscg.bytes)
    (hdelayed : u.interrogation.Anchored) (now : Instant) :
    (s.hnz.giStatus.Running → u.hnz.giStatus.Running) ∧
      ∃ t, u.step (.message final.bytes now) = some t ∧
        s.hnz.Showed s.hnz.conf (s.hnz.conf.known (answer ++ [final])) t.hnz ∧
        t.hnz.giAddressesReceived = [] ∧
        (t.hnz.giStatus = .finished ∨ u.hnz.giInQueue = true ∧ t.hnz.giStatus = .started) := by
  have hstart : s.Gathered [] s := ⟨⟨rfl, rfl⟩, hempty, .of_emits (.of_eq rfl), id⟩
  have hu : s.Gathered answer u := hstart.along h hevs hbefore
  exact ⟨hu.running, hu.last hread hdelayed hall hlast now⟩

end System

/-! ## Two TS -/

namespace Plugin

open Sample

/-- The TSCG of TS 100, whose state is 0. -/
def firstAnswer : Tscg := ⟨10, fun _ => (false, false)⟩

/-- The TSCG of TS 511, whose state is 1. -/
def lastAnswer : Tscg := ⟨51, fun i => (i == 1, false)⟩

/-- What happens before the last TSCG. -/
def answering : List Event := [.currentTime 0, .message firstAnswer.bytes 0, .checkTimer .A 0]

set_option maxRecDepth 8000 in
/-- Both TS are shown as the station wrote them, and the GI is finished. -/
theorem answered_surveying :
    ∃ pl c s u t, exec step {} surveying = some pl ∧ pl.connection = some c ∧
      System.step ⟨pl.hnz, c⟩ asking = some s ∧ s.hnz.giStatus.Running ∧
      exec System.step s answering = some u ∧ u.step (.message lastAnswer.bytes 0) = some t ∧
      s.hnz.Showed s.hnz.conf [⟨100, 0, false⟩, ⟨511, 1, false⟩] t.hnz ∧
      t.hnz.giStatus = .finished := by
  let pl : Plugin := (exec step {} surveying).get (by decide +kernel)
  let c : HNZConnection := pl.connection.get (by decide +kernel)
  let s : System := (System.step ⟨pl.hnz, c⟩ asking).get (by decide +kernel)
  let u : System := (exec System.step s answering).get (by decide +kernel)
  have hu : exec System.step s answering = some u := (Option.some_get _).symm
  have hrun : Run (Under System.InTime System.Step) s answering u := by
    have hno : ∀ ev ∈ answering, ∀ now, ev ≠ .checkGI now := by simp [answering]
    exact ((run_det_iff.mpr hu).under hno).mono fun h => ⟨fun now hev => absurd hev (h.1 now), h.2⟩
  have hevs : answering.filterMap Event.tscg? = [firstAnswer].map Tscg.bytes := by decide +kernel
  have hbefore : s.Lacks (s.hnz.conf.known [firstAnswer]) := by
    unfold System.Lacks
    decide +kernel
  have hlast : (s.hnz.conf.known [lastAnswer]).getLast?.map Point.address =
      some s.hnz.conf.lastTSAddr := by decide +kernel
  have hknown : s.hnz.conf.known ([firstAnswer] ++ [lastAnswer]) =
      [⟨100, 0, false⟩, ⟨511, 1, false⟩] := by decide +kernel
  have hqueue : u.hnz.giInQueue = false := by decide +kernel
  have hdelayed : u.interrogation.Anchored := by
    have hnone : u.interrogation.queued = false := by decide +kernel
    intro h
    rw [hnone] at h
    cases h
  obtain ⟨-, t, ht, hshowed, -, hstatus⟩ := System.answered_of_run (by decide +kernel)
    (by decide +kernel) (by decide +kernel) hbefore hlast hrun hevs hdelayed 0
  rw [hknown] at hshowed
  refine ⟨pl, c, s, u, t, (Option.some_get _).symm, (Option.some_get _).symm,
    (Option.some_get _).symm, by decide +kernel, hu, ht, hshowed, hstatus.resolve_right ?_⟩
  simp [hqueue]

end Plugin

end Hnz
