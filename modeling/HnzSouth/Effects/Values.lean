import HnzSouth.Effects.Publication
import HnzSouth.Interrogation.Missing
import HnzSouth.Lifecycle.Station
import HnzSouth.Reception.Decoding

/-!
# Effects/Values — the values that Fledge is given

A value is given to Fledge when a message brings it, and at no other time: whatever else the plugin
does, the readings that it sends have no value of a measurement or of a TS.  So over any run the
values are those of the messages, in their order, each once (`values_of_run`).
-/

namespace Hnz

open Machinery

/-! ## Values -/

/-- **The values** that Fledge was given. -/
def HNZ.values (h : HNZ) : List Reading := h.readings.filter Reading.givesValue

/-- A reading about a command gives the value of no point. -/
theorem givesValue_of_command {params : ReadingParameters}
    (h : params.msgCode = "TC" ∨ params.msgCode = "TVC") :
    (prepareReading params).givesValue = false := by
  have htype : (prepareReading params).get? "do_type" = some (.str params.msgCode) := rfl
  rw [Reading.givesValue, htype]
  rcases h with h | h <;> simp [h]

/-- The reading of a point does give it. -/
theorem HNZConf.Shows.givesValue {conf : HNZConf} {msgCode : String} {r : Reading} {pt : Point}
    (h : conf.Shows msgCode r pt) (hcode : msgCode = "TM" ∨ msgCode = "TS") :
    r.givesValue = true := by
  rw [Reading.givesValue, h.type, h.value]
  rcases hcode with rfl | rfl <;> rfl

namespace HNZ

variable {h h' : HNZ}

theorem values_of_emits (a : h.Emits (fun r => r.givesValue = false) h') :
    h'.values = h.values := by
  obtain ⟨new, hreadings, hnew⟩ := a
  have hnone : new.filter Reading.givesValue = [] :=
    List.filter_eq_nil_iff.mpr fun r hr => by rw [hnew r hr]; decide
  rw [values, hreadings, List.filter_append, hnone, List.append_nil, values]

theorem values_of_quiet (a : h.Emits Reading.Quiet h') : h'.values = h.values :=
  values_of_emits (a.mono fun _ hr => hr.2)

end HNZ

/-! ## Messages that give values -/

/-- **A message of the station that gives values.** -/
inductive Telemetry
  | tm4 (base : UInt8) (vs : Fin 4 → TM4Value)
  | tm8 (base : UInt8) (vs : Fin 4 → UInt8) (invalid : Fin 4 → Bool)
  | tm16 (base : UInt8) (vs : Fin 2 → TM16Value) (invalid : Fin 4 → Bool)
  | tscg (base : UInt8) (states : Fin 16 → Bool × Bool)
  | tsce (adO : UInt8) (adB : Fin 8) (state : Bool × Bool) (time : Bool × Bool × Bool)
      (ts₁ ts₂ : UInt8)

namespace Telemetry

/-- The function codes of these messages. -/
def codes [Platform] : List UInt8 :=
  [Platform.tm4Code, Platform.tsceCode, Platform.tscgCode, Platform.tmnCode]

def bytes [Platform] : Telemetry → List UInt8
  | tm4 base vs => encodeTM4 base vs
  | tm8 base vs invalid => encodeTM8 base vs invalid
  | tm16 base vs invalid => encodeTM16 base vs invalid
  | tscg base states => encodeTSCG base states
  | tsce adO adB state time ts₁ ts₂ => encodeTSCE adO adB state time ts₁ ts₂

/-- The type of the data, in the words of the configuration. -/
def code : Telemetry → String
  | tm4 .. | tm8 .. | tm16 .. => "TM"
  | tscg .. | tsce .. => "TS"

def points : Telemetry → List Point
  | tm4 base vs => tm4Points base vs
  | tm8 base vs invalid => tm8Points base vs invalid
  | tm16 base vs invalid => tm16Points base vs invalid
  | tscg base states => tscgPoints base states
  | tsce adO adB state _ _ _ => [tscePoint adO adB state]

theorem code_eq (m : Telemetry) : m.code = "TM" ∨ m.code = "TS" := by
  cases m <;> simp [code]

end Telemetry

/-- The message of an event, where it gives values. -/
def Event.telemetry? [Platform] : Event → Option (List UInt8)
  | .message data _ => if data.head?.any (· ∈ Telemetry.codes) then some data else none
  | _ => none

namespace HNZConf

variable {conf : HNZConf} {rs rs' : List Reading} {ms ms' : List Telemetry} {m : Telemetry}

/-- What messages bring: the points that have a label, each with the type of its data. -/
def brought (conf : HNZConf) (ms : List Telemetry) : List (String × Point) :=
  ms.flatMap fun m => (m.points.filter (conf.labels m.code)).map (Prod.mk m.code)

/-- **These readings relay the messages**, one for each point, in order. -/
def Relays (conf : HNZConf) (rs : List Reading) (ms : List Telemetry) : Prop :=
  List.Forall₂ (fun r p => conf.Shows p.1 r p.2) rs (conf.brought ms)

theorem relays_singleton
    (h : List.Forall₂ (conf.Shows m.code) rs (m.points.filter (conf.labels m.code))) :
    conf.Relays rs [m] := by
  rw [Relays, brought, List.flatMap_singleton, List.forall₂_map_right_iff]
  exact h

theorem Relays.append (h : conf.Relays rs ms) (h' : conf.Relays rs' ms') :
    conf.Relays (rs ++ rs') (ms ++ ms') := by
  rw [Relays, brought, List.flatMap_append]
  exact List.rel_append h h'

/-- The same readings, beside a state. -/
theorem Reads.pair {msgCode : String} {readings : Result (List Reading)} {points : List Point}
    (h : conf.Reads msgCode readings points) (s : System) :
    conf.Reads msgCode ((readings.map (·, s)).map Prod.fst) points := by
  obtain ⟨rs, rfl, hshows⟩ := h
  exact ⟨rs, rfl, hshows⟩

/-- They all give values. -/
theorem filter_givesValue {msgCode : String} {points : List Point}
    (h : List.Forall₂ (conf.Shows msgCode) rs points)
    (hcode : msgCode = "TM" ∨ msgCode = "TS") : rs.filter Reading.givesValue = rs := by
  induction h with
  | nil => rfl
  | cons hr _ ih => rw [List.filter_cons_of_pos (hr.givesValue hcode), ih]

end HNZConf

namespace System

variable {s t u : System} {p : PathId} {now : Instant} {data : List UInt8} {ev : Event}

/-- The values among the readings that are sent. -/
theorem values_sendToFledge (readings : List Reading) :
    (s.sendToFledge readings).hnz.values = s.hnz.values ++ readings.filter Reading.givesValue :=
  List.filter_append _ _

/-- The two statuses that an operation asks for. -/
theorem values_request : (s.sendSouthMonitoringEvent true true).hnz.values = s.hnz.values := by
  by_cases hasset : s.hnz.conf.connxStatus = ""
  · rw [sendSouthMonitoringEvent_of_empty hasset]
  · rw [sendSouthMonitoringEvent_of_ne hasset rfl]
    refine HNZ.values_of_emits (emits_sendToFledge fun r hr => Reading.no_value ?_)
    rw [List.mem_singleton.mp hr]
    cases s.hnz.connStatus <;> cases s.hnz.giStatus <;> rfl

/-! ## The end of a GI -/

theorem values_giCompleted {success : Bool} (h : s.giCompleted success now = .ok t) :
    t.hnz.values = s.hnz.values := by
  obtain ⟨post, hpost, hnone⟩ := emits_giCompleted h
  refine HNZ.values_of_emits ⟨_, hpost.trans (List.append_assoc _ _ _), fun r hr => ?_⟩
  rcases List.mem_append.mp hr with hr | hr
  · obtain ⟨point, -, rfl⟩ := List.mem_map.mp hr
    exact givesValue_of_qualityUpdate rfl
  · exact (hnone r hr).2

theorem values_checkGICompleted {success : Bool} (h : s.checkGICompleted success now = .ok t) :
    t.hnz.values = s.hnz.values := by
  have hreset : s.hnz.Emits Reading.Quiet s.resetGIQueue.hnz := .of_eq rfl
  obtain ⟨ended, h⟩ | rfl | ⟨p, -, rfl⟩ := checkGICompleted_cases h
  · exact values_giCompleted h
  · exact HNZ.values_of_quiet hreset
  · exact HNZ.values_of_quiet (hreset.trans emits_sendGeneralInterrogation)

theorem values_checkGI (h : s.checkGI now = .ok t) : t.hnz.values = s.hnz.values := by
  obtain ⟨u, hu, rfl⟩ := checkGI_cases h
  refine (HNZ.values_of_quiet emits_schedule).trans ?_
  obtain rfl | hu := checkGITimeout_cases hu
  · rfl
  · exact values_checkGICompleted hu

variable [Platform]

/-! ## Messages -/

/-- The readings of the messages about commands, and of those that are nothing but tests. -/
theorem Tells.no_value {type : UInt8} {readings : List Reading} (h : s.Tells type readings)
    (hother : type ∉ Telemetry.codes) : ∀ r ∈ readings, r.givesValue = false := by
  intro r hr
  obtain ⟨params, rfl, hparams⟩ := h r hr
  exact givesValue_of_command (hparams.command hother)

/-- The messages that give measurements. -/
theorem dispatch_measurements :
    s.dispatch Platform.tm4Code data now = (s.handleTM4 data).map (·, s) ∧
      s.dispatch Platform.tmnCode data now = (s.handleTMN data).map (·, s) := by
  have h := Platform.received_nodup
  simp only [List.nodup_cons, List.mem_cons, not_or, List.not_mem_nil] at h
  obtain ⟨⟨-, -, htm4, hm₁, -⟩, ⟨-, htsce, -⟩, ⟨htscg, -⟩, ⟨hm₂, -⟩, -⟩ := h
  refine ⟨?_, ?_⟩
  · rw [dispatch, if_neg hm₁, if_pos rfl]
    cases s.handleTM4 data <;> rfl
  · rw [dispatch, if_neg hm₂, if_neg (Ne.symm htm4), if_neg (Ne.symm htsce),
      if_neg (Ne.symm htscg), if_pos rfl]
    cases s.handleTMN data <;> rfl

/-- The readings of a message that gives values. -/
theorem shows_dispatch (m : Telemetry) {type : UInt8} {readings : List Reading}
    (htype : m.bytes.head? = some type) (h : s.dispatch type m.bytes now = .ok (readings, t)) :
    List.Forall₂ (s.hnz.conf.Shows m.code) readings (m.points.filter (s.hnz.conf.labels m.code)) := by
  have hreads : s.hnz.conf.Reads m.code ((s.dispatch type m.bytes now).map Prod.fst) m.points := by
    cases m with
    | tm4 base vs =>
      obtain rfl : Platform.tm4Code = type := Option.some.inj htype
      rw [dispatch_measurements.1]
      exact (reads_handleTM4 vs).pair s
    | tm8 base vs invalid =>
      obtain rfl : Platform.tmnCode = type := Option.some.inj htype
      rw [dispatch_measurements.2]
      exact (reads_handleTM8 vs invalid).pair s
    | tm16 base vs invalid =>
      obtain rfl : Platform.tmnCode = type := Option.some.inj htype
      rw [dispatch_measurements.2]
      exact (reads_handleTM16 vs invalid).pair s
    | tscg base states =>
      obtain rfl : Platform.tscgCode = type := Option.some.inj htype
      rw [dispatch_codes.1]
      exact reads_handleTSCG states
    | tsce adO adB state time ts₁ ts₂ =>
      obtain rfl : Platform.tsceCode = type := Option.some.inj htype
      rw [dispatch_codes.2]
      exact reads_handleTSCE adB state time ts₁ ts₂ now
  obtain ⟨rs, hrs, hshows⟩ := hreads
  rw [h] at hrs
  obtain rfl : readings = rs := Except.ok.inj hrs
  exact hshows

/-- **A message** gives the values of the readings that its handler makes. -/
theorem values_handleMessage (h : s.handleMessage data now = .ok t) :
    ∃ type readings u, data.head? = some type ∧ s.dispatch type data now = .ok (readings, u) ∧
      t.hnz.values = s.hnz.values ++ readings.filter Reading.givesValue := by
  unfold handleMessage at h
  simp only [bind_eq_ok] at h
  obtain ⟨type, htype, ⟨readings, u⟩, hu, h⟩ := h
  have hsent : (u.sendToFledge readings).hnz.values =
      s.hnz.values ++ readings.filter Reading.givesValue := by
    rw [values_sendToFledge, HNZ.values_of_quiet (dispatch_cases hu).1.emits]
  refine ⟨type, readings, u, head?_of_readByte htype, hu, ?_⟩
  split_ifs at h
  · exact (values_checkGICompleted h).trans hsent
  · obtain rfl := Except.ok.inj h
    exact hsent

/-- **An event that brings no value** gives none. -/
theorem values_step_of_none (h : s.step ev = some t) (hev : ev.telemetry? = none) :
    t.hnz.values = s.hnz.values := by
  by_cases hmessage : ∃ data now, ev = .message data now
  · obtain ⟨data, now, rfl⟩ := hmessage
    obtain ⟨type, readings, u, htype, hu, hvalues⟩ := values_handleMessage (run_of_step h).2
    have hother : type ∉ Telemetry.codes := by
      intro hmem
      simp [Event.telemetry?, htype, hmem] at hev
    have hnone : readings.filter Reading.givesValue = [] :=
      List.filter_eq_nil_iff.mpr fun r hr => by rw [(dispatch_cases hu).2.no_value hother r hr]; decide
    rw [hvalues, hnone, List.append_nil]
  simp only [not_exists] at hmessage
  by_cases hop : ∃ params now, ev = .operation "request_connection_status" params now
  · obtain ⟨params, now, rfl⟩ := hop
    obtain rfl := Except.ok.inj (run_of_step h).2
    exact values_request
  simp only [not_exists] at hop
  cases hc : s.completes ev with
  | false => exact HNZ.values_of_quiet (emits_quiet h hmessage hc hop)
  | true =>
    cases ev with
    | message data now => exact absurd rfl (hmessage data now)
    | checkGI now => exact values_checkGI (run_of_step h).2
    | _ => cases hc

/-- **The event of a message of the station** gives its values, one for each point. -/
theorem values_step_of_telemetry {m : Telemetry} (h : s.step ev = some t)
    (hev : ev.telemetry? = some m.bytes) :
    ∃ new, t.hnz.values = s.hnz.values ++ new ∧ s.hnz.conf.Relays new [m] := by
  obtain ⟨now, rfl⟩ : ∃ now, ev = .message m.bytes now := by
    unfold Event.telemetry? at hev
    split at hev
    · split_ifs at hev
      exact ⟨_, by rw [Option.some.inj hev]⟩
    · cases hev
  obtain ⟨-, hrun⟩ := run_of_step h
  obtain ⟨type, readings, u, htype, hu, hvalues⟩ := values_handleMessage (by exact hrun)
  have hshows := shows_dispatch m htype hu
  rw [HNZConf.filter_givesValue hshows m.code_eq] at hvalues
  exact ⟨readings, hvalues, HNZConf.relays_singleton hshows⟩

/-- **The values of a run.**  Whatever happens, the values that Fledge is given are those of the
messages of the station: each point with a label once, in the order of the messages, under its label,
with the value and the validity that the station wrote. -/
theorem values_of_run {evs : List Event} {ms : List Telemetry} (h : Run Step s evs t)
    (hevs : evs.filterMap Event.telemetry? = ms.map Telemetry.bytes) :
    ∃ new, t.hnz.values = s.hnz.values ++ new ∧ s.hnz.conf.Relays new ms := by
  induction h generalizing ms with
  | nil =>
    obtain rfl : ms = [] := List.map_eq_nil_iff.mp hevs.symm
    exact ⟨[], (List.append_nil _).symm, List.Forall₂.nil⟩
  | @cons s u t ev evs hstep _ ih =>
    have hconf : u.hnz.conf = s.hnz.conf := (sameConf_step hstep).1
    rw [List.filterMap_cons] at hevs
    cases hev : ev.telemetry? with
    | none =>
      rw [hev] at hevs
      obtain ⟨new, hnew, hrelays⟩ := ih hevs
      rw [values_step_of_none hstep hev] at hnew
      exact ⟨new, hnew, hconf ▸ hrelays⟩
    | some data =>
      rw [hev] at hevs
      cases ms with
      | nil => cases hevs
      | cons m ms =>
        obtain ⟨rfl, hms⟩ := List.cons.inj hevs
        obtain ⟨first, hfirst, hrelays⟩ := values_step_of_telemetry hstep hev
        obtain ⟨rest, hrest, hrelays'⟩ := ih hms
        rw [hfirst, List.append_assoc] at hrest
        exact ⟨first ++ rest, hrest, hrelays.append (hconf ▸ hrelays')⟩

end System

/-! ## A measurement and a TS -/

namespace Plugin

open Sample

/-- TM 20 has the value 7, and TS 511 goes to 1. -/
def gauging : List Telemetry :=
  [.tm8 20 (fun _ => 7) fun _ => false, .tsce 51 1 (true, false) (false, false, false) 0x1D 0x4C]

/-- The two messages, around a GI and the bookkeeping. -/
def overhearing : List Event :=
  asking :: gauging.map (fun m => .message m.bytes 0) ++ [.checkTimer .A 0, .currentTime 0]

set_option maxRecDepth 8000 in
/-- Fledge is given the two values, and nothing else. -/
theorem values_surveying :
    ∃ pl c t new, exec step {} surveying = some pl ∧ pl.connection = some c ∧
      exec System.step ⟨pl.hnz, c⟩ overhearing = some t ∧
      t.hnz.values = pl.hnz.values ++ new ∧ pl.hnz.conf.Relays new gauging ∧
      pl.hnz.conf.brought gauging = [("TM", ⟨20, 7, false⟩), ("TS", ⟨511, 1, false⟩)] := by
  let pl : Plugin := (exec step {} surveying).get (by decide +kernel)
  let c : HNZConnection := pl.connection.get (by decide +kernel)
  let t : System := (exec System.step ⟨pl.hnz, c⟩ overhearing).get (by decide +kernel)
  have ht : exec System.step ⟨pl.hnz, c⟩ overhearing = some t := (Option.some_get _).symm
  have hevs : overhearing.filterMap Event.telemetry? = gauging.map Telemetry.bytes := by
    decide +kernel
  obtain ⟨new, hnew, hrelays⟩ := System.values_of_run (run_det_iff.mpr ht) hevs
  exact ⟨pl, c, t, new, (Option.some_get _).symm, (Option.some_get _).symm, ht, hnew, hrelays,
    by decide +kernel⟩

end Plugin

end Hnz
