import HnzSouth.Interrogation.Emissions
import HnzSouth.Interrogation.Ends
import HnzSouth.Lifecycle.Station
import HnzSouth.Sending.Transmissions

/-!
# Interrogation/Missing — the points that a GI did not reach

At the end of a GI every configured TS that is not among the recorded addresses becomes invalid.
The record is emptied when a GI ends and before it is repeated, but not when one is requested, and a
TSCG does not record a TS whose label is empty.  If every first transmission of a request finds the
record empty, and no TSCG skips a configured TS, the record holds the TS that appeared on the wire
since then (`missing_of_run`).
-/

namespace Hnz

open Machinery

/-! ## Acts -/

namespace Interrogation

variable {i : Interrogation} {as : List Act} {time : Option Instant}

/-- Idle acts leave the record alone, and raise the count only with a request that is noted. -/
theorem acts_idle (h : ∀ a ∈ as, System.Idle time a) :
    (i.acts as).received = i.received ∧ i.notified ≤ (i.acts as).notified ∧
      ((i.acts as).notified = i.notified → 0 < (i.acts as).repeats → 0 < i.repeats) := by
  induction as generalizing i with
  | nil => exact ⟨rfl, le_rfl, fun _ h => h⟩
  | cons a as ih =>
    obtain ⟨ha, has⟩ := List.forall_mem_cons.mp h
    obtain ⟨hrec, hle, hpos⟩ := ih (i := i.act a) has
    rw [acts_cons]
    cases a with
    | arbitrate lost active =>
      refine ⟨hrec, hle, fun heq h => ?_⟩
      have h := hpos heq h
      simp only [act] at h
      split_ifs at h
      · exact absurd h (lt_irrefl 0)
      · exact h
    | queue => exact ⟨hrec, hle, hpos⟩
    | request now sent =>
      cases sent with
      | false => exact ⟨hrec, hle, hpos⟩
      | true =>
        refine ⟨hrec, (Nat.le_succ _).trans hle, fun heq => ?_⟩
        rw [heq] at hle
        exact absurd hle (Nat.not_succ_le_self _)
    | receive | forget | complete => exact ha.elim

end Interrogation

/-! ## The wire -/

/-- **The addresses on the wire** of a TSCG: sixteen from its first byte of address on. -/
def wireAddresses : List UInt8 → List Nat
  | _ :: adO :: _ => (List.range 16).map fun i => 10 * (adO.toNat + i / 8) + i % 8
  | _ => []

/-- The TSCG of an event. -/
def Event.tscg? [Platform] : Event → Option (List UInt8)
  | .message data _ => if data.head? = some Platform.tscgCode then some data else none
  | _ => none

/-- **The TS that appear** with an event, whether the configuration has them or not. -/
def Event.appearing [Platform] (ev : Event) : List Nat := ev.tscg?.elim [] wireAddresses

namespace System

variable {s t : System} {data : List UInt8} {point : Option (Nat × Reading)} {adO : UInt8} {i : Nat}

/-- One pass of the loop records the address, if it has a label. -/
theorem address_of_handleTSCGPoint (hadO : readByte data 1 = .ok adO) (hi : i < 16)
    (h : s.handleTSCGPoint data i = .ok point) :
    point.map Prod.fst = if s.hnz.conf.getLabel "TS" (10 * (adO.toNat + i / 8) + i % 8) = "" then none
      else some (10 * (adO.toNat + i / 8) + i % 8) := by
  have haddress : concatAddress (adO.toNat + i / 8) (i % 8) = 10 * (adO.toNat + i / 8) + i % 8 :=
    concatAddress_eq (by have := adO.toNat_lt; omega) (by omega)
  unfold handleTSCGPoint at h
  simp only [hadO, haddress, bind, Except.bind] at h
  split_ifs at h ⊢
  · cases h
    rfl
  · cases hv : readByte data (2 + i / 4) with
    | error => rw [hv] at h; cases h
    | ok v => rw [hv] at h; cases h; rfl

/-- **A TSCG records the TS on the wire that have a label.** -/
theorem tscgAddresses_eq {r : List Reading × System} (h : s.handleTSCG data = .ok r) :
    s.tscgAddresses data =
      (wireAddresses data).filter fun a => s.hnz.conf.getLabel "TS" a != "" := by
  unfold handleTSCG at h
  obtain ⟨points, hpoints, -⟩ := bind_eq_ok.mp h
  rw [tscgAddresses, hpoints]
  obtain ⟨code, adO, rest, rfl⟩ : ∃ code adO rest, data = code :: adO :: rest := by
    rcases data with _ | ⟨code, _ | ⟨adO, rest⟩⟩
    · cases hpoints
    · cases hpoints
    · exact ⟨code, adO, rest, rfl⟩
  have hloop : ∀ (l : List Nat) points, (∀ i ∈ l, i < 16) →
      l.mapM (s.handleTSCGPoint (code :: adO :: rest)) = .ok points →
      points.reduceOption.map Prod.fst = (l.map fun i => 10 * (adO.toNat + i / 8) + i % 8).filter
        fun a => s.hnz.conf.getLabel "TS" a != "" := by
    intro l
    induction l with
    | nil =>
      intro points _ h
      cases h
      rfl
    | cons i l ih =>
      intro points hl h
      rw [List.mapM_cons] at h
      obtain ⟨point, hpoint, h⟩ := bind_eq_ok.mp h
      obtain ⟨points, hpoints, h⟩ := bind_eq_ok.mp h
      cases h
      have haddress := address_of_handleTSCGPoint rfl (hl i (by simp)) hpoint
      have hrest := ih points (fun i hi => hl i (List.mem_cons_of_mem _ hi)) hpoints
      rw [List.map_cons]
      split_ifs at haddress with hlabel
      · obtain rfl := Option.map_eq_none_iff.mp haddress
        rw [List.filter_cons_of_neg (by simpa using hlabel)]
        exact hrest
      · obtain ⟨⟨address, reading⟩, rfl, rfl⟩ := Option.map_eq_some_iff.mp haddress
        rw [List.filter_cons_of_pos (by simpa using hlabel)]
        exact congrArg (_ :: ·) hrest
  exact hloop (List.range 16) points (fun i hi => List.mem_range.mp hi) hpoints

end System

/-! ## Events -/

namespace System

variable {s t : System} {ev : Event} {heard : List Nat} {point : Nat × String}

/-- **The record is what was heard** of the configured TS, while a GI counts. -/
def Records (heard : List Nat) (s : System) : Prop :=
  0 < s.connection.giRepeat →
    ∀ point ∈ s.configuredTS, point.1 ∈ s.hnz.giAddressesReceived ↔ point.1 ∈ heard

variable [Platform]

/-- **What was heard** since a request was last transmitted for the first time: the TS on the wire. -/
def hearing (s : System) (ev : Event) (heard : List Nat) : List Nat :=
  match s.step ev with
  | none => heard
  | some t => if Transmits giPayload s t then [] else heard ++ ev.appearing

/-- The event is a TSCG with the address of a configured TS whose label is empty. -/
def skips (s : System) (ev : Event) : Bool :=
  s.configuredTS.any fun point =>
    s.hnz.conf.getLabel "TS" point.1 == "" && decide (point.1 ∈ ev.appearing)

/-- The event transmits no first request over a record: the record is empty, or it is emptied before,
because the GI ends or is repeated; and a repetition that empties a record is transmitted. -/
def renews (s : System) (ev : Event) : Bool :=
  match s.step ev with
  | none => true
  | some t =>
    if s.completes ev then true
    else if s.repeatsGi ev then s.hnz.giAddressesReceived.isEmpty || decide (Transmits giPayload s t)
    else s.hnz.giAddressesReceived.isEmpty || !decide (Transmits giPayload s t)

/-- A TSCG that ends nothing transmits nothing. -/
theorem not_transmits_of_tscg {data : List UInt8} {now : Instant}
    (h : s.step (.message data now) = some t) (hcg : data.head? = some Platform.tscgCode)
    (hc : s.completes (.message data now) = false) : ¬Transmits giPayload s t := by
  obtain ⟨-, hrun⟩ := run_of_step h
  unfold run handleMessage at hrun
  simp only [bind_eq_ok] at hrun
  obtain ⟨type, htype, ⟨readings, u⟩, hu, hrun⟩ := hrun
  rw [head?_of_readByte htype, Option.some.injEq] at hcg
  subst hcg
  rw [dispatch_codes.1] at hu
  have hlast : (u.sendToFledge readings).lastTSReceived = false := by
    rw [lastTSReceived_of_handleTSCG hu]
    rw [completes, head?_of_readByte htype] at hc
    simpa using hc
  rw [if_neg fun h => by rw [hlast] at h; exact absurd h.2 (by decide)] at hrun
  cases hrun
  have hconn : (u.sendToFledge readings).connection = s.connection := (handleTSCG_spec hu).2.1
  intro htransmits
  obtain ⟨p, k, hb, hnew⟩ := transmits_iff.mp htransmits
  rw [transmitted_congr (congrArg HNZConnection.path hconn)] at hb
  exact hnew hb

/-- Where no configured TS is skipped, those that appear are recorded. -/
theorem mem_recorded_iff (h : s.step ev = some t) (hskip : s.skips ev = false)
    (hpoint : point ∈ s.configuredTS) : point.1 ∈ s.recorded ev ↔ point.1 ∈ ev.appearing := by
  cases ev with
  | message data now =>
    by_cases hcg : data.head? = some Platform.tscgCode
    · obtain ⟨-, hrun⟩ := run_of_step h
      unfold run handleMessage at hrun
      simp only [bind_eq_ok] at hrun
      obtain ⟨type, htype, ⟨readings, u⟩, hu, -⟩ := hrun
      rw [head?_of_readByte htype, Option.some.injEq] at hcg
      subst hcg
      rw [dispatch_codes.1] at hu
      have hwire : Event.appearing (.message data now) = wireAddresses data := by
        simp [Event.appearing, Event.tscg?, head?_of_readByte htype]
      rw [recorded, if_pos (head?_of_readByte htype), tscgAddresses_eq hu, hwire, List.mem_filter]
      refine and_iff_left_of_imp fun hmem => ?_
      rw [skips, List.any_eq_false] at hskip
      have hlabel := hskip point hpoint
      rw [hwire] at hlabel
      simpa [hmem] using hlabel
    · simp [recorded, Event.appearing, Event.tscg?, hcg]
  | _ => rfl

omit [Platform] in
theorem configuredTS_congr (h : s.hnz.SameConf t.hnz) : t.configuredTS = s.configuredTS := by
  rw [configuredTS, configuredTS, h.1, h.2]

/-- **The step lemma.** -/
theorem records_step (h : s.step ev = some t) (htraced : LinkInvariant.Holds (fun _ l => l.Traced) s)
    (hgood : s.renews ev = true) (hskip : s.skips ev = false) (hs : s.Records heard) :
    t.Records (s.hearing ev heard) := by
  have hi := interrogation_step h
  have hrec : t.hnz.giAddressesReceived = (s.interrogation.acts (s.acts ev)).received :=
    congrArg Interrogation.received hi
  have hrepeat : t.connection.giRepeat = (s.interrogation.acts (s.acts ev)).repeats :=
    congrArg (fun i : Interrogation => i.repeats) hi
  have hnotified : t.connection.giNotified = (s.interrogation.acts (s.acts ev)).notified :=
    congrArg Interrogation.notified hi
  obtain ⟨-, hsent⟩ := notified_of_step h htraced
  rw [hnotified] at hsent
  simp only [renews, h] at hgood
  simp only [hearing, h]
  intro hpos point hpoint
  rw [configuredTS_congr (sameConf_step h)] at hpoint
  have happears := mem_recorded_iff h hskip hpoint
  rw [hrepeat] at hpos
  rw [hrec]
  cases s.kind ev with
  | ends pre as success hc hacts hpre has =>
    -- The record is empty; without a request that is noted nothing counts any more.
    have hacts' : s.interrogation.acts (s.acts ev) =
        ((s.interrogation.acts pre).act (.complete success)).acts as := by
      rw [hacts, Interrogation.acts_append, Interrogation.acts_cons]
    have hbefore : (s.interrogation.acts pre).notified = s.connection.giNotified := by
      obtain rfl | rfl := hpre <;> rfl
    obtain ⟨hrec', -, hpos'⟩ := Interrogation.acts_idle
      (i := (s.interrogation.acts pre).act (.complete success)) has
    rw [hacts'] at hpos hsent ⊢
    have htransmits : Transmits giPayload s t := hsent.resolve_left fun heq =>
      absurd (hpos' (heq.trans hbefore.symm) hpos) (lt_irrefl 0)
    rw [if_pos htransmits, hrec']
    rfl
  | again now rest hev hc hr hacts has =>
    rw [hacts, Interrogation.acts_cons] at hpos hsent ⊢
    obtain ⟨hrec', -, hpos'⟩ := Interrogation.acts_idle (i := s.interrogation.act .forget) has
    rw [hrec']
    split_ifs with htransmits
    · rfl
    · have hempty : s.hnz.giAddressesReceived = [] := by
        simpa [hc, hr, htransmits] using hgood
      have hsame := hs (hpos' (hsent.resolve_right htransmits) hpos) point hpoint
      have hnone : ev.appearing = [] := by rw [hev]; rfl
      rw [hnone, List.append_nil, ← hsame, hempty]
      rfl
  | brings data now hev hcg hc hr hacts =>
    subst hev
    rw [if_neg (not_transmits_of_tscg h hcg hc), hacts, List.mem_append, ← happears]
    rw [hacts] at hpos
    rw [← hs hpos point hpoint]
    exact List.mem_append
  | idle hc hr hb has =>
    obtain ⟨hrec', -, hpos'⟩ := Interrogation.acts_idle (i := s.interrogation) has
    rw [hrec']
    split_ifs with htransmits
    · have hempty : s.hnz.giAddressesReceived = [] := by
        simpa [hc, hr, htransmits] using hgood
      rw [← hempty]
      rfl
    · have hsame := hs (hpos' (hsent.resolve_right htransmits) hpos) point hpoint
      rw [hb] at happears
      rw [List.mem_append, ← happears, ← hsame, or_iff_left List.not_mem_nil]
      rfl

/-- The end of a GI takes what was heard for received. -/
theorem mem_heard_iff (h : s.step ev = some t) (hskip : s.skips ev = false)
    (hc : s.completes ev = true) (hpos : 0 < s.connection.giRepeat) (hs : s.Records heard)
    (hpoint : point ∈ s.configuredTS) :
    point.1 ∈ s.heard ev ↔ point.1 ∈ heard ++ ev.appearing := by
  rw [List.mem_append, ← hs hpos point hpoint, ← mem_recorded_iff h hskip hpoint]
  cases ev with
  | message data now =>
    rw [recorded, if_pos (completes_message.mp hc).1]
    exact List.mem_append
  | checkGI now => exact (or_iff_left List.not_mem_nil).symm
  | _ => cases hc

omit [Platform] in
/-- The configured TS come in the order of their addresses, each once. -/
theorem configuredTS_sorted : s.configuredTS.Pairwise fun a b => a.1 < b.1 := by
  unfold configuredTS
  split
  · exact .nil
  · split
    · exact .nil
    · exact Std.TreeMap.ordered_keys_toList.imp fun h => Nat.compare_eq_lt.mp h

end System

/-! ## The plugin -/

namespace Plugin

variable {pl pl' : Plugin} {c : HNZConnection} {heard : List Nat}

variable [Platform]

/-- What was heard since a request was last transmitted for the first time. -/
def hearing (pl : Plugin) (call : Call) (heard : List Nat) : List Nat :=
  match pl.connection, call with
  | some c, .event ev => System.hearing ⟨pl.hnz, c⟩ ev heard
  | _, _ => heard

/-- **The call hides a configured TS**: its event transmits a first request over a record or skips a
TS, or new documents are refused while a GI counts and the connection stays. -/
def hides (pl : Plugin) (call : Call) : Bool :=
  match pl.connection, call with
  | some c, .event ev => !System.renews ⟨pl.hnz, c⟩ ev || System.skips ⟨pl.hnz, c⟩ ev
  | some c, .setJsonConfig conf _ _ => !pl.isRunning && !conf.isComplete && c.giRepeat != 0
  | _, _ => false

omit [Platform] in
/-- Nothing counts in a new connection. -/
theorem durable_idle : Durable fun s => s.connection.giRepeat = 0 where
  hnz _ h := h
  schedule _ h := h
  create hnz _ now := (System.create_fresh hnz now).1.giRepeat

/-- A call that is no event, while a GI counts, leaves what the record is about. -/
theorem sameRecord_of_call {call : Call} (h : Step pl call pl') (hcall : ∀ ev, call ≠ .event ev)
    (hgood : pl.hides call = false) (hc : pl'.connection = some c) (hpos : 0 < c.giRepeat) :
    ∃ d, pl.connection = some d ∧ d.giRepeat = c.giRepeat ∧ pl.hnz.SameConf pl'.hnz ∧
      pl'.hnz.giAddressesReceived = pl.hnz.giAddressesReceived := by
  have hnew : ¬InConnection (fun s => s.connection.giRepeat = 0) pl' := fun hidle =>
    absurd (hidle c hc) hpos.ne'
  have hcases := step_cases h
  cases call with
  | event ev => exact absurd rfl (hcall ev)
  | setJsonConfig conf name now =>
    obtain ⟨b, hset⟩ := hcases
    refine absurd ?_ hnew
    obtain ⟨q, hq, ⟨hconf, -, hconn, -⟩ | ⟨-, hnz, r, -, -, hconn, hr⟩⟩ := setJsonConfig_cases hset
    · -- The documents are refused: the connection stays where the plugin does not run.
      intro d hd
      rw [hconn, hq] at hd
      split_ifs at hd with hrunning
      · cases hd
      · simpa [hides, hd, hrunning, hconf] using hgood
    · have hidle : InConnection (fun s => s.connection.giRepeat = 0) r := by
        intro d hd
        obtain rfl := Option.some.inj (hconn.symm.trans hd)
        exact durable_idle.create hnz r.hnz now
      obtain rfl | hr := hr
      · exact hidle
      · exact durable_idle.start hr hidle
  | start now =>
    obtain ⟨hhnz, hconn⟩ | ⟨d, readings, hd, hhnz, hconn⟩ := start_eq hcases
    · exact ⟨c, hconn ▸ hc, rfl, by rw [hhnz]; exact ⟨rfl, rfl⟩, by rw [hhnz]⟩
    · obtain rfl := Option.some.inj (hconn.symm.trans hc)
      exact ⟨d, hd, rfl, by rw [hhnz]; exact ⟨rfl, rfl⟩, by rw [hhnz]⟩
  | stop now =>
    rw [hcases] at hc
    cases hc

theorem records_step {call : Call} {calls : List Call} (hrun : Run Step {} calls pl)
    (h : Step pl call pl') (hgood : pl.hides call = false)
    (hs : pl.InConnection (System.Records heard)) :
    pl'.InConnection (System.Records (pl.hearing call heard)) := by
  by_cases hev : ∃ ev, call = .event ev
  · obtain ⟨ev, rfl⟩ := hev
    obtain ⟨c, t, hc, ht, rfl⟩ := step_cases h
    simp only [hides, hc, Bool.or_eq_false_iff, Bool.not_eq_false'] at hgood
    simp only [hearing, hc]
    intro d hd
    obtain rfl : t.connection = d := Option.some.inj hd
    exact System.records_step ht (linkInvariant_traced.plugin_always hrun hc) hgood.1 hgood.2 (hs c hc)
  · have hsame : pl.hearing call heard = heard := by
      unfold hearing
      split
      · exact absurd ⟨_, rfl⟩ hev
      · rfl
    rw [hsame]
    intro c hc hpos point hpoint
    obtain ⟨d, hd, hrepeat, hconf, hreceived⟩ :=
      sameRecord_of_call h (fun ev heq => hev ⟨ev, heq⟩) hgood hc hpos
    rw [System.configuredTS_congr (s := ⟨pl.hnz, d⟩) hconf] at hpoint
    exact hreceived ▸ hs d hd (hrepeat ▸ hpos) point hpoint

/-- **The points that a GI did not reach.**  When a running GI ends, one invalid reading is emitted,
in the order of the addresses, for each configured TS that did not appear on the wire since a GI
request was last transmitted for the first time, and none for another TS. -/
theorem missing_of_run {calls : List Call}
    (h : Run (Observed hearing (Under (fun pl call => pl.hides call = false) Step))
      ({}, []) calls (pl, heard)) (hc : pl.connection = some c) {ev : Event} {t : System}
    (hgood : pl.hides (.event ev) = false) (hstep : System.step ⟨pl.hnz, c⟩ ev = some t)
    (hends : System.completes ⟨pl.hnz, c⟩ ev = true) (hrunning : System.GiRunning ⟨pl.hnz, c⟩) :
    ((System.configuredTS ⟨pl.hnz, c⟩).Pairwise fun a b => a.1 < b.1) ∧
      ∃ before after now,
        t.hnz.readings = pl.hnz.readings ++ before ++
            ((System.configuredTS ⟨pl.hnz, c⟩).filter fun point =>
              point.1 ∉ heard ++ ev.appearing).map (System.invalidTS now ⟨pl.hnz, c⟩) ++ after ∧
          (∀ r ∈ before, ¬r.MarksInvalid) ∧ ∀ r ∈ after, ¬r.MarksInvalid := by
  refine ⟨System.configuredTS_sorted, ?_⟩
  have hinv := h.invariant (I := fun x => (∃ calls, Run Step {} calls x.1) ∧
      x.1.InConnection (System.Records x.2))
    (fun {x call y} ⟨⟨calls, hrun⟩, hs⟩ ⟨⟨hgood, hst⟩, hobs⟩ =>
      ⟨⟨_, hrun.snoc hst⟩, by rw [hobs]; exact records_step hrun hst hgood hs⟩)
    ⟨⟨[], .nil _⟩, fun c hc => by cases hc⟩
  obtain ⟨before, after, now, hreadings, hordinary, hafter⟩ := System.emits_completing hstep hends
  refine ⟨before, after, now, ?_, fun r hr => (hordinary r hr).2, hafter⟩
  have hskip : System.skips ⟨pl.hnz, c⟩ ev = false := by
    simp only [hides, hc, Bool.or_eq_false_iff] at hgood
    exact hgood.2
  rw [hreadings, System.missingReadings]
  congr 3
  refine List.filter_congr fun point hpoint => ?_
  exact decide_eq_decide.mpr (not_congr
    (System.mem_heard_iff hstep hskip hends hrunning.2 (hinv.2 c hc) hpoint))

end Plugin

/-! ## A point that is hidden -/

namespace Plugin

open Sample

/-- The GI that the north service asks for. -/
def asking : Event := .operation "north_status" [("status", "init_socket_finished")] 0

/-- A TSCG with TS 100. -/
def firstTscg : List UInt8 := [0x16, 0x0A, 0x00, 0x00, 0x00, 0x00]

set_option maxRecDepth 8000 in
/-- Only the last TS answers: the other one becomes invalid. -/
theorem missing_surveying :
    ∃ pl c t before after now, exec step {} (surveying ++ [.event asking]) = some pl ∧
      pl.connection = some c ∧ System.step ⟨pl.hnz, c⟩ (.message lastTscg 0) = some t ∧
      t.hnz.readings = pl.hnz.readings ++ before ++
        [System.invalidTS now ⟨pl.hnz, c⟩ (100, "TS0")] ++ after ∧
      (∀ r ∈ before, ¬r.MarksInvalid) ∧ ∀ r ∈ after, ¬r.MarksInvalid := by
  let pl₀ : Plugin := (exec (fun pl call => if pl.hides call = false then step pl call else none)
    {} surveying).get (by decide +kernel)
  let c₀ : HNZConnection := pl₀.connection.get (by decide +kernel)
  let u : System := (System.step ⟨pl₀.hnz, c₀⟩ asking).get (by decide +kernel)
  let pl : Plugin := { pl₀ with hnz := u.hnz, connection := some u.connection }
  let t : System := (System.step ⟨pl.hnz, u.connection⟩ (.message lastTscg 0)).get (by decide +kernel)
  have hc₀ : pl₀.connection = some c₀ := (Option.some_get _).symm
  have hu : System.step ⟨pl₀.hnz, c₀⟩ asking = some u := (Option.some_get _).symm
  have ht : System.step ⟨pl.hnz, u.connection⟩ (.message lastTscg 0) = some t :=
    (Option.some_get _).symm
  have hrun₀ : Run (Under (fun pl call => pl.hides call = false) Step) {} surveying pl₀ :=
    run_under_iff.mpr (Option.some_get _).symm
  have hstep : Step pl₀ (.event asking) pl := step_event hu hc₀
  have hgood : pl₀.hides (.event asking) = false := by decide +kernel
  -- The request is a first transmission: nothing was heard since.
  obtain ⟨heard₀, hobserved₀⟩ := hrun₀.observe hearing []
  have hheard : [] = pl₀.hearing (.event asking) heard₀ := by
    simp only [hearing, hc₀, System.hearing, hu]
    exact (if_pos (by decide +kernel)).symm
  have hlast : Observed hearing (Under (fun pl call => pl.hides call = false) Step)
      (pl₀, heard₀) (.event asking) (pl, []) := ⟨⟨hgood, hstep⟩, hheard⟩
  have hobserved := hobserved₀.snoc hlast
  obtain ⟨-, before, after, now, hreadings, hbefore, hafter⟩ :=
    missing_of_run hobserved rfl (by decide +kernel) ht (by decide +kernel) (by decide +kernel)
  have hmissing : (System.configuredTS ⟨pl.hnz, u.connection⟩).filter (fun point =>
      point.1 ∉ [] ++ Event.appearing (.message lastTscg 0)) = [(100, "TS0")] := by
    decide +kernel
  refine ⟨pl, u.connection, t, before, after, now, ?_, rfl, ht, ?_, hbefore, hafter⟩
  · exact run_det_iff.mp (hrun₀.of_under.snoc hstep)
  · rw [hreadings, hmissing]
    rfl

/-- TS 100 is heard before a GI is asked for. -/
def concealing : List Call :=
  surveying ++ [.event (.frame .A ([0x05, 0x00] ++ firstTscg ++ [0xC0, 0xDE]) 0),
    .event (.message firstTscg 0)]

set_option maxRecDepth 8000 in
/-- The GI is asked for and transmitted, and ends without TS 100, which does not become invalid. -/
theorem not_missing_concealing :
    ∃ pl c u t, exec step {} concealing = some pl ∧ pl.connection = some c ∧
      System.step ⟨pl.hnz, c⟩ asking = some u ∧ System.Transmits System.giPayload ⟨pl.hnz, c⟩ u ∧
      u.GiRunning ∧ u.completes (.message lastTscg 0) = true ∧
      System.step u (.message lastTscg 0) = some t ∧
      (100, "TS0") ∈ u.configuredTS ∧ 100 ∉ Event.appearing (.message lastTscg 0) ∧
      ∀ r ∈ t.hnz.readings.drop u.hnz.readings.length, ¬r.MarksInvalid := by
  let pl : Plugin := (exec step {} concealing).get (by decide +kernel)
  let c : HNZConnection := pl.connection.get (by decide +kernel)
  let u : System := (System.step ⟨pl.hnz, c⟩ asking).get (by decide +kernel)
  let t : System := (System.step u (.message lastTscg 0)).get (by decide +kernel)
  refine ⟨pl, c, u, t, (Option.some_get _).symm, (Option.some_get _).symm, (Option.some_get _).symm,
    by decide +kernel, by decide +kernel, by decide +kernel, (Option.some_get _).symm,
    by decide +kernel, by decide +kernel, ?_⟩
  unfold Reading.MarksInvalid
  decide +kernel

end Plugin

end Hnz
