import HnzSouth.Interrogation.Emissions

/-!
# Interrogation/Ends — a GI ends once, after it began

A GI begins with the first request that is sent for it, and ends when it is completed.  The timer
only ends a GI that counts; a TSCG ends one whenever it brings the last TS, asked for or not.  If no
TSCG does so while nothing counts, every end has its beginning (`ends_of_run`).
-/

namespace Hnz

open Machinery

/-! ## Beginnings and ends -/

/-- **A moment in the history of the interrogation.** -/
inductive Mark
  | begun
  | ended
  deriving DecidableEq

/-- **Every end directly follows a beginning**, its own. -/
def Mark.Paired (history : List Mark) : Prop :=
  ∀ before after, history = before ++ .ended :: after → before.getLast? = some .begun

namespace Mark

variable {history : List Mark}

theorem paired_nil : Paired [] := by
  intro before after h
  simp at h

theorem Paired.begin (h : Paired history) : Paired (history ++ [.begun]) := by
  intro before after heq
  obtain ⟨tail, rfl, htail⟩ | ⟨tail, rfl, htail⟩ := List.append_eq_append_iff.mp heq
  · rcases tail with - | ⟨m, tail⟩ <;> simp at htail
  · rcases tail with - | ⟨m, tail⟩
    · simp at htail
    · obtain ⟨rfl, -⟩ := List.cons_eq_cons.mp htail
      exact h before tail rfl

theorem Paired.end (h : Paired history) (hlast : history.getLast? = some .begun) :
    Paired (history ++ [.ended]) := by
  intro before after heq
  obtain ⟨tail, rfl, htail⟩ | ⟨tail, rfl, htail⟩ := List.append_eq_append_iff.mp heq
  · rcases tail with - | ⟨m, tail⟩
    · simpa using hlast
    · simp at htail
  · rcases tail with - | ⟨m, tail⟩
    · simpa using hlast
    · obtain ⟨rfl, -⟩ := List.cons_eq_cons.mp htail
      exact h before tail rfl

end Mark

/-- **The history of a GI that counts ends with its beginning**, and it runs. -/
structure Gi.Dated (g : Gi) (history : List Mark) : Prop where
  paired : Mark.Paired history
  begun : 0 < g.repeats → history.getLast? = some .begun
  running : 0 < g.repeats → g.status.Running

theorem Gi.Dated.lose {g : Gi} {history : List Mark} (h : g.Dated history) : g.lose.Dated history :=
  ⟨h.paired, fun h => absurd h (lt_irrefl 0), fun h => absurd h (lt_irrefl 0)⟩

namespace Interrogation

variable {i : Interrogation} {as bs : List Act} {history : List Mark}

/-- What an act means in the history. -/
def mark (i : Interrogation) : Act → List Mark
  | .complete _ => [.ended]
  | .request _ sent => if sent = true ∧ i.repeats = 0 then [.begun] else []
  | .arbitrate _ _ | .queue | .receive _ | .forget => []

/-- What several mean. -/
def marks (i : Interrogation) : List Act → List Mark
  | [] => []
  | a :: as => i.mark a ++ (i.act a).marks as

/-- **Each act that ends a GI finds one that counts.** -/
def Covers (i : Interrogation) : List Act → Prop
  | [] => True
  | a :: as => (∀ b, a = .complete b → 0 < i.repeats) ∧ (i.act a).Covers as

/-- Acts that end nothing. -/
theorem covers_of_none (h : ∀ a ∈ as, ∀ b, a ≠ .complete b) : i.Covers as := by
  induction as generalizing i with
  | nil => trivial
  | cons a as ih =>
    obtain ⟨ha, has⟩ := List.forall_mem_cons.mp h
    exact ⟨fun b hb => absurd hb (ha b), ih has⟩

/-- The act lemma. -/
theorem dated_act {a : Act} (h : i.toGi.Dated history) (ha : ∀ b, a = .complete b → 0 < i.repeats) :
    (i.act a).toGi.Dated (history ++ i.mark a) := by
  cases a with
  | arbitrate lost active =>
    rw [mark, List.append_nil, act]
    split_ifs
    · exact h.lose
    · exact h
  | queue => rw [mark, List.append_nil]; exact ⟨h.paired, h.begun, h.running⟩
  | receive addresses =>
    rw [mark, List.append_nil]
    refine ⟨h.paired, h.begun, fun hpos => ?_⟩
    have hrun : i.status.Running := h.running hpos
    simp only [act]
    split_ifs
    · exact Or.inr rfl
    · exact hrun
  | forget => rw [mark, List.append_nil]; exact h
  | complete success =>
    refine ⟨h.paired.end (h.begun (ha success rfl)), ?_, ?_⟩ <;>
      exact fun hpos => absurd hpos (lt_irrefl 0)
  | request now sent =>
    rw [mark, act]
    split_ifs with hsent h0 h0
    · exact ⟨h.paired.begin, fun _ => List.getLast?_concat, fun _ => Gi.running_requested⟩
    · rw [List.append_nil]
      have hpos : 0 < i.repeats := Nat.pos_of_ne_zero fun h => h0 ⟨hsent, h⟩
      exact ⟨h.paired, fun _ => h.begun hpos, fun _ => Gi.running_requested⟩
    · exact absurd h0.1 hsent
    · rwa [List.append_nil]

theorem dated_acts (h : i.toGi.Dated history) (has : i.Covers as) :
    (i.acts as).toGi.Dated (history ++ i.marks as) := by
  induction as generalizing i history with
  | nil => rwa [marks, List.append_nil]
  | cons a as ih =>
    rw [marks, ← List.append_assoc]
    exact ih (dated_act h has.1) has.2

theorem status_act {a : Act} (ha : ∀ b, a ≠ .complete b) :
    (i.act a).status = i.status ∨ (i.act a).status.Running := by
  cases a with
  | arbitrate lost active => rw [act]; split_ifs <;> exact Or.inl rfl
  | queue | forget => exact Or.inl rfl
  | receive addresses =>
    simp only [act]
    split_ifs
    · exact Or.inr (Or.inr rfl)
    · exact Or.inl rfl
  | complete success => exact absurd rfl (ha success)
  | request now sent =>
    rw [act]
    split_ifs
    · exact Or.inr Gi.running_requested
    · exact Or.inl rfl

/-- Without an end, the status stays, or the GI runs. -/
theorem status_acts (h : ∀ a ∈ as, ∀ b, a ≠ .complete b) :
    (i.acts as).status = i.status ∨ (i.acts as).status.Running := by
  induction as generalizing i with
  | nil => exact Or.inl rfl
  | cons a as ih =>
    obtain ⟨ha, has⟩ := List.forall_mem_cons.mp h
    refine (ih (i := i.act a) has).elim (fun heq => ?_) Or.inr
    rw [acts_cons, heq]
    exact status_act ha

end Interrogation

/-! ## Events -/

namespace System

variable {s t : System} {now : Instant} {data : List UInt8} {ev : Event}

/-- **A GI is running**: it has begun, and it counts. -/
def GiRunning (s : System) : Prop := s.hnz.giStatus.Running ∧ 0 < s.connection.giRepeat

instance : DecidablePred GiRunning := fun _ => inferInstanceAs (Decidable (_ ∧ _))

variable [Platform]

/-- The event is no TSCG that would end or start to answer a GI while none counts. -/
def solicited (s : System) : Event → Bool
  | .message data _ =>
    !(data.head? == some Platform.tscgCode &&
      (s.bringsLast data || s.hnz.giStatus == .started) && s.connection.giRepeat == 0)
  | _ => true

omit [Platform] in
theorem Idle.ne_complete {time : Option Instant} {a : Act} (h : Idle time a) (b : Bool) : a ≠ .complete b := by
  rintro rfl
  exact h

/-- The event ends a GI only if it says so. -/
theorem no_end_acts (h : s.completes ev = false) : ∀ a ∈ s.acts ev, ∀ b, a ≠ .complete b := by
  cases s.kind ev with
  | ends _ _ _ hc => rw [hc] at h; cases h
  | again _ _ _ _ _ hacts has =>
    rw [hacts]
    exact List.forall_mem_cons.mpr ⟨by simp, fun a ha => (has a ha).ne_complete⟩
  | brings _ _ _ _ _ _ hacts => rw [hacts]; simp
  | idle _ _ _ has => exact fun a ha => (has a ha).ne_complete

/-- A solicited event that ends a GI finds one that counts. -/
theorem counts_of_completes (h : s.solicited ev = true) (hc : s.completes ev = true) :
    0 < s.connection.giRepeat := by
  cases ev with
  | message data now =>
    obtain ⟨hcg, hlast⟩ := completes_message.mp hc
    refine Nat.pos_of_ne_zero fun h0 => ?_
    simp [solicited, hcg, hlast, h0] at h
  | checkGI now => exact Nat.pos_of_ne_zero (completes_checkGI.mp hc).1.1
  | _ => cases hc

/-- **Solicited events cover their ends.** -/
theorem covers_acts (h : s.solicited ev = true) : s.interrogation.Covers (s.acts ev) := by
  by_cases hc : s.completes ev = true
  · have hpos : 0 < s.interrogation.repeats := counts_of_completes h hc
    cases s.kind ev with
    | ends pre as success _ hacts hpre has =>
      have hrest : ∀ i : Interrogation, i.Covers as := fun i =>
        Interrogation.covers_of_none fun a ha => (has a ha).ne_complete
      rw [hacts]
      obtain rfl | rfl := hpre
      · exact ⟨fun _ _ => hpos, hrest _⟩
      · exact ⟨nofun, fun _ _ => hpos, hrest _⟩
    | again _ _ _ hc' | brings _ _ _ _ hc' | idle hc' => rw [hc] at hc'; cases hc'
  · exact Interrogation.covers_of_none (no_end_acts (Bool.eq_false_of_not_eq_true hc))

/-- **An unsolicited TSCG that ends nothing is only noted down.** -/
theorem status_of_unsolicited (h : s.step (.message data now) = some t)
    (hcg : data.head? = some Platform.tscgCode) (hgood : s.solicited (.message data now) = true)
    (h0 : s.connection.giRepeat = 0) :
    s.completes (.message data now) = false ∧ t.hnz.giStatus = s.hnz.giStatus := by
  obtain ⟨hlast, hst⟩ : s.bringsLast data = false ∧ s.hnz.giStatus ≠ .started := by
    simpa [solicited, hcg, h0] using hgood
  refine ⟨Bool.eq_false_of_not_eq_true fun hc => ?_, ?_⟩
  · rw [completes_message, hlast] at hc
    exact absurd hc.2 (by decide)
  · have hi := interrogation_step h
    simp only [acts, messageActs, if_pos hcg, hlast, Bool.false_eq_true, if_false] at hi
    have hstatus : t.interrogation.status =
        if s.hnz.giStatus = .started then .inProgress else s.hnz.giStatus := by rw [hi]; rfl
    rwa [if_neg hst] at hstatus

/-- The status of a GI that an event does not end. -/
theorem status_of_not_completes (h : s.step ev = some t) (hc : s.completes ev = false) :
    t.hnz.giStatus = s.hnz.giStatus ∨ t.hnz.giStatus.Running := by
  have hi : t.hnz.giStatus = (s.interrogation.acts (s.acts ev)).status :=
    congrArg (fun i : Interrogation => i.status) (interrogation_step h)
  rw [hi]
  exact Interrogation.status_acts (no_end_acts hc)

end System

/-! ## The plugin -/

namespace Plugin

variable {pl pl' : Plugin} {c : HNZConnection} {history : List Mark}

variable [Platform]

/-- What a call means in the history. -/
def marks (pl : Plugin) (call : Call) (history : List Mark) : List Mark :=
  match pl.connection, call with
  | some c, .event ev =>
    history ++ (System.interrogation ⟨pl.hnz, c⟩).marks (System.acts ⟨pl.hnz, c⟩ ev)
  | _, _ => history

/-- The call is solicited, if it is an event. -/
def solicited (pl : Plugin) (call : Call) : Bool :=
  match pl.connection, call with
  | some c, .event ev => System.solicited ⟨pl.hnz, c⟩ ev
  | _, _ => true

theorem dated_step {call : Call} (h : Step pl call pl') (hgood : pl.solicited call = true)
    (hs : pl.gi.Dated history) : pl'.gi.Dated (pl.marks call history) := by
  have hcases := step_cases h
  cases call with
  | event ev =>
    obtain ⟨c, t, hc, ht, rfl⟩ := hcases
    simp only [solicited, hc] at hgood
    simp only [marks, hc]
    rw [gi_of_connection hc] at hs
    have hdated := Interrogation.dated_acts (i := System.interrogation ⟨pl.hnz, c⟩) hs
      (System.covers_acts hgood)
    rw [← System.interrogation_step ht] at hdated
    exact hdated
  | setJsonConfig conf name now =>
    obtain ⟨b, hset⟩ := hcases
    have hmarks : pl.marks (.setJsonConfig conf name now) history = history := by
      cases hc : pl.connection <;> simp [marks, hc]
    rw [hmarks, gi_setJsonConfig hset]
    split_ifs
    · exact hs.lose
    · exact hs
  | start now =>
    have hmarks : pl.marks (.start now) history = history := by
      cases hc : pl.connection <;> simp [marks, hc]
    rw [hmarks, gi_start hcases]
    exact hs
  | stop now =>
    have hmarks : pl.marks (.stop now) history = history := by
      cases hc : pl.connection <;> simp [marks, hc]
    rw [hmarks, hcases, gi_stop]
    exact hs.lose

omit [Platform] in
theorem dated_init : (gi {}).Dated [] :=
  ⟨Mark.paired_nil, fun h => absurd h (lt_irrefl 0), fun h => absurd h (lt_irrefl 0)⟩

/-- **The life of a GI**, in every run without an unsolicited TSCG.  Every end directly follows a
beginning.  Only a running GI is ended, and only its end makes the status finished or failed, or
says so, or marks a TS — but for an operation that asks for the status.  A TSCG that comes while no
GI is running changes no status. -/
theorem ends_of_run {calls : List Call}
    (h : Run (Observed marks (Under (fun pl call => pl.solicited call = true) Step))
      ({}, []) calls (pl, history)) (hc : pl.connection = some c)
    {ev : Event} {t : System} (hgood : System.solicited ⟨pl.hnz, c⟩ ev = true)
    (hstep : System.step ⟨pl.hnz, c⟩ ev = some t) :
    Mark.Paired history ∧
      (System.completes ⟨pl.hnz, c⟩ ev = true → System.GiRunning ⟨pl.hnz, c⟩) ∧
      (t.hnz.giStatus ≠ pl.hnz.giStatus → ¬t.hnz.giStatus.Running →
        System.GiRunning ⟨pl.hnz, c⟩) ∧
      ((∀ params now, ev ≠ .operation "request_connection_status" params now) →
        pl.hnz.Emits (fun r => r.EndsGi ∨ r.MarksInvalid → System.GiRunning ⟨pl.hnz, c⟩) t.hnz) ∧
      (∀ data now, ev = .message data now → data.head? = some Platform.tscgCode →
        ¬System.GiRunning ⟨pl.hnz, c⟩ → t.hnz.giStatus = pl.hnz.giStatus) := by
  have hdated : pl.gi.Dated history :=
    h.invariant (I := fun x => x.1.gi.Dated x.2)
      (fun {x _ y} hx hxy => by rw [hxy.2]; exact dated_step hxy.1.2 hxy.1.1 hx) dated_init
  rw [gi_of_connection hc] at hdated
  have hends : System.completes ⟨pl.hnz, c⟩ ev = true → System.GiRunning ⟨pl.hnz, c⟩ := by
    intro hcompletes
    have hpos := System.counts_of_completes hgood hcompletes
    exact ⟨hdated.running hpos, hpos⟩
  refine ⟨hdated.paired, hends, fun hne hstop => ?_, fun hop => ?_, ?_⟩
  · refine hends (by_contra fun hnot => ?_)
    exact (System.status_of_not_completes hstep (Bool.eq_false_of_not_eq_true hnot)).elim hne hstop
  · by_cases hcompletes : System.completes ⟨pl.hnz, c⟩ ev = true
    · obtain ⟨before, after, now, hreadings, -⟩ := System.emits_completing hstep hcompletes
      refine ⟨_, hreadings.trans (by rw [List.append_assoc, List.append_assoc]), ?_⟩
      exact fun _ _ _ => hends hcompletes
    · refine (System.emits_step hstep (Bool.eq_false_of_not_eq_true hcompletes) hop).mono ?_
      exact fun r hordinary hr => absurd hr (not_or.mpr hordinary)
  · rintro data now rfl hcg hidle
    refine (System.status_of_unsolicited hstep hcg hgood ?_).2
    by_contra hne
    have hpos : 0 < c.giRepeat := Nat.pos_of_ne_zero hne
    exact hidle ⟨hdated.running hpos, hpos⟩

end Plugin

/-! ## A GI nobody asked for -/

namespace Plugin

open Sample

set_option maxRecDepth 8000 in
/-- A GI that was asked for is ended by the last TS. -/
theorem ends_lastTscg :
    ∃ pl c t, exec step {} (losingGi.take 6) = some pl ∧ pl.connection = some c ∧
      System.step ⟨pl.hnz, c⟩ (.message lastTscg 1000000000) = some t ∧
      t.hnz.giStatus = .finished ∧ System.GiRunning ⟨pl.hnz, c⟩ := by
  let pl : Plugin := (exec step {} (losingGi.take 6)).get rfl
  let c : HNZConnection := pl.connection.get rfl
  let t : System := (System.step ⟨pl.hnz, c⟩ (.message lastTscg 1000000000)).get (by decide +kernel)
  have hrun : Run (Under (fun pl call => pl.solicited call = true) Step) {} (losingGi.take 6) pl :=
    run_under_iff.mpr rfl
  obtain ⟨history, hobserved⟩ := hrun.observe marks []
  have ht : System.step ⟨pl.hnz, c⟩ (.message lastTscg 1000000000) = some t :=
    (Option.some_get _).symm
  have hfinished : t.hnz.giStatus = .finished := by decide +kernel
  have hends := ends_of_run hobserved rfl rfl ht
  refine ⟨pl, c, t, rfl, rfl, ht, hfinished, hends.2.2.1 ?_ ?_⟩
  · rw [hfinished]; decide
  · rw [hfinished]; decide

/-- A plugin with two TS, whose path A is connected. -/
def surveying : List Call :=
  [.setJsonConfig { HNZConf.sample with
      connxStatus := "status"
      msgList := HNZConf.sample.msgList.insert "TS"
        (Std.TreeMap.empty.insert 1 ((Std.TreeMap.empty.insert 511 "TS1").insert 100 "TS0")) } "hnz" 0,
    .start 0, .event (.connect .A 0), .event (.protocol .A .receivedSarm 0),
    .event (.protocol .A .receivedUa 0)]

/-- Its RTU sends a TSCG on its own. -/
def polling : List Call :=
  surveying ++ [.event (.frame .A ([0x05, 0x00] ++ lastTscg ++ [0xC0, 0xDE]) 0)]

set_option maxRecDepth 8000 in
/-- It has the last TS: a GI is finished that never began, and the other TS is invalid. -/
theorem not_ends_polling :
    ∃ pl c t, exec step {} polling = some pl ∧ pl.connection = some c ∧
      c.activePath = some .A ∧ (c.path .A).nr = 1 ∧
      ¬System.GiRunning ⟨pl.hnz, c⟩ ∧ pl.hnz.giStatus = .idle ∧
      System.step ⟨pl.hnz, c⟩ (.message lastTscg 0) = some t ∧ t.hnz.giStatus = .finished ∧
      (∃ r ∈ t.hnz.readings.drop pl.hnz.readings.length, r.EndsGi) ∧
      ∃ r ∈ t.hnz.readings.drop pl.hnz.readings.length, r.MarksInvalid := by
  let pl : Plugin := (exec step {} polling).get (by decide +kernel)
  let c : HNZConnection := pl.connection.get (by decide +kernel)
  let t : System := (System.step ⟨pl.hnz, c⟩ (.message lastTscg 0)).get (by decide +kernel)
  refine ⟨pl, c, t, (Option.some_get _).symm, (Option.some_get _).symm, by decide +kernel,
    by decide +kernel, by decide +kernel, by decide +kernel, (Option.some_get _).symm,
    by decide +kernel, ?_, ?_⟩
  · unfold Reading.EndsGi
    decide +kernel
  · unfold Reading.MarksInvalid
    decide +kernel

end Plugin

end Hnz
