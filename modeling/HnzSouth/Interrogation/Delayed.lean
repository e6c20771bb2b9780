import HnzSouth.Reception.Handlers

/-!
# Interrogation/Delayed — a delayed GI and the path it will take

A GI is delayed only behind an active path, and sent on the active path when the running one ends;
nobody looks whether there still is one.  It is there unless the active path was given up while the
GI waited (`anchored_of_run`).
-/

namespace Hnz

open Machinery

/-! ## Acts -/

namespace Interrogation

variable {i : Interrogation}

/-- A delayed GI has a path to go. -/
def Anchored (i : Interrogation) : Prop := i.queued = true → i.active = true

theorem Anchored.acts_inner (h : i.Anchored) {as : List Act} (has : ∀ a ∈ as, System.Inner a) :
    (i.acts as).Anchored := by
  induction as generalizing i with
  | nil => exact h
  | cons a as ih =>
    obtain ⟨ha, has⟩ := List.forall_mem_cons.mp has
    refine ih ?_ has
    cases a with
    | arbitrate => exact ha.elim
    | queue => exact ha.elim
    | receive | forget => exact h
    | complete => exact nofun
    | request now sent => cases sent <;> exact h

end Interrogation

/-! ## Events -/

namespace System

variable {s t : System} {p : PathId} {now : Instant} {data : List UInt8} {ev : Event}

variable [Platform]

/-- The event gives up the active path, and nobody takes over, while a GI waits. -/
def abandons (s : System) (ev : Event) : Bool :=
  s.hnz.giInQueue && s.losesActive ev && (s.connection.activePath.bind s.successor).isNone

/-- **The step lemma.** -/
theorem anchored_step (h : s.step ev = some t) (hkeep : s.abandons ev = false)
    (hs : s.interrogation.Anchored) : t.interrogation.Anchored := by
  rw [interrogation_step h]
  obtain ⟨hqueue, hactive⟩ | ⟨as, heq, has⟩ := s.acts_shape ev
  · rw [hqueue]
    exact fun _ => hactive
  rw [heq, Interrogation.acts_append]
  refine Interrogation.Anchored.acts_inner ?_ has
  unfold arbitration
  cases hf : s.fires ev with
  | none => exact hs
  | some pe =>
    obtain ⟨p, e⟩ := pe
    cases hmap : transitionMap (s.path p).protocolState e with
    | none => simp only [hmap]; exact hs
    | some entry =>
      obtain ⟨st, acts⟩ := entry
      simp only [hmap]
      intro hq
      have hq : s.hnz.giInQueue = true := by
        simp only [Interrogation.acts_cons, Interrogation.acts_nil, arbitrated,
          Interrogation.act] at hq
        split_ifs at hq <;> exact hq
      have hactive := hs hq
      simp only [Interrogation.acts_cons, Interrogation.acts_nil, arbitrated, Interrogation.act]
      split_ifs with hst hp
      · cases s.connection.activePath <;> rfl
      · by_contra hnone
        have hlose : s.losesActive ev = true := by simp [losesActive, hf, hmap, hst, hp]
        simp only [abandons, hq, hlose, hp, Option.bind_some, Bool.true_and] at hkeep
        rw [Option.isNone_eq_false_iff] at hkeep
        exact hnone hkeep
      · exact hactive

/-! ## The only null path -/

omit [Platform] in
theorem avoids_receivedRR (c : PathConf) (n : Int) (nr : Fin 8) (f : Bool) (l : Link) :
    Avoids .nullPath (l.receivedRR c n nr f) := by
  have hrelease : ∀ (ms : List Message) (l : Link), Avoids .nullPath (l.releaseWaiting c n ms) := by
    intro ms
    induction ms with
    | nil => exact fun l => .ok _
    | cons m ms ih =>
      intro l
      rw [Link.releaseWaiting_cons]
      exact .ite (fun _ => .ite (fun _ => ih _) fun _ => nofun) fun _ => .ok _
  unfold Link.receivedRR
  refine .ite (fun _ => .ite (fun _ => .ite (fun _ => ?_) fun _ => .ok _) fun _ => .ok _)
    fun _ => .ok _
  exact .bind (hrelease _ _) fun _ _ => .ok _

theorem avoids_extractFrom (c : PathConf) (n : Int) (fuel : Nat) (size : Int) (l : Link) :
    Avoids .nullPath (extractFrom c n fuel data size l) := by
  induction fuel generalizing data size l with
  | zero => exact nofun
  | succ fuel ih =>
    refine .bind (avoids_readByte (by nofun)) fun t _ => .bind ?_ fun ⟨len, l⟩ _ => ?_
    · unfold nextLength
      split
      · exact .ok _
      · refine .bind ?_ fun _ _ => .ite (fun _ => .ok _) fun _ => .ok _
        unfold isReceivedBULLE
        exact .ite (fun _ => .bind (avoids_readByte (by nofun)) fun _ _ => .ok _)
          fun _ => .ok _
    · refine .ite (fun _ => .ok _) fun _ => .bind ?_ fun _ _ => .ite (fun _ => .ok _) fun _ => ?_
      · unfold convertPayloadToVector
        exact .ite (fun _ => .ok _) fun _ => nofun
      · exact .bind (ih _ _) fun _ _ => .ok _

theorem avoids_analyzeFrame : Avoids .nullPath (s.analyzeFrame p data now) := by
  have hread : ∀ i, Avoids .nullPath (readByte data i) := fun i => avoids_readByte (by nofun)
  refine .bind (hread _) fun _ _ => .bind (hread _) fun type _ => .ite (fun _ => .ok _) fun _ => ?_
  refine .ite (fun _ => .ok _) fun _ => .ite (fun _ => .ok _) fun _ => .ite (fun _ => .ok _) fun _ => ?_
  refine .ite (fun _ => .ok _) fun _ => .ite (fun _ => ?_) fun _ => ?_
  · refine .bind (hread _) fun type _ => .ite (fun _ => .ok _) fun _ => ?_
    refine .bind ?_ fun ⟨messages, u⟩ _ => .bind ?_ fun _ _ => .ok _
    · exact .ite (fun _ => .bind (avoids_extractFrom _ _ _ _ _) fun _ _ => .ok _) fun _ => .ok _
    · exact .bind (avoids_receivedRR _ _ _ _ _) fun _ _ => .ite (fun _ => .ok _) fun _ => .ok _
  · exact .bind (.bind (avoids_receivedRR _ _ _ _ _) fun _ _ => .ok _) fun _ _ => .ok _

/-- **While every delayed GI has its path, no event calls a method of a null path.** -/
theorem avoids_run (h : s.interrogation.Anchored) (ev : Event) : Avoids .nullPath (s.run ev) := by
  cases ev with
  | frame p data now => exact .map avoids_analyzeFrame
  | message data now => exact avoids_handleMessage (by nofun) (by nofun) fun _ => h
  | checkGI now =>
    refine .bind ?_ fun _ _ => .ok _
    exact .ite (fun _ => avoids_checkGICompleted (by nofun) (fun _ => h) false) fun _ => .ok _
  | qualityTimer now =>
    refine .ite (fun _ => .ite (fun _ => ?_) fun _ => .ok _) fun _ => .ok _
    exact .bind (avoids_sendAllTIQualityReadings (by nofun) _) fun _ _ =>
      avoids_sendAllTIQualityReadings (by nofun) _
  | _ => exact .ok _

end System

/-! ## The plugin -/

namespace Plugin

variable {pl pl' : Plugin} {c : HNZConnection}

/-- Every delayed GI has a path, in the connection of the plugin. -/
def Anchored (pl : Plugin) : Prop :=
  ∀ c, pl.connection = some c → (System.interrogation ⟨pl.hnz, c⟩).Anchored

theorem anchored_iff :
    pl.Anchored ↔ ∀ c, pl.connection = some c → pl.hnz.giInQueue = true → c.activePath ≠ none := by
  simp only [Anchored, Interrogation.Anchored, System.interrogation, System.gi,
    Option.isSome_iff_ne_none]

theorem Anchored.start (h : pl.Anchored) {b : Bool} {now : Instant}
    (hst : pl.start b now = .ok pl') : pl'.Anchored := by
  rw [anchored_iff] at h ⊢
  intro d hd hq
  obtain ⟨h₁, h₂⟩ | ⟨c, t, hc, hs, hgi, h₁, h₂⟩ := start_cases hst
  · exact h d (h₂ ▸ hd) (h₁ ▸ hq)
  · obtain rfl : t.connection = d := Option.some.inj (h₂.symm.trans hd)
    rw [hs.activePath]
    rw [h₁] at hq
    exact h c hc ((congrArg Gi.queued hgi).symm.trans hq)

variable [Platform]

/-- The call does not take its path from a delayed GI: the active path is not given up without a
successor, and the connection is not built anew, while a GI waits. -/
def keepsDelayed (pl : Plugin) (call : Call) : Bool :=
  match pl.connection, call with
  | some c, .event ev => !System.abandons ⟨pl.hnz, c⟩ ev
  | _, .setJsonConfig conf _ _ => !(pl.hnz.giInQueue && conf.isComplete)
  | _, _ => true

theorem anchored_step {call : Call} (h : Step pl call pl') (hkeep : pl.keepsDelayed call = true)
    (hs : pl.Anchored) : pl'.Anchored := by
  have hcases := step_cases h
  cases call with
  | event ev =>
    obtain ⟨c, t, hc, ht, rfl⟩ := hcases
    intro d hd
    obtain rfl : t.connection = d := Option.some.inj hd
    exact System.anchored_step ht (by simpa [keepsDelayed, hc] using hkeep) (hs c hc)
  | setJsonConfig conf name now =>
    obtain ⟨b, hset⟩ := hcases
    have hkeep : ¬(pl.hnz.giInQueue = true ∧ conf.isComplete = true) := by
      rintro ⟨hq, hcomplete⟩
      cases hc : pl.connection <;> simp [keepsDelayed, hc, hq, hcomplete] at hkeep
    have hqueue : pl'.hnz.giInQueue = pl.hnz.giInQueue := by
      have h := congrArg Gi.queued (gi_setJsonConfig hset)
      split_ifs at h <;> exact h
    rw [anchored_iff] at hs ⊢
    intro d hd hq
    rw [hqueue] at hq
    obtain ⟨q, hq', ⟨-, -, hconn, -⟩ | ⟨hcomplete, -⟩⟩ := setJsonConfig_cases hset
    · rw [hconn, hq'] at hd
      split_ifs at hd
      · cases hd
      · exact hs d hd hq
    · exact absurd ⟨hq, hcomplete⟩ hkeep
  | start now => exact hs.start hcases
  | stop now =>
    rw [hcases]
    exact fun d hd => by cases hd

/-- **A delayed GI has its path**, in every run that takes it from none, and no event of such a state
calls a method of a null path. -/
theorem anchored_of_run {calls : List Call}
    (h : Run (Under (fun pl call => pl.keepsDelayed call = true) Step) {} calls pl)
    (hc : pl.connection = some c) :
    (pl.hnz.giInQueue = true → c.activePath ≠ none) ∧
      ∀ ev, System.run ⟨pl.hnz, c⟩ ev ≠ .error .nullPath := by
  have hs : pl.Anchored :=
    h.invariant (I := Anchored) (fun hs hst => anchored_step hst.2 hst.1 hs) (fun c hc => by cases hc)
  exact ⟨anchored_iff.mp hs c hc, System.avoids_run (hs c hc)⟩

end Plugin

/-! ## A GI left behind -/

namespace Plugin

open Sample

set_option maxRecDepth 8000 in
/-- A GI is delayed while the path is there. -/
theorem anchored_losingGi :
    ∃ pl c, exec step {} (losingGi.take 7) = some pl ∧ pl.connection = some c ∧
      pl.hnz.giInQueue = true ∧ c.activePath = some .A ∧
      ∀ ev, System.run ⟨pl.hnz, c⟩ ev ≠ .error .nullPath := by
  let pl : Plugin := (exec step {} (losingGi.take 7)).get rfl
  let c : HNZConnection := pl.connection.get rfl
  have hrun : Run (Under (fun pl call => keepsDelayed pl call = true) Step) {} (losingGi.take 7) pl :=
    run_under_iff.mpr rfl
  exact ⟨pl, c, rfl, rfl, rfl, rfl, (anchored_of_run hrun rfl).2⟩

/-- The path is lost with a GI delayed; it has its input connected again when the TSCG comes. -/
def leavingGi : List Call :=
  losingGi ++ [.event (.protocol .A .receivedSarm 4000000000),
    .event (.frame .A ([0x05, 0x00] ++ lastTscg ++ [0xC0, 0xDE]) 4000000000)]

set_option maxRecDepth 8000 in
/-- The TSCG is extracted, it ends the GI, and the delayed one is sent on a null path. -/
theorem not_anchored_leavingGi :
    ∃ pl c, exec step {} leavingGi = some pl ∧ pl.connection = some c ∧
      pl.hnz.giInQueue = true ∧ c.activePath = none ∧ (c.path .A).nr = 1 ∧
      System.canPathExtractMessage ⟨pl.hnz, c⟩ .A = true ∧
      System.run ⟨pl.hnz, c⟩ (.message lastTscg 4000000000) = .error .nullPath := by
  let pl : Plugin := (exec step {} leavingGi).get rfl
  let c : HNZConnection := pl.connection.get rfl
  have hnull : (System.run ⟨pl.hnz, c⟩ (.message lastTscg 4000000000)).map (fun _ => ()) =
      .error .nullPath := by decide +kernel
  exact ⟨pl, c, rfl, rfl, rfl, rfl, rfl, rfl, error_of_map hnull⟩

end Plugin

end Hnz
