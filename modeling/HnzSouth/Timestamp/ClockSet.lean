import HnzSouth.Arbitration.Plugin

/-!
# Timestamp/ClockSet — a time stamp needs a clock

The section of the day of a path is set by the time message it gets when it is fully connected, so
that a TSCE received before should have no time stamp.  The handler looks at the active path, which
is always fully connected (`activeInputConnected_of_reachable`): no TSCE is without time stamp.
-/

namespace Hnz

open Machinery

/-! ## The reading of a TSCE -/

/-- The time stamp of the reading of a TSCE. -/
theorem get?_do_ts {params : ReadingParameters} (hcode : params.msgCode = "TS")
    (hcg : params.cg = false) :
    (prepareReading params).get? "do_ts" =
      if params.emptyTimestamp then none else some (.int (int64 params.ts)) := by
  unfold Reading.get? prepareReading
  cases hq : params.qualityUpdate <;> cases he : params.emptyTimestamp <;>
    simp [hcode, hcg, List.lookup_cons]

namespace System

variable [Platform] {s t u v : System} {p : PathId} {data : List UInt8} {now : Instant}
  {readings : List Reading} {r : Reading}

/-- **The reading of a TSCE** is stamped with its hundredths of a second, unless the active path has
only its input connected. -/
theorem get?_do_ts_of_handleTSCE (h : s.handleTSCE data now = .ok (readings, t)) (hr : r ∈ readings) :
    ∃ b₃ b₄, data[3]? = some b₃ ∧ data[4]? = some b₄ ∧
      r.get? "do_ts" = if s.activeInputConnected then none else
        some (.int (int64 (s.eventTimestamp (b₃.toNat <<< 8 ||| b₄.toNat) now))) := by
  unfold handleTSCE at h
  simp only [bind_eq_ok] at h
  obtain ⟨adO, -, second, -, h⟩ := h
  split_ifs at h with hlabel htrigger
  · cases h; cases hr
  all_goals
    simp only [bind_eq_ok, readByte_eq_ok] at h
    obtain ⟨b₃, h₃, b₄, h₄, h⟩ := h
    cases h
    rw [List.mem_singleton] at hr
    exact ⟨b₃, b₄, h₃, h₄, hr ▸ get?_do_ts rfl rfl⟩

/-- **The active path of a reachable state is fully connected.** -/
theorem activeInputConnected_of_reachable (h : s.Reachable) : s.activeInputConnected = false := by
  unfold activeInputConnected
  cases hp : s.connection.activePath with
  | none => rfl
  | some p => simp [(h.active hp).1]

/-! ## Extraction -/

/-- A path that extracts a message is live. -/
theorem Reachable.live_of_extracted (h : s.Reachable) {messages : List (List UInt8)}
    (hf : s.analyzeFrame p data now = .ok (messages, t)) (hne : messages ≠ []) :
    (s.path p).protocolState.live := by
  have hcases := analyzeFrame_cases hf
  cases hk : s.frameKind p data with
  | none => rw [hk] at hcases; exact absurd hcases.1 hne
  | some kind =>
    cases kind with
    | ua => rw [hk] at hcases; exact absurd hcases.1 hne
    | sarm => rw [hk] at hcases; exact absurd hcases.1 hne
    | rr => rw [hk] at hcases; exact absurd hcases.2.2.1 hne
    | info type =>
      rw [hk] at hcases
      obtain ⟨-, hnil, -⟩ | ⟨-, u, extracted, ok, l, hu, -, rfl, -⟩ :=
        receivedINFO_cases hcases.1 hcases.2.2
      · exact absurd hnil hne
      · refine h.live ?_
        by_contra hp
        unfold extract at hu
        rw [if_neg hp] at hu
        cases hu
        exact hne (ite_self _)

/-- The frame is an event of the connection. -/
theorem Reachable.of_analyzeFrame (h : s.Reachable) {messages : List (List UInt8)}
    (hf : s.analyzeFrame p data now = .ok (messages, t)) (hne : messages ≠ []) : t.Reachable := by
  refine Reachable.step (s := s) h (show System.step s (.frame p data now) = some t from ?_)
  obtain ⟨a, -, ha⟩ := h.represents
  have hlive := h.live_of_extracted hf hne
  have hp : s.configured p = true := by
    refine ha.configured p fun hrest => ?_
    rw [ha.protocolState, hrest] at hlive
    exact absurd hlive (by decide)
  have hen : s.enabled (.frame p data now) := by simpa [enabled, Event.target] using hp
  rw [System.step, if_pos hen, run, hf]
  rfl

/-- The reading has a time stamp exactly if the path it came by is fully connected. -/
def StampedFor (st : ProtocolState) (r : Reading) : Prop :=
  (st = .inputConnected → r.get? "do_ts" = none) ∧ (st = .connected → r.get? "do_ts" ≠ none)

/-- **Every TSCE is stamped**, so that the stamp is the right one for a path that is fully connected,
and for no other. -/
theorem stampedFor_iff {messages : List (List UInt8)} {m : List UInt8} {evs : List Event}
    {later : Instant} (h : s.Reachable) (hf : s.analyzeFrame p data now = .ok (messages, t))
    (hm : m ∈ messages) (hrun : Run (Under (fun x ev => x.fires ev = none) Step) t evs u)
    (hh : u.handleTSCE m later = .ok (readings, v)) (hr : r ∈ readings) :
    StampedFor (s.path p).protocolState r ↔ (s.path p).protocolState = .connected := by
  have hne : messages ≠ [] := List.ne_nil_of_mem hm
  have hu : u.Reachable :=
    hrun.invariant (I := Reachable) (fun hx hst => hx.step hst.2) (h.of_analyzeFrame hf hne)
  obtain ⟨b₃, b₄, -, -, hts⟩ := get?_do_ts_of_handleTSCE hh hr
  rw [activeInputConnected_of_reachable hu] at hts
  have hsome : r.get? "do_ts" ≠ none := by simp [hts]
  obtain hin | hconn := h.live_of_extracted hf hne
  · simp [StampedFor, hin, hsome]
  · simp [StampedFor, hconn, hsome]

end System

/-! ## Before the time message, and after it -/

namespace System

open Sample

/-- A TSCE of the address 511. -/
def eventFrame : List UInt8 := [0x05, 0x00, 0x0B, 0x33, 0x28, 0x1D, 0x4C, 0xC0, 0xDE]

set_option maxRecDepth 8000 in
/-- A path that is fully connected stamps its TSCE. -/
theorem stampedFor_connected :
    ∃ s t v : System, ∃ m r, s.Reachable ∧ s.analyzeFrame .A eventFrame 0 = .ok ([m], t) ∧
      t.handleTSCE m 0 = .ok ([r], v) ∧ StampedFor (s.path .A).protocolState r := by
  let calls := Plugin.listening ++ [.event (.protocol .A .receivedUa 0)]
  let pl : Plugin := (exec Plugin.step {} calls).get rfl
  let s : System := ⟨pl.hnz, pl.connection.get rfl⟩
  have hs : s.Reachable := ⟨rfl, calls, pl, run_det_iff.mpr rfl, rfl, rfl⟩
  have hf : s.analyzeFrame .A eventFrame 0 = .ok ([[0x0B, 0x33, 0x28, 0x1D, 0x4C]], _) := rfl
  refine ⟨s, _, _, _, _, hs, hf, rfl, ?_⟩
  exact (stampedFor_iff hs hf (List.mem_singleton_self _) (.nil _) rfl
    (List.mem_singleton_self _)).mpr rfl

set_option maxRecDepth 8000 in
/-- A path that has only its input connected stamps its TSCE too. -/
theorem not_stampedFor_inputConnected :
    ∃ s t v : System, ∃ m r, s.Reachable ∧ (s.path .A).protocolState = .inputConnected ∧
      s.analyzeFrame .A eventFrame 0 = .ok ([m], t) ∧ t.handleTSCE m 0 = .ok ([r], v) ∧
      ¬StampedFor (s.path .A).protocolState r := by
  let pl : Plugin := (exec Plugin.step {} Plugin.listening).get rfl
  let s : System := ⟨pl.hnz, pl.connection.get rfl⟩
  have hs : s.Reachable := ⟨rfl, Plugin.listening, pl, run_det_iff.mpr rfl, rfl, rfl⟩
  refine ⟨s, _, _, _, _, hs, rfl, rfl, rfl, fun h => ?_⟩
  exact absurd (h.1 rfl) (by decide)

end System

end Hnz
