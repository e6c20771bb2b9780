import HnzSouth.Model.SystemLemmas
import HnzSouth.Model.Step
import Mathlib.Data.List.ReduceOption

/-!
# Behaviour/Messages — what the handlers of the messages do

The switch runs one handler.  `dispatch_cases` says once for all of them how the state may change
(`Handles`) and which parameters their readings are made of (`Describes`); what a message keeps then
follows from the five constructors of `Handles`.
-/

namespace Hnz

namespace System

variable {s t : System} {now : Instant} {data : List UInt8} {readings : List Reading}

/-! ## State -/

@[simp] theorem hnz_receivedCommandACK (type : String) (addr : Int) :
    (s.receivedCommandACK type addr).hnz = s.hnz := by
  simp only [receivedCommandACK, List.foldl_cons, List.foldl_nil]
  split_ifs <;> rfl

/-- The addresses a TSCG brings are kept. -/
def records (addresses : List Nat) (s : System) : System :=
  { s with hnz.giAddressesReceived := s.hnz.giAddressesReceived ++ addresses }

/-- What a TSCG does: a GI that has started is now in progress. -/
def hears (addresses : List Nat) (s : System) : System :=
  if s.hnz.giStatus = .started then (s.records addresses).updateGiStatus .inProgress
  else s.records addresses

variable [Platform]

/-- **What a message of a type does to the state.** -/
inductive Handles (type : UInt8) (now : Instant) : System → System → Prop
  | idle (s : System) : Handles type now s s
  | modulo (s : System) (section10 : UInt8) :
    Handles type now s { s with hnz.daySection := section10 }
  | trigger (s : System) (h : type = Platform.tsceCode) : Handles type now s (s.triggerGI now)
  | hear (s : System) (addresses : List Nat) (h : type = Platform.tscgCode) :
    Handles type now s (s.hears addresses)
  | acknowledge (s : System) (code : String) (addr : Int) :
    Handles type now s (s.receivedCommandACK code addr)

/-! ## Readings -/

/-- **What a reading of a message is made of**: the label of a point that has one, at this station. -/
structure Describes (s : System) (type : UInt8) (params : ReadingParameters) : Prop where
  qualityUpdate : params.qualityUpdate = false
  stationAddr : params.stationAddr = s.hnz.remoteAddress
  label : params.label = s.hnz.conf.getLabel params.msgCode params.msgAddress
  known : s.hnz.conf.getLabel params.msgCode params.msgAddress ≠ ""
  /-- The other messages acknowledge commands. -/
  command : type ∉ [Platform.tm4Code, Platform.tsceCode, Platform.tscgCode, Platform.tmnCode] →
    params.msgCode = "TC" ∨ params.msgCode = "TVC"

/-- Readings of a message. -/
def Tells (s : System) (type : UInt8) (readings : List Reading) : Prop :=
  ∀ r ∈ readings, ∃ params, r = prepareReading params ∧ s.Describes type params

theorem tells_nil {type : UInt8} : s.Tells type [] := List.forall_mem_nil _

theorem Describes.tells {type : UInt8} {params : ReadingParameters} (h : s.Describes type params) :
    s.Tells type [prepareReading params] :=
  List.forall_mem_singleton.mpr ⟨params, rfl, h⟩

/-- The loop of a handler, one pass at a time. -/
theorem tells_mapM {α : Type} {f : Nat → Result (Option α)} {n : Nat} {type : UInt8}
    (view : α → Reading) {points : List (Option α)} (h : (List.range n).mapM f = .ok points)
    (hf : ∀ i a, f i = .ok (some a) → ∃ params, view a = prepareReading params ∧
      s.Describes type params) :
    s.Tells type (points.reduceOption.map view) := by
  intro r hr
  obtain ⟨a, ha, rfl⟩ := List.mem_map.mp hr
  obtain ⟨i, -, hi⟩ := exists_of_mem_mapM h (List.reduceOption_mem_iff.mp ha)
  exact hf i a hi

theorem tells_handleTM4 (h : s.handleTM4 data = .ok readings) :
    s.Tells Platform.tm4Code readings := by
  unfold handleTM4 at h
  simp only [bind_eq_ok] at h
  obtain ⟨points, hpoints, h⟩ := h
  cases h
  rw [← List.map_id points.reduceOption]
  refine tells_mapM id hpoints fun i r hr => ?_
  unfold handleTM4Point at hr
  simp only [bind_eq_ok] at hr
  obtain ⟨_, -, hr⟩ := hr
  split_ifs at hr with hlabel
  · cases hr
  · simp only [bind_eq_ok] at hr
    obtain ⟨_, -, hr⟩ := hr
    cases hr
    exact ⟨_, rfl, rfl, rfl, rfl, hlabel, fun h => absurd h (by simp)⟩

theorem tells_handleTMN (h : s.handleTMN data = .ok readings) :
    s.Tells Platform.tmnCode readings := by
  unfold handleTMN at h
  simp only [bind_eq_ok] at h
  obtain ⟨flags, -, points, hpoints, h⟩ := h
  cases h
  rw [← List.map_id points.reduceOption]
  refine tells_mapM id hpoints fun i r hr => ?_
  unfold handleTMNPoint at hr
  simp only [bind_eq_ok] at hr
  obtain ⟨_, -, hr⟩ := hr
  split_ifs at hr with htm8 hlabel hlabel
  any_goals cases hr
  all_goals
    simp only [bind_eq_ok] at hr
    obtain ⟨_, -, hr⟩ := hr
    cases hr
    exact ⟨_, rfl, rfl, rfl, rfl, hlabel, fun h => absurd h (by simp)⟩

omit [Platform] in
/-- **A TSCG** records the addresses of its readings. -/
theorem handleTSCG_eq_ok (h : s.handleTSCG data = .ok (readings, t)) :
    ∃ points, (List.range 16).mapM (s.handleTSCGPoint data) = .ok points ∧
      readings = points.reduceOption.map Prod.snd ∧ t = s.hears (points.reduceOption.map Prod.fst) := by
  unfold handleTSCG at h
  simp only [bind_eq_ok] at h
  obtain ⟨points, hpoints, h⟩ := h
  obtain ⟨hreadings, hstate⟩ := Prod.mk.inj (Except.ok.inj h)
  exact ⟨points, hpoints, hreadings.symm, hstate.symm⟩

theorem tells_handleTSCG {points : List (Option (Nat × Reading))}
    (h : (List.range 16).mapM (s.handleTSCGPoint data) = .ok points) :
    s.Tells Platform.tscgCode (points.reduceOption.map Prod.snd) := by
  refine tells_mapM Prod.snd h fun i point hpoint => ?_
  unfold handleTSCGPoint at hpoint
  simp only [bind_eq_ok] at hpoint
  obtain ⟨_, -, hpoint⟩ := hpoint
  split_ifs at hpoint with hlabel
  · cases hpoint
  · simp only [bind_eq_ok] at hpoint
    obtain ⟨_, -, hpoint⟩ := hpoint
    cases hpoint
    exact ⟨_, rfl, rfl, rfl, rfl, hlabel, fun h => absurd h (by simp)⟩

/-! ## The switch -/

theorem handleTSCE_cases (h : s.handleTSCE data now = .ok (readings, t)) :
    Handles Platform.tsceCode now s t ∧ s.Tells Platform.tsceCode readings := by
  unfold handleTSCE at h
  simp only [bind_eq_ok] at h
  obtain ⟨adO, -, second, -, h⟩ := h
  split_ifs at h with hlabel
  · cases h
    exact ⟨.idle s, tells_nil⟩
  all_goals
    simp only [bind_eq_ok] at h
    obtain ⟨b₃, -, b₄, -, h⟩ := h
    cases h
    have htells : ∀ params, s.Describes Platform.tsceCode params →
        s.Tells Platform.tsceCode [prepareReading params] := fun _ => Describes.tells
  · exact ⟨.trigger s rfl, htells _ ⟨rfl, rfl, rfl, hlabel, fun h => absurd h (by simp)⟩⟩
  · exact ⟨.idle s, htells _ ⟨rfl, rfl, rfl, hlabel, fun h => absurd h (by simp)⟩⟩

theorem handleATC_cases {type : UInt8} (h : s.handleATC data = .ok (readings, t)) :
    Handles type now s t ∧ s.Tells type readings := by
  unfold handleATC at h
  simp only [bind_eq_ok, hnz_receivedCommandACK] at h
  obtain ⟨adO, -, second, -, h⟩ := h
  split_ifs at h with hlabel
  all_goals cases h
  · exact ⟨.acknowledge s _ _, tells_nil⟩
  all_goals exact ⟨.acknowledge s _ _, Describes.tells ⟨rfl, rfl, rfl, hlabel, fun _ => .inl rfl⟩⟩

theorem handleATVC_cases {type : UInt8} (h : s.handleATVC data = .ok (readings, t)) :
    Handles type now s t ∧ s.Tells type readings := by
  unfold handleATVC at h
  simp only [bind_eq_ok, hnz_receivedCommandACK] at h
  obtain ⟨first, -, h⟩ := h
  split_ifs at h with hlabel
  · cases h
    exact ⟨.acknowledge s _ _, tells_nil⟩
  · simp only [bind_eq_ok] at h
    obtain ⟨b₂, -, b₃, -, h⟩ := h
    cases h
    exact ⟨.acknowledge s _ _, Describes.tells ⟨rfl, rfl, rfl, hlabel, fun _ => .inr rfl⟩⟩

/-- **The switch**: the change of the state, and the readings. -/
theorem dispatch_cases {type : UInt8} (h : s.dispatch type data now = .ok (readings, t)) :
    Handles type now s t ∧ s.Tells type readings := by
  unfold dispatch at h
  split_ifs at h with _ htm4 htsce htscg htmn
  · unfold handleModuloCode at h
    simp only [bind_eq_ok] at h
    obtain ⟨section10, -, h⟩ := h
    cases h
    exact ⟨.modulo s section10, tells_nil⟩
  · simp only [bind_eq_ok] at h
    obtain ⟨rs, hrs, h⟩ := h
    cases h
    exact ⟨.idle s, htm4 ▸ tells_handleTM4 hrs⟩
  · exact htsce ▸ handleTSCE_cases h
  · obtain ⟨points, hpoints, rfl, rfl⟩ := handleTSCG_eq_ok h
    exact ⟨.hear s _ htscg, htscg ▸ tells_handleTSCG hpoints⟩
  · simp only [bind_eq_ok] at h
    obtain ⟨rs, hrs, h⟩ := h
    cases h
    exact ⟨.idle s, htmn ▸ tells_handleTMN hrs⟩
  · exact handleATC_cases h
  · exact handleATVC_cases h
  · simp only [bind_eq_ok] at h
    obtain ⟨_, -, h⟩ := h
    cases h
    exact ⟨.idle s, tells_nil⟩

end System

end Hnz
