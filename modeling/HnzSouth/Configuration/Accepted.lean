import HnzSouth.Lifecycle.Documents

/-!
# Configuration/Accepted — what an accepted protocol stack says

The application layer is read by sixteen steps, which together accept exactly the objects that
`ApplicationLayer.read` reads and whose station address passes the check.  After an accepted
document the configuration has the values that were read.
-/

namespace Hnz

open Machinery

/-! ## The application layer -/

/-- **The values of the application layer.** -/
structure ApplicationLayer where
  remoteStationAddr : UInt32
  inaccTimeout : UInt32
  maxSarm : UInt32
  repeatPathA : UInt32
  repeatPathB : UInt32
  repeatTimeout : UInt32
  anticipationRatio : UInt32
  testMsgSend : BulleFormat
  testMsgReceive : BulleFormat
  giSchedule : GIScheduleFormat
  giRepeatCount : UInt32
  giTime : UInt32
  cAckTime : UInt32
  cmdRecvTimeout : Int
  bulleTime : UInt32
  deriving DecidableEq, Repr

namespace ApplicationLayer

/-- The values of an object: each of its type, or absent and replaced by its default. -/
def read (json : Json) : Option ApplicationLayer := do
  let remoteStationAddr ← retrieve Json.uint? json "remote_station_addr"
  let inaccTimeout ← retrieveOr Json.uint? json "inacc_timeout" 180
  let maxSarm ← retrieveOr Json.uint? json "max_sarm" 30
  let repeatPathA ← retrieveOr Json.uint? json "repeat_path_A" 3
  let repeatPathB ← retrieveOr Json.uint? json "repeat_path_B" 3
  let repeatTimeout ← retrieveOr Json.uint? json "repeat_timeout" 3000
  let anticipationRatio ← retrieveOr Json.uint? json "anticipation_ratio" 3
  let testMsgSend ← retrieveBulle json "test_msg_send"
  let testMsgReceive ← retrieveBulle json "test_msg_receive"
  let giSchedule ← retrieveSchedule json "gi_schedule"
  let giRepeatCount ← retrieveOr Json.uint? json "gi_repeat_count" 3
  let giTime ← retrieveOr Json.uint? json "gi_time" 255
  let cAckTime ← retrieveOr Json.uint? json "c_ack_time" 10
  let cmdRecvTimeout ← retrieveOr Json.int64? json "cmd_recv_timeout" 100000
  let bulleTime ← retrieveOr Json.uint? json "bulle_time" 10
  return ⟨remoteStationAddr, inaccTimeout, maxSarm, repeatPathA, repeatPathB, repeatTimeout,
    anticipationRatio, testMsgSend, testMsgReceive, giSchedule, giRepeatCount, giTime, cAckTime,
    cmdRecvTimeout, bulleTime⟩

end ApplicationLayer

/-- The values of the application layer that the configuration has. -/
def HNZConf.applicationLayer (conf : HNZConf) : ApplicationLayer where
  remoteStationAddr := conf.remoteStationAddr
  inaccTimeout := conf.inaccTimeout
  maxSarm := conf.maxSarm
  repeatPathA := conf.pathsRepeat .A
  repeatPathB := conf.pathsRepeat .B
  repeatTimeout := conf.repeatTimeout
  anticipationRatio := conf.anticipationRatio
  testMsgSend := conf.testMsgSend
  testMsgReceive := conf.testMsgReceive
  giSchedule := conf.giSchedule
  giRepeatCount := conf.giRepeatCount
  giTime := conf.giTime
  cAckTime := conf.cAckTime
  cmdRecvTimeout := conf.cmdRecvTimeout
  bulleTime := conf.bulleTime

/-- **The steps accept an object by its values** and leave them in the configuration. -/
theorem importApplicationLayer_accepts {json : Json} {conf conf' : HNZConf}
    (h : importApplicationLayer json conf = (true, conf')) :
    ApplicationLayer.read json = some conf'.applicationLayer ∧ conf'.remoteStationAddr ≤ 64 := by
  simp only [importApplicationLayer, Import.all_store_iff, Import.all_require_iff,
    Import.all_nil_iff] at h
  obtain ⟨x₁, h₁, hcheck, x₂, h₂, x₃, h₃, x₄, h₄, x₅, h₅, x₆, h₆, x₇, h₇, x₈, h₈, x₉, h₉, x₁₀, h₁₀,
    x₁₁, h₁₁, x₁₂, h₁₂, x₁₃, h₁₃, x₁₄, h₁₄, x₁₅, h₁₅, rfl⟩ := h
  refine ⟨?_, of_decide_eq_true hcheck⟩
  simp only [ApplicationLayer.read, h₁, h₂, h₃, h₄, h₅, h₆, h₇, h₈, h₉, h₁₀, h₁₁, h₁₂, h₁₃, h₁₄, h₁₅]
  rfl

/-! ## The protocol stack -/

theorem keeps_importUseUtc (json : Json) :
    Import.Keeps HNZConf.applicationLayer (importUseUtc json) :=
  Import.keeps_optional (Import.keeps_store fun _ _ => rfl)

theorem keeps_importMonitoring (info : Json) :
    Import.Keeps HNZConf.applicationLayer (importMonitoring info) :=
  Import.keeps_optional (Import.keeps_within fun _ => Import.keeps_store fun _ _ => rfl)

/-- Nothing after the application layer writes its values. -/
theorem importProtocolStack_accepts {info : Json} {conf conf' : HNZConf}
    (h : importProtocolStack info conf = (true, conf')) :
    ∃ json, info.objectAt "application_layer" = some json ∧
      ApplicationLayer.read json = some conf'.applicationLayer ∧ conf'.remoteStationAddr ≤ 64 := by
  simp only [importProtocolStack, Import.all_cons_iff, Import.all_nil_iff, Import.within_iff] at h
  obtain ⟨_, -, _, -, conf₁, ⟨json, hjson, conf₂, hlayer, _, hutc, rfl⟩, _, hmonitoring, rfl⟩ := h
  obtain ⟨hread, haddr⟩ := importApplicationLayer_accepts hlayer
  have hkept := ((keeps_importMonitoring info).eq hmonitoring).trans
    ((keeps_importUseUtc json).eq hutc)
  have hstation := congrArg ApplicationLayer.remoteStationAddr hkept
  exact ⟨json, hjson, hread.trans (congrArg some hkept.symm), hstation.trans_le haddr⟩

/-- The values of the application layer of a text. -/
def Text.applicationLayer (text : Text) : Option ApplicationLayer := do
  let info ← text.root "protocol_stack"
  let json ← info.objectAt "application_layer"
  ApplicationLayer.read json

/-- **After an accepted document** the configuration has the values of its application layer. -/
theorem applicationLayer_of_accepted {text : Text} {conf : HNZConf}
    (h : (importConfigJson text conf).configIsComplete = true) :
    text.applicationLayer = some (importConfigJson text conf).applicationLayer ∧
      (importConfigJson text conf).remoteStationAddr ≤ 64 := by
  unfold importConfigJson at h ⊢
  cases hroot : text.root "protocol_stack" with
  | none =>
    rw [hroot] at h
    cases h
  | some info =>
    rw [hroot] at h
    obtain ⟨json, hjson, hread, haddr⟩ := importProtocolStack_accepts (Prod.ext h rfl)
    refine ⟨?_, haddr⟩
    rw [Text.applicationLayer, hroot]
    exact (congrArg (· >>= ApplicationLayer.read) hjson).trans hread

end Hnz
