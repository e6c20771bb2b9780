import HnzSouth.Model.Basic

/-!
# Model/Conf — the configuration

`HNZConf` is the configuration as imported; `PathConf` is what one path keeps of it, converted to
the types the path stores.
-/

namespace Hnz

/-- The daily schedule of the general interrogation. -/
structure GIScheduleFormat where
  activate : Bool := false
  hour : Int := 0
  min : Int := 0
  deriving DecidableEq, Repr

/-- The labels of the configured messages: by message code, station address, message address. -/
abbrev MsgList := Std.TreeMap String (Std.TreeMap Nat (Std.TreeMap Nat String))

/-- **The imported configuration.** -/
structure HNZConf where
  pathsIp : PathId → String := fun _ => ""
  pathsPort : PathId → UInt32 := fun _ => 0
  pathsRepeat : PathId → UInt32 := fun _ => 0
  remoteStationAddr : UInt32 := 0
  inaccTimeout : UInt32 := 0
  maxSarm : UInt32 := 0
  repeatTimeout : UInt32 := 0
  anticipationRatio : UInt32 := 0
  testMsgSend : BulleFormat := {}
  testMsgReceive : BulleFormat := {}
  giSchedule : GIScheduleFormat := {}
  giRepeatCount : UInt32 := 0
  giTime : UInt32 := 0
  cAckTime : UInt32 := 0
  cmdRecvTimeout : Int := 0
  bulleTime : UInt32 := 0
  useUtc : Bool := false
  /-- The asset of the monitoring events, empty when they are off. -/
  connxStatus : String := ""
  lastTSAddr : Nat := 0
  msgList : MsgList := ∅
  /-- The addresses of the TS that trigger a GI, with the triggering value. -/
  cgTriggeringTsAdresses : Std.TreeMap Int Int := ∅
  configIsComplete : Bool := false
  exchangeDataIsComplete : Bool := false

namespace HNZConf

def isComplete (conf : HNZConf) : Bool := conf.configIsComplete && conf.exchangeDataIsComplete

/-- The slot holds a path. -/
def configured (conf : HNZConf) (p : PathId) : Bool := conf.pathsIp p != ""

/-- The label of a message, empty when the configuration does not have it. -/
def getLabel (conf : HNZConf) (msgCode : String) (msgAddress : Nat) : String :=
  match conf.msgList[msgCode]? with
  | none => ""
  | some stations =>
    match stations[conf.remoteStationAddr.toNat]? with
    | none => ""
    | some messages => messages[msgAddress]?.getD ""

/-- The messages of that code at that station, where two calls of `at` find them. -/
def messagesAt (conf : HNZConf) (msgCode : String) (station : Nat) :
    Option (Std.TreeMap Nat String) := conf.msgList[msgCode]?.bind (·[station]?)

/-- The entry of a message in the list of labels. -/
def entry? (conf : HNZConf) (msgCode : String) (msgAddress : Nat) : Option String :=
  (conf.messagesAt msgCode conf.remoteStationAddr.toNat).bind (·[msgAddress]?)

theorem getLabel_eq (conf : HNZConf) (msgCode : String) (msgAddress : Nat) :
    conf.getLabel msgCode msgAddress = (conf.entry? msgCode msgAddress).getD "" := by
  cases hstations : conf.msgList[msgCode]? with
  | none => simp [getLabel, entry?, messagesAt, hstations]
  | some stations =>
    cases hmessages : stations[conf.remoteStationAddr.toNat]? with
    | none => simp [getLabel, entry?, messagesAt, hstations, hmessages]
    | some messages => simp [getLabel, entry?, messagesAt, hstations, hmessages]

/-- The value of the TS that triggers a GI, `-1` when none does. -/
def isTsAddressCgTriggering (conf : HNZConf) (address : Int) : Int :=
  conf.cgTriggeringTsAdresses[address]?.getD (-1)

end HNZConf

/-- Two paths to station 1, with one TM and one TS. -/
def HNZConf.sample : HNZConf where
  pathsIp := fun _ => "0.0.0.0"
  pathsRepeat := fun _ => 3
  remoteStationAddr := 1
  inaccTimeout := 180
  maxSarm := 5
  repeatTimeout := 3000
  anticipationRatio := 3
  testMsgSend := ⟨0x13, 0x04⟩
  testMsgReceive := ⟨0x13, 0x04⟩
  giRepeatCount := 2
  giTime := 1
  cAckTime := 10
  bulleTime := 10
  lastTSAddr := 511
  msgList := (∅ : MsgList)
    |>.insert "TM" (Std.TreeMap.empty.insert 1 (Std.TreeMap.empty.insert 20 "TM1"))
    |>.insert "TS" (Std.TreeMap.empty.insert 1 (Std.TreeMap.empty.insert 511 "TS1"))
  configIsComplete := true
  exchangeDataIsComplete := true

/-- **The settings of one path.**  `repeatMax` is one less than the configured count, because
`m_repeat` counts the resends; `anticipationRatio` is the `int` of the source as `size()` compares
with it. -/
structure PathConf where
  repeatMax : Int
  remoteAddress : Nat
  addressPA : UInt8
  addressARP : UInt8
  maxSarm : Int
  inaccTimeout : Int
  repeatTimeout : Int
  anticipationRatio : Nat
  bulleTime : Nat
  testMsgReceive : BulleFormat
  testMsgSend : BulleFormat
  useUtc : Bool
  cAckTimeMax : Int
  deriving DecidableEq, Repr

/-- The settings the constructor of `HNZPath` takes from the configuration. -/
def HNZConf.pathConf (conf : HNZConf) (p : PathId) : PathConf where
  repeatMax := int32 (conf.pathsRepeat p).toNat - 1
  remoteAddress := conf.remoteStationAddr.toNat
  addressPA := u8 (conf.remoteStationAddr.toNat * 4 + 1)
  addressARP := u8 (conf.remoteStationAddr.toNat * 4 + 3)
  maxSarm := int32 conf.maxSarm.toNat
  inaccTimeout := int32 conf.inaccTimeout.toNat
  repeatTimeout := int32 conf.repeatTimeout.toNat
  anticipationRatio := u64 (int32 conf.anticipationRatio.toNat)
  bulleTime := conf.bulleTime.toNat
  testMsgReceive := conf.testMsgReceive
  testMsgSend := conf.testMsgSend
  useUtc := conf.useUtc
  cAckTimeMax := (conf.cAckTime * 1000).toNat

/-- The message is the BULLE the path sends. -/
def PathConf.isBULLE (c : PathConf) (msg : List UInt8) : Bool :=
  msg == [c.testMsgSend.first, c.testMsgSend.second]

end Hnz
