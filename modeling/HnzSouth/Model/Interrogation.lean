import HnzSouth.Machinery.Difference
import HnzSouth.Model.System

/-!
# Model/Interrogation — messages the plugin sends, and the general interrogation

The general interrogation (GI) is a request whose answer is a series of TSCG messages.  Its state is
split: `giRepeat` and `giStartTime` are the connection's, `giStatus`, `giInQueue` and
`giAddressesReceived` the plugin object's.
-/

namespace Hnz

/-- The two lists of a report on the addresses of a GI. -/
structure AddressesDiff where
  missingAddresses : List Nat
  extraAddresses : List Nat
  deriving DecidableEq, Repr

namespace System

/-! ## Messages on a path -/

/-- `m_sendInfo` on a path. -/
def sendInfo (p : PathId) (now : Instant) (msg : List UInt8) (s : System) : Bool × System :=
  (((s.path p).toLink.sendInfo (s.pathConf p) now.ms msg).1,
    s.modifyLink p fun l => (l.sendInfo (s.pathConf p) now.ms msg).2)

/-- `notifyGIsent`. -/
def notifyGIsent (now : Instant) (s : System) : System :=
  let s :=
    if s.connection.giRepeat = 0 ∨ s.hnz.giStatus ≠ .inProgress then s.updateGiStatus .started
    else s
  { s with
    connection.giRepeat := s.connection.giRepeat + 1
    connection.giStartTime := now.ms
    connection.giNotified := s.connection.giNotified + 1 }

/-- The two bytes of a GI request. -/
def giPayload : List UInt8 := [0x13, 0x01]

/-- `sendGeneralInterrogation`: only a request that was sent is counted. -/
def sendGeneralInterrogation (p : PathId) (now : Instant) (s : System) : System :=
  let (sent, s) := s.sendInfo p now giPayload
  if sent then s.notifyGIsent now else s

section
variable [Platform]

/-- The civil time of the messages: UTC or local, as configured. -/
def civilTime (useUtc : Bool) (t : Int) : Tm := if useUtc then gmtime t else localtime t

/-- `m_send_date_setting`. -/
def sendDateSetting (p : PathId) (now : Instant) (s : System) : System :=
  let tm := civilTime (s.pathConf p).useUtc (now / 1000000000)
  (s.sendInfo p now
    [Platform.setdateCode, u8 tm.mday, u8 (tm.mon + 1), u8 (tm.year.tmod 100)]).2

/-- `m_send_time_setting`; the section of the day is remembered even if the message was not sent. -/
def sendTimeSetting (p : PathId) (now : Instant) (s : System) : System :=
  let tm := civilTime (s.pathConf p).useUtc (now.ms / 1000)
  let mod10m := tm.hour * 6 + tm.min / 10
  let frac := now.ms % 600000 / 10
  let s := (s.sendInfo p now
    [Platform.settimeCode, u8 mod10m, u8 (frac / 256), u8 frac, 0x00]).2
  { s with hnz.daySection := u8 mod10m }

/-- `sendInitMessages`. -/
def sendInitMessages (p : PathId) (now : Instant) (s : System) : System :=
  let s := s.sendDateSetting p now
  let s := s.sendTimeSetting p now
  let s := s.sendGeneralInterrogation p now
  s.modifyLink p fun l => { l with lastConnected := 0 }

end

/-! ## Quality readings -/

/-- `m_sendAllTIQualityReadings`: one reading per configured point of that code, in the order of
the addresses, except the rejected ones.  Both lookups are `at`. -/
def sendAllTIQualityReadings (params : ReadingParameters) (rejectFilter : List Nat) (s : System) :
    Result System :=
  match s.hnz.conf.msgList[params.msgCode]? with
  | none => .error .outOfRange
  | some stations =>
    match stations[params.stationAddr]? with
    | none => .error .outOfRange
    | some messages =>
      let kept := messages.toList.filter fun kvp => kvp.1 ∉ rejectFilter
      .ok (s.sendToFledge (kept.map fun kvp =>
        prepareReading { params with label := kvp.2, msgAddress := kvp.1 }))

def sendAllTMQualityReadings (invalid outdated : Bool) (s : System) : Result System :=
  s.sendAllTIQualityReadings
    { msgCode := "TM", stationAddr := s.hnz.remoteAddress, valid := invalid.toNat
      outdated := outdated, an := "TMA", qualityUpdate := true } []

def sendAllTSQualityReadings (invalid outdated : Bool) (rejectFilter : List Nat) (now : Instant)
    (s : System) : Result System :=
  s.sendAllTIQualityReadings
    { msgCode := "TS", stationAddr := s.hnz.remoteAddress, valid := invalid.toNat
      outdated := outdated, cg := false, ts := now.ms, qualityUpdate := true } rejectFilter

/-! ## The end of a GI -/

/-- `m_getMismatchingTSCGAddresses`: the TS that a GI did not bring, and what it brought besides.
Both lookups are `at`. -/
def getMismatchingTSCGAddresses (s : System) : Result AddressesDiff :=
  match s.hnz.conf.msgList["TS"]? with
  | none => .error .outOfRange
  | some stations =>
    match stations[s.hnz.remoteAddress]? with
    | none => .error .outOfRange
    | some allTSs =>
      let missing := (∅ : Std.TreeSet Nat).insertMany allTSs.keys
      let sets := s.hnz.giAddressesReceived.foldl Machinery.consume (missing, ∅)
      .ok ⟨sets.1.toList, sets.2.toList⟩

def resetGIQueue (s : System) : System := { s with hnz.giAddressesReceived := [] }

/-- `GICompleted`: the points that did not answer become invalid, and a GI that was queued
meanwhile starts — on the active path, which is not checked. -/
def giCompleted (success : Bool) (now : Instant) (s : System) : Result System := do
  let s := { s with connection.giRepeat := 0 }
  let s ← s.sendAllTSQualityReadings true false s.hnz.giAddressesReceived now
  let s := s.updateGiStatus (if success then .finished else .failed)
  let s := s.resetGIQueue
  if s.hnz.giInQueue then
    match s.connection.activePath with
    | none => throw .nullPath
    | some p =>
      let s := s.sendGeneralInterrogation p now
      return { s with hnz.giInQueue := false }
  else return s

/-- `checkGICompleted`: a success ends the GI; otherwise it is repeated, or has failed. -/
def checkGICompleted (success : Bool) (now : Instant) (s : System) : Result System :=
  if success then s.giCompleted true now
  else if (s.connection.giRepeat : Int) > s.connection.giRepeatCountMax then
    s.giCompleted false now
  else
    let s := s.resetGIQueue
    match s.connection.activePath with
    | none => .ok s
    | some p => .ok (s.sendGeneralInterrogation p now)

/-! ## The schedule -/

/-- `m_update_current_time`. -/
def updateCurrentTime (now : Instant) (s : System) : System :=
  let elapsed := u64 (now.ms - s.connection.current)
  { s with connection.current := now.ms, connection.elapsedTimeMs := elapsed }

/-- The time of today's scheduled GI. -/
def scheduledTime (current : Nat) (schedule : GIScheduleFormat) : Int :=
  int64 (current - current % 86400000 + (schedule.hour * 60 + schedule.min) * 60000)

/-- The head of `m_manageMessages`: a schedule that has already passed waits for tomorrow. -/
def startSchedule (now : Instant) (s : System) : System :=
  let s := s.updateCurrentTime now
  let time := scheduledTime s.connection.current s.connection.giSchedule
  let passed := s.connection.giSchedule.activate && u64 time ≤ s.connection.current
  { s with
    connection.daysSinceEpoch := s.connection.current / 86400000
    connection.giScheduledTime := time
    connection.giScheduleAlreadySent := s.connection.giScheduleAlreadySent || passed }

/-- The first part of `m_check_GI`: a running GI times out. -/
def checkGITimeout (now : Instant) (s : System) : Result System :=
  if s.connection.giRepeat ≠ 0 ∧
      u64 (s.connection.giStartTime + s.connection.giTimeMax) < s.connection.current then
    s.checkGICompleted false now
  else .ok s

/-- The second part: a new day arms the schedule. -/
def checkNewDay (s : System) : System :=
  let today := s.connection.current / 86400000
  if s.connection.daysSinceEpoch ≠ today then
    let time := scheduledTime s.connection.current s.connection.giSchedule
    { s with
      connection.giScheduleAlreadySent := false
      connection.giScheduledTime := time
      connection.daysSinceEpoch := today }
  else s

/-- The third part: the scheduled GI. -/
def checkSchedule (now : Instant) (s : System) : System :=
  if s.connection.giSchedule.activate && !s.connection.giScheduleAlreadySent &&
      u64 s.connection.giScheduledTime ≤ s.connection.current then
    let s := match s.connection.activePath with
      | none => s
      | some p => s.sendGeneralInterrogation p now
    { s with connection.giScheduleAlreadySent := true }
  else s

/-- **`m_check_GI`.** -/
def checkGI (now : Instant) (s : System) : Result System := do
  let s ← s.checkGITimeout now
  return s.checkNewDay.checkSchedule now

/-- `updateQualityUpdateTimer`: some time after the connection is lost, every point is outdated. -/
def updateQualityUpdateTimer (now : Instant) (s : System) : Result System := do
  if s.hnz.qualityUpdateTimer > 0 then
    let timer := s.hnz.qualityUpdateTimer - int64 s.connection.elapsedTimeMs
    if timer ≤ 0 then
      let s := { s with hnz.qualityUpdateTimer := 0 }
      let s ← s.sendAllTMQualityReadings false true
      s.sendAllTSQualityReadings false true [] now
    else return { s with hnz.qualityUpdateTimer := timer }
  else return s

end System

end Hnz
