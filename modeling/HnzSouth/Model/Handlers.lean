import HnzSouth.Machinery.Decimal
import HnzSouth.Model.Reception

/-!
# Model/Handlers — the messages, turned into readings

Each type of message has its handler, which reads the bytes of the message — a read past its end is
a `badRead` — and returns the readings in order.
-/

namespace Hnz

open Machinery

/-! ## Decimal addresses -/

/-- `std::stoi`; no value where it throws. -/
def stoi (cs : List Char) : Option Int :=
  match Decimal.read cs with
  | some z => if -2 ^ 31 ≤ z ∧ z < 2 ^ 31 then some z else none
  | none => none

/-- The address of a remote point: AD0 and ADB written one after the other, read as one number. -/
def concatAddress (adO adB : Nat) : Nat :=
  ((stoi (Nat.toDigits 10 adO ++ Nat.toDigits 10 adB)).getD 0).toNat

theorem concatAddress_eq {adO adB : Nat} (hO : adO ≤ 256) (hB : adB < 10) :
    concatAddress adO adB = 10 * adO + adB := by
  rw [concatAddress, stoi, Decimal.read_toDigits_append adO hB]
  simp only
  rw [if_pos (by omega)]
  rfl

variable [Platform]

namespace System

/-! ## Messages without a TS -/

/-- `m_handleModuloCode`. -/
def handleModuloCode (data : List UInt8) (s : System) : Result (List Reading × System) := do
  let section10 ← readByte data 1
  return ([], { s with hnz.daySection := section10 })

/-- One of the four measurements of a TM4, unless the configuration does not have it. -/
def handleTM4Point (data : List UInt8) (s : System) (i : Nat) : Result (Option Reading) := do
  let msgAddress := (← readByte data 1).toNat + i
  let label := s.hnz.conf.getLabel "TM" msgAddress
  if label = "" then return none
  let v ← readByte data (2 + i)
  let value : Int := if v &&& 0x80 > 0 then -((v ^^^ 0xFF).toNat : Int) else v.toNat
  return some (prepareReading
    { label := label, msgCode := "TM", stationAddr := s.hnz.remoteAddress
      msgAddress := msgAddress, value := value, valid := (v == 0xFF).toNat, an := "TMA" })

/-- `m_handleTM4`: four measurements in ones' complement, `0xFF` for an invalid one. -/
def handleTM4 (data : List UInt8) (s : System) : Result (List Reading) := do
  return (← (List.range 4).mapM (handleTM4Point data s)).reduceOption

/-- The value of a measurement of a TMN, and its place in the flags of byte 6: 8 bits, or 16 bits,
little endian, in two's complement. -/
def tmnValue (isTM8 : Bool) (data : List UInt8) (i : Nat) : Result (Int × Nat) :=
  if isTM8 then do
    let v ← readByte data (2 + i)
    return (v.toNat, i)
  else do
    let noctet := 2 + i * 2
    let v := (← readByte data (noctet + 1)).toNat <<< 8 ||| (← readByte data noctet).toNat
    let value : Int := if v &&& 0x8000 > 0 then ((v &&& 0x7FFF : Nat) : Int) - 32768 else v
    return (value, i * 2)

/-- One of the measurements of a TMN, unless the configuration does not have it. -/
def handleTMNPoint (isTM8 : Bool) (flags : UInt8) (data : List UInt8) (s : System) (i : Nat) :
    Result (Option Reading) := do
  let addressOffset := if isTM8 then i else i * 2
  let msgAddress := (← readByte data 1).toNat + addressOffset
  let label := s.hnz.conf.getLabel "TM" msgAddress
  if label = "" then return none
  let (value, bit) ← tmnValue isTM8 data i
  return some (prepareReading
    { label := label, msgCode := "TM", stationAddr := s.hnz.remoteAddress
      msgAddress := msgAddress, value := value, valid := ((flags >>> UInt8.ofNat bit) &&& 0x1).toNat
      an := if isTM8 then "TM8" else "TM16" })

/-- `m_handleTMN`: four measurements of 8 bits, or two of 16 bits. -/
def handleTMN (data : List UInt8) (s : System) : Result (List Reading) := do
  let flags ← readByte data 6
  let isTM8 := flags >>> 7 == 1
  let readings ← (List.range (if isTM8 then 4 else 2)).mapM (handleTMNPoint isTM8 flags data s)
  return readings.reduceOption

/-! ## Acknowledgements of commands -/

/-- The acknowledgement of a command, on every path. -/
def receivedCommandACK (type : String) (addr : Int) (s : System) : System :=
  [PathId.A, PathId.B].foldl
    (fun s p => if s.configured p then s.modifyLink p (Link.receivedCommandACK type addr) else s) s

/-- `m_handleATVC`. -/
def handleATVC (data : List UInt8) (s : System) : Result (List Reading × System) := do
  let first ← readByte data 1
  let msgAddress := (first &&& 0x1F).toNat
  let s := s.receivedCommandACK "TVC" msgAddress
  let label := s.hnz.conf.getLabel "TVC" msgAddress
  if label = "" then return ([], s)
  let a := (first >>> 6) &&& 0x1
  let magnitude := (← readByte data 2) &&& 0x7F
  let sign := (← readByte data 3) >>> 7 &&& 0x1
  let value : Int := if sign = 1 then -magnitude.toNat else magnitude.toNat
  return ([prepareReading
    { label := label, msgCode := "TVC", stationAddr := s.hnz.remoteAddress
      msgAddress := msgAddress, value := value, valid := a.toNat }], s)

/-- `m_handleATC`. -/
def handleATC (data : List UInt8) (s : System) : Result (List Reading × System) := do
  let adO ← readByte data 1
  let second ← readByte data 2
  let msgAddress := concatAddress adO.toNat (second >>> 5).toNat
  let s := s.receivedCommandACK "TC" msgAddress
  let label := s.hnz.conf.getLabel "TC" msgAddress
  if label = "" then return ([], s)
  let value := (second >>> 3) &&& 0x3
  let cr := second &&& 0x7
  return ([prepareReading
    { label := label, msgCode := "TC", stationAddr := s.hnz.remoteAddress
      msgAddress := msgAddress, value := value.toNat, valid := if cr = 0x1 then 0 else 1 }], s)

/-! ## TS -/

/-- The GI a TS triggers: queued while one is running, skipped without an active path. -/
def triggerGI (now : Instant) (s : System) : System :=
  match s.connection.activePath with
  | none => s
  | some p =>
    if s.hnz.giStatus = .started ∨ s.hnz.giStatus = .inProgress then
      { s with hnz.giInQueue := true }
    else s.sendGeneralInterrogation p now

/-- The path the messages come from has only its input connected: the section of the day may not
have been set. -/
def activeInputConnected (s : System) : Bool :=
  match s.connection.activePath with
  | none => false
  | some p => (s.path p).protocolState == .inputConnected

/-- The time stamp of a TSCE received at `now`, `ts` hundredths of a second into the section: the
local instant, brought back to UTC by the difference of the two times of day. -/
def eventTimestamp (ts : Nat) (now : Instant) (s : System) : Nat :=
  let seconds : Int := now.ms / 1000
  let real := civilTime s.hnz.conf.useUtc seconds
  let realUtcOffset := real.secondOfDay - (gmtime seconds).secondOfDay
  u64 (getEpochMsTimestamp now s.hnz.daySection ts - realUtcOffset * 1000)

/-- `m_handleTSCE`: a change of state, with its time. -/
def handleTSCE (data : List UInt8) (now : Instant) (s : System) :
    Result (List Reading × System) := do
  let adO ← readByte data 1
  let second ← readByte data 2
  let msgAddress := concatAddress adO.toNat (second >>> 5).toNat
  let label := s.hnz.conf.getLabel "TS" msgAddress
  if label = "" then return ([], s)
  let value := (second >>> 3) &&& 0x1
  let ts := (← readByte data 3).toNat <<< 8 ||| (← readByte data 4).toNat
  let reading := prepareReading
    { label := label, msgCode := "TS", stationAddr := s.hnz.remoteAddress
      msgAddress := msgAddress, value := value.toNat, valid := ((second >>> 4) &&& 0x1).toNat
      ts := s.eventTimestamp ts now, tsIv := ((second >>> 2) &&& 0x1).toNat
      tsC := ((second >>> 1) &&& 0x1).toNat, tsS := (second &&& 0x1).toNat, cg := false
      emptyTimestamp := s.activeInputConnected }
  let isTsTriggering := s.hnz.conf.isTsAddressCgTriggering msgAddress
  if isTsTriggering ≠ -1 ∧ (value.toNat : Int) = isTsTriggering then
    return ([reading], s.triggerGI now)
  else return ([reading], s)

/-- One of the sixteen TS of a TSCG, unless the configuration does not have it. -/
def handleTSCGPoint (data : List UInt8) (s : System) (i : Nat) :
    Result (Option (Nat × Reading)) := do
  let msgAddress := concatAddress ((← readByte data 1).toNat + i / 8) (i % 8)
  let label := s.hnz.conf.getLabel "TS" msgAddress
  if label = "" then return none
  let dep := UInt8.ofNat ((3 - i % 4) * 2)
  let v ← readByte data (2 + i / 4)
  return some (msgAddress, prepareReading
    { label := label, msgCode := "TS", stationAddr := s.hnz.remoteAddress
      msgAddress := msgAddress, value := ((v >>> dep) &&& 0x1).toNat
      valid := (((v >>> dep) &&& 0x2) >>> 1).toNat, cg := true })

/-- `m_handleTSCG`: sixteen TS in answer to a GI, which is then in progress. -/
def handleTSCG (data : List UInt8) (s : System) : Result (List Reading × System) := do
  let points := (← (List.range 16).mapM (handleTSCGPoint data s)).reduceOption
  let s := { s with
    hnz.giAddressesReceived := s.hnz.giAddressesReceived ++ points.map Prod.fst }
  let s := if s.hnz.giStatus = .started then s.updateGiStatus .inProgress else s
  return (points.map Prod.snd, s)

/-! ## The dispatch -/

/-- The switch of `m_handle_message`. -/
def dispatch (t : UInt8) (data : List UInt8) (now : Instant) (s : System) :
    Result (List Reading × System) :=
  if t = Platform.moduloCode then s.handleModuloCode data
  else if t = Platform.tm4Code then return (← s.handleTM4 data, s)
  else if t = Platform.tsceCode then s.handleTSCE data now
  else if t = Platform.tscgCode then s.handleTSCG data
  else if t = Platform.tmnCode then return (← s.handleTMN data, s)
  else if t = Platform.tcackCode then s.handleATC data
  else if t = Platform.tvcackCode then s.handleATVC data
  else do
    let _ ← isReceivedBULLE s.hnz.testMsgReceive t data
    return ([], s)

/-- The last expected TS of a GI was received. -/
def lastTSReceived (s : System) : Bool :=
  s.hnz.giAddressesReceived.getLast? == some s.hnz.conf.lastTSAddr

/-- **`m_handle_message`**: the readings go to Fledge, and the TSCG that brings the last TS ends
the GI. -/
def handleMessage (data : List UInt8) (now : Instant) (s : System) : Result System := do
  let t ← readByte data 0
  let (readings, s) ← s.dispatch t data now
  let s := s.sendToFledge readings
  if t = Platform.tscgCode ∧ s.lastTSReceived then s.checkGICompleted true now
  else return s

end System

end Hnz
