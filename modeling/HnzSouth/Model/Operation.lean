import HnzSouth.Model.Handlers

/-!
# Model/Operation — the operations Fledge asks for

`HNZ::operation` and the commands it sends.
-/

namespace Hnz

open Machinery

namespace System

variable [Platform]

/-! ## Commands on a path -/

/-- The message of a TC: the address in decimal, with a zero in front, is split before its last
digit.  What stands before it starts with that zero, so that `stoi` does not throw. -/
def tcMessage (address : Int) (value : UInt8) : List UInt8 :=
  let addressStr := '0' :: Decimal.print address
  Link.tcPayload (u8 ((stoi addressStr.dropLast).getD 0))
    ((addressStr.getLastD '0').toNat - '0'.toNat) value

/-- `sendTCCommand`. -/
def sendTCCommand (p : PathId) (address : Int) (value : UInt8) (now : Instant) (s : System) :
    Bool × System :=
  let (sent, s) := s.sendInfo p now (tcMessage address value)
  (sent, s.modifyLink p
    (Link.registerCommandIfSent (s.pathConf p) now.ms "TC" sent address))

/-- `sendTVCCommand`. -/
def sendTVCCommand (p : PathId) (address : UInt8) (value : Int) (now : Instant) (s : System) :
    Bool × System :=
  let (sent, s) := s.sendInfo p now (Link.tvcPayload address value)
  (sent, s.modifyLink p
    (Link.registerCommandIfSent (s.pathConf p) now.ms "TVC" sent address.toNat))

/-! ## Operations -/

/-- The value of a parameter of a command: the last one given under its name. -/
def commandParam (params : List (String × String)) (name : String) : String :=
  params.foldl (fun value param => if param.1 = name then param.2 else value) ""

/-- **`processCommandOperation`**: 0 for a command that was sent, 1 for an error in the request,
2 when the connection does not take it. -/
def processCommandOperation (params : List (String × String)) (now : Instant) (s : System) :
    Nat × System :=
  let type := commandParam params "co_type"
  let addrStr := commandParam params "co_addr"
  let valStr := commandParam params "co_value"
  if type = "" ∨ addrStr = "" ∨ valStr = "" then (1, s)
  else
    match stoi addrStr.toList, stoi valStr.toList with
    | some address, some value =>
      match s.connection.activePath with
      | none => (2, s)
      | some p =>
        if type = "TC" then
          let (success, s) := s.sendTCCommand p address (u8 value) now
          (if success then 0 else 2, s)
        else if type = "TVC" then
          let (success, s) := s.sendTVCCommand p (u8 address) value now
          (if success then 0 else 2, s)
        else (1, s)
    | _, _ => (1, s)

/-- **The fates of a request**: refused before it reaches a path, or handed to the active one. -/
theorem processCommandOperation_cases (params : List (String × String)) (now : Instant)
    (s : System) :
    ((s.processCommandOperation params now).1 ≠ 0 ∧
        (s.processCommandOperation params now).2 = s) ∨
      ∃ address value p,
        stoi (commandParam params "co_addr").toList = some address ∧
        stoi (commandParam params "co_value").toList = some value ∧
        s.connection.activePath = some p ∧
        ((commandParam params "co_type" = "TC" ∧
            s.processCommandOperation params now =
              (if (s.sendTCCommand p address (u8 value) now).1 then 0 else 2,
                (s.sendTCCommand p address (u8 value) now).2)) ∨
          (commandParam params "co_type" = "TVC" ∧
            s.processCommandOperation params now =
              (if (s.sendTVCCommand p (u8 address) value now).1 then 0 else 2,
                (s.sendTVCCommand p (u8 address) value now).2))) := by
  unfold processCommandOperation
  simp only
  generalize commandParam params "co_type" = type
  generalize commandParam params "co_addr" = addrStr
  generalize commandParam params "co_value" = valStr
  by_cases hempty : type = "" ∨ addrStr = "" ∨ valStr = ""
  · simp [hempty]
  simp only [if_neg hempty]
  cases stoi addrStr.toList with
  | none => simp
  | some address =>
    cases stoi valStr.toList with
    | none => simp
    | some value =>
      cases s.connection.activePath with
      | none => simp
      | some p =>
        by_cases htc : type = "TC"
        · simp [htc]
        by_cases htvc : type = "TVC"
        · simp [htvc]
        · simp [htc, htvc]

/-- The operation `north_status`: a GI once the north service has started. -/
def northStatus (params : List (String × String)) (now : Instant) (s : System) : Bool × System :=
  match params with
  | [param] =>
    if param.2 = "init_socket_finished" then
      match s.connection.activePath with
      | none => (false, s)
      | some p =>
        if s.hnz.giStatus = .started ∨ s.hnz.giStatus = .inProgress then
          (true, { s with hnz.giInQueue := true })
        else (true, s.sendGeneralInterrogation p now)
    else (false, s)
  | _ => (false, s)

/-- **`operation`.** -/
def operation (name : String) (params : List (String × String)) (now : Instant) (s : System) :
    Bool × System :=
  if name = "HNZCommand" then
    let (res, s) := s.processCommandOperation params now
    (res == 0, s)
  else if name = "request_connection_status" then (true, s.sendSouthMonitoringEvent true true)
  else if name = "north_status" then s.northStatus params now
  else (false, s)

end System

end Hnz
