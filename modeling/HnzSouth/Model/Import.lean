import HnzSouth.Machinery.Json
import HnzSouth.Model.Handlers

/-!
# Model/Import — the configuration documents

`importConfigJson` and `importExchangedDataJson` walk a parsed document and store what they read.
What is missing is noted, and the walk goes on: an incomplete document still leaves its values in
the configuration.
-/

namespace Hnz

open Machinery

/-! ## Numbers in strings -/

/-- The bytes of a string. -/
def bytes (s : String) : List Char := s.toUTF8.data.toList.map fun b => Char.ofNat b.toNat

/-- The value of a hexadecimal digit. -/
def hexDigit (c : Char) : Option Nat :=
  if c.isDigit then some (c.toNat - '0'.toNat)
  else if 'a' ≤ c ∧ c ≤ 'f' then some (c.toNat - 'a'.toNat + 10)
  else if 'A' ≤ c ∧ c ≤ 'F' then some (c.toNat - 'A'.toNat + 10)
  else none

/-- The prefix of a hexadecimal number counts as one only in front of a digit. -/
def dropHexPrefix : List Char → List Char
  | '0' :: x :: c :: cs =>
    if (x = 'x' ∨ x = 'X') ∧ (hexDigit c).isSome then c :: cs else '0' :: x :: c :: cs
  | cs => cs

/-- The hexadecimal digits at the front of a string. -/
def hexNumeral (cs : List Char) : Option Nat :=
  match (dropHexPrefix cs).takeWhile fun c => (hexDigit c).isSome with
  | [] => none
  | ds => some (ds.foldl (fun n d => 16 * n + (hexDigit d).getD 0) 0)

/-- What `strtoul` makes of a number: a negative one wraps, and 64 bits have to hold its size. -/
def unsignedLong (z : Int) : Option Nat := if z.natAbs < 2 ^ 64 then some (u64 z) else none

/-- `std::stoul`; no value where it throws. -/
def stoul (cs : List Char) : Option Nat := (Decimal.read cs).bind unsignedLong

/-- `std::stoul` in base 16. -/
def stoul16 (cs : List Char) : Option Nat :=
  (Decimal.signed hexNumeral (cs.dropWhile Decimal.isSpace)).bind unsignedLong

/-! ## Retrieving a value -/

section Retrieve

variable {α : Type}

/-- `m_retrieve` of a value that has no default. -/
def retrieve (read : Json → Option α) (json : Json) (key : String) : Option α :=
  (json.member key).bind read

/-- `m_retrieve` of a value with a default, which a value of the wrong type does not get. -/
def retrieveOr (read : Json → Option α) (json : Json) (key : String) (default : α) : Option α :=
  match json.member key with
  | none => some default
  | some value => read value

end Retrieve

/-- The two bytes of a BULLE, written as four digits. -/
def bulleOf (temp : String) : Option BulleFormat := do
  let first ← stoul16 ((bytes temp).take 2)
  let second ← stoul16 ((bytes temp).drop 2)
  return ⟨u8 first, u8 second⟩

/-- `m_retrieve` of a BULLE. -/
def retrieveBulle (json : Json) (key : String) : Option BulleFormat :=
  match json.member key with
  | none => bulleOf "1304"
  | some value => do
    let temp ← value.string?
    if (bytes temp).length = 4 then bulleOf temp else none

/-- `m_retrieve` of the schedule of the GI. -/
def retrieveSchedule (json : Json) (key : String) : Option GIScheduleFormat :=
  match json.member key with
  | none => some { activate := false, hour := 99, min := 99 }
  | some value => do
    let temp ← value.string?
    if temp = "99:99" then return { activate := false, hour := 99, min := 99 }
    else if (bytes temp).length ≠ 5 ∨ ((bytes temp).drop 2).take 1 ≠ [':'] then none
    else
      let hour ← stoi ((bytes temp).take 2)
      let min ← stoi ((bytes temp).drop 3)
      if 0 ≤ hour ∧ hour < 24 ∧ 0 ≤ min ∧ min < 60 then
        return { activate := true, hour := hour, min := min }
      else none

/-! ## Steps of an import -/

/-- **A step of the import**: whether it found what it needs, and the configuration after it. -/
abbrev Import := HNZConf → Bool × HNZConf

namespace Import

/-- A value that was read is stored. -/
def store {α : Type} (value : Option α) (set : HNZConf → α → HNZConf) : Import := fun conf =>
  match value with
  | none => (false, conf)
  | some x => (true, set conf x)

/-- A check that stores nothing. -/
def require (check : HNZConf → Bool) : Import := fun conf => (check conf, conf)

/-- A step whose outcome does not count. -/
def optional (step : Import) : Import := fun conf => (true, (step conf).2)

/-- A step on a part of the document, which has to be there. -/
def within {α : Type} (part : Option α) (step : α → Import) : Import := fun conf =>
  match part with
  | none => (false, conf)
  | some x => step x conf

/-- All the steps, one after the other: one that fails does not stop the others. -/
def all : List Import → Import
  | [], conf => (true, conf)
  | step :: steps, conf =>
    let (ok, conf) := step conf
    let (rest, conf) := all steps conf
    (ok && rest, conf)

end Import

/-! ## The protocol stack -/

/-- The loop of `m_importTransportLayer`; an element that is not an object ends it. -/
def importConnections : List (PathId × Json) → Import
  | [], conf => (true, conf)
  | (p, conn) :: conns, conf =>
    if conn.isObject then
      Import.all [
        .store (retrieve Json.string? conn "srv_ip") fun conf ip =>
          { conf with pathsIp := Function.update conf.pathsIp p ip },
        .store (retrieveOr Json.uint? conn "port" 6001) fun conf port =>
          { conf with pathsPort := Function.update conf.pathsPort p port },
        importConnections conns] conf
    else (false, conf)

/-- **`m_importTransportLayer`.**  A layer without its array of connections passes. -/
def importTransportLayer (transport : Json) : Import := fun conf =>
  match transport.arrayAt "connections" with
  | none => (true, conf)
  | some conns =>
    if conns.length = 0 ∨ 2 < conns.length then (false, conf)
    else importConnections ([PathId.A, PathId.B].zip conns) conf

/-- **`m_importApplicationLayer`.** -/
def importApplicationLayer (json : Json) : Import :=
  .all [
    .store (retrieve Json.uint? json "remote_station_addr") fun conf x =>
      { conf with remoteStationAddr := x },
    .require fun conf => conf.remoteStationAddr ≤ 64,
    .store (retrieveOr Json.uint? json "inacc_timeout" 180) fun conf x =>
      { conf with inaccTimeout := x },
    .store (retrieveOr Json.uint? json "max_sarm" 30) fun conf x => { conf with maxSarm := x },
    .store (retrieveOr Json.uint? json "repeat_path_A" 3) fun conf x =>
      { conf with pathsRepeat := Function.update conf.pathsRepeat .A x },
    .store (retrieveOr Json.uint? json "repeat_path_B" 3) fun conf x =>
      { conf with pathsRepeat := Function.update conf.pathsRepeat .B x },
    .store (retrieveOr Json.uint? json "repeat_timeout" 3000) fun conf x =>
      { conf with repeatTimeout := x },
    .store (retrieveOr Json.uint? json "anticipation_ratio" 3) fun conf x =>
      { conf with anticipationRatio := x },
    .store (retrieveBulle json "test_msg_send") fun conf x => { conf with testMsgSend := x },
    .store (retrieveBulle json "test_msg_receive") fun conf x => { conf with testMsgReceive := x },
    .store (retrieveSchedule json "gi_schedule") fun conf x => { conf with giSchedule := x },
    .store (retrieveOr Json.uint? json "gi_repeat_count" 3) fun conf x =>
      { conf with giRepeatCount := x },
    .store (retrieveOr Json.uint? json "gi_time" 255) fun conf x => { conf with giTime := x },
    .store (retrieveOr Json.uint? json "c_ack_time" 10) fun conf x => { conf with cAckTime := x },
    .store (retrieveOr Json.int64? json "cmd_recv_timeout" 100000) fun conf x =>
      { conf with cmdRecvTimeout := x },
    .store (retrieveOr Json.uint? json "bulle_time" 10) fun conf x => { conf with bulleTime := x }]

/-- The use of UTC, false where it is not given. -/
def importUseUtc (json : Json) : Import :=
  .optional (.store (retrieveOr Json.bool? json "modulo_use_utc" false) fun conf x =>
    { conf with useUtc := x })

/-- The asset of the monitoring events, if there is one. -/
def importMonitoring (info : Json) : Import :=
  .optional (.within (info.objectAt "south_monitoring") fun json =>
    .store (retrieve Json.string? json "asset") fun conf x => { conf with connxStatus := x })

/-- The object `protocol_stack`. -/
def importProtocolStack (info : Json) : Import :=
  .all [
    .require fun _ => (info.stringAt "name").isSome && (info.stringAt "version").isSome,
    .within (info.objectAt "transport_layer") importTransportLayer,
    .within (info.objectAt "application_layer") fun json =>
      .all [importApplicationLayer json, importUseUtc json],
    importMonitoring info]

/-- **A text of the configuration**, as its parser leaves it. -/
inductive Text
  | empty
  | malformed
  | json (document : Json)

/-- The object under a name, at the root of the document. -/
def Text.root (key : String) : Text → Option Json
  | .json document => document.objectAt key
  | _ => none

/-- **`importConfigJson`.** -/
def importConfigJson (text : Text) (conf : HNZConf) : HNZConf :=
  match text.root "protocol_stack" with
  | none => { conf with configIsComplete := false }
  | some info =>
    let (isComplete, conf) := importProtocolStack info conf
    { conf with configIsComplete := isComplete }

/-! ## The exchanged data -/

/-- `m_isGiTriggeringTs`: the value of the TS that triggers a GI, `-1` when none does. -/
def isGiTriggeringTs (msg : Json) : Int :=
  match (msg.arrayAt "pivot_subtypes").bind
    (List.find? fun subtype => (subtype.member "trigger_south_gi").isSome) with
  | none => -1
  | some subtype =>
    match retrieve Json.uint? subtype "trigger_south_gi" with
    | none => -1
    | some triggerVal => int32 triggerVal.toNat

/-- `m_msg_list[msg_code][station][msg_address] = label`. -/
def MsgList.set (list : MsgList) (msgCode : String) (station msgAddress : Nat) (label : String) :
    MsgList :=
  let stations := list.getD msgCode ∅
  list.insert msgCode (stations.insert station
    ((stations.getD station ∅).insert msgAddress label))

/-- One protocol of a datapoint; only the ones of HNZ are read. -/
def importProtocol (label : String) (triggerValue : Int) (protocol : Json) : Import := fun conf =>
  let name := retrieve Json.string? protocol "name"
  if name.getD "" ≠ "hnzip" then (name.isSome, conf)
  else
    let address := retrieveOr Json.string? protocol "address" ""
    let msgCode := retrieveOr Json.string? protocol "typeid" ""
    let tmp := stoul (address.getD "").toList
    let inRange := tmp.getD 0 < 2 ^ 32
    let msgAddress := if inRange then tmp.getD 0 else 0
    (address.isSome && msgCode.isSome && tmp.isSome && inRange,
      { conf with
        msgList := conf.msgList.set (msgCode.getD "") conf.remoteStationAddr.toNat msgAddress label
        lastTSAddr := max msgAddress conf.lastTSAddr
        cgTriggeringTsAdresses :=
          if triggerValue ≠ -1 then
            conf.cgTriggeringTsAdresses.insertIfNew (int32 msgAddress) triggerValue
          else conf.cgTriggeringTsAdresses })

/-- The loop of `m_importDatapoint`; a protocol that is not an object ends it. -/
def importProtocols (label : String) (triggerValue : Int) : List Json → Import
  | [], conf => (true, conf)
  | protocol :: protocols, conf =>
    if protocol.isObject then
      Import.all [importProtocol label triggerValue protocol,
        importProtocols label triggerValue protocols] conf
    else (false, conf)

/-- **`m_importDatapoint`.** -/
def importDatapoint (msg : Json) : Import :=
  let label := retrieve Json.string? msg "label"
  .all [
    .require fun _ => label.isSome && (msg.stringAt "pivot_id").isSome &&
      (msg.stringAt "pivot_type").isSome,
    .within (msg.arrayAt "protocols") (importProtocols (label.getD "") (isGiTriggeringTs msg))]

/-- **`importExchangedDataJson`.**  The messages are listed under the station that the configuration
has by then. -/
def importExchangedDataJson (text : Text) (conf : HNZConf) : HNZConf :=
  match text.root "exchanged_data" with
  | none => { conf with exchangeDataIsComplete := false }
  | some info =>
    match info.arrayAt "datapoints" with
    | none => { conf with exchangeDataIsComplete := false }
    | some datapoints =>
      let (isComplete, conf) :=
        Import.all (datapoints.map importDatapoint) { conf with lastTSAddr := 0 }
      { conf with
        exchangeDataIsComplete :=
          (info.stringAt "name").isSome && (info.stringAt "version").isSome && isComplete }

/-- **The configuration of two texts.**  An empty text is not imported, which leaves the same as
importing it: nothing. -/
def HNZConf.ofTexts (protocolConf msgConf : Text) : HNZConf :=
  importExchangedDataJson msgConf (importConfigJson protocolConf {})

/-! ## Documents -/

/-- The text of a protocol stack with one path and this application layer. -/
def Text.stack (applicationLayer : List (String × Json)) : Text :=
  .json (.object [("protocol_stack", .object [
    ("name", .string "hnzsouth"), ("version", .string "1.0"),
    ("transport_layer", .object [
      ("connections", .array [.object [("srv_ip", .string "192.168.0.10")]])]),
    ("application_layer", .object applicationLayer)])])

/-- A datapoint of HNZ, with its subtypes. -/
def Json.hnzDatapoint (label typeid address : String) (subtypes : List Json) : Json :=
  .object [("label", .string label), ("pivot_id", .string "ID"), ("pivot_type", .string "SpsTyp"),
    ("pivot_subtypes", .array subtypes),
    ("protocols", .array [.object [("name", .string "hnzip"), ("address", .string address),
      ("typeid", .string typeid)]])]

/-- The text of these datapoints. -/
def Text.exchanged (datapoints : List Json) : Text :=
  .json (.object [("exchanged_data", .object [("name", .string "SAMPLE"),
    ("version", .string "1.0"), ("datapoints", .array datapoints)])])

end Hnz
