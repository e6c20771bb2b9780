import HnzSouth.Model.Link
import HnzSouth.Model.Clock
import HnzSouth.Model.Reading

/-!
# Model/System — the plugin, its connection, its two paths, and the arbiter

`HNZ` is the plugin object, `HNZConnection` the connection with its paths; a `System` is the two of
them, while the connection exists.  Every method of the source that reaches beyond its own object
is a function of the whole system.

The arbiter is `requestConnectionState`: it decides which path is active and keeps, in
`firstInputConnected`, the path that may extract messages while none is.
-/

namespace Hnz

/-! ## Data -/

/-- **A path**: its link, and the state the arbiter gave it. -/
structure HNZPath extends Link where
  connectionState : ConnectionState := .disconnected
  deriving DecidableEq, Repr

/-- **The connection.**  `path` is `m_paths`; a slot the configuration leaves empty holds an unused
value (`HNZConf.configured`).  `giNotified` is history: the number of calls of `notifyGIsent`. -/
structure HNZConnection where
  conf : HNZConf := {}
  path : PathId → HNZPath := fun _ => {}
  activePath : Option PathId := none
  /-- The first path in protocol state `inputConnected`. -/
  firstInputConnected : Option PathId := none
  isRunning : Bool := false
  current : Nat := 0
  elapsedTimeMs : Nat := 0
  daysSinceEpoch : Nat := 0
  /-- The init messages (date, time, GI) have to be sent. -/
  sendInitNexConnection : Bool := true
  giRepeat : Nat := 0
  giStartTime : Int := 0
  giRepeatCountMax : Int := 0
  giTimeMax : Int := 0
  giSchedule : GIScheduleFormat := {}
  giScheduleAlreadySent : Bool := false
  giScheduledTime : Int := 0
  repeatTimeout : Int := 0
  giNotified : Nat := 0

/-- **The plugin object.**  `readings` and `audits` are what Fledge was given, in order. -/
structure HNZ where
  conf : HNZConf := {}
  remoteAddress : Nat := 0
  testMsgReceive : BulleFormat := {}
  /-- The addresses of the TS received in response to a GI. -/
  giAddressesReceived : List Nat := []
  /-- The section of ten minutes of the remote day. -/
  daySection : UInt8 := 0
  serviceName : String := ""
  connStatus : ConnectionStatus := .notConnected
  giStatus : GiStatus := .idle
  /-- A GI is wanted once the running one has ended. -/
  giInQueue : Bool := false
  qualityUpdateTimer : Int := 0
  readings : List Reading := []
  audits : List Audit := []

/-- `m_qualityUpdateTimeoutMs`. -/
def qualityUpdateTimeoutMs : Int := 500

/-- **The plugin while it has a connection.** -/
structure System where
  hnz : HNZ
  connection : HNZConnection

namespace System

/-- The path in a slot. -/
def path (s : System) (p : PathId) : HNZPath := s.connection.path p

/-- The slot holds a path. -/
def configured (s : System) (p : PathId) : Bool := s.connection.conf.configured p

/-- The settings of a path. -/
def pathConf (s : System) (p : PathId) : PathConf := s.connection.conf.pathConf p

/-- A write to one path. -/
def modifyPath (p : PathId) (f : HNZPath → HNZPath) (s : System) : System :=
  { s with connection.path := Function.update s.connection.path p (f (s.connection.path p)) }

/-- A write to one path that leaves the arbiter's field alone. -/
def modifyLink (p : PathId) (f : Link → Link) (s : System) : System :=
  s.modifyPath p fun x => { x with toLink := f x.toLink }

/-! ## Outputs -/

/-- `m_sendToFledge`. -/
def sendToFledge (readings : List Reading) (s : System) : System :=
  { s with hnz.readings := s.hnz.readings ++ readings }

def audit (level : AuditLevel) (text : String) (s : System) : System :=
  { s with hnz.audits := s.hnz.audits ++ [⟨level, text⟩] }

def sendAuditSuccess (p : PathId) (s : System) : System :=
  let activePassive := if (s.path p).connectionState = .active then "active" else "passive"
  s.audit .success (s.hnz.serviceName ++ "-" ++ p.letter ++ "-" ++ activePassive)

def sendAuditFail (p : PathId) (s : System) : System :=
  s.audit .fail (s.hnz.serviceName ++ "-" ++ p.letter ++ "-disconnected")

/-- `m_sendSouthMonitoringEvent`: the connection status, the GI status, or both. -/
def sendSouthMonitoringEvent (connxStatus giStatus : Bool) (s : System) : System :=
  let asset := s.hnz.conf.connxStatus
  if asset = "" then s
  else if !connxStatus && !giStatus then s
  else
    let connx : List (String × DatapointValue) :=
      match s.hnz.connStatus with
      | .notConnected => [("connx_status", .str "not connected")]
      | .started => [("connx_status", .str "started")]
    let gi : List (String × DatapointValue) :=
      match s.hnz.giStatus with
      | .started => [("gi_status", .str "started")]
      | .inProgress => [("gi_status", .str "in progress")]
      | .failed => [("gi_status", .str "failed")]
      | .finished => [("gi_status", .str "finished")]
      | .idle => [("gi_status", .str "idle")]
    s.sendToFledge
      [⟨asset, "south_event", (if connxStatus then connx else []) ++ (if giStatus then gi else [])⟩]

/-! ## The two statuses -/

/-- `HNZ::updateConnectionStatus`. -/
def hnzUpdateConnectionStatus (newState : ConnectionStatus) (s : System) : System :=
  if s.hnz.connStatus = newState then s
  else
    let timer := if newState = .notConnected then qualityUpdateTimeoutMs else 0
    let s := { s with hnz.connStatus := newState, hnz.qualityUpdateTimer := timer }
    let s := s.sendSouthMonitoringEvent true false
    if newState = .started then s.audit .success (s.hnz.serviceName ++ "-connected")
    else s.audit .fail (s.hnz.serviceName ++ "-disconnected")

/-- `HNZConnection::updateConnectionStatus`: a lost connection asks for new init messages. -/
def updateConnectionStatus (newState : ConnectionStatus) (s : System) : System :=
  let s := s.hnzUpdateConnectionStatus newState
  if newState = .notConnected then { s with connection.sendInitNexConnection := true } else s

/-- `updateGiStatus`. -/
def updateGiStatus (newState : GiStatus) (s : System) : System :=
  if s.hnz.giStatus = newState then s
  else { s with hnz.giStatus := newState }.sendSouthMonitoringEvent false true

/-! ## The arbiter -/

/-- `HNZPath::setConnectionState`, with its audits. -/
def setConnectionState (p : PathId) (newState : ConnectionState) (s : System) : System :=
  let oldState := (s.path p).connectionState
  if newState = oldState then s
  else
    let s := s.modifyPath p fun x => { x with connectionState := newState }
    if newState = .passive ∨ newState = .active then s.sendAuditSuccess p
    else if (oldState ≠ .pendingHnz ∧ newState = .disconnected) ∨
        (oldState ≠ .disconnected ∧ newState = .pendingHnz) then s.sendAuditFail p
    else s

/-- `m_active_path = path`. -/
def setActivePath (p : PathId) (s : System) : System :=
  { s with connection.activePath := some p }

/-- The active path is given up, and the running GI with it. -/
def clearActivePath (s : System) : System :=
  { s with connection.activePath := none, connection.giRepeat := 0 }

/-- `tryActivateOtherPath`; the loop over the two slots only considers the other one. -/
def tryActivateOtherPath (p : PathId) (s : System) : Bool × System :=
  if !s.connection.isRunning then (false, s)
  else if s.configured p.other && (s.path p.other).connectionState == .passive then
    let s := (s.setActivePath p.other).setConnectionState p.other .active
    (true, s.updateConnectionStatus .started)
  else (false, s)

/-- The first part of `requestConnectionState`: which path was `inputConnected` first. -/
def trackFirstInput (p : PathId) (s : System) : System :=
  let state := (s.path p).protocolState
  if s.connection.firstInputConnected = none ∧
      (state = .inputConnected ∨ state = .connected) then
    { s with connection.firstInputConnected := some p }
  else if s.connection.firstInputConnected = some p ∧
      (state = .connection ∨ state = .outputConnected) then
    { s with connection.firstInputConnected := none }
  else s

/-- The path leaves: the active one hands over to the other, or the connection is lost. -/
def leave (p : PathId) (newState : ConnectionState) (s : System) : System :=
  let s := s.setConnectionState p newState
  if s.connection.activePath = some p then
    let (found, s) := s.clearActivePath.tryActivateOtherPath p
    if !found then s.updateConnectionStatus .notConnected else s
  else s

/-- **The arbiter**, `requestConnectionState`. -/
def requestConnectionState (p : PathId) (newState : ConnectionState) (s : System) : System :=
  let s := s.trackFirstInput p
  if newState = .active then
    if s.connection.activePath = none then
      ((s.setActivePath p).setConnectionState p .active).updateConnectionStatus .started
    else s.setConnectionState p .passive
  else s.leave p newState

/-- `canPathExtractMessage`: the active path, or the first one with its input connected while there
is no active path. -/
def canPathExtractMessage (s : System) (p : PathId) : Bool :=
  s.connection.activePath == some p ||
    (s.connection.firstInputConnected == some p && s.connection.activePath == none)

/-! ## Transitions -/

/-- What an action asks of the arbiter, before it touches the path. -/
def requestOf : Action → Option ConnectionState
  | .setConnectionPending => some .pendingHnz
  | .resolveProtocolStateConnected => some .active
  | .resolveProtocolStateConnection => some .disconnected
  | _ => none

/-- An action: its request to the arbiter, if it has one, then its effect on the path. -/
def runAction (p : PathId) (now : Instant) (s : System) (a : Action) : System :=
  let s := match requestOf a with
    | some state => s.requestConnectionState p state
    | none => s
  s.modifyLink p (Link.act now.ms a)

/-- **A transition of the protocol automaton of one path**, executed atomically. -/
def protocolStateTransition (p : PathId) (e : ConnectionEvent) (now : Instant) (s : System) :
    System :=
  match transitionMap (s.path p).protocolState e with
  | none => s
  | some (st, acts) =>
    acts.foldl (runAction p now) (s.modifyLink p fun l => { l with protocolState := st })

end System

end Hnz
