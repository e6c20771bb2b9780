import HnzSouth.Model.Step

/-!
# Model/Plugin — start, stop, and a new configuration

The plugin object outlives its connections: `stop` destroys the connection, a new configuration
builds another one, and the fields of `HNZ` stay as they were.
-/

namespace Hnz

open Machinery

/-! ## The connection's life -/

namespace System

/-- The constructor of `HNZPath`, or the audit of a slot without a path. -/
def createPath (now : Instant) (s : System) (p : PathId) : System :=
  if s.configured p then (s.sendAuditFail p).runAction p now .resolveProtocolStateConnection
  else s.audit .info (s.hnz.serviceName ++ "-" ++ p.letter ++ "-unused")

/-- **The constructor of `HNZConnection`**; without a configured path the connection stays stopped. -/
def create (hnz : HNZ) (now : Instant) : System :=
  let s : System := { hnz := hnz, connection := { conf := hnz.conf } }
  if !s.configured .A && !s.configured .B then s
  else
    let s := [PathId.A, PathId.B].foldl (createPath now) s
    let s := s.audit .fail (s.hnz.serviceName ++ "-disconnected")
    { s with
      connection.giRepeatCountMax := int32 hnz.conf.giRepeatCount.toNat
      connection.giTimeMax := int32 (hnz.conf.giTime * 1000).toNat
      connection.giSchedule := hnz.conf.giSchedule
      connection.repeatTimeout := int32 hnz.conf.repeatTimeout.toNat
      connection.isRunning := true }

/-- `HNZConnection::stop`. -/
def stop (now : Instant) (s : System) : System :=
  let s := { s with connection.isRunning := false }
  [PathId.A, PathId.B].foldl
    (fun s p => if s.configured p then s.disconnect p now else s) s

end System

/-! ## The plugin -/

/-- **The plugin**, with a connection or without. -/
structure Plugin where
  hnz : HNZ := {}
  connection : Option HNZConnection := none
  isRunning : Bool := false
  shouldRun : Bool := false

namespace Plugin

/-- `HNZ::stop`. -/
def stop (requestedStop : Bool) (now : Instant) (pl : Plugin) : Plugin :=
  let hnz := match pl.connection with
    | none => pl.hnz
    | some connection => (System.stop now ⟨pl.hnz, connection⟩).hnz
  { hnz := hnz
    connection := none
    isRunning := false
    shouldRun := if requestedStop then false else pl.shouldRun }

/-- `HNZ::start`.  The readings are sent first, and do not need the connection; then it is used
without a check. -/
def start (requestedStart : Bool) (now : Instant) (pl : Plugin) : Result Plugin := do
  let pl := if requestedStart then { pl with shouldRun := true } else pl
  if pl.isRunning then return pl
  else if !pl.hnz.conf.isComplete then return pl
  else
    let s : System := ⟨pl.hnz, pl.connection.getD {}⟩
    let s ← s.sendAllTMQualityReadings true false
    let s ← s.sendAllTSQualityReadings true false [] now
    match pl.connection with
    | none => throw .nullPath
    | some _ =>
      let s := s.startSchedule now
      return { pl with hnz := s.hnz, connection := some s.connection, isRunning := true }

/-- The destructor of a connection that is replaced while it runs. -/
def destroyConnection (connection : Option HNZConnection) (now : Instant) (hnz : HNZ) : HNZ :=
  match connection with
  | none => hnz
  | some connection =>
    if connection.isRunning then (System.stop now ⟨hnz, connection⟩).hnz else hnz

/-- **`setJsonConfig`**, with `conf` the configuration that the two documents import to. -/
def setJsonConfig (conf : HNZConf) (serviceName : String) (now : Instant) (pl : Plugin) :
    Result (Bool × Plugin) := do
  let pl := if pl.isRunning then pl.stop false now else pl
  let name := if serviceName = "" then pl.hnz.serviceName else serviceName
  let pl := { pl with hnz.serviceName := name, hnz.conf := conf }
  if !conf.isComplete then return (false, pl)
  let hnz := { pl.hnz with
    remoteAddress := conf.remoteStationAddr.toNat, testMsgReceive := conf.testMsgReceive }
  let s := System.create hnz now
  let hnz := destroyConnection pl.connection now s.hnz
  let pl := { pl with hnz := hnz, connection := some s.connection }
  if !s.connection.isRunning then return (false, pl)
  if pl.shouldRun then return (true, ← pl.start false now)
  else return (true, pl)

/-- **What happens to a plugin**: an event of its running connection, a new configuration, a start,
a stop. -/
inductive Call
  | event (ev : Event)
  | setJsonConfig (conf : HNZConf) (serviceName : String) (now : Instant)
  | start (now : Instant)
  | stop (now : Instant)

/-- A start, after which path A has its input connected. -/
def listening : List Call :=
  [.setJsonConfig .sample "hnz" 0, .start 0, .event (.connect .A 0),
    .event (.protocol .A .receivedSarm 0)]

variable [Platform]

/-- One step of the plugin. -/
def step (pl : Plugin) : Call → Option Plugin
  | .event ev =>
    match pl.connection with
    | none => none
    | some connection =>
      (System.step ⟨pl.hnz, connection⟩ ev).map fun s =>
        { pl with hnz := s.hnz, connection := some s.connection }
  | .setJsonConfig conf serviceName now => ((pl.setJsonConfig conf serviceName now).map Prod.snd).toOption
  | .start now => (pl.start true now).toOption
  | .stop now => some (pl.stop true now)

/-- The steps as a relation. -/
abbrev Step : Plugin → Call → Plugin → Prop := Det step

end Plugin

/-- **A state of a running connection** that the plugin can reach. -/
def System.Reachable [Platform] (s : System) : Prop :=
  s.connection.isRunning = true ∧
    ∃ calls pl, Run Plugin.Step {} calls pl ∧ pl.hnz = s.hnz ∧ pl.connection = some s.connection

end Hnz
