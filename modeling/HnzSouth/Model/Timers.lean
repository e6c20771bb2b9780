import HnzSouth.Model.Reception

/-!
# Model/Timers — the two threads that watch the clock

`m_manageMessages` checks, for each path, the acknowledgements of its messages and of its commands;
`m_manageHNZProtocolState` keeps the protocol alive with SARM and BULLE.
-/

namespace Hnz

namespace System

variable [Platform]

/-! ## Messages -/

/-- The first part of `m_check_timer`: retransmit, or give up. -/
def checkRepeat (p : PathId) (now : Instant) (s : System) : System :=
  match (s.path p).toLink.timeout (s.pathConf p) s.connection.repeatTimeout
      s.connection.current with
  | .none => s
  | .maxSend => s.protocolStateTransition p .maxSend now
  | .resend m => s.modifyLink p (Link.resend (s.pathConf p) now.ms m)

/-- The second part: the init messages of a path that has been connected long enough. -/
def checkInit (p : PathId) (now : Instant) (s : System) : System :=
  let x := s.path p
  if x.protocolState = .connected ∧ 0 < x.lastConnected ∧
      now.ms - x.lastConnected ≥ s.connection.repeatTimeout then
    if x.connectionState = .active ∧ s.connection.sendInitNexConnection then
      let s := s.sendInitMessages p now
      { s with connection.sendInitNexConnection := false }
    else s.modifyLink p fun l => { l with lastConnected := 0 }
  else s

/-- **`m_check_timer`.** -/
def checkTimer (p : PathId) (now : Instant) (s : System) : System :=
  (s.checkRepeat p now).checkInit p now

/-- `m_check_command_timer`. -/
def checkCommandTimer (p : PathId) (s : System) : System :=
  s.modifyLink p (Link.checkCommandTimer s.connection.current)

/-! ## The protocol -/

/-- `m_manageHNZProtocolState` while the input or the output is not connected: SARM until the other
side answers.  Also the milliseconds to sleep. -/
def manageUnconnected (p : PathId) (now : Instant) (s : System) : Int × System :=
  let c := s.pathConf p
  let l := s.path p
  if now.ms - l.lastMsgTime ≤ int32 (c.inaccTimeout * 1000) then
    let sinceLastSarm := now.ms - l.lastSarmSentTime
    if sinceLastSarm < c.repeatTimeout then (c.repeatTimeout - sinceLastSarm, s)
    else
      let s :=
        if l.nbrSarmSent = c.maxSarm then s.protocolStateTransition p .maxSarmSent now else s
      (c.repeatTimeout, s.modifyLink p (Link.sendSARM c now.ms))
  else (1000, s.protocolStateTransition p .toRecv now)

/-- The other half: BULLE when nothing else was sent, and the silence of the other side. -/
def manageConnected (p : PathId) (now : Instant) (s : System) : Int × System :=
  let c := s.pathConf p
  let l := s.path p
  let sinceLastMsg := now.ms - l.lastMsgTime
  let sinceLastMsgSent := now.ms - l.lastMsgSentTime
  let bulleTime : Int := (c.bulleTime * 1000 % 2 ^ 32 : Nat)
  let (sleep, s) :=
    if sinceLastMsgSent ≥ bulleTime then
      (bulleTime, s.modifyLink p (Link.sendBULLE c now.ms))
    else (bulleTime - sinceLastMsgSent, s)
  if sinceLastMsg > int32 (c.inaccTimeout * 1000) ∧ l.protocolState = .connected then
    (10, s.protocolStateTransition p .toRecv now)
  else (sleep, s)

/-- **`m_manageHNZProtocolState`.** -/
def manageHNZProtocolState (p : PathId) (now : Instant) (s : System) : Int × System :=
  match (s.path p).protocolState with
  | .connection | .inputConnected => s.manageUnconnected p now
  | .connected | .outputConnected => s.manageConnected p now

/-! ## The TCP connection -/

/-- `connect`, once the client has its connection. -/
def connect (p : PathId) (now : Instant) (s : System) : System :=
  s.modifyLink p fun l =>
    { l with lastMsgTime := now.ms, lastMsgSentTime := now.ms, tcpConnected := true }

/-- `disconnect`. -/
def disconnect (p : PathId) (now : Instant) (s : System) : System :=
  (s.protocolStateTransition p .tcpCnxLost now).modifyLink p Link.stopTCP

/-- The client finds its connection closed. -/
def loseTCP (p : PathId) (s : System) : System := s.modifyLink p Link.stopTCP

end System

end Hnz
