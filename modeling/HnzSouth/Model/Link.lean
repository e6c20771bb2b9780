import HnzSouth.Model.Conf

/-!
# Model/Link — one path, without the arbiter

A `Link` is an `HNZPath` except for its connection state, which only the arbiter writes: the
protocol state, the two queues, the three sequence numbers, the timers.  Its operations are the
methods of `HNZPath` that touch nothing else; `Model/System` adds the arbiter.

Two fields are history: `frames` is what the HNZ client was given to send, `taken` the payloads
`m_sendInfo` did not discard.  A message carries its place in `taken`, and a frame the place of the
message it carries, so that a frame can be traced to its submission.

An operation reads the clock once: `now` is its time, in milliseconds.
-/

namespace Hnz

/-! ## Data -/

/-- An information message: its number in sending, its payload, its place in `taken`. -/
structure Message where
  ns : Fin 8
  payload : List UInt8
  id : Nat
  deriving DecidableEq, Repr

/-- A sent command that waits for its acknowledgement. -/
structure CommandMessage where
  type : String
  addr : Int
  timestampMax : Nat
  deriving DecidableEq, Repr

/-- A frame given to the HNZ client: address, bytes (type byte first), and the message it carries
when it is an information frame. -/
structure Frame where
  address : UInt8
  bytes : List UInt8
  origin : Option Nat
  deriving DecidableEq, Repr

/-- **A path, without the arbiter's part.**  `nr`, `ns` and `nrr` are numbers modulo 8. -/
structure Link where
  protocolState : ProtocolState := .connection
  /-- Messages not yet sent. -/
  msgWaiting : List Message := []
  /-- Messages sent and not acknowledged. -/
  msgSent : List Message := []
  /-- Commands sent and not acknowledged. -/
  commandSent : List CommandMessage := []
  lastSentTime : Int := 0
  /-- Number in reception. -/
  nr : Fin 8 := 0
  /-- Number in sending. -/
  ns : Fin 8 := 0
  /-- Last acknowledged number (`m_NRR`). -/
  nrr : Fin 8 := 0
  lastMsgTime : Int := 0
  lastMsgSentTime : Int := 0
  lastSarmSentTime : Int := 0
  /-- Time of the last transition to `connected`. -/
  lastConnected : Int := 0
  nbrSarmSent : Int := 0
  /-- How often the first unacknowledged message was resent (`m_repeat`). -/
  repeats : Nat := 0
  tcpConnected : Bool := false
  frames : List Frame := []
  taken : List (List UInt8) := []
  deriving DecidableEq, Repr

/-! ## The automaton -/

/-- The actions of the transition table. -/
inductive Action
  | setConnectionPending
  | resetInputVariables
  | resetOutputVariables
  | resetSarmCounters
  | stopTCP
  | discardMessages
  | resolveProtocolStateConnected
  | resolveProtocolStateConnection
  deriving DecidableEq, Repr

open ProtocolState ConnectionEvent Hnz.Action in
/-- **The transition table** `m_protocolStateTransitionMap`: the next state and the actions in
order; the pairs it leaves out are ignored events. -/
def transitionMap : ProtocolState → ConnectionEvent → Option (ProtocolState × List Action)
  | connection, receivedSarm => some (inputConnected, [setConnectionPending, resetInputVariables])
  | connection, receivedUa => some (outputConnected, [setConnectionPending, resetOutputVariables])
  | connection, maxSarmSent => some (connection, [stopTCP, resolveProtocolStateConnection])
  | connection, toRecv => some (connection, [stopTCP, resolveProtocolStateConnection])
  | inputConnected, receivedSarm =>
    some (inputConnected, [setConnectionPending, resetInputVariables])
  | inputConnected, toRecv => some (connection, [resolveProtocolStateConnection])
  | inputConnected, receivedUa =>
    some (connected, [resetOutputVariables, resolveProtocolStateConnected])
  | inputConnected, maxSarmSent => some (connection, [stopTCP, resolveProtocolStateConnection])
  | outputConnected, receivedSarm =>
    some (connected, [resetInputVariables, resolveProtocolStateConnected])
  | outputConnected, maxSend =>
    some (connection, [resetSarmCounters, discardMessages, resolveProtocolStateConnection])
  | connected, maxSend =>
    some (inputConnected,
      [setConnectionPending, resetSarmCounters, discardMessages, resetInputVariables])
  | connected, toTcack =>
    some (inputConnected,
      [setConnectionPending, resetSarmCounters, discardMessages, resetInputVariables])
  | connected, receivedSarm =>
    some (inputConnected,
      [setConnectionPending, resetSarmCounters, discardMessages, resetInputVariables])
  | connected, toRecv =>
    some (outputConnected, [setConnectionPending, discardMessages, resetOutputVariables])
  | connection, tcpCnxLost => some (connection, [resolveProtocolStateConnection])
  | inputConnected, tcpCnxLost => some (connection, [resolveProtocolStateConnection])
  | outputConnected, tcpCnxLost =>
    some (connection, [discardMessages, resolveProtocolStateConnection])
  | connected, tcpCnxLost => some (connection, [resolveProtocolStateConnection, discardMessages])
  | _, _ => none

namespace Link

variable (c : PathConf) (now : Int)

/-! ## Resets -/

def resetSarmCounters (l : Link) : Link := { l with nbrSarmSent := 0, lastMsgTime := now }

def resetOutputVariables (l : Link) : Link := { l with ns := 0, nrr := 0, repeats := 0 }

def resetInputVariables (l : Link) : Link := { l with nr := 0, lastMsgTime := now }

def discardMessages (l : Link) : Link := { l with msgSent := [], msgWaiting := [] }

def stopTCP (l : Link) : Link := { l with tcpConnected := false }

/-- What `resolveProtocolStateConnected` does after its request to the arbiter. -/
def markConnected (l : Link) : Link := { l with lastConnected := now }

/-- What `resolveProtocolStateConnection` does after its request to the arbiter. -/
def reinitialize (l : Link) : Link :=
  { (((l.resetInputVariables now).resetOutputVariables).resetSarmCounters now) with
    lastSarmSentTime := 0 }

/-- An action's effect on the path itself; the arbiter's part is left out. -/
def act : Action → Link → Link
  | .setConnectionPending, l => l
  | .resetInputVariables, l => l.resetInputVariables now
  | .resetOutputVariables, l => l.resetOutputVariables
  | .resetSarmCounters, l => l.resetSarmCounters now
  | .stopTCP, l => l.stopTCP
  | .discardMessages, l => l.discardMessages
  | .resolveProtocolStateConnected, l => l.markConnected now
  | .resolveProtocolStateConnection, l => l.reinitialize now

/-- **A transition, without the arbiter's part**: the new protocol state, then the actions in
order. -/
def transition (e : ConnectionEvent) (l : Link) : Link :=
  match transitionMap l.protocolState e with
  | none => l
  | some (st, acts) => acts.foldl (fun l a => l.act now a) { l with protocolState := st }

/-! ## Sending -/

/-- `m_sendFrame`: SARM and information frames carry the ARP address, UA and RR the PA address. -/
def sendFrame (bytes : List UInt8) (usePAAddr : Bool) (origin : Option Nat) (l : Link) : Link :=
  { l with
    frames := l.frames ++ [⟨if usePAAddr then c.addressPA else c.addressARP, bytes, origin⟩]
    lastMsgSentTime := now }

section
variable [Platform]

def sendSARM (l : Link) : Link :=
  let l := l.sendFrame c now [Platform.sarmCode] false none
  { l with nbrSarmSent := l.nbrSarmSent + 1, lastSarmSentTime := now }

def sendUA (l : Link) : Link := l.sendFrame c now [Platform.uaCode] true none

end

/-- The protocol state allows the message: it is `connected`, or `outputConnected` and the message
is a BULLE. -/
def admits (l : Link) (msg : List UInt8) : Bool :=
  l.protocolState == .connected || (l.protocolState == .outputConnected && c.isBULLE msg)

/-- `m_sendInfoImmediately`: number the message, send it, keep it until its acknowledgement. -/
def sendInfoImmediately (m : Message) (l : Link) : Bool × Link :=
  if !l.admits c m.payload then (false, l)
  else
    let l := l.sendFrame c now (infoType l.nr l.ns false :: m.payload) false (some m.id)
    (true,
      { l with
        lastSentTime := if l.msgSent.isEmpty then now else l.lastSentTime
        msgSent := l.msgSent ++ [{ m with ns := l.ns }]
        ns := l.ns + 1 })

/-- `m_sendInfo`: discard, send, or — the window being full — queue.  `true` only if sent. -/
def sendInfo (msg : List UInt8) (l : Link) : Bool × Link :=
  if !l.admits c msg then (false, l)
  else
    let m : Message := ⟨0, msg, l.taken.length⟩
    let l := { l with taken := l.taken ++ [msg] }
    if l.msgSent.length < c.anticipationRatio then l.sendInfoImmediately c now m
    else (false, { l with msgWaiting := l.msgWaiting ++ [m] })

def sendBULLE (l : Link) : Link :=
  (l.sendInfo c now [c.testMsgSend.first, c.testMsgSend.second]).2

/-- `sendBackInfo`: the same frame again, with the P bit. -/
def sendBackInfo (m : Message) (l : Link) : Link :=
  let l := { l with repeats := l.repeats + 1 }
  let l := l.sendFrame c now (infoType l.nr m.ns true :: m.payload) false (some m.id)
  { l with lastSentTime := now }

/-! ## Acknowledgements -/

/-- `m_isNRValid`: `m_NRR ≤ nr ≤ m_ns` modulo 8, by cases as in the source. -/
def isNRValid (l : Link) (nr : Fin 8) : Bool :=
  if nr ≠ l.nrr then
    let frameOk := l.nrr < nr && nr ≤ l.ns
    if l.ns < l.nrr then
      if l.nrr < nr then true
      else if nr ≤ l.ns then true
      else frameOk
    else frameOk
  else true

/-- The loop at the end of `m_NRAccepted`, over the waiting messages: send while the window is
open.  A refused message stays at the head of the queue, and the loop never ends. -/
def releaseWaiting : List Message → Link → Result Link
  | [], l => .ok { l with msgWaiting := [] }
  | m :: ms, l =>
    if l.msgSent.length < c.anticipationRatio then
      match l.sendInfoImmediately c now m with
      | (true, l) => releaseWaiting ms l
      | (false, _) => .error .hang
    else .ok { l with msgWaiting := m :: ms }

/-- `m_NRAccepted`: forget the acknowledged messages, then send the waiting ones. -/
def nrAccepted (nr : Fin 8) (l : Link) : Result Link :=
  let nrOffset := (((nr.val - l.nrr.val : Int).tmod 8 + 8).tmod 8).toNat
  let sent := l.msgSent.drop nrOffset
  let l :=
    { l with
      msgSent := sent
      nrr := nr
      repeats := 0
      lastSentTime := if sent.isEmpty then l.lastSentTime else now }
  releaseWaiting c now l.msgWaiting l

/-- `m_receivedRR`: `false` when the NR is invalid or the repetition unexpected. -/
def receivedRR (nr : Fin 8) (repetition : Bool) (l : Link) : Result (Bool × Link) :=
  if nr ≠ l.nrr then
    if l.isNRValid nr then
      if !repetition || 0 < l.repeats then do
        let l ← l.nrAccepted c now nr
        return (true, l)
      else return (false, l)
    else return (false, l)
  else return (true, l)

/-- `m_sendRR`: take the frame's NR as an acknowledgement, then acknowledge the frame — only when
its NS is the expected one, and once more when it is a repetition. -/
def sendRR (repetition : Bool) (ns nr : Fin 8) (l : Link) : Result (Bool × Link) := do
  let (valid, l) ← l.receivedRR c now nr false
  if !valid then return (false, l)
  let l :=
    if ns = l.nr then
      let l := { l with nr := l.nr + 1 }
      l.sendFrame c now [rrType l.nr repetition] true none
    else if repetition then l.sendFrame c now [rrType l.nr true] true none
    else l
  return (true, { l with lastMsgTime := now })

def receivedBULLE (l : Link) : Link := { l with lastMsgTime := now }

/-! ## Retransmission -/

/-- What the timer does about the first unacknowledged message. -/
inductive Timeout
  | none
  | maxSend
  | resend (m : Message)
  deriving DecidableEq, Repr

/-- The decision of `m_check_timer`; `current` is the time its thread last read, and the two
operands of the comparison are unsigned. -/
def timeout (repeatTimeout : Int) (current : Nat) (l : Link) : Timeout :=
  match l.msgSent with
  | [] => .none
  | m :: _ =>
    if l.tcpConnected && u64 (l.lastSentTime + repeatTimeout) < current then
      if c.repeatMax ≤ l.repeats then .maxSend else .resend m
    else .none

/-- The retransmission: send back the first message, move the others back to the waiting queue. -/
def resend (m : Message) (l : Link) : Link :=
  let l := l.sendBackInfo c now m
  { l with msgSent := l.msgSent.take 1, msgWaiting := l.msgSent.drop 1 ++ l.msgWaiting }

/-! ## Supervision frames and commands -/

section
variable [Platform]

/-- `m_receivedSARM`, without the arbiter's part: always answer, then connect unless the last
connection is too recent. -/
def receivedSARM (l : Link) : Link :=
  let l := l.sendUA c now
  if now - l.lastConnected > c.repeatTimeout then l.transition now .receivedSarm else l

/-- The bytes of a TC command. -/
def tcPayload (adO : UInt8) (adB : Nat) (value : UInt8) : List UInt8 :=
  [Platform.tcCode, adO, UInt8.ofNat ((value &&& 0x3).toNat <<< 3 ||| adB <<< 5)]

/-- The bytes of a TVC command. -/
def tvcPayload (address : UInt8) (value : Int) : List UInt8 :=
  [Platform.tvcCode, address &&& 0x1F, u8 (if 0 ≤ value then value else -value) &&& 0x7F,
    if 0 ≤ value then 0 else 0x80]

end

/-- `m_registerCommandIfSent`. -/
def registerCommandIfSent (type : String) (sent : Bool) (address : Int) (l : Link) : Link :=
  if !sent then l
  else { l with commandSent := ⟨type, address, u64 (now + c.cAckTimeMax)⟩ :: l.commandSent }

/-- `receivedCommandACK`: every command of that type and address is acknowledged. -/
def receivedCommandACK (type : String) (addr : Int) (l : Link) : Link :=
  { l with commandSent := l.commandSent.filter fun cmd => !(cmd.type == type && cmd.addr == addr) }

/-- `m_check_command_timer`: the commands that were not acknowledged in time are dropped. -/
def checkCommandTimer (current : Nat) (l : Link) : Link :=
  { l with commandSent := l.commandSent.filter fun cmd => !(cmd.timestampMax < current) }

end Link

end Hnz
