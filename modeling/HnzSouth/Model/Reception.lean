import HnzSouth.Model.Payload
import HnzSouth.Model.Interrogation

/-!
# Model/Reception — the frames a path receives

A received frame is its bytes: address, type, payload, and two bytes of CRC (already checked).  The
parser is given the bytes after the type, the CRC among them; a read past the CRC is a fault.
-/

namespace Hnz

variable [Platform]

/-- The payload of an information frame of these bytes. -/
def payloadOf (data : List UInt8) : List UInt8 := (data.drop 2).take (data.length - 4)

namespace System

/-- `m_receivedSARM`. -/
def receivedSARM (p : PathId) (now : Instant) (s : System) : System :=
  let s := s.modifyLink p (Link.sendUA (s.pathConf p) now.ms)
  if now.ms - (s.path p).lastConnected > (s.pathConf p).repeatTimeout then
    s.protocolStateTransition p .receivedSarm now
  else s

/-- `m_receivedUA`. -/
def receivedUA (p : PathId) (now : Instant) (s : System) : System :=
  s.protocolStateTransition p .receivedUa now

/-- The messages of an information frame, on the path that extracts them. -/
def extract (p : PathId) (data : List UInt8) (now : Instant) (s : System) :
    Result (List (List UInt8) × System) :=
  if s.canPathExtractMessage p then do
    let (messages, l) ← extractMessages (s.pathConf p) now.ms (data.drop 2) (data.length - 4)
      (s.path p).toLink
    return (messages, s.modifyLink p fun _ => l)
  else return ([], s)

/-- **`m_receivedINFO`**: extract, then acknowledge; an invalid NR drops the messages. -/
def receivedINFO (p : PathId) (data : List UInt8) (now : Instant) (s : System) :
    Result (List (List UInt8) × System) := do
  let type ← readByte data 1
  if (s.path p).protocolState = .outputConnected then return ([], s)
  let (messages, s) ← s.extract p data now
  let (ok, l) ← (s.path p).toLink.sendRR (s.pathConf p) now.ms (pfField type) (nsField type)
    (nrField type)
  let s := s.modifyLink p fun _ => l
  return (if ok then messages else [], s)

/-- `m_receivedRR`, for a supervision frame. -/
def receivedRR (p : PathId) (type : UInt8) (now : Instant) (s : System) : Result System := do
  let (_, l) ← (s.path p).toLink.receivedRR (s.pathConf p) now.ms (nrField type) (pfField type)
  return s.modifyLink p fun _ => l

/-- The A/B bit a frame of this type must have: 0 for SARM and information frames, 1 for UA and
RR. -/
def expectedDirectionBit (type : UInt8) : UInt8 :=
  (if type = Platform.uaCode then 1 else 0) +
    (if type ≠ Platform.sarmCode ∧ type ≠ Platform.uaCode ∧ type &&& 0x01 ≠ 0 then 1 else 0)

/-- **`m_analyze_frame`**: the messages of a received frame. -/
def analyzeFrame (p : PathId) (data : List UInt8) (now : Instant) (s : System) :
    Result (List (List UInt8) × System) := do
  let first ← readByte data 0
  let type ← readByte data 1
  if (s.pathConf p).remoteAddress ≠ (first >>> 2).toNat then return ([], s)
  else if (first >>> 1) &&& 0x01 ≠ expectedDirectionBit type then return ([], s)
  else if type = Platform.uaCode then return ([], s.receivedUA p now)
  else if type = Platform.sarmCode then return ([], s.receivedSARM p now)
  else if (s.path p).protocolState = .connection then return ([], s)
  else if type &&& 0x01 = 0 then s.receivedINFO p data now
  else return ([], ← s.receivedRR p type now)

end System

end Hnz
