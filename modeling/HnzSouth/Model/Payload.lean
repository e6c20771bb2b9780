import HnzSouth.Model.Link

/-!
# Model/Payload — the messages of an information frame

`m_extract_messages` walks the payload with a pointer and the number of bytes it believes are left.
Here the pointer is the list of bytes from it to the end of the frame, so that a read past the end
is a `badRead`; the count is the signed number of the source, which nothing keeps equal to the bytes
of the payload that are left.
-/

namespace Hnz

variable [Platform]

/-- The fixed length of a message of a known type. -/
def fixedLength (t : UInt8) : Option Nat :=
  if t = Platform.tm4Code then some 6
  else if t = Platform.tsceCode then some 5
  else if t = Platform.tscgCode then some 6
  else if t = Platform.tmnCode then some 7
  else if t = Platform.moduloCode then some 2
  else if t = Platform.tcackCode then some 3
  else if t = Platform.tvcackCode then some 4
  else none

/-- The message at the head of `data` is the BULLE of the configuration.  The second byte is read
only when the first one agrees. -/
def isReceivedBULLE (bulle : BulleFormat) (t : UInt8) (data : List UInt8) : Result Bool :=
  if t = bulle.first then do return (← readByte data 1) == bulle.second else return false

/-- `convertPayloadToVector`: the first `size` bytes.  The loop compares its unsigned counter with
`size`, so that a negative size reads without end. -/
def convertPayloadToVector (data : List UInt8) (size : Int) : Result (List UInt8) :=
  if u64 size ≤ data.length then .ok (data.take (u64 size)) else .error .badRead

/-- The switch of `m_extract_messages`: the length of the message at the head of `data`, and the
path, which a BULLE marks as alive. -/
def nextLength (c : PathConf) (now : Int) (t : UInt8) (data : List UInt8) (payloadSize : Int)
    (l : Link) : Result (Int × Link) :=
  match fixedLength t with
  | some len => .ok (len, l)
  | none => do
    if ← isReceivedBULLE c.testMsgReceive t data then return (2, l.receivedBULLE now)
    else return (payloadSize, l)

/-- `m_extract_messages`, with a bound on its calls. -/
def extractFrom (c : PathConf) (now : Int) :
    Nat → List UInt8 → Int → Link → Result (List (List UInt8) × Link)
  | 0, _, _, _ => .error .badRead
  | fuel + 1, data, payloadSize, l => do
    let t ← readByte data 0
    let (len, l) ← nextLength c now t data payloadSize l
    if len = 0 then return ([], l)
    let message ← convertPayloadToVector data len
    if len = payloadSize then return ([message], l)
    let (rest, l) ← extractFrom c now fuel (data.drop (u64 len)) (payloadSize - len) l
    return (message :: rest, l)

/-- **`m_extract_messages`**.  A call that does not fault has a byte to read and its next call has
fewer, so the number of bytes plus one bounds the calls; when it is spent there is none left. -/
def extractMessages (c : PathConf) (now : Int) (data : List UInt8) (payloadSize : Int) (l : Link) :
    Result (List (List UInt8) × Link) :=
  extractFrom c now (data.length + 1) data payloadSize l

end Hnz
