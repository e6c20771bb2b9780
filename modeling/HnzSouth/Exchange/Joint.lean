import HnzSouth.Effects.Events
import HnzSouth.Exchange.Session
import HnzSouth.Machinery.Numbering

/-!
# Exchange/Joint — a path and its terminal, from the first SARM on

A session (`Exchange/Session`) begins when both sides are connected.  Here the two sides also
connect: each restarts its numbers with SARM and UA, in any order, again and again, while the plugin
does whatever it does.  The channels are first in, first out, and lose nothing.

The terminal is an assumption, not code: its send number restarts at 0 exactly when its SARM is
answered, and its expected number exactly when it answers a SARM of the path; it sends information
frames between the answer to its SARM and its next SARM, and may repeat any but the next one; it
acknowledges when it likes, or not at all.
-/

namespace Hnz

open Machinery

/-! ## The terminal -/

/-- **The terminal.** -/
structure Terminal where
  /-- The number of its next information frame. -/
  vs : Fin 8 := 0
  /-- The number of the information frame it expects. -/
  vr : Fin 8 := 0
  /-- Its last SARM was answered. -/
  up : Bool := false
  deriving DecidableEq, Repr

/-- What a frame is to the count of the side that receives it. -/
def tally [Platform] : List UInt8 → Tally 8
  | type :: _ =>
    if type = Platform.sarmCode then .restart
    else if type &&& 0x01 = 0 then .numbered (nsField type)
    else .other
  | [] => .other

/-- **The terminal receives a frame** and answers it; an information frame is acknowledged at once, or
not. -/
def Terminal.receive [Platform] (frame : List UInt8) (reply : Bool) (r : Terminal) :
    Terminal × List (List UInt8) :=
  match frame with
  | type :: _ =>
    if type = Platform.sarmCode then ({ r with vr := 0 }, [[Platform.uaCode]])
    else if type = Platform.uaCode then (if r.up then r else { r with vs := 0, up := true }, [])
    else if type &&& 0x01 = 0 then
      let r := if nsField type = r.vr then { r with vr := r.vr + 1 } else r
      (r, if reply then [[rrType r.vr (pfField type)]] else [])
    else (r, [])
  | [] => (r, [])

/-! ## The two together -/

/-- **The joint state**: the plugin, the terminal at the other end of one path, and the frames under
way — type byte and payload — each channel with its oldest frame first. -/
structure Joint where
  system : System
  terminal : Terminal := {}
  toTerminal : List (List UInt8) := []
  toPath : List (List UInt8) := []

/-- The event brings a frame to this path, or fires what only a frame fires. -/
def Event.Received (p : PathId) : Event → Bool
  | .frame q _ _ => q == p
  | .protocol q e _ => q == p && (e == .receivedSarm || e == .receivedUa)
  | _ => false

/-- The address byte of a frame of the terminal: its address, and the direction of the frame. -/
def System.Addressed [Platform] (s : System) (p : PathId) (address type : UInt8) : Bool :=
  (s.pathConf p).remoteAddress == (address >>> 2).toNat &&
    (address >>> 1) &&& 0x01 == expectedDirectionBit type

namespace Joint

/-- **What can happen.** -/
inductive Act
  /-- Anything the plugin does, but for frames on the path. -/
  | event (ev : Event)
  /-- The path takes the next frame; its address and its CRC are on the wire, too. -/
  | deliver (address crc₁ crc₂ : UInt8) (now : Instant)
  /-- The terminal: SARM, an information frame, one more time, RR. -/
  | sarm
  | send (payload : List UInt8) (p : Bool)
  | again (ns : Fin 8) (payload : List UInt8) (p : Bool)
  | acknowledge (f : Bool)
  /-- The terminal takes the next frame. -/
  | answer (reply : Bool)

/-- The plugin is in this state; what it has sent on the path is under way. -/
def emit (p : PathId) (t : System) (x : Joint) : Joint :=
  { x with
    system := t
    toTerminal := x.toTerminal ++ (x.system.path p).toLink.sentSince (t.path p).toLink }

variable [Platform]

/-- **One step.** -/
def step (p : PathId) (x : Joint) : Act → Option Joint
  | .event ev => if ev.Received p then none else (x.system.step ev).map fun t => x.emit p t
  | .deliver address crc₁ crc₂ now =>
    match x.toPath with
    | (type :: payload) :: rest =>
      if x.system.Addressed p address type then
        (x.system.step (.frame p (address :: type :: (payload ++ [crc₁, crc₂])) now)).map fun t =>
          { x.emit p t with toPath := rest }
      else none
    | _ => none
  | .sarm =>
    some { x with terminal.up := false, toPath := x.toPath ++ [[Platform.sarmCode]] }
  | .send payload p =>
    if x.terminal.up then
      some { x with
        terminal.vs := x.terminal.vs + 1
        toPath := x.toPath ++ [infoType x.terminal.vr x.terminal.vs p :: payload] }
    else none
  | .again ns payload p =>
    if x.terminal.up ∧ ns ≠ x.terminal.vs then
      some { x with toPath := x.toPath ++ [infoType x.terminal.vr ns p :: payload] }
    else none
  | .acknowledge f => some { x with toPath := x.toPath ++ [[rrType x.terminal.vr f]] }
  | .answer reply =>
    match x.toTerminal with
    | frame :: rest =>
      let (r, replies) := x.terminal.receive frame reply
      some { x with terminal := r, toTerminal := rest, toPath := x.toPath ++ replies }
    | [] => none

/-- The steps as a relation. -/
abbrev Step (p : PathId) : Joint → Act → Joint → Prop := Det (step p)

omit [Platform] in
/-- **It begins** when nothing was sent yet, on a path whose two sides are down. -/
structure Fresh (p : PathId) (x : Joint) : Prop where
  protocolState : (x.system.path p).protocolState = .connection
  frames : (x.system.path p).frames = []
  up : x.terminal.up = false
  toTerminal : x.toTerminal = []
  toPath : x.toPath = []

omit [Platform] in
/-- **The counters are in step**, once nothing is under way. -/
def Synchronised (p : PathId) (x : Joint) : Prop :=
  x.toTerminal = [] → x.toPath = [] →
    (((x.system.path p).protocolState = .inputConnected ∨
        (x.system.path p).protocolState = .connected) →
      (x.system.path p).nr = x.terminal.vs) ∧
    (((x.system.path p).protocolState = .outputConnected ∨
        (x.system.path p).protocolState = .connected) →
      (x.system.path p).ns = x.terminal.vr)

end Joint

/-! ## Numbers that stay in step -/

/-- The path has sent SARM since its last information frame. -/
def Link.restarted [Platform] (l : Link) : Bool :=
  (l.frames.map fun f => tally f.bytes).foldl Tally.restarts false

/-- **The transition restarts no count that the terminal goes on with.**  After too many repetitions
`m_nr` restarts, and after a silence `m_ns`, though the terminal restarts neither; and the answer to an
old SARM restarts `m_ns` again. -/
def Link.KeepsCount [Platform] (l : Link) : ConnectionEvent → Prop
  | .maxSend | .toTcack => l.protocolState = .connected → l.nr = 0
  | .toRecv => l.protocolState = .connected → l.ns = 0
  | .receivedUa =>
    l.protocolState = .connection ∨ l.protocolState = .inputConnected → l.restarted = true
  | _ => True

namespace System

variable [Platform]

/-- The transition of the event, if it fires one on the path. -/
def FiresInStep (p : PathId) (s : System) (ev : Event) : Prop :=
  match s.fires ev with
  | some (q, e) => q = p → ((s.before ev).path p).toLink.KeepsCount e
  | none => True

/-- **The frame is counted.**  A SARM that comes too soon is answered but not obeyed, and an information
frame with an invalid NR is not counted. -/
def CountsFrame (p : PathId) (s : System) (data : List UInt8) (now : Instant) : Prop :=
  (s.path p).protocolState = .inputConnected ∨ (s.path p).protocolState = .connected →
    match s.frameKind p data with
    | some .sarm =>
      now.ms - (s.path p).lastConnected ≤ (s.pathConf p).repeatTimeout → (s.path p).nr = 0
    | some (.info type) => nsField type = (s.path p).nr → (s.path p).toLink.isNRValid (nrField type)
    | _ => True

/-- **The message sent back has another number than the next one.** -/
def RepeatsOld (p : PathId) (s : System) : Prop :=
  match (s.path p).toLink.timeout (s.pathConf p) s.connection.repeatTimeout s.connection.current with
  | .resend m => m.ns ≠ (s.path p).ns
  | _ => True

/-- **The event keeps the numbers in step.** -/
def InStep (p : PathId) (s : System) (ev : Event) : Prop :=
  s.FiresInStep p ev ∧
    match ev with
    | .frame q data now => q = p → s.CountsFrame p data now
    | .checkTimer q _ => q = p → s.RepeatsOld p
    | _ => True

end System

/-- **So does the act.** -/
def Joint.InStep [Platform] (p : PathId) (x : Joint) : Joint.Act → Prop
  | .event ev => x.system.InStep p ev
  | .deliver address crc₁ crc₂ now =>
    match x.toPath with
    | (type :: payload) :: _ =>
      x.system.InStep p (.frame p (address :: type :: (payload ++ [crc₁, crc₂])) now)
    | _ => True
  | _ => True

section
variable [Platform]

instance (l : Link) (e : ConnectionEvent) : Decidable (l.KeepsCount e) := by
  unfold Link.KeepsCount
  split <;> infer_instance

instance (p : PathId) (s : System) (ev : Event) : Decidable (s.InStep p ev) := by
  have hfires : Decidable (s.FiresInStep p ev) := by
    unfold System.FiresInStep
    split <;> infer_instance
  have hcounts : ∀ data now, Decidable (s.CountsFrame p data now) := fun data now => by
    have hkind : Decidable (match s.frameKind p data with
        | some .sarm =>
          now.ms - (s.path p).lastConnected ≤ (s.pathConf p).repeatTimeout → (s.path p).nr = 0
        | some (.info type) =>
          nsField type = (s.path p).nr → (s.path p).toLink.isNRValid (nrField type)
        | _ => True) := by
      split <;> infer_instance
    unfold System.CountsFrame
    infer_instance
  have hrepeats : Decidable (s.RepeatsOld p) := by
    unfold System.RepeatsOld
    split <;> infer_instance
  unfold System.InStep
  cases ev <;> infer_instance

omit [Platform] in
instance (p : PathId) (x : Joint) : Decidable (x.Synchronised p) := by
  unfold Joint.Synchronised
  infer_instance

instance (p : PathId) (x : Joint) (a : Joint.Act) : Decidable (x.InStep p a) := by
  unfold Joint.InStep
  cases a with
  | deliver address crc₁ crc₂ now =>
    simp only
    split <;> infer_instance
  | _ => simp only; infer_instance

end

end Hnz
