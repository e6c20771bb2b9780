import HnzSouth.Machinery.Run
import HnzSouth.Model.Timers
import HnzSouth.Model.Operation

/-!
# Model/Step — the running plugin as a transition system

An event is one atomic piece of work of one of the threads: its locks keep the others out.  A frame
and the messages extracted from it are two events, since the receiving thread handles the messages
after it has given the locks back; a message event may carry any bytes, so that the runs of the
model contain those of the plugin.
-/

namespace Hnz

open Machinery

/-- **The events.** -/
inductive Event
  | protocol (p : PathId) (e : ConnectionEvent) (now : Instant)
  | connect (p : PathId) (now : Instant)
  | disconnect (p : PathId) (now : Instant)
  | loseTCP (p : PathId)
  | frame (p : PathId) (data : List UInt8) (now : Instant)
  | message (data : List UInt8) (now : Instant)
  | manage (p : PathId) (now : Instant)
  | startSchedule (now : Instant)
  | currentTime (now : Instant)
  | checkTimer (p : PathId) (now : Instant)
  | checkCommandTimer (p : PathId)
  | checkGI (now : Instant)
  | qualityTimer (now : Instant)
  | operation (name : String) (params : List (String × String)) (now : Instant)

namespace Event

/-- The path an event is about. -/
def target : Event → Option PathId
  | protocol p _ _ | connect p _ | disconnect p _ | loseTCP p | frame p _ _ | manage p _
  | checkTimer p _ | checkCommandTimer p => some p
  | _ => none

/-- The time an event reads from the clock. -/
def time : Event → Option Instant
  | protocol _ _ now | connect _ now | disconnect _ now | frame _ _ now | message _ now
  | manage _ now | startSchedule now | currentTime now | checkTimer _ now | checkGI now
  | qualityTimer now | operation _ _ now => some now
  | loseTCP _ | checkCommandTimer _ => none

end Event

namespace System

variable [Platform]

/-- What an event does, when its path exists. -/
def run (s : System) : Event → Result System
  | .protocol p e now => .ok (s.protocolStateTransition p e now)
  | .connect p now => .ok (s.connect p now)
  | .disconnect p now => .ok (s.disconnect p now)
  | .loseTCP p => .ok (s.loseTCP p)
  | .frame p data now => (s.analyzeFrame p data now).map Prod.snd
  | .message data now => s.handleMessage data now
  | .manage p now => .ok (s.manageHNZProtocolState p now).2
  | .startSchedule now => .ok (s.startSchedule now)
  | .currentTime now => .ok (s.updateCurrentTime now)
  | .checkTimer p now => .ok (s.checkTimer p now)
  | .checkCommandTimer p => .ok (s.checkCommandTimer p)
  | .checkGI now => s.checkGI now
  | .qualityTimer now => s.updateQualityUpdateTimer now
  | .operation name params now => .ok (s.operation name params now).2

/-- The event is about no path, or about one the configuration has. -/
def enabled (s : System) (ev : Event) : Bool := ev.target.all s.configured

/-- **One step**; none for an event of a path that does not exist, or a call that faults. -/
def step (s : System) (ev : Event) : Option System :=
  if s.enabled ev then (s.run ev).toOption else none

/-- The steps as a relation. -/
abbrev Step : System → Event → System → Prop := Det step

end System

end Hnz
