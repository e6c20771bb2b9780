import HnzSouth.Path.Steps

/-!
# Exchange/Session — a path and its station

A path that is connected, and a station that keeps the rules of the procedure, send each other
information frames and RR over two channels.  A channel is first in, first out; it delays frames as
long as it likes, and may lose them.

The station is an assumption, not code: it accepts an information frame exactly if its NS is the
number it expects, answers every information frame with RR, takes every NR as an acknowledgement, and
has at most `window` unacknowledged messages of its own, any of which it may repeat.
-/

namespace Hnz

open Machinery

deriving instance DecidableEq for Link.Core

/-- What a path has put on the wire since. -/
def Link.sentSince (l l' : Link) : List (List UInt8) :=
  (l'.frames.drop l.frames.length).map Frame.bytes

/-! ## The station -/

/-- **The station.**  The message in place `j` of `submitted` has the number `first + j`. -/
structure Station where
  /-- The number of the information frame it expects. -/
  vr : Fin 8 := 0
  /-- The payloads it has accepted. -/
  accepted : List (List UInt8) := []
  /-- Its messages for the path. -/
  submitted : List (List UInt8) := []
  first : Fin 8 := 0
  /-- How many of its messages were acknowledged, and how many were sent. -/
  acked : Nat := 0
  next : Nat := 0
  deriving DecidableEq, Repr

namespace Station

/-- The number of the message in this place. -/
def number (st : Station) (j : Nat) : Fin 8 := st.first + Fin.ofNat 8 j

/-- A received NR, if it is valid. -/
def acknowledge (nr : Fin 8) (st : Station) : Station :=
  let k := (nr - st.number st.acked).val
  if st.acked + k ≤ st.next then { st with acked := st.acked + k } else st

theorem acknowledge_cases (nr : Fin 8) (st : Station) :
    (∃ k, nr = st.number (st.acked + k) ∧ st.acked + k ≤ st.next ∧
      st.acknowledge nr = { st with acked := st.acked + k }) ∨ st.acknowledge nr = st := by
  unfold acknowledge
  simp only
  split_ifs with hk
  · refine Or.inl ⟨_, ?_, hk, rfl⟩
    rw [number, ofNat_add, ← add_assoc]
    simp [number]
  · exact Or.inr rfl

@[simp] theorem vr_acknowledge (nr : Fin 8) (st : Station) : (st.acknowledge nr).vr = st.vr := by
  obtain ⟨k, -, -, h⟩ | h := acknowledge_cases nr st <;> rw [h]

@[simp] theorem accepted_acknowledge (nr : Fin 8) (st : Station) :
    (st.acknowledge nr).accepted = st.accepted := by
  obtain ⟨k, -, -, h⟩ | h := acknowledge_cases nr st <;> rw [h]

/-- The information frame of the message in this place. -/
def frame (st : Station) (j : Nat) (p : Bool) : List UInt8 :=
  infoType st.vr (st.number j) p :: st.submitted.getD j []

/-- A received frame, and the answer to it. -/
def receive (type : UInt8) (payload : List UInt8) (st : Station) : Station × List (List UInt8) :=
  let st := st.acknowledge (nrField type)
  if type &&& 0x01 = 0 then
    let st :=
      if nsField type = st.vr then
        { st with vr := st.vr + 1, accepted := st.accepted ++ [payload] }
      else st
    (st, [[rrType st.vr (pfField type)]])
  else (st, [])

end Station

/-! ## The session -/

/-- **A session**: the two parties, the payloads the path has counted, those it has handed on, and the
frames under way — type byte and payload — each channel with its oldest frame first. -/
structure Session where
  link : Link
  heard : List (List UInt8) := []
  handed : List (List UInt8) := []
  station : Station := {}
  toStation : List (List UInt8) := []
  toPath : List (List UInt8) := []

namespace Session

/-- What the path does next, and what it has sent. -/
def emit (l : Link) (s : Session) : Session :=
  { s with link := l, toStation := s.toStation ++ s.link.sentSince l }

/-- A frame for the path: RR, or an information frame.  It is heard if the path counts it, and handed
on unless its NR is invalid. -/
def receive (c : PathConf) (now : Int) (type : UInt8) (payload : List UInt8) (s : Session) :
    Result Session :=
  if type &&& 0x01 = 0 then do
    let (ok, l) ← s.link.sendRR c now (pfField type) (nsField type) (nrField type)
    return { s.emit l with
      heard := if l.nr = s.link.nr then s.heard else s.heard ++ [payload]
      handed := if ok then s.handed ++ [payload] else s.handed }
  else do
    let (_, l) ← s.link.receivedRR c now (nrField type) (pfField type)
    return s.emit l

/-- **What can happen.** -/
inductive Act
  /-- The path: a message is submitted. -/
  | sendInfo (msg : List UInt8) (now : Int)
  /-- The path: the timer looks at the unacknowledged messages. -/
  | checkTimer (repeatTimeout : Int) (current : Nat) (now : Int)
  /-- The path: other work, which leaves its queues, numbers and history alone. -/
  | touch (l : Link)
  /-- The path takes the next frame. -/
  | receive (now : Int)
  /-- The station: a message is submitted, one is sent, one is repeated. -/
  | submit (msg : List UInt8)
  | send
  | repeat (place : Nat) (p : Bool)
  /-- The station takes the next frame. -/
  | answer
  /-- The channels lose frames: these are left. -/
  | lose (toStation toPath : List (List UInt8))

/-- **One step.**  A retransmission too many ends the connection, and with it the session. -/
def step (c : PathConf) (window : Nat) (s : Session) : Act → Option Session
  | .sendInfo msg now => some (s.emit (s.link.sendInfo c now msg).2)
  | .checkTimer repeatTimeout current now =>
    match s.link.timeout c repeatTimeout current with
    | .none => some s
    | .resend m => some (s.emit (s.link.resend c now m))
    | .maxSend => none
  | .touch l => if l.core = s.link.core then some (s.emit l) else none
  | .receive now =>
    match s.toPath with
    | (type :: payload) :: rest => (receive c now type payload { s with toPath := rest }).toOption
    | _ => none
  | .submit msg =>
    some { s with station.submitted := s.station.submitted ++ [msg] }
  | .send =>
    if s.station.next < s.station.submitted.length ∧ s.station.next < s.station.acked + window then
      some { s with
        station.next := s.station.next + 1
        toPath := s.toPath ++ [s.station.frame s.station.next false] }
    else none
  | .repeat j p =>
    if s.station.acked ≤ j ∧ j < s.station.next then
      some { s with toPath := s.toPath ++ [s.station.frame j p] }
    else none
  | .answer =>
    match s.toStation with
    | (type :: payload) :: rest =>
      let (st, replies) := s.station.receive type payload
      some { s with station := st, toStation := rest, toPath := s.toPath ++ replies }
    | _ => none
  | .lose toStation toPath =>
    if toStation.Sublist s.toStation ∧ toPath.Sublist s.toPath then
      some { s with toStation := toStation, toPath := toPath }
    else none

/-- The steps as a relation. -/
abbrev Step (c : PathConf) (window : Nat) : Session → Act → Session → Prop := Det (step c window)

/-- What the path does with the next frame. -/
theorem step_receive {c : PathConf} {window : Nat} {now : Int} {s s' : Session}
    (h : s.step c window (.receive now) = some s') :
    ∃ type payload rest, s.toPath = (type :: payload) :: rest ∧
      ((type &&& 0x01 = 0 ∧ ∃ ok l, s.link.sendRR c now (pfField type) (nsField type)
          (nrField type) = .ok (ok, l) ∧
        s' = { ({ s with toPath := rest } : Session).emit l with
          heard := if l.nr = s.link.nr then s.heard else s.heard ++ [payload]
          handed := if ok then s.handed ++ [payload] else s.handed }) ∨
      (type &&& 0x01 ≠ 0 ∧ ∃ ok l, s.link.receivedRR c now (nrField type) (pfField type) =
          .ok (ok, l) ∧ s' = ({ s with toPath := rest } : Session).emit l)) := by
  simp only [step] at h
  split at h
  · next type payload rest hpath =>
    refine ⟨type, payload, rest, hpath, ?_⟩
    unfold receive at h
    split_ifs at h with hinfo
    · refine Or.inl ⟨hinfo, ?_⟩
      cases hrr : s.link.sendRR c now (pfField type) (nsField type) (nrField type) with
      | error e => simp only [hrr] at h; cases h
      | ok x =>
        simp only [hrr] at h
        exact ⟨x.1, x.2, rfl, (Option.some.inj h).symm⟩
    · refine Or.inr ⟨hinfo, ?_⟩
      cases hrr : s.link.receivedRR c now (nrField type) (pfField type) with
      | error e => simp only [hrr] at h; cases h
      | ok x =>
        simp only [hrr] at h
        exact ⟨x.1, x.2, rfl, (Option.some.inj h).symm⟩
  · cases h

/-- An information frame. -/
theorem receive_info {c : PathConf} {window : Nat} {now : Int} {s : Session} {type : UInt8}
    {payload : List UInt8} {rest : List (List UInt8)} {ok : Bool} {l : Link}
    (hpath : s.toPath = (type :: payload) :: rest) (hinfo : type &&& 0x01 = 0)
    (h : s.link.sendRR c now (pfField type) (nsField type) (nrField type) = .ok (ok, l)) :
    s.step c window (.receive now) = some { ({ s with toPath := rest } : Session).emit l with
      heard := if l.nr = s.link.nr then s.heard else s.heard ++ [payload]
      handed := if ok then s.handed ++ [payload] else s.handed } := by
  simp only [step, hpath, receive, if_pos hinfo, h]
  rfl

/-- RR. -/
theorem receive_rr {c : PathConf} {window : Nat} {now : Int} {s : Session} {type : UInt8}
    {payload : List UInt8} {rest : List (List UInt8)} {ok : Bool} {l : Link}
    (hpath : s.toPath = (type :: payload) :: rest) (hrr : type &&& 0x01 ≠ 0)
    (h : s.link.receivedRR c now (nrField type) (pfField type) = .ok (ok, l)) :
    s.step c window (.receive now) = some (({ s with toPath := rest } : Session).emit l) := by
  simp only [step, hpath, receive, if_neg hrr, h]
  rfl

/-- **A session begins** when the path is connected and has nothing in its queues; the two parties
agree on their numbers. -/
structure Fresh (s : Session) : Prop where
  connected : s.link.protocolState = .connected
  sent : s.link.msgSent = []
  waiting : s.link.msgWaiting = []
  ns : s.link.ns = s.link.nrr
  vr : s.station.vr = s.link.ns
  first : s.station.first = s.link.nr
  heard : s.heard = []
  handed : s.handed = []
  accepted : s.station.accepted = []
  acked : s.station.acked = 0
  next : s.station.next = 0
  toStation : s.toStation = []
  toPath : s.toPath = []

/-- **The retransmission finds one message**: the path does not take back what it has sent. -/
def Alone (c : PathConf) (s : Session) : Act → Prop
  | .checkTimer repeatTimeout current _ =>
    s.link.timeout c repeatTimeout current = .none ∨ s.link.msgSent.length ≤ 1
  | _ => True

/-- The channels lose nothing, and the station repeats nothing. -/
def Act.Clean : Act → Prop
  | .repeat _ _ | .lose _ _ => False
  | _ => True

instance : DecidablePred Act.Clean
  | .repeat _ _ | .lose _ _ => inferInstanceAs (Decidable False)
  | .sendInfo _ _ | .checkTimer _ _ _ | .touch _ | .receive _ | .submit _ | .send | .answer =>
    inferInstanceAs (Decidable True)

instance (c : PathConf) (s : Session) : (a : Act) → Decidable (Alone c s a)
  | .checkTimer _ _ _ => inferInstanceAs (Decidable (_ ∨ _))
  | .sendInfo _ _ | .touch _ | .receive _ | .submit _ | .send | .repeat _ _ | .answer | .lose _ _ =>
    inferInstanceAs (Decidable True)

end Session

end Hnz
