import HnzSouth.Behaviour.Work

/-!
# Behaviour/Frames — what a received frame is

The address and the direction are checked first, then the type byte decides (`frameKind`).  A frame
is one of five things to the path that receives it, and each has one effect (`analyzeFrame_cases`).
-/

namespace Hnz

variable [Platform]

/-! ## Extraction -/

/-- Extraction marks the path as alive at most. -/
theorem nextLength_core {c : PathConf} {n len payloadSize : Int} {t : UInt8} {data : List UInt8}
    {l l' : Link} (h : nextLength c n t data payloadSize l = .ok (len, l')) : l'.core = l.core := by
  unfold nextLength at h
  split at h
  · cases h; rfl
  · simp only [bind_eq_ok] at h
    obtain ⟨b, -, h⟩ := h
    split_ifs at h <;> cases h <;> rfl

theorem extractFrom_core {c : PathConf} {n : Int} {fuel : Nat} {data : List UInt8}
    {payloadSize : Int} {l l' : Link} {messages : List (List UInt8)}
    (h : extractFrom c n fuel data payloadSize l = .ok (messages, l')) : l'.core = l.core := by
  induction fuel generalizing data payloadSize l messages with
  | zero => cases h
  | succ fuel ih =>
    simp only [extractFrom, bind_eq_ok] at h
    obtain ⟨t, -, ⟨len, l₁⟩, hlen, h⟩ := h
    have hcore := nextLength_core hlen
    split_ifs at h with h₁ h₂
    · cases h; exact hcore
    · simp only [bind_eq_ok] at h
      obtain ⟨_, -, h⟩ := h
      cases h; exact hcore
    · simp only [bind_eq_ok] at h
      obtain ⟨_, -, ⟨rest, l₂⟩, hrest, h⟩ := h
      cases h; exact (ih hrest).trans hcore

theorem extractMessages_core {c : PathConf} {n : Int} {data : List UInt8} {payloadSize : Int}
    {l l' : Link} {messages : List (List UInt8)}
    (h : extractMessages c n data payloadSize l = .ok (messages, l')) : l'.core = l.core :=
  extractFrom_core h

namespace System

variable {s t : System} {p : PathId} {now : Instant} {data : List UInt8}
  {messages : List (List UInt8)}

/-! ## Kinds of frame -/

/-- What a received frame is. -/
inductive FrameKind
  | ua
  | sarm
  | info (type : UInt8)
  | rr (type : UInt8)
  deriving DecidableEq

/-- The frame a path receives; none if it is too short, for another station, from the wrong side,
or of a connection that does not exist. -/
def frameKind (s : System) (p : PathId) (data : List UInt8) : Option FrameKind :=
  match data with
  | first :: type :: _ =>
    if (s.pathConf p).remoteAddress ≠ (first >>> 2).toNat then none
    else if (first >>> 1) &&& 0x01 ≠ expectedDirectionBit type then none
    else if type = Platform.uaCode then some .ua
    else if type = Platform.sarmCode then some .sarm
    else if (s.path p).protocolState = .connection then none
    else if type &&& 0x01 = 0 then some (.info type)
    else some (.rr type)
  | _ => none

/-- **The five effects of a received frame.** -/
theorem analyzeFrame_cases (h : s.analyzeFrame p data now = .ok (messages, t)) :
    match s.frameKind p data with
    | none => messages = [] ∧ t = s
    | some .ua => messages = [] ∧ t = s.receivedUA p now
    | some .sarm => messages = [] ∧ t = s.receivedSARM p now
    | some (.info type) => data[1]? = some type ∧ (s.path p).protocolState ≠ .connection ∧
      s.receivedINFO p data now = .ok (messages, t)
    | some (.rr type) => data[1]? = some type ∧ (s.path p).protocolState ≠ .connection ∧
      messages = [] ∧ s.receivedRR p type now = .ok t := by
  unfold analyzeFrame at h
  simp only [bind_eq_ok, readByte_eq_ok] at h
  obtain ⟨first, h₀, type, h₁, h⟩ := h
  obtain ⟨rest, rfl⟩ : ∃ rest, data = first :: type :: rest := by
    rcases data with - | ⟨a, - | ⟨b, rest⟩⟩
    · cases h₀
    · cases h₁
    · cases h₀; cases h₁; exact ⟨rest, rfl⟩
  unfold frameKind
  simp only
  split_ifs at h ⊢
  · cases h; exact ⟨rfl, rfl⟩
  · cases h; exact ⟨rfl, rfl⟩
  · cases h; exact ⟨rfl, rfl⟩
  · cases h; exact ⟨rfl, rfl⟩
  · cases h; exact ⟨rfl, rfl⟩
  · exact ⟨rfl, ‹_›, h⟩
  · simp only [bind_eq_ok] at h
    obtain ⟨u, hu, h⟩ := h
    cases h
    exact ⟨rfl, ‹_›, rfl, hu⟩

/-! ## Information frames and RR as work -/

/-- The step of a link with which an event moves messages that the link holds already: a received
number, or a retransmission. -/
def moves (s : System) : Event → Option (PathId × Link.Op)
  | .frame p data _ =>
    match s.frameKind p data with
    | some (.info type) =>
      if (s.path p).protocolState = .outputConnected then none else some (p, .inform type)
    | some (.rr type) => some (p, .acknowledge type)
    | _ => none
  | .checkTimer p _ =>
    match (s.path p).timeout (s.pathConf p) s.connection.repeatTimeout s.connection.current with
    | .resend _ => some (p, .resend)
    | _ => none
  | _ => none

theorem moves_of_moves {op : Link.Op} {ev : Event} (h : s.moves ev = some (p, op)) : op.Moves := by
  unfold moves at h
  split at h
  · split at h
    · split_ifs at h
      cases h
      trivial
    · cases h
      trivial
    · cases h
  · split at h
    · cases h
      trivial
    · cases h
  · cases h

/-- **What an information frame does**: nothing while only the output is connected; else the
messages are extracted, on the path that extracts, and kept if the NR is valid. -/
theorem receivedINFO_cases {type : UInt8} (htype : data[1]? = some type)
    (h : s.receivedINFO p data now = .ok (messages, t)) :
    ((s.path p).protocolState = .outputConnected ∧ messages = [] ∧ t = s) ∨
      ((s.path p).protocolState ≠ .outputConnected ∧
        ∃ (u : System) (extracted : List (List UInt8)) (ok : Bool) (l : Link),
          s.extract p data now = .ok (extracted, u) ∧
          (u.path p).toLink.sendRR (u.pathConf p) now.ms (pfField type) (nsField type)
            (nrField type) = .ok (ok, l) ∧
          messages = (if ok then extracted else []) ∧ t = u.modifyLink p fun _ => l) := by
  unfold receivedINFO at h
  simp only [bind_eq_ok, readByte_eq_ok, htype, Option.some.injEq] at h
  obtain ⟨_, rfl, h⟩ := h
  split_ifs at h with hout
  · cases h; exact Or.inl ⟨hout, rfl, rfl⟩
  · simp only [bind_eq_ok] at h
    obtain ⟨⟨extracted, u⟩, hu, ⟨ok, l⟩, hl, h⟩ := h
    cases h
    exact Or.inr ⟨hout, u, extracted, ok, l, hu, hl, rfl, rfl⟩

/-- Extraction writes a link, and nothing of it that matters. -/
theorem extract_cases (h : s.extract p data now = .ok (messages, t)) :
    ∃ l : Link, l.core = (s.path p).core ∧ t = s.modifyLink p fun _ => l := by
  unfold extract at h
  split_ifs at h
  · simp only [bind_eq_ok] at h
    obtain ⟨⟨ms, l⟩, hl, h⟩ := h
    cases h
    exact ⟨l, extractMessages_core hl, rfl⟩
  · cases h
    refine ⟨(s.path p).toLink, rfl, ?_⟩
    simp [modifyLink, modifyPath, path]

/-- The work of an event may move messages, but only in the step that `moves` names. -/
def Work.Allowed (s : System) (ev : Event) : Work → Prop
  | .link p op => op.Moves → s.moves ev = some (p, op)
  | _ => True

theorem Work.Keeps.allowed {ev : Event} {a : Work} (h : a.Keeps) : a.Allowed s ev := by
  cases a with
  | link => exact fun hr => absurd hr h
  | _ => trivial

theorem works_receivedINFO {type : UInt8} (hk : s.frameKind p data = some (.info type))
    (htype : data[1]? = some type) (h : s.receivedINFO p data now = .ok (messages, t)) :
    Works (fun a => a.Allowed s (.frame p data now) ∧ a.Linked) s t := by
  obtain ⟨-, -, rfl⟩ | ⟨hout, u, extracted, ok, l, hu, hl, -, rfl⟩ := receivedINFO_cases htype h
  · exact .refl
  · obtain ⟨l₁, hcore, rfl⟩ := extract_cases hu
    refine .trans (.single (.link (.touch hcore) nofun) ⟨nofun, trivial⟩)
      (.single (.link (.inform hl) nofun) ⟨fun _ => ?_, trivial⟩)
    simp [moves, hk, hout]

theorem works_receivedRR {type : UInt8} (hk : s.frameKind p data = some (.rr type))
    (h : s.receivedRR p type now = .ok t) :
    Works (fun a => a.Allowed s (.frame p data now) ∧ a.Linked) s t := by
  unfold receivedRR at h
  simp only [bind_eq_ok] at h
  obtain ⟨⟨ok, l⟩, hl, h⟩ := h
  cases h
  refine .single (.link (.acknowledge hl) nofun) ⟨fun _ => ?_, trivial⟩
  simp [moves, hk]

end System

end Hnz
