import HnzSouth.Model.Plugin
import HnzSouth.Reception.Handlers

/-!
# Reception/Safety — the frames that are read safely

A frame is safe if the parser, given its payload alone, returns with messages that are a prefix of
it, and if the handlers read inside each of them.  The safe frames are the ones with a well-sized
payload: the parser trusts the types, and reads the CRC and beyond wherever the bytes they announce
are missing.  Within a safe frame it reads the same messages (`SafeFrame.extract`).
-/

namespace Hnz

variable {c : PathConf} {data : List UInt8}

variable [Platform]

/-- **A safe frame**, whatever the path, the time, and the plugin that handles its messages. -/
def SafeFrame (c : PathConf) (data : List UInt8) : Prop :=
  ∀ (now : Int) (l : Link), ∃ messages l',
    extractMessages c now (payloadOf data) (data.length - 4) l = .ok (messages, l') ∧
      messages.flatten <+: payloadOf data ∧
      ∀ m ∈ messages, ∀ (s : System) (now' : Instant),
        s.hnz.testMsgReceive = c.testMsgReceive → Inside (s.handleMessage m now')

/-- **The safe frames** are the ones whose payload is cut into whole messages. -/
theorem safeFrame_iff (hsize : data.length < 2 ^ 31) :
    SafeFrame c data ↔ ∃ messages, WellSized c.testMsgReceive (payloadOf data) messages := by
  constructor
  · intro h
    obtain ⟨messages, l', hok, -⟩ := h 0 {}
    by_cases hshort : data.length < 4
    · rw [payloadOf_of_short hshort] at hok
      cases hok
    · rw [← length_payloadOf (by omega)] at hok
      exact ⟨messages, wellSized_of_extractFrom (length_payloadOf_lt hsize) hok⟩
  · rintro ⟨messages, h⟩ now l
    obtain ⟨l', hok⟩ := extractMessages_payloadOf (l := l) hsize h now
    refine ⟨messages, l', hok, h.flatten ▸ List.prefix_rfl, fun m hm s now' hs => ?_⟩
    exact System.inside_handleMessage (hs ▸ h.whole m hm)

/-- **In a safe frame** the path extracts what the parser finds in the payload alone. -/
theorem SafeFrame.extract {s : System} {p : PathId} (h : SafeFrame (s.pathConf p) data)
    (hsize : data.length < 2 ^ 31) (hx : s.canPathExtractMessage p = true) (now : Instant) :
    ∃ messages l, s.extract p data now = .ok (messages, s.modifyLink p fun _ => l) ∧
      WellSized (s.pathConf p).testMsgReceive (payloadOf data) messages := by
  obtain ⟨messages, hwell⟩ := (safeFrame_iff hsize).mp h
  obtain ⟨l, hl⟩ := extractMessages_of_wellSized (l := (s.path p).toLink) hsize hwell now.ms
  refine ⟨messages, l, ?_, hwell⟩
  rw [System.extract, if_pos hx, hl]
  rfl

omit [Platform]

/-- A TSCE and a BULLE in one frame. -/
theorem safeFrame_tsce : letI : Platform := .sample
    SafeFrame (HNZConf.sample.pathConf .A)
      [0x05, 0x00, 0x0B, 0x33, 0x28, 0x1D, 0x4C, 0x13, 0x04, 0xC0, 0xDE] := by
  let : Platform := .sample
  refine (safeFrame_iff (by decide)).mpr ⟨[[0x0B, 0x33, 0x28, 0x1D, 0x4C], [0x13, 0x04]], ?_⟩
  exact .cons (n := 5) (by decide) (by decide) (.last (by decide))

set_option maxRecDepth 4000 in
/-- A TSCE cut after its first byte: a path with its input connected reads the CRC, and beyond. -/
theorem not_safeFrame_tsce : letI : Platform := .sample
    let data : List UInt8 := [0x05, 0x00, 0x0B, 0xC0, 0xDE]
    let s := (System.create { conf := .sample } 0).protocolStateTransition .A .receivedSarm 0
    ¬SafeFrame (HNZConf.sample.pathConf .A) data ∧
      s.analyzeFrame .A data 0 = .error .badRead := by
  let : Platform := .sample
  refine ⟨fun h => ?_, rfl⟩
  obtain ⟨messages, l', hok, -⟩ := h 0 {}
  cases hok

end Hnz
