import HnzSouth.Path.Queues

/-!
# Path/History — where the frames of a path come from

Every information frame carries a message that the path holds once it has sent the frame
(`Step.frames`), and a message held is the submission whose place it has (`Recorded`).  So a frame
can be traced to the submission of its payload.
-/

namespace Hnz

namespace Link

variable {c : PathConf} {now : Int} {l l' : Link} {op : Op} {nr : Fin 8}

/-! ## Frames -/

/-- A received number lets out messages the path holds afterwards. -/
theorem frames_receivedRR {f b : Bool} (h : l.receivedRR c now nr f = .ok (b, l')) :
    ∃ new, l'.frames = l.frames ++ new ∧ ∀ f ∈ new, ∀ b, f.body = some b → b ∈ l'.held := by
  obtain ⟨-, -, -, h⟩ | rfl := receivedRR_cases h
  · obtain ⟨out, rest, -, hout, rfl, -⟩ := releaseWaiting_cases h
    obtain ⟨-, new, hf, hnew⟩ := exists_transmitAll now hout
    refine ⟨new, hf, fun f hmem b hb => ?_⟩
    have hbody : some b ∈ out.map fun m => some m.body := hnew ▸ hb ▸ List.mem_map_of_mem hmem
    obtain ⟨m, hm, hmb⟩ := List.mem_map.mp hbody
    rw [held, List.map_append, transmitAll_msgSent now hout]
    exact List.mem_append_left _ (List.mem_append_right _
      (List.mem_map.mpr ⟨m, hm, Option.some.inj hmb⟩))
  · exact ⟨[], by simp, by simp⟩

theorem forall_bodies_append {P : Nat × List UInt8 → Prop} {new : List Frame} {address : UInt8}
    {bytes : List UInt8} (h : ∀ f ∈ new, ∀ b, f.body = some b → P b) :
    ∀ f ∈ new ++ [⟨address, bytes, none⟩], ∀ b, f.body = some b → P b := by
  intro f hf b hb
  rcases List.mem_append.mp hf with hf | hf
  · exact h f hf b hb
  · rw [List.mem_singleton.mp hf] at hb; cases hb

/-- The message sent back is the first unacknowledged one. -/
theorem msgSent_of_timeout {rt : Int} {current : Nat} {m : Message}
    (h : l.timeout c rt current = .resend m) : ∃ rest, l.msgSent = m :: rest := by
  unfold timeout at h
  cases hsent : l.msgSent with
  | nil => simp [hsent] at h
  | cons m' rest =>
    simp only [hsent] at h
    split_ifs at h
    cases h
    exact ⟨rest, rfl⟩

/-- **What a step sends**: the frames of messages it leaves in the queues, and supervision frames. -/
theorem Step.frames (h : Step c l op l') :
    ∃ new, l'.frames = l.frames ++ new ∧ ∀ f ∈ new, ∀ b, f.body = some b → b ∈ l'.held := by
  cases h with
  | submit now msg =>
    rw [sendInfo_eq]
    split_ifs with hadmits hroom
    · have hm : (l.take msg).admits c (l.submitted msg).payload := hadmits
      rw [transmit_of_admits hm]
      refine ⟨[_], rfl, fun f hf b hb => ?_⟩
      obtain rfl := List.mem_singleton.mp hf
      cases hb
      simp [Link.held, Message.body, submitted]
    · exact ⟨[], by simp [take], by simp⟩
    · exact ⟨[], by simp, by simp⟩
  | acknowledge h => exact frames_receivedRR h
  | @inform now type b _ _ h =>
    obtain ⟨l₁, h₁, h⟩ := sendRR_cases h
    obtain ⟨new, hf, hnew⟩ := frames_receivedRR h₁
    obtain ⟨-, rfl⟩ | ⟨-, -, rfl⟩ | ⟨-, -, -, rfl⟩ | ⟨-, -, -, rfl⟩ := h
    · exact ⟨new, hf, hnew⟩
    · refine ⟨new ++ [⟨c.addressPA, [rrType (l₁.nr + 1) (pfField type)], none⟩], ?_, forall_bodies_append hnew⟩
      simp [sendFrame, hf]
    · refine ⟨new ++ [⟨c.addressPA, [rrType l₁.nr true], none⟩], ?_, forall_bodies_append hnew⟩
      simp [sendFrame, hf]
    · exact ⟨new, hf, hnew⟩
  | @resend now rt current m l h =>
    obtain ⟨rest, hsent⟩ := msgSent_of_timeout h
    refine ⟨[_], rfl, fun f hf b hb => ?_⟩
    obtain rfl := List.mem_singleton.mp hf
    cases hb
    rw [held_resend, Link.held, hsent]
    exact List.mem_cons_self
  | supervise => exact ⟨[_], rfl, fun f hf b hb => by rw [List.mem_singleton.mp hf] at hb; cases hb⟩
  | touch h => exact ⟨[], (congrArg Core.frames h).trans (List.append_nil _).symm, by simp⟩

/-- A transition sends nothing and submits nothing. -/
theorem frames_transition (e : ConnectionEvent) : (l.transition now e).frames = l.frames :=
  view_transition_same (fun _ _ => rfl) (fun a _ => by cases a <;> rfl) e

/-! ## Submissions -/

/-- The submissions a step adds. -/
def Op.takes (c : PathConf) (l : Link) : Op → List (List UInt8)
  | .submit msg _ => if l.admits c msg then [msg] else []
  | _ => []

theorem taken_receivedRR {f b : Bool} (h : l.receivedRR c now nr f = .ok (b, l')) :
    l'.taken = l.taken := by
  obtain ⟨-, -, -, h⟩ | rfl := receivedRR_cases h
  · obtain ⟨out, rest, -, -, rfl, -⟩ := releaseWaiting_cases h
    exact kept_transmitAll.taken
  · rfl

theorem Step.taken (h : Step c l op l') : l'.taken = l.taken ++ op.takes c l := by
  cases h with
  | submit now msg =>
    rw [sendInfo_eq]
    simp only [Op.takes]
    split_ifs with hadmits
    · exact kept_transmit.taken
    · rfl
    · exact (List.append_nil _).symm
  | acknowledge h => exact (taken_receivedRR h).trans (List.append_nil _).symm
  | inform h =>
    obtain ⟨l₁, h₁, h⟩ := sendRR_cases h
    have htaken := (taken_receivedRR h₁).trans (List.append_nil _).symm
    obtain ⟨-, rfl⟩ | ⟨-, -, rfl⟩ | ⟨-, -, -, rfl⟩ | ⟨-, -, -, rfl⟩ := h <;> exact htaken
  | resend => exact (List.append_nil _).symm
  | supervise => exact (List.append_nil _).symm
  | touch h => exact (congrArg Core.taken h).trans (List.append_nil _).symm

theorem taken_transition (e : ConnectionEvent) : (l.transition now e).taken = l.taken :=
  view_transition_same (fun _ _ => rfl) (fun a _ => by cases a <;> rfl) e

/-- **Every message held is the submission whose place it has.** -/
def Recorded (l : Link) : Prop := ∀ b ∈ l.held, l.taken[b.1]? = some b.2

theorem Recorded.step (h : l.Recorded) (hst : Step c l op l') : l'.Recorded := by
  intro b hb
  rw [hst.taken]
  obtain hb | ⟨msg, sent, rfl, rfl, hadmits⟩ := hst.held hb
  · have hold := h b hb
    rw [List.getElem?_append_left (List.getElem?_eq_some_iff.mp hold).1]
    exact hold
  · simp [Op.takes, hadmits]

theorem Recorded.transition (h : l.Recorded) (e : ConnectionEvent) :
    (l.transition now e).Recorded := by
  intro b hb
  rw [held_transition] at hb
  rw [taken_transition]
  split_ifs at hb
  · cases hb
  · exact h b hb

end Link

end Hnz
