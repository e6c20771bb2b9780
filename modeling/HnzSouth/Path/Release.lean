import HnzSouth.Path.Steps

/-!
# Path/Release — the messages an acknowledgement lets out

The loop at the end of `m_NRAccepted` sends a prefix of the waiting messages: as many as fit in the
window (`releaseWaiting_cases`).  It ends as soon as the protocol state admits them all
(`exists_releaseWaiting`).
-/

namespace Hnz

/-- A message without its number in sending. -/
def Message.body (m : Message) : Nat × List UInt8 := (m.id, m.payload)

/-- The message an information frame carries. -/
def Frame.body (f : Frame) : Option (Nat × List UInt8) := f.origin.map fun k => (k, f.bytes.tail)

namespace Link

variable {c : PathConf} {now : Int} {l l' : Link} {m : Message} {ms : List Message}

/-! ## Transmissions in a row -/

/-- What a transmission leaves alone. -/
structure Kept (l l' : Link) : Prop where
  protocolState : l'.protocolState = l.protocolState
  nr : l'.nr = l.nr
  nrr : l'.nrr = l.nrr
  repeats : l'.repeats = l.repeats
  taken : l'.taken = l.taken
  msgWaiting : l'.msgWaiting = l.msgWaiting

theorem Kept.rfl : Kept l l := ⟨.refl _, .refl _, .refl _, .refl _, .refl _, .refl _⟩

theorem Kept.trans {l₁ l₂ l₃ : Link} (h : Kept l₁ l₂) (h' : Kept l₂ l₃) : Kept l₁ l₃ :=
  ⟨h'.protocolState.trans h.protocolState, h'.nr.trans h.nr, h'.nrr.trans h.nrr,
    h'.repeats.trans h.repeats, h'.taken.trans h.taken, h'.msgWaiting.trans h.msgWaiting⟩

theorem transmit_of_admits (h : l.admits c m.payload) :
    l.transmit c now m = { l.sendFrame c now (infoType l.nr l.ns false :: m.payload) false
        (some m.id) with
      lastSentTime := if l.msgSent.isEmpty then now else l.lastSentTime
      msgSent := l.msgSent ++ [{ m with ns := l.ns }]
      ns := l.ns + 1 } := by
  rw [transmit, sendInfoImmediately_of_admits h]

theorem transmit_of_not_admits (h : ¬l.admits c m.payload) : l.transmit c now m = l := by
  rw [transmit, sendInfoImmediately_of_not_admits h]

theorem kept_transmit : Kept l (l.transmit c now m) := by
  by_cases h : l.admits c m.payload
  · rw [transmit_of_admits h]
    exact ⟨rfl, rfl, rfl, rfl, rfl, rfl⟩
  · rw [transmit_of_not_admits h]
    exact .rfl

/-- The transmission of several messages. -/
def transmitAll (c : PathConf) (now : Int) (ms : List Message) (l : Link) : Link :=
  ms.foldl (fun l m => l.transmit c now m) l

@[simp] theorem transmitAll_nil : l.transmitAll c now [] = l := rfl

@[simp] theorem transmitAll_cons :
    l.transmitAll c now (m :: ms) = (l.transmit c now m).transmitAll c now ms := rfl

theorem kept_transmitAll : Kept l (l.transmitAll c now ms) := by
  induction ms generalizing l with
  | nil => exact .rfl
  | cons m ms ih => exact kept_transmit.trans ih

/-- **The transmitted messages** join the unacknowledged ones, in order, and each has its frame. -/
theorem exists_transmitAll (now : Int) (h : ∀ m ∈ ms, l.admits c m.payload) :
    (∃ new, (l.transmitAll c now ms).msgSent = l.msgSent ++ new ∧
        new.map Message.body = ms.map Message.body) ∧
      ∃ new, (l.transmitAll c now ms).frames = l.frames ++ new ∧
        new.map Frame.body = ms.map fun m => some m.body := by
  induction ms generalizing l with
  | nil => simp
  | cons m ms ih =>
    have hm := h m (by simp)
    have hms : ∀ x ∈ ms, (l.transmit c now m).admits c x.payload := fun x hx => by
      rw [admits_congr kept_transmit.protocolState]
      exact h x (List.mem_cons_of_mem _ hx)
    obtain ⟨⟨sent, h₁, hsent⟩, new, h₂, hnew⟩ := ih hms
    rw [transmitAll_cons, h₁, h₂, transmit_of_admits hm]
    refine ⟨⟨{ m with ns := l.ns } :: sent, by simp, ?_⟩, ⟨c.addressARP,
      infoType l.nr l.ns false :: m.payload, some m.id⟩ :: new, by simp [sendFrame], ?_⟩
    · simp [hsent, Message.body]
    · simp [hnew, Frame.body, Message.body]

theorem transmitAll_msgSent (now : Int) (h : ∀ m ∈ ms, l.admits c m.payload) :
    (l.transmitAll c now ms).msgSent.map Message.body =
      l.msgSent.map Message.body ++ ms.map Message.body := by
  obtain ⟨⟨sent, hsent, hbodies⟩, -⟩ := exists_transmitAll now h
  rw [hsent, List.map_append, hbodies]

/-- A frame with a body is an information frame. -/
theorem origin_of_bodies {new : List Frame} (h : new.map Frame.body = ms.map fun m => some m.body) :
    ∀ f ∈ new, f.origin ≠ none := by
  intro f hf hnone
  have hmem : f.body ∈ ms.map fun m => some m.body := h ▸ List.mem_map_of_mem hf
  simp [Frame.body, hnone] at hmem

/-! ## The loop -/

/-- **What the loop does**: it sends a prefix of the waiting messages, each admitted, and stops when
there is none left or the window is full. -/
theorem releaseWaiting_cases (h : releaseWaiting c now ms l = .ok l') :
    ∃ out rest, ms = out ++ rest ∧ (∀ m ∈ out, l.admits c m.payload) ∧
      l' = { l.transmitAll c now out with msgWaiting := rest } ∧
      (rest ≠ [] → c.anticipationRatio ≤ (l.transmitAll c now out).msgSent.length) ∧
      (out ≠ [] → (l.transmitAll c now out).msgSent.length ≤ c.anticipationRatio) := by
  induction ms generalizing l with
  | nil => cases h; exact ⟨[], [], rfl, by simp, rfl, by simp, by simp⟩
  | cons m ms ih =>
    rw [releaseWaiting_cons] at h
    split_ifs at h with hroom hadmits
    · obtain ⟨out, rest, rfl, hout, hl', hfull, hfits⟩ := ih h
      refine ⟨m :: out, rest, rfl, ?_, hl', hfull, fun _ => ?_⟩
      · intro x hx
        rcases List.mem_cons.mp hx with rfl | hx
        · exact hadmits
        · have hst : (l.transmit c now m).protocolState = l.protocolState :=
            kept_transmit.protocolState
          rw [← admits_congr (c := c) hst]
          exact hout x hx
      · rcases out.eq_nil_or_concat with rfl | ⟨_, _, hne⟩
        · rw [transmitAll_cons, transmitAll_nil, transmit_of_admits hadmits]
          simpa using hroom
        · exact hfits (by simp [hne])
    · cases h
      exact ⟨[], m :: ms, rfl, by simp, rfl, fun _ => not_lt.mp hroom, by simp⟩

/-- **The loop ends** when every waiting message is admitted. -/
theorem exists_releaseWaiting (now : Int) (h : ∀ m ∈ ms, l.admits c m.payload) :
    ∃ l', releaseWaiting c now ms l = .ok l' := by
  induction ms generalizing l with
  | nil => exact ⟨_, rfl⟩
  | cons m ms ih =>
    rw [releaseWaiting_cons, if_pos (h m (by simp))]
    split_ifs
    · exact ih fun x hx => by
        rw [admits_congr kept_transmit.protocolState]
        exact h x (List.mem_cons_of_mem _ hx)
    · exact ⟨_, rfl⟩

end Link

end Hnz
