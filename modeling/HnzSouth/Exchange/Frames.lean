import HnzSouth.Exchange.Session
import HnzSouth.Machinery.Window
import HnzSouth.Sending.Order

/-!
# Exchange/Frames — what the operations put on the wire

A frame on the wire reports a number with its NR, and if it is an information frame it carries the
message that its NS stands for.  Messages of a run of places leave in a run of frames
(`carries_infoFrames`).
-/

namespace Hnz

open Machinery

variable {c : PathConf} {now : Int} {l l' : Link} {d nr : Fin 8} {j k : Nat}
  {messages : List (List UInt8)} {bytes : List UInt8} {ms : List Message}

theorem ofNat_inj : Fin.ofNat 8 j = Fin.ofNat 8 k ↔ j ≡ k [MOD 8] := Fin.ext_iff

/-! ## Reading a frame -/

/-- The frame is an information frame. -/
def isInfo (bytes : List UInt8) : Bool := bytes.head?.any fun type => type &&& 0x01 == 0

/-- **The frame carries the message in this place**; `d` is the number of place 0. -/
def Carries (d : Fin 8) (messages : List (List UInt8)) (bytes : List UInt8) (j : Nat) : Prop :=
  ∃ type payload, bytes = type :: payload ∧ nsField type = d + Fin.ofNat 8 j ∧
    messages[j]? = some payload

/-- **The frame reports this number** of messages. -/
def Reports (d : Fin 8) (bytes : List UInt8) (k : Nat) : Prop :=
  ∃ type payload, bytes = type :: payload ∧ nrField type = d + Fin.ofNat 8 k

/-- A frame carries what it did when more is submitted. -/
theorem Carries.mono (h : Carries d messages bytes j) (more : List (List UInt8)) :
    Carries d (messages ++ more) bytes j := by
  obtain ⟨type, payload, rfl, hns, hget⟩ := h
  refine ⟨type, payload, rfl, hns, ?_⟩
  rw [List.getElem?_append_left (List.getElem?_eq_some_iff.mp hget).1]
  exact hget

@[simp] theorem isInfo_cons (type : UInt8) (payload : List UInt8) :
    isInfo (type :: payload) = (type &&& 0x01 == 0) := rfl

theorem rrType_odd : ∀ nr f, rrType nr f &&& 0x01 ≠ 0 := by decide +kernel

/-! ## Channels -/

/-- What is lost of one list is lost of the other. -/
theorem exists_sublist {α β : Type*} {R : α → β → Prop} {l₁ l₁' : List α} {l₂ : List β}
    (h : List.Forall₂ R l₁ l₂) (hs : l₁'.Sublist l₁) :
    ∃ l₂', l₂'.Sublist l₂ ∧ List.Forall₂ R l₁' l₂' := by
  induction hs generalizing l₂ with
  | slnil => exact ⟨[], List.nil_sublist _, .nil⟩
  | cons a _ ih =>
    obtain ⟨b, rest, -, hrest, rfl⟩ := List.forall₂_cons_left_iff.mp h
    obtain ⟨kept, hkept, hR⟩ := ih hrest
    exact ⟨kept, hkept.cons b, hR⟩
  | cons_cons a _ ih =>
    obtain ⟨b, rest, hab, hrest, rfl⟩ := List.forall₂_cons_left_iff.mp h
    obtain ⟨kept, hkept, hR⟩ := ih hrest
    exact ⟨b :: kept, hkept.cons_cons b, .cons hab hR⟩

/-! ## The frames of several messages -/

/-- The information frames of messages sent in a row. -/
def infoFrames (nr ns : Fin 8) (ms : List Message) : List (List UInt8) :=
  ms.mapIdx fun i m => infoType nr (ns + Fin.ofNat 8 i) false :: m.payload

@[simp] theorem infoFrames_nil (nr ns : Fin 8) : infoFrames nr ns [] = [] := rfl

@[simp] theorem infoFrames_cons (nr ns : Fin 8) (m : Message) (ms : List Message) :
    infoFrames nr ns (m :: ms) =
      (infoType nr ns false :: m.payload) :: infoFrames nr (ns + 1) ms := by
  have hshift : ∀ i, ns + Fin.ofNat 8 (i + 1) = ns + 1 + Fin.ofNat 8 i := by
    intro i
    rw [ofNat_add, ofNat_one, add_comm (Fin.ofNat 8 i), add_assoc]
  simp only [infoFrames, List.mapIdx_cons, hshift]
  rw [show Fin.ofNat 8 0 = 0 from rfl, add_zero]

/-- They are information frames. -/
theorem isInfo_of_mem_infoFrames {ns : Fin 8} (h : bytes ∈ infoFrames nr ns ms) : isInfo bytes := by
  induction ms generalizing ns with
  | nil => cases h
  | cons m ms ih =>
    rw [infoFrames_cons] at h
    rcases List.mem_cons.mp h with rfl | h
    · simp
    · exact ih h

theorem filter_infoFrames (nr ns : Fin 8) (ms : List Message) :
    (infoFrames nr ns ms).filter isInfo = infoFrames nr ns ms :=
  List.filter_eq_self.mpr fun _ h => isInfo_of_mem_infoFrames h

/-- **Messages of consecutive places** leave in frames that carry them. -/
theorem carries_infoFrames (hms : ms.map Message.body <+: l.numbered.drop j) :
    List.Forall₂ (Carries d l.taken) (infoFrames nr (d + Fin.ofNat 8 j) ms)
      (List.range' j ms.length) := by
  induction ms generalizing j with
  | nil => exact .nil
  | cons m ms ih =>
    obtain ⟨rest, hrest⟩ := hms
    rw [List.map_cons, List.cons_append] at hrest
    have hfirst : l.numbered[j]? = some m.body := by
      rw [← List.head?_drop, ← hrest]
      rfl
    have htail : ms.map Message.body <+: l.numbered.drop (j + 1) := by
      refine ⟨rest, ?_⟩
      rw [← List.tail_drop, ← hrest]
      rfl
    have hpayload : l.taken[j]? = some m.payload := by
      rw [Link.numbered, List.getElem?_mapIdx, Option.map_eq_some_iff] at hfirst
      obtain ⟨payload, hget, hbody⟩ := hfirst
      rw [hget]
      exact congrArg some (congrArg Prod.snd hbody)
    rw [infoFrames_cons, List.length_cons, List.range'_succ, add_assoc, ← ofNat_one, ← ofNat_add]
    exact .cons ⟨_, _, rfl, nsField_infoType _ _ _, hpayload⟩ (ih htail)

/-- They all report the number that is expected. -/
theorem reports_infoFrames {ns : Fin 8} (hnr : nr = d + Fin.ofNat 8 k) :
    List.Forall₂ (Reports d) (infoFrames nr ns ms) (List.replicate ms.length k) := by
  induction ms generalizing ns with
  | nil => exact .nil
  | cons m ms ih =>
    rw [infoFrames_cons, List.length_cons, List.replicate_succ]
    exact .cons ⟨_, _, rfl, (nrField_infoType _ _ _).trans hnr⟩ ih

/-! ## The frames of an operation -/

namespace Link

/-- What was appended was sent. -/
theorem sentSince_of_frames {new : List Frame} (h : l'.frames = l.frames ++ new) :
    l.sentSince l' = new.map Frame.bytes := by
  rw [sentSince, h, List.drop_left]

theorem sentSince_of_same (h : l'.frames = l.frames) : l.sentSince l' = [] := by
  rw [sentSince_of_frames (h.trans (List.append_nil _).symm)]
  rfl

/-- What was sent first comes first. -/
theorem sentSince_trans {l l' l'' : Link} (h : l.frames <+: l'.frames)
    (h' : l'.frames <+: l''.frames) : l.sentSince l' ++ l'.sentSince l'' = l.sentSince l'' := by
  obtain ⟨new, hnew⟩ := h
  obtain ⟨more, hmore⟩ := h'
  have hall : l''.frames = l.frames ++ (new ++ more) := by
    rw [← hmore, ← hnew, List.append_assoc]
  rw [sentSince_of_frames hnew.symm, sentSince_of_frames hmore.symm, sentSince_of_frames hall,
    List.map_append]

/-- **Messages that are transmitted in a row** leave in a row. -/
theorem frames_transmitAll (h : ∀ m ∈ ms, l.admits c m.payload) :
    ∃ new, (l.transmitAll c now ms).frames = l.frames ++ new ∧
      new.map Frame.bytes = infoFrames l.nr l.ns ms := by
  induction ms generalizing l with
  | nil => exact ⟨[], (List.append_nil _).symm, rfl⟩
  | cons m ms ih =>
    have hms : ∀ x ∈ ms, (l.transmit c now m).admits c x.payload := fun x hx => by
      rw [admits_congr kept_transmit.protocolState]
      exact h x (List.mem_cons_of_mem _ hx)
    have hm := h m List.mem_cons_self
    have hframes : (l.transmit c now m).frames = l.frames ++
        [⟨c.addressARP, infoType l.nr l.ns false :: m.payload, some m.id⟩] := by
      rw [transmit_of_admits hm]
      rfl
    have hns : (l.transmit c now m).ns = l.ns + 1 := by rw [transmit_of_admits hm]
    obtain ⟨new, hnew, hbytes⟩ := ih hms
    refine ⟨_ :: new, by rw [transmitAll_cons, hnew, hframes, List.append_assoc]; rfl, ?_⟩
    rw [List.map_cons, hbytes, hns, kept_transmit.nr, infoFrames_cons]

end Link

end Hnz
