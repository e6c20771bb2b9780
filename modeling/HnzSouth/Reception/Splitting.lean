import HnzSouth.Reception.Payload

/-!
# Reception/Splitting — a payload is cut where its messages were joined

The sender joins messages without a separator: each one shows its length by its type, and only the
last one may be of a type the plugin does not know.  Such a payload is well sized, cut into the
messages it was joined from (`wellSized_flatten`), so that the parser gives them back
(`extractMessages_flatten`).
-/

namespace Hnz

section
variable [Platform]

/-- **A message that shows its length**: one of the known types with all its bytes, or the BULLE. -/
def Complete (bulle : BulleFormat) (m : List UInt8) : Prop :=
  (∃ t, m.head? = some t ∧ fixedLength t = some m.length) ∨ m = [bulle.first, bulle.second]

/-- **A message of an unknown type**, of two bytes or more: it begins neither like a known type nor
like the BULLE. -/
def UnknownType (bulle : BulleFormat) (m : List UInt8) : Prop :=
  ∃ t b rest, m = t :: b :: rest ∧ fixedLength t = none ∧ ¬(t = bulle.first ∧ b = bulle.second)

variable {bulle : BulleFormat} {m : List UInt8} {messages : List (List UInt8)}
  {last : Option (List UInt8)}

theorem WellSized.length_pos {data : List UInt8} (h : WellSized bulle data messages) :
    0 < data.length := by
  cases h with
  | last hn => exact headLength_pos hn
  | cons hn hlt _ => exact (headLength_pos hn).trans hlt

/-! ## The head of a payload -/

/-- A complete message announces its length, whatever comes after it. -/
theorem Complete.headLength_append (hbulle : fixedLength bulle.first = none) (h : Complete bulle m)
    (rest : List UInt8) : headLength bulle (m ++ rest) = some m.length := by
  obtain ⟨t, ht, hlen⟩ | rfl := h
  · obtain ⟨bytes, rfl⟩ := List.head?_eq_some_iff.mp ht
    simp [headLength, hlen]
  · simp [headLength, hbulle]

/-- A message of an unknown type is the rest of the payload. -/
theorem UnknownType.headLength_eq (h : UnknownType bulle m) :
    headLength bulle m = some m.length := by
  obtain ⟨t, b, rest, rfl, ht, hb⟩ := h
  simp only [headLength, ht]
  split_ifs with hfirst hsecond
  · exact absurd ⟨hfirst, hsecond⟩ hb
  · rfl
  · rfl

/-! ## Joining and cutting -/

/-- **Joined messages are cut into themselves.** -/
theorem wellSized_flatten (hbulle : fixedLength bulle.first = none)
    (hmessages : ∀ m ∈ messages, Complete bulle m) (hlast : ∀ m ∈ last, UnknownType bulle m)
    (hne : messages ++ last.toList ≠ []) :
    WellSized bulle (messages ++ last.toList).flatten (messages ++ last.toList) := by
  induction messages with
  | nil =>
    obtain ⟨m, rfl⟩ : ∃ m, last = some m := by
      rw [← Option.isSome_iff_exists]
      cases last <;> simp_all
    simpa using WellSized.last (hlast m rfl).headLength_eq
  | cons m messages ih =>
    obtain ⟨hm, hrest⟩ := List.forall_mem_cons.mp hmessages
    have hhead := hm.headLength_append hbulle
    rw [List.cons_append, List.flatten_cons]
    rcases eq_or_ne (messages ++ last.toList) [] with hnil | hcons
    · rw [hnil, List.flatten_nil, List.append_nil]
      exact .last (by simpa using hhead [])
    · have ih := ih hrest hcons
      have hpos := ih.length_pos
      have hcut := WellSized.cons (hhead (messages ++ last.toList).flatten)
        (by rw [List.length_append]; omega) (by rwa [List.drop_left])
      rwa [List.take_left] at hcut

/-- **The parser gives back the messages a payload was joined from**, in order. -/
theorem extractMessages_flatten {c : PathConf} (now : Int) (l : Link)
    (hbulle : fixedLength c.testMsgReceive.first = none)
    (hmessages : ∀ m ∈ messages, Complete c.testMsgReceive m)
    (hlast : ∀ m ∈ last, UnknownType c.testMsgReceive m) (hne : messages ++ last.toList ≠ [])
    (hsize : (messages ++ last.toList).flatten.length < 2 ^ 31) :
    ∃ l', extractMessages c now (messages ++ last.toList).flatten
      (messages ++ last.toList).flatten.length l = .ok (messages ++ last.toList, l') :=
  extractFrom_of_wellSized (wellSized_flatten hbulle hmessages hlast hne) hsize (Nat.lt_succ_self _)

end

section
open Sample

/-- The BULLE between the section of the day and a TSCE, with a message of the type `0x77` at the
end. -/
theorem extractMessages_four :
    ∃ l', extractMessages (HNZConf.sample.pathConf .A) 0
      [0x0F, 0x10, 0x13, 0x04, 0x0B, 0x33, 0x28, 0x1D, 0x4C, 0x77, 0x01, 0x02] 12 {} =
        .ok ([[0x0F, 0x10], [0x13, 0x04], [0x0B, 0x33, 0x28, 0x1D, 0x4C], [0x77, 0x01, 0x02]],
          l') := by
  have hmessages : ∀ m ∈ [[0x0F, 0x10], [0x13, 0x04], [0x0B, 0x33, 0x28, 0x1D, 0x4C]],
      Complete (HNZConf.sample.pathConf .A).testMsgReceive m := by
    simp only [List.forall_mem_cons, List.not_mem_nil, false_imp_iff, implies_true, and_true]
    exact ⟨.inl ⟨_, rfl, rfl⟩, .inr rfl, .inl ⟨_, rfl, rfl⟩⟩
  have hlast : ∀ m ∈ some [0x77, 0x01, 0x02],
      UnknownType (HNZConf.sample.pathConf .A).testMsgReceive m := by
    rintro m ⟨⟩
    exact ⟨_, _, _, rfl, rfl, by decide⟩
  have h := extractMessages_flatten 0 {} (by decide) hmessages hlast (by decide) (by decide)
  exact h

end

end Hnz
