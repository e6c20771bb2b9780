import HnzSouth.Path.Release

/-!
# Path/Numbers — what a received number does to a path

An information frame acknowledges messages with its NR and is acknowledged by its NS.  The two are
independent: the NR decides whether the frame is accepted, the NS whether the number in reception
advances (`sendRR_spec`).
-/

namespace Hnz

namespace Link

variable {c : PathConf} {now : Int} {l l' : Link} {op : Op}

/-- **RR**: its NR is taken if it is valid; the number in reception stays. -/
theorem receivedRR_spec {nr : Fin 8} {f b : Bool} (h : l.receivedRR c now nr f = .ok (b, l')) :
    l'.nr = l.nr ∧ (f = false → b = l.isNRValid nr) ∧
      ∃ infos, l'.frames = l.frames ++ infos ∧ ∀ f ∈ infos, f.origin ≠ none := by
  have hvalid : f = false → b = l.isNRValid nr := by
    rintro rfl
    unfold receivedRR at h
    split_ifs at h with h₁ h₂ h₃
    · simp only [bind_eq_ok] at h
      obtain ⟨x, -, h⟩ := h
      cases h
      exact h₂.symm
    · exact absurd rfl h₃
    · cases h
      exact (Bool.eq_false_of_not_eq_true h₂).symm
    · cases h
      rw [not_not.mp h₁, isNRValid_iff.mpr]
      simp
  obtain ⟨-, -, -, h⟩ | rfl := receivedRR_cases h
  · obtain ⟨out, rest, -, hout, rfl, -⟩ := releaseWaiting_cases h
    obtain ⟨-, infos, hf, hinfos⟩ := exists_transmitAll now hout
    exact ⟨kept_transmitAll.nr, hvalid, infos, hf, origin_of_bodies hinfos⟩
  · exact ⟨rfl, hvalid, [], by simp, by simp⟩

/-- **An information frame**: accepted if its NR is valid, and then the number in reception advances
if its NS is that number, with one RR that carries the next. -/
theorem sendRR_spec {p b : Bool} {ns nr : Fin 8} (h : l.sendRR c now p ns nr = .ok (b, l')) :
    b = l.isNRValid nr ∧
      l'.nr = (if l.isNRValid nr ∧ ns = l.nr then l.nr + 1 else l.nr) ∧
      (l.isNRValid nr ∧ ns = l.nr → ∃ infos,
        l'.frames = l.frames ++ infos ++ [⟨c.addressPA, [rrType (l.nr + 1) p], none⟩] ∧
          ∀ f ∈ infos, f.origin ≠ none) := by
  obtain ⟨l₁, h₁, h⟩ := sendRR_cases h
  obtain ⟨hnr, hb, infos, hf, hinfos⟩ := receivedRR_spec h₁
  have hb := hb rfl
  refine ⟨hb, ?_, ?_⟩
  · rw [← hb]
    obtain ⟨rfl, rfl⟩ | ⟨rfl, hns, rfl⟩ | ⟨rfl, hns, -, rfl⟩ | ⟨rfl, hns, -, rfl⟩ := h
    · simp [hnr]
    · rw [hnr] at hns
      simp [hns, hnr, sendFrame]
    · rw [hnr] at hns
      simp [hns, hnr, sendFrame]
    · rw [hnr] at hns
      simp [hns, hnr]
  · rw [← hb]
    rintro ⟨rfl, hns⟩
    obtain ⟨hfalse, -⟩ | ⟨-, -, rfl⟩ | ⟨-, hne, -⟩ | ⟨-, hne, -⟩ := h
    · cases hfalse
    · exact ⟨infos, by simp [sendFrame, hf, hnr], hinfos⟩
    · exact absurd (hns.trans hnr.symm) hne
    · exact absurd (hns.trans hnr.symm) hne

/-- **Only an information frame changes the number in reception**, the automaton apart. -/
theorem Step.nr (h : Step c l op l') (hop : ∀ type, op ≠ .inform type) : l'.nr = l.nr := by
  cases h with
  | submit now msg =>
    rw [sendInfo_eq]
    split_ifs
    · exact kept_transmit.nr
    · rfl
    · rfl
  | acknowledge h => exact (receivedRR_spec h).1
  | inform => exact absurd rfl (hop _)
  | resend => rfl
  | supervise => rfl
  | touch h => exact congrArg Core.nr h

/-- The actions that restart the numbering of the frames received. -/
def restartsInput : Action → Bool
  | .resetInputVariables | .resolveProtocolStateConnection => true
  | _ => false

/-- The actions that restart the numbering of the frames sent. -/
def restartsOutput : Action → Bool
  | .resetOutputVariables | .resolveProtocolStateConnection => true
  | _ => false

theorem ns_transition (e : ConnectionEvent) :
    (l.transition now e).ns = if performs restartsOutput l.protocolState e then 0 else l.ns :=
  view_transition restartsOutput (fun _ _ => rfl) (fun a _ => by cases a <;> rfl) e

theorem nrr_transition (e : ConnectionEvent) :
    (l.transition now e).nrr = if performs restartsOutput l.protocolState e then 0 else l.nrr :=
  view_transition restartsOutput (fun _ _ => rfl) (fun a _ => by cases a <;> rfl) e

theorem nr_transition (e : ConnectionEvent) :
    (l.transition now e).nr = if performs restartsInput l.protocolState e then 0 else l.nr :=
  view_transition restartsInput (fun _ _ => rfl) (fun a _ => by cases a <;> rfl) e

end Link

end Hnz
