import HnzSouth.Model.SystemLemmas
import HnzSouth.Model.Step

/-!
# Behaviour/Cases — what the timers and the requests come to

A GI is asked for on the active path, or not at all, and the checks of the message thread end in a
few ways only.  One lemma for each of them says which: the invariants use it instead of the function.
-/

namespace Hnz

namespace System

variable {s t : System} {p : PathId} {now : Instant}

/-! ## Requests -/

/-- A GI that a TS wants: queued behind a running one, requested, or forgotten. -/
theorem triggerGI_cases (s : System) (now : Instant) :
    s.triggerGI now = s ∨
      ((s.hnz.giStatus = .started ∨ s.hnz.giStatus = .inProgress) ∧
        s.triggerGI now = { s with hnz.giInQueue := true }) ∨
      ∃ p, s.connection.activePath = some p ∧
        s.triggerGI now = s.sendGeneralInterrogation p now := by
  unfold triggerGI
  cases s.connection.activePath with
  | none => exact Or.inl rfl
  | some p =>
    simp only
    split_ifs with hrunning
    · exact Or.inr (Or.inl ⟨hrunning, rfl⟩)
    · exact Or.inr (Or.inr ⟨p, rfl, rfl⟩)

/-- The north service wants one as a TS does. -/
theorem northStatus_of_finished {param : String × String} (h : param.2 = "init_socket_finished") :
    (s.northStatus [param] now).2 = s.triggerGI now := by
  simp only [northStatus, if_pos h]
  unfold triggerGI
  cases s.connection.activePath with
  | none => rfl
  | some p =>
    simp only
    split_ifs <;> rfl

theorem northStatus_cases (params : List (String × String)) :
    (s.northStatus params now).2 = s ∨ (s.northStatus params now).2 = s.triggerGI now := by
  rcases params with - | ⟨param, - | ⟨second, rest⟩⟩
  · exact Or.inl rfl
  · by_cases hname : param.2 = "init_socket_finished"
    · exact Or.inr (northStatus_of_finished hname)
    · simp only [northStatus, if_neg hname]
      exact Or.inl trivial
  · exact Or.inl rfl

/-! ## Commands -/

/-- A command acknowledgement is looked up on both paths: what each look-up does, both do. -/
theorem receivedCommandACK_rule {P : System → System → Prop} (hrefl : ∀ u, P u u)
    (htrans : ∀ {u v w}, P u v → P v w → P u w) {type : String} {addr : Int}
    (htouch : ∀ u q, P u (u.modifyLink q (Link.receivedCommandACK type addr))) :
    P s (s.receivedCommandACK type addr) := by
  have hone : ∀ (u : System) (q : PathId),
      P u (if u.configured q then u.modifyLink q (Link.receivedCommandACK type addr) else u) := by
    intro u q
    split_ifs
    · exact htouch u q
    · exact hrefl u
  exact htrans (hone s .A) (hone _ .B)

/-! ## The checks of a GI -/

/-- A GI that may go on is requested again. -/
theorem checkGICompleted_of_more (hmore : ¬(s.connection.giRepeat : Int) > s.connection.giRepeatCountMax)
    (h : s.checkGICompleted false now = .ok t) :
    t = s.resetGIQueue ∨ ∃ p, s.connection.activePath = some p ∧
      t = s.resetGIQueue.sendGeneralInterrogation p now := by
  unfold checkGICompleted at h
  rw [if_neg (by decide), if_neg hmore] at h
  simp only at h
  split at h
  · exact Or.inl (Except.ok.inj h).symm
  · next p hp => exact Or.inr ⟨p, hp, (Except.ok.inj h).symm⟩

theorem checkGICompleted_cases {success : Bool} (h : s.checkGICompleted success now = .ok t) :
    (∃ ended, s.giCompleted ended now = .ok t) ∨ t = s.resetGIQueue ∨
      ∃ p, s.connection.activePath = some p ∧ t = s.resetGIQueue.sendGeneralInterrogation p now := by
  cases success with
  | true => exact Or.inl ⟨true, h⟩
  | false =>
    by_cases hmore : (s.connection.giRepeat : Int) > s.connection.giRepeatCountMax
    · unfold checkGICompleted at h
      rw [if_neg (by decide), if_pos hmore] at h
      exact Or.inl ⟨false, h⟩
    · exact Or.inr (checkGICompleted_of_more hmore h)

/-- The timer of a GI runs out, or not. -/
theorem checkGITimeout_cases (h : s.checkGITimeout now = .ok t) :
    t = s ∨ s.checkGICompleted false now = .ok t := by
  unfold checkGITimeout at h
  split_ifs at h
  · exact Or.inr h
  · exact Or.inl (Except.ok.inj h).symm

theorem checkNewDay_cases (s : System) :
    s.checkNewDay = s ∨ ∃ time today, s.checkNewDay = { s with
      connection.giScheduleAlreadySent := false
      connection.giScheduledTime := time
      connection.daysSinceEpoch := today } := by
  unfold checkNewDay
  simp only
  split_ifs
  · exact Or.inr ⟨_, _, rfl⟩
  · exact Or.inl rfl

/-- The scheduled GI is requested once. -/
theorem checkSchedule_cases (s : System) (now : Instant) :
    s.checkSchedule now = s ∨
      s.checkSchedule now = { s with connection.giScheduleAlreadySent := true } ∨
      ∃ p, s.connection.activePath = some p ∧ s.checkSchedule now =
        { s.sendGeneralInterrogation p now with connection.giScheduleAlreadySent := true } := by
  unfold checkSchedule
  split_ifs
  · cases s.connection.activePath with
    | none => exact Or.inr (Or.inl rfl)
    | some p => exact Or.inr (Or.inr ⟨p, rfl, rfl⟩)
  · exact Or.inl rfl

/-- **`m_check_GI`** is its three parts. -/
theorem checkGI_cases (h : s.checkGI now = .ok t) :
    ∃ u, s.checkGITimeout now = .ok u ∧ t = u.checkNewDay.checkSchedule now := by
  unfold checkGI at h
  simp only [bind_eq_ok] at h
  obtain ⟨u, hu, h⟩ := h
  exact ⟨u, hu, (Except.ok.inj h).symm⟩

/-! ## The other checks -/

/-- The quality timer is stopped, runs, or has run out. -/
theorem updateQualityUpdateTimer_cases (h : s.updateQualityUpdateTimer now = .ok t) :
    t = s ∨ (∃ timer, t = { s with hnz.qualityUpdateTimer := timer }) ∨
      ∃ u, { s with hnz.qualityUpdateTimer := 0 }.sendAllTMQualityReadings false true = .ok u ∧
        u.sendAllTSQualityReadings false true [] now = .ok t := by
  unfold updateQualityUpdateTimer at h
  split_ifs at h
  · simp only at h
    split_ifs at h
    · simp only [bind_eq_ok] at h
      obtain ⟨u, hu, h⟩ := h
      exact Or.inr (Or.inr ⟨u, hu, h⟩)
    · exact Or.inr (Or.inl ⟨_, (Except.ok.inj h).symm⟩)
  · exact Or.inl (Except.ok.inj h).symm

/-- The init messages of a path are sent, or will not be, or have to wait. -/
theorem checkInit_cases [Platform] (s : System) (p : PathId) (now : Instant) :
    s.checkInit p now = s ∨
      s.checkInit p now = s.modifyLink p (fun l => { l with lastConnected := 0 }) ∨
      (s.path p).connectionState = .active ∧ s.checkInit p now =
        { s.sendInitMessages p now with connection.sendInitNexConnection := false } := by
  unfold checkInit
  simp only
  split_ifs with hdue hactive
  · exact Or.inr (Or.inr ⟨hactive.1, rfl⟩)
  · exact Or.inr (Or.inl rfl)
  · exact Or.inl rfl

end System

end Hnz
