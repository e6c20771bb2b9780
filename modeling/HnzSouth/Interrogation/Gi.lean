import HnzSouth.Model.Basic

/-!
# Interrogation/Gi — the life of a general interrogation

A GI is its status, the number of requests sent for it since it began, and whether another one is
wanted once it has ended.  Its timer runs while that number is positive, so that a GI ends only if
it is `Armed`.  Everything that happens to a GI keeps it so (`Step.armed`), but one: with the active
path the plugin forgets the number (`lose`), and a running GI stays behind (`armed_lose_iff`).
-/

namespace Hnz

/-- The status of a GI that has begun and not ended. -/
def GiStatus.Running (st : GiStatus) : Prop := st = .started ∨ st = .inProgress

instance : DecidablePred GiStatus.Running := fun st => by
  unfold GiStatus.Running; infer_instance

/-- **A general interrogation.** -/
structure Gi where
  status : GiStatus
  queued : Bool
  repeats : Nat
  deriving DecidableEq, Repr

namespace Gi

variable {g g' : Gi}

/-- **The timer of a GI is armed**: it counts exactly while the GI runs, and while one is queued. -/
structure Armed (g : Gi) : Prop where
  running_iff : g.status.Running ↔ 0 < g.repeats
  of_queued : g.queued = true → 0 < g.repeats

theorem armed_iff :
    g.Armed ↔ (g.status.Running ↔ 0 < g.repeats) ∧ (g.queued = true → 0 < g.repeats) :=
  ⟨fun h => ⟨h.running_iff, h.of_queued⟩, fun h => ⟨h.1, h.2⟩⟩

instance : Decidable g.Armed := decidable_of_iff' _ armed_iff

/-- The status after another request: the GI starts, unless its answer has begun to arrive. -/
def requested (g : Gi) : Gi :=
  { g with
    status := if g.repeats = 0 ∨ g.status ≠ .inProgress then .started else g.status
    repeats := g.repeats + 1 }

/-- **What happens to a GI.** -/
inductive Step : Gi → Gi → Prop
  | keep (g : Gi) : Step g g
  | request (g : Gi) : Step g g.requested
  | queue {g : Gi} (h : g.status.Running) : Step g { g with queued := true }
  | progress {g : Gi} (h : g.status = .started) : Step g { g with status := .inProgress }
  | finish (g : Gi) {st : GiStatus} (h : ¬st.Running) : Step g ⟨st, false, 0⟩

theorem running_requested : g.requested.status.Running := by
  unfold requested GiStatus.Running
  split_ifs with h
  · exact Or.inl rfl
  · exact Or.inr (by simpa using (not_or.mp h).2)

/-- **Each of these keeps the timer armed.** -/
theorem Step.armed (h : g.Step g') (hg : g.Armed) : g'.Armed := by
  cases h with
  | keep => exact hg
  | request => exact ⟨iff_of_true running_requested (Nat.succ_pos _), fun _ => Nat.succ_pos _⟩
  | queue h => exact ⟨hg.running_iff, fun _ => hg.running_iff.mp h⟩
  | progress h =>
    have hpos := hg.running_iff.mp (Or.inl h)
    exact ⟨iff_of_true (Or.inr rfl) hpos, fun _ => hpos⟩
  | finish h => exact ⟨iff_of_false h (lt_irrefl 0), nofun⟩

/-- The number is forgotten. -/
def lose (g : Gi) : Gi := { g with repeats := 0 }

/-- **Forgetting the number of a running GI disarms it**, and only that does. -/
theorem armed_lose_iff (hg : g.Armed) : g.lose.Armed ↔ g.repeats = 0 := by
  constructor
  · intro h
    by_contra hne
    exact absurd (h.running_iff.mp (hg.running_iff.mpr (Nat.pos_of_ne_zero hne))) (lt_irrefl 0)
  · intro h
    have : g.lose = g := by simp [lose, ← h]
    rwa [this]

end Gi

end Hnz
