import Mathlib.Data.ZMod.Defs

/-!
# Machinery/Numbering — two counters and the frames between them

The frames of one direction of a channel are numbered modulo `k`.  Their sender counts them, and
restarts at zero with a frame of its own; their receiver counts along (`count`), and may be closed
until the next restart (`listen`).  The two agree if the receiver, once it has counted what is under
way, expects the number that the sender uses next: so agreement is about folds over the channel.
-/

namespace Machinery

/-- **What a frame is to the count** of its receiver. -/
inductive Tally (k : ℕ)
  | restart
  | numbered (n : Fin k)
  | other
  deriving DecidableEq

namespace Tally

variable {k : ℕ} [NeZero k] {m n : Fin k} {x : Option (Fin k)} {ss ts : List (Tally k)}

/-! ## A receiver that is open -/

/-- The number that is expected after a frame. -/
def count (n : Fin k) : Tally k → Fin k
  | restart => 0
  | numbered m => if m = n then n + 1 else n
  | other => n

/-! ## A sender that restarts -/

/-- A restart since the last number. -/
def restarts (b : Bool) : Tally k → Bool
  | restart => true
  | numbered _ => false
  | other => b

/-- **After a restart the receiver expects zero**, whatever is sent and counted in between. -/
theorem foldl_count_of_restarts {b : Bool} (hb : b = true → n = 0)
    (h : ss.foldl restarts b = true) : ss.foldl count n = 0 := by
  induction ss generalizing b n with
  | nil => exact hb h
  | cons s ss ih =>
    refine ih (b := restarts b s) (fun hs => ?_) h
    cases s with
    | restart => rfl
    | numbered m => cases hs
    | other => exact hb hs

/-! ## A receiver that may be closed -/

/-- The number that is expected after a frame, if any: a restart opens the receiver. -/
def listen (x : Option (Fin k)) : Tally k → Option (Fin k)
  | restart => some 0
  | s => x.map (count · s)

theorem listen_none {s : Tally k} (h : s ≠ restart) : listen none s = none := by
  cases s with
  | restart => exact absurd rfl h
  | numbered m => rfl
  | other => rfl

theorem listen_other : listen x other = x := by
  cases x <;> rfl

/-- Frames without a number change nothing. -/
theorem foldl_listen_others (h : ∀ s ∈ ts, s = other) (x : Option (Fin k)) :
    ts.foldl listen x = x := by
  induction ts generalizing x with
  | nil => rfl
  | cons s ts ih =>
    obtain rfl := h s List.mem_cons_self
    rw [List.foldl_cons, listen_other]
    exact ih (fun s hs => h s (List.mem_cons_of_mem _ hs)) x

theorem listen_some (s : Tally k) : listen (some n) s = some (count n s) := by
  cases s <;> rfl

/-- A closed receiver that will have been opened does not depend on its past. -/
theorem foldl_listen_of_none (h : ss.foldl listen none = some n) (x : Option (Fin k)) :
    ss.foldl listen x = some n := by
  induction ss generalizing x with
  | nil => cases h
  | cons s ss ih =>
    cases s with
    | restart => exact h
    | numbered m => exact ih h _
    | other => exact ih h _

/-- One more number is counted by a receiver that is open. -/
theorem foldl_listen_numbered (h : ∀ i, ss.foldl listen x = some i → i = m) (j : Fin k) :
    ∀ i, (ss ++ [numbered j]).foldl listen x = some i → i = count m (numbered j) := by
  intro i hi
  rw [List.foldl_append] at hi
  obtain ⟨n, hn, rfl⟩ := Option.map_eq_some_iff.mp (show (ss.foldl listen x).map _ = some i from hi)
  exact congrArg (count · (numbered j)) (h n hn)

/-- And a restart opens it. -/
theorem foldl_listen_restart : ∀ i, (ss ++ [restart]).foldl listen x = some i → i = 0 := by
  intro i hi
  rw [List.foldl_append] at hi
  exact (Option.some.inj hi).symm

end Tally

end Machinery
