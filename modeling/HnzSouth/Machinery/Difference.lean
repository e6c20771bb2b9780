import Mathlib.Tactic

/-!
# Machinery/Difference — two differences in one pass

A loop over the received keys erases the expected ones from a set and collects the others in a
second one.  What is left of the first set is a set difference.  The second one is a set difference
only if no expected key is received twice: the first time consumes it, the second time it is no
longer expected.
-/

namespace Machinery

open Std

variable {α : Type} [Ord α] [TransOrd α] [LawfulEqOrd α]

/-- One received key: collected if it is not expected, else consumed. -/
def consume (sets : TreeSet α × TreeSet α) (a : α) : TreeSet α × TreeSet α :=
  if a ∉ sets.1 then (sets.1, sets.2.insert a) else (sets.1.erase a, sets.2)

variable {sets : TreeSet α × TreeSet α} {a x : α} {received : List α}

theorem mem_consume_fst : x ∈ (consume sets a).1 ↔ x ∈ sets.1 ∧ x ≠ a := by
  by_cases h : a ∈ sets.1
  · rw [consume, if_neg (not_not_intro h), TreeSet.mem_erase, Ne, Std.compare_eq_iff_eq, and_comm,
      eq_comm]
  · rw [consume, if_pos h]
    exact ⟨fun hx => ⟨hx, fun heq => h (heq ▸ hx)⟩, And.left⟩

theorem mem_consume_snd : x ∈ (consume sets a).2 ↔ x ∈ sets.2 ∨ x = a ∧ a ∉ sets.1 := by
  by_cases h : a ∈ sets.1
  · rw [consume, if_neg (not_not_intro h), or_iff_left fun hx => hx.2 h]
  · rw [consume, if_pos h, TreeSet.mem_insert, Std.compare_eq_iff_eq, or_comm, eq_comm,
      and_iff_left h]

/-- **What is left was not received.** -/
theorem mem_fold_consume_fst :
    x ∈ (received.foldl consume sets).1 ↔ x ∈ sets.1 ∧ x ∉ received := by
  induction received generalizing sets with
  | nil => simp
  | cons a received ih =>
    rw [List.foldl_cons, ih, mem_consume_fst, List.mem_cons, not_or, and_assoc]

variable [DecidableEq α]

/-- **What is collected** was not expected, or came twice. -/
theorem mem_fold_consume_snd :
    x ∈ (received.foldl consume sets).2 ↔
      x ∈ sets.2 ∨ x ∈ received ∧ x ∉ sets.1 ∨ x ∈ sets.1 ∧ 2 ≤ received.count x := by
  induction received generalizing sets with
  | nil => simp
  | cons a received ih =>
    rw [List.foldl_cons, ih, mem_consume_fst, mem_consume_snd, or_assoc]
    refine or_congr_right ?_
    by_cases hxa : x = a
    · subst hxa
      have hcount : 2 ≤ (x :: received).count x ↔ x ∈ received := by
        rw [List.count_cons_self, Nat.succ_le_succ_iff, List.one_le_count_iff]
      rw [hcount]
      by_cases hx : x ∈ sets.1 <;> simp [hx]
    · rw [List.count_cons_of_ne (Ne.symm hxa)]
      simp [hxa]

/-- The second set is a difference exactly if no expected key came twice. -/
theorem mem_fold_consume_snd_iff_forall (expected : TreeSet α) (received : List α) :
    (∀ x, x ∈ (received.foldl consume (expected, ∅)).2 ↔ x ∈ received ∧ x ∉ expected) ↔
      ∀ x ∈ expected, received.count x ≤ 1 := by
  refine forall_congr' fun x => ?_
  rw [mem_fold_consume_snd, or_iff_right TreeSet.not_mem_emptyc]
  by_cases hx : x ∈ expected
  · simp [hx]
  · simp [hx]

end Machinery
