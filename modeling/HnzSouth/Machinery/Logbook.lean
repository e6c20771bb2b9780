import Mathlib.Data.List.Chain

/-!
# Machinery/Logbook — a log that announces changes

Several subjects share one log, and each of them has a state that is announced there.  An entry is
written when the state changes and only then, so that the last entry about a subject gives its state
and no entry repeats the one before it (`Announces`).
-/

namespace Machinery

variable {α : Type*} {about : α → Bool} {log : List α} {x y : α}

/-- **The log announces `x`**: it is the last entry about the subject, and no entry about the
subject repeats the one before. -/
structure Announces (about : α → Bool) (log : List α) (x : α) : Prop where
  last : (log.filter about).getLast? = some x
  chain : (log.filter about).IsChain (· ≠ ·)

namespace Announces

/-- The first entry about a subject. -/
theorem first (hlog : ∀ a ∈ log, about a = false) (hx : about x = true) :
    Announces about (log ++ [x]) x := by
  have hnil : log.filter about = [] := List.filter_eq_nil_iff.mpr fun a ha => by simp [hlog a ha]
  have hfilter : (log ++ [x]).filter about = [x] := by
    rw [List.filter_append, hnil, List.filter_cons_of_pos hx, List.filter_nil, List.nil_append]
  exact ⟨by rw [hfilter]; rfl, by rw [hfilter]; exact .singleton x⟩

/-- An entry about something else. -/
theorem skip (h : Announces about log x) (hy : about y = false) : Announces about (log ++ [y]) x := by
  have hfilter : (log ++ [y]).filter about = log.filter about := by
    rw [List.filter_append, List.filter_cons_of_neg (by simp [hy]), List.filter_nil,
      List.append_nil]
  exact ⟨by rw [hfilter]; exact h.last, by rw [hfilter]; exact h.chain⟩

/-- **A change is announced.** -/
theorem change (h : Announces about log x) (hy : about y = true) (hne : y ≠ x) :
    Announces about (log ++ [y]) y := by
  have hfilter : (log ++ [y]).filter about = log.filter about ++ [y] := by
    rw [List.filter_append, List.filter_cons_of_pos hy, List.filter_nil]
  refine ⟨by rw [hfilter, List.getLast?_concat], ?_⟩
  rw [hfilter, List.isChain_append]
  refine ⟨h.chain, .singleton y, fun a ha b hb => ?_⟩
  obtain rfl : x = a := Option.some.inj (h.last.symm.trans ha)
  obtain rfl : y = b := Option.some.inj hb
  exact hne.symm

/-- An entry that is written only if it says something new. -/
theorem update [DecidableEq α] (h : Announces about log x) (hy : about y = true) :
    Announces about (log ++ if y = x then [] else [y]) y := by
  split_ifs with heq
  · rw [List.append_nil, heq]
    exact h
  · exact h.change hy heq

/-- The same, about something else. -/
theorem skip_update [DecidableEq α] {z : α} (h : Announces about log x) (hy : about y = false) :
    Announces about (log ++ if y = z then [] else [y]) x := by
  split_ifs
  · rwa [List.append_nil]
  · exact h.skip hy

end Announces

end Machinery
