import Mathlib.Tactic

/-!
# Machinery/Alarm — something to be done once a day

Time is any type with a map to its days, and an instant may be due.  An alarm remembers the day of
its last tick, and whether it has rung on it; a new day arms it again.  As long as the days do not
run backwards, it rings at the first due tick of each day and at no other (`Since.rings_iff`).
-/

namespace Machinery

variable {τ δ : Type*}

/-- **An alarm.** -/
structure Alarm (δ : Type*) where
  day : δ
  rung : Bool

namespace Alarm

/-- **The memory of an alarm** is right about the ticks so far: none is of a later day, and it has
rung exactly if one of them was due on its day. -/
structure Since [LE δ] (day : τ → δ) (due : τ → Bool) (ticks : List τ) (a : Alarm δ) : Prop where
  day_le : ∀ u ∈ ticks, day u ≤ a.day
  rung_iff : a.rung = true ↔ ∃ u ∈ ticks, day u = a.day ∧ due u = true

/-- The alarm of the first tick, which does not ring. -/
theorem since_start [Preorder δ] {day : τ → δ} {due : τ → Bool} (t : τ) :
    Since day due [t] ⟨day t, due t⟩ where
  day_le u hu := (congrArg day (List.mem_singleton.mp hu)).le
  rung_iff := by simp only [List.mem_singleton, exists_eq_left, true_and]

/-! ## The record -/

/-- **The record of an alarm**: it rang at a tick exactly if that one was due, and no tick before it
on the same day was. -/
def Recorded (day : τ → δ) (due : τ → Bool) (start : τ) (ticks : List (τ × Bool)) : Prop :=
  ∀ before t rang after, ticks = before ++ (t, rang) :: after →
    (rang = true ↔
      due t = true ∧ ∀ u ∈ start :: before.map Prod.fst, day u = day t → due u = false)

variable {day : τ → δ} {due : τ → Bool} {start : τ} {record : List (τ × Bool)}

theorem recorded_nil : Recorded day due start [] := fun before t rang after h => by
  cases before <;> cases h

/-- The record of a part of the ticks. -/
theorem Recorded.of_append {later : List (τ × Bool)}
    (h : Recorded day due start (record ++ later)) : Recorded day due start record :=
  fun before t rang after heq => h before t rang (after ++ later) (by rw [heq]; simp)

/-- **At most once a day.** -/
theorem Recorded.nodup (h : Recorded day due start record) :
    ((record.filter Prod.snd).map fun x => day x.1).Nodup := by
  induction record using List.reverseRecOn with
  | nil => exact List.nodup_nil
  | append_singleton record x ih =>
    obtain ⟨t, rang⟩ := x
    rw [List.filter_append, List.map_append, List.nodup_append']
    refine ⟨ih h.of_append, by cases rang <;> simp, ?_⟩
    intro d hd hd'
    obtain ⟨⟨u, rang'⟩, hu, rfl⟩ := List.mem_map.mp hd
    obtain ⟨hu, rfl⟩ := List.mem_filter.mp hu
    obtain ⟨hrang, hday⟩ : rang = true ∧ day t = day u := by
      cases rang <;> simp_all
    -- The earlier ring was due, on the day of the later one.
    obtain ⟨before, after, hsplit⟩ := List.append_of_mem hu
    have hdue := ((h before u true (after ++ [(t, rang)]) (by rw [hsplit]; simp)).mp rfl).1
    have hnot := ((h record t rang [] rfl).mp hrang).2 u
      (List.mem_cons_of_mem _ (List.mem_map_of_mem hu)) hday.symm
    rw [hdue] at hnot
    cases hnot

/-! ## Ticks -/

variable [DecidableEq δ] (day due) (a : Alarm δ) (t : τ)

/-- A new day arms the alarm. -/
def arm : Alarm δ := if a.day = day t then a else ⟨day t, false⟩

/-- The alarm rings at a due tick, unless it has rung. -/
def rings : Bool := !(a.arm day t).rung && due t

/-- The alarm after a tick. -/
def tick : Alarm δ := ⟨day t, (a.arm day t).rung || due t⟩

variable {day due a t}

/-- An armed alarm is of the day. -/
theorem arm_day : (a.arm day t).day = day t := by
  unfold arm
  split_ifs with h
  · exact h
  · rfl

/-- After a tick, an alarm has rung if it had, or rings now. -/
theorem tick_eq :
    a.tick day due t = ⟨(a.arm day t).day, (a.arm day t).rung || a.rings day due t⟩ := by
  rw [tick, arm_day, rings]
  cases (a.arm day t).rung <;> simp

variable [PartialOrder δ] {ticks : List τ}

/-- After a tick, an armed alarm has rung if a due tick of this day came before. -/
theorem Since.arm_iff (h : a.Since day due ticks) (hle : a.day ≤ day t) :
    (a.arm day t).rung = true ↔ ∃ u ∈ ticks, day u = day t ∧ due u = true := by
  unfold arm
  split_ifs with hday
  · rw [h.rung_iff, hday]
  · refine iff_of_false (by decide) ?_
    rintro ⟨u, hu, hut, -⟩
    exact hday (le_antisymm hle (hut ▸ h.day_le u hu))

/-- **The alarm rings at the first due tick of a day.** -/
theorem Since.rings_iff (h : a.Since day due ticks) (hle : a.day ≤ day t) :
    a.rings day due t = true ↔ due t = true ∧ ∀ u ∈ ticks, day u = day t → due u = false := by
  have hnot : (a.arm day t).rung = false ↔ ∀ u ∈ ticks, day u = day t → due u = false := by
    rw [← Bool.not_eq_true, h.arm_iff hle]
    push Not
    simp only [ne_eq, Bool.not_eq_true]
  rw [rings, Bool.and_eq_true, Bool.not_eq_true', hnot, and_comm]

/-- **A tick keeps the memory right.** -/
theorem Since.tick (h : a.Since day due ticks) (hle : a.day ≤ day t) :
    (a.tick day due t).Since day due (ticks ++ [t]) where
  day_le u hu := by
    rcases List.mem_append.mp hu with hu | hu
    · exact (h.day_le u hu).trans hle
    · exact (congrArg day (List.mem_singleton.mp hu)).le
  rung_iff := by
    rw [Alarm.tick, Bool.or_eq_true, h.arm_iff hle]
    simp only [List.mem_append, List.mem_singleton, or_and_right, exists_or, exists_eq_left,
      true_and]

/-- **A tick is recorded.** -/
theorem Recorded.tick (hrecord : Recorded day due start record)
    (h : a.Since day due (start :: record.map Prod.fst)) (hle : a.day ≤ day t) :
    Recorded day due start (record ++ [(t, a.rings day due t)]) := by
  intro before u rang after heq
  rcases List.eq_nil_or_concat after with rfl | ⟨after, last, rfl⟩
  · obtain ⟨rfl, hlast⟩ := List.append_inj' heq rfl
    obtain ⟨rfl, rfl⟩ := Prod.mk.inj (List.singleton_inj.mp hlast)
    exact h.rings_iff hle
  · have hshorter : record = before ++ (u, rang) :: after :=
      (List.append_inj' (heq.trans (by simp : _ = (before ++ (u, rang) :: after) ++ [last])) rfl).1
    exact hrecord before u rang after hshorter

end Alarm

end Machinery
