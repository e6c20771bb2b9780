import Mathlib.Tactic

/-!
# Machinery/Countdown — something to be done once, some time after a loss

A countdown watches a service.  When the service goes down after having been up, it starts from its
limit; the ticks count it down, and the one that reaches zero rings.  When the service comes up again
it stops.  So it rings exactly at the tick that brings the time since the loss to the limit, if it
has not rung since (`rings_iff`).
-/

namespace Machinery

/-- What a countdown is told. -/
inductive Signal
  | up
  | down
  | tick (elapsed : Nat)

/-- The time that passes with a signal. -/
def Signal.elapsed : Signal → Nat
  | .tick n => n
  | _ => 0

/-- **A countdown**: whether the service is up, and the time that is left, zero while it stands. -/
structure Countdown where
  up : Bool
  left : Int

namespace Countdown

/-- The countdown of a service that has not been up yet. -/
def start : Countdown := ⟨false, 0⟩

/-- The tick makes it ring. -/
def rings (c : Countdown) (n : Nat) : Prop := 0 < c.left ∧ c.left - n ≤ 0

/-- **One signal.** -/
def next (limit : Nat) (c : Countdown) : Signal → Countdown
  | .up => if c.up then c else ⟨true, 0⟩
  | .down => if c.up then ⟨false, limit⟩ else c
  | .tick n => ⟨c.up, if 0 < c.left then if c.left - n ≤ 0 then 0 else c.left - n else c.left⟩

/-- The countdown after its signals. -/
def after (limit : Nat) (history : List Signal) : Countdown := history.foldl (next limit) start

/-- The time that passed. -/
def elapsed (history : List Signal) : Nat := (history.map Signal.elapsed).sum

theorem after_append_singleton (limit : Nat) (history : List Signal) (x : Signal) :
    after limit (history ++ [x]) = (after limit history).next limit x := by
  rw [after, List.foldl_append]
  rfl

theorem elapsed_append_singleton (history : List Signal) (x : Signal) :
    elapsed (history ++ [x]) = elapsed history + x.elapsed := by
  simp [elapsed]

theorem elapsed_append (l l' : List Signal) : elapsed (l ++ l') = elapsed l + elapsed l' := by
  simp [elapsed]

/-! ## The loss -/

/-- **The service was lost** after the first signals, and has not been up since. -/
structure Lost (limit : Nat) (history before since : List Signal) : Prop where
  split : history = before ++ .down :: since
  was_up : (after limit before).up = true
  not_up : .up ∉ since

variable {limit : Nat} {history before since before' since' : List Signal} {x : Signal}

/-- A signal other than `up` leaves a service down that is down. -/
theorem next_up_of_ne {c : Countdown} (hc : c.up = false) (hx : x ≠ .up) :
    (c.next limit x).up = false := by
  cases x with
  | up => exact absurd rfl hx
  | down => rwa [next, if_neg (by simp [hc])]
  | tick n => exact hc

theorem foldl_up_of_forall_ne {c : Countdown} (hc : c.up = false) (h : .up ∉ since) :
    (since.foldl (next limit) c).up = false := by
  induction since generalizing c with
  | nil => exact hc
  | cons x since ih =>
    rw [List.mem_cons, not_or] at h
    exact ih (next_up_of_ne hc (Ne.symm h.1)) h.2

theorem up_next_down (c : Countdown) : (c.next limit .down).up = false := by
  rw [next]
  split_ifs with h
  · rfl
  · simpa using h

/-- A lost service is down. -/
theorem Lost.up (h : Lost limit history before since) : (after limit history).up = false := by
  rw [h.split, after, List.foldl_append, List.foldl_cons]
  exact foldl_up_of_forall_ne (up_next_down _) h.not_up

/-- **A loss**, or a signal since a loss. -/
theorem lost_append_singleton_iff :
    Lost limit (history ++ [x]) before since ↔
      (x = .down ∧ (after limit history).up = true ∧ before = history ∧ since = []) ∨
        ∃ since', since = since' ++ [x] ∧ x ≠ .up ∧ Lost limit history before since' := by
  constructor
  · rintro ⟨hsplit, hup, hnot⟩
    rcases List.eq_nil_or_concat since with rfl | ⟨since', y, rfl⟩
    · obtain ⟨rfl, hx⟩ := List.append_inj' hsplit rfl
      exact .inl ⟨List.singleton_inj.mp hx, hup, rfl, rfl⟩
    · rw [List.concat_eq_append] at hnot hsplit ⊢
      rw [← List.cons_append, ← List.append_assoc] at hsplit
      obtain ⟨rfl, hx⟩ := List.append_inj' hsplit rfl
      obtain rfl := List.singleton_inj.mp hx
      rw [List.mem_append, not_or, List.mem_singleton] at hnot
      exact .inr ⟨since', rfl, Ne.symm hnot.2, rfl, hup, hnot.1⟩
  · rintro (⟨rfl, hup, rfl, rfl⟩ | ⟨since', rfl, hx, hsplit, hup, hnot⟩)
    · exact ⟨rfl, hup, List.not_mem_nil⟩
    · refine ⟨by rw [hsplit, List.append_assoc, List.cons_append], hup, ?_⟩
      rw [List.mem_append, not_or, List.mem_singleton]
      exact ⟨hnot, Ne.symm hx⟩

/-! ## The time left -/

/-- **The time left**: of the limit, the time since the loss is gone; nothing is left without one. -/
structure Counts (limit : Nat) (history : List Signal) : Prop where
  of_lost : ∀ {before since}, Lost limit history before since →
    (after limit history).left = max 0 ((limit : Int) - elapsed since)
  of_not_lost : (∀ before since, ¬Lost limit history before since) →
    (after limit history).left = 0

/-- **The step lemma.** -/
theorem Counts.append_singleton (h : Counts limit history) : Counts limit (history ++ [x]) where
  of_lost {before since} hlost := by
    rw [after_append_singleton]
    rcases lost_append_singleton_iff.mp hlost with ⟨rfl, hup, -, rfl⟩ | ⟨since', rfl, hx, hbefore⟩
    · rw [next, if_pos hup]
      simp [elapsed]
    · have hleft := h.of_lost hbefore
      rw [elapsed_append_singleton]
      cases x with
      | up => exact absurd rfl hx
      | down =>
        rw [next, if_neg (by simp [hbefore.up]), hleft]
        rfl
      | tick n =>
        simp only [next, hleft, Signal.elapsed, Nat.cast_add]
        split_ifs <;> omega
  of_not_lost hnot := by
    rw [after_append_singleton]
    by_cases hlost : ∃ before since, Lost limit history before since
    · obtain ⟨before, since, hlost⟩ := hlost
      -- Only `up` ends a loss.
      obtain rfl : x = .up := by
        by_contra hx
        exact hnot _ _ (lost_append_singleton_iff.mpr (.inr ⟨since, rfl, hx, hlost⟩))
      rw [next, if_neg (by simp [hlost.up])]
    · have hleft : (after limit history).left = 0 :=
        h.of_not_lost fun before since h => hlost ⟨before, since, h⟩
      cases x with
      | up =>
        rw [next]
        split_ifs
        · exact hleft
        · rfl
      | down =>
        have hup : ¬(after limit history).up = true := fun hup =>
          hnot _ _ (lost_append_singleton_iff.mpr (.inl ⟨rfl, hup, rfl, rfl⟩))
        rw [next, if_neg hup, hleft]
      | tick n => simp [next, hleft]

theorem counts (limit : Nat) (history : List Signal) : Counts limit history := by
  induction history using List.reverseRecOn with
  | nil => exact ⟨fun h => absurd h.split (by simp), fun _ => rfl⟩
  | append_singleton history x ih => exact ih.append_singleton

/-! ## The ring -/

/-- It rings at the tick that brings the time since the loss to the limit. -/
theorem rings_iff_of_lost (h : Lost limit history before since) (n : Nat) :
    (after limit history).rings n ↔ elapsed since < limit ∧ limit ≤ elapsed since + n := by
  rw [rings, (counts limit history).of_lost h]
  omega

/-- A part of the time since the loss is a time since the loss. -/
theorem Lost.append_left {first last : List Signal}
    (h : Lost limit history before (first ++ last)) :
    Lost limit (before ++ .down :: first) before first :=
  ⟨rfl, h.was_up, fun hmem => h.not_up (List.mem_append_left _ hmem)⟩

/-- A sum that reaches a limit reaches it at one of its terms. -/
theorem exists_reaching (h₀ : 0 < limit) (h : limit ≤ elapsed since) :
    ∃ first m last, since = first ++ .tick m :: last ∧ elapsed first < limit ∧
      limit ≤ elapsed first + m := by
  induction since using List.reverseRecOn with
  | nil => exact absurd h₀ (by simpa [elapsed] using h)
  | append_singleton since x ih =>
    by_cases hsince : limit ≤ elapsed since
    · obtain ⟨first, m, last, rfl, hreach⟩ := ih hsince
      exact ⟨first, m, last ++ [x], by simp, hreach⟩
    · rw [elapsed_append_singleton] at h
      cases x with
      | tick m => exact ⟨since, m, [], rfl, by omega, h⟩
      | up => exact absurd h hsince
      | down => exact absurd h hsince

/-- It does not ring while the service is up. -/
theorem up_of_rings {n : Nat} (h : (after limit history).rings n) :
    (after limit history).up = false := by
  by_contra hup
  have hleft := (counts limit history).of_not_lost fun before since hlost => hup hlost.up
  exact absurd hleft h.1.ne'

/-- **It rings** at the tick that brings the time since the loss to the limit, if it has not rung
since. -/
theorem rings_iff (h₀ : 0 < limit) (history : List Signal) (n : Nat) :
    (after limit history).rings n ↔
      ∃ before since, Lost limit history before since ∧
        (∀ first m last, since = first ++ .tick m :: last →
          ¬(after limit (before ++ .down :: first)).rings m) ∧
        limit ≤ elapsed since + n := by
  constructor
  · intro hrings
    have hlost : ∃ before since, Lost limit history before since := by
      by_contra hnot
      have hleft := (counts limit history).of_not_lost fun before since h => hnot ⟨before, since, h⟩
      exact absurd hleft hrings.1.ne'
    obtain ⟨before, since, hlost⟩ := hlost
    obtain ⟨hlt, hreach⟩ := (rings_iff_of_lost hlost n).mp hrings
    refine ⟨before, since, hlost, ?_, hreach⟩
    rintro first m last rfl hrings'
    have hreach' := ((rings_iff_of_lost hlost.append_left m).mp hrings').2
    rw [elapsed_append] at hlt
    simp only [elapsed, List.map_cons, List.sum_cons, Signal.elapsed] at hlt hreach'
    omega
  · rintro ⟨before, since, hlost, hnot, hreach⟩
    refine (rings_iff_of_lost hlost n).mpr ⟨?_, hreach⟩
    by_contra hlimit
    obtain ⟨first, m, last, rfl, hfirst⟩ := exists_reaching h₀ (not_lt.mp hlimit)
    exact hnot first m last rfl ((rings_iff_of_lost hlost.append_left m).mpr hfirst)

end Countdown

end Machinery
