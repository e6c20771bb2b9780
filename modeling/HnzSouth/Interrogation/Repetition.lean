import HnzSouth.Behaviour.Links
import HnzSouth.Interrogation.Course

/-!
# Interrogation/Repetition — how often a GI is repeated

A GI that was not answered in time is repeated, until it has been sent once more than configured.
Only a request that was sent counts and restarts the timer: one that has to wait for the window is
submitted again at every tick.  If every repetition is sent at once, and the clock does not run
backwards, the bound and the delay of the configuration hold (`repetitions_of_run`).
-/

namespace Hnz

open Machinery

/-! ## What was submitted -/

/-- **The repetitions of a GI** since it began, when it was submitted last, and the last time read
from the clock. -/
structure Repetitions where
  count : Nat := 0
  last : Int := 0
  clock : Int := 0

namespace Interrogation

variable {i : Interrogation}

theorem settings_act (a : Act) : (i.act a).countMax = i.countMax ∧ (i.act a).timeMax = i.timeMax := by
  cases a with
  | request now sent => rw [act]; split_ifs <;> exact ⟨rfl, rfl⟩
  | _ => exact ⟨rfl, rfl⟩

/-- No act changes the settings. -/
theorem settings_acts (as : List Act) :
    (i.acts as).countMax = i.countMax ∧ (i.acts as).timeMax = i.timeMax := by
  induction as generalizing i with
  | nil => exact ⟨rfl, rfl⟩
  | cons a as ih => exact ⟨ih.1.trans (settings_act a).1, ih.2.trans (settings_act a).2⟩

end Interrogation

namespace Repetitions

/-- A request that is sent while nothing counts begins a GI. -/
def note (g : Repetitions) (i : Interrogation) : Act → Repetitions
  | .request now sent => if sent = true ∧ i.repeats = 0 then { g with count := 0, last := now } else g
  | .arbitrate _ _ | .queue | .receive _ | .forget | .complete _ => g

/-- The same for several acts. -/
def notes (g : Repetitions) (i : Interrogation) : List Act → Repetitions
  | [] => g
  | a :: as => (g.note i a).notes (i.act a) as

/-- **The repetitions are within bounds**, while the GI counts: each was sent after the first
request, and the timer was started at the last of them. -/
structure Regular (g : Repetitions) (i : Interrogation) : Prop where
  clock_lt : g.clock < 2 ^ 63
  counted : 0 < i.repeats → g.count + 1 ≤ i.repeats
  bounded : 0 < i.repeats → g.count = 0 ∨ (g.count : Int) ≤ i.countMax
  nonneg : 0 < i.repeats → 0 ≤ i.startTime
  last_le : 0 < i.repeats → g.last ≤ i.startTime
  start_le : 0 < i.repeats → i.startTime ≤ g.clock

variable {g : Repetitions} {i : Interrogation} {as : List Act}

/-- Nothing counts. -/
theorem regular_of_zero (hclock : g.clock < 2 ^ 63) (h : i.repeats = 0) : g.Regular i := by
  constructor <;> first | exact hclock | exact fun hpos => absurd h (Nat.pos_iff_ne_zero.mp hpos)

/-- The clock goes on. -/
theorem Regular.tick (h : g.Regular i) {n : Int} (hle : g.clock ≤ n) (hlt : n < 2 ^ 63) :
    Regular { g with clock := n } i :=
  ⟨hlt, h.counted, h.bounded, h.nonneg, h.last_le, fun hpos => (h.start_le hpos).trans hle⟩

/-- Only the count, the timer and the bound matter. -/
theorem Regular.congr {j : Interrogation} (h : g.Regular i) (hrepeats : j.repeats = i.repeats)
    (hstart : j.startTime = i.startTime) (hmax : j.countMax = i.countMax) : g.Regular j where
  clock_lt := h.clock_lt
  counted := by rw [hrepeats]; exact h.counted
  bounded := by rw [hrepeats, hmax]; exact h.bounded
  nonneg := by rw [hrepeats, hstart]; exact h.nonneg
  last_le := by rw [hrepeats, hstart]; exact h.last_le
  start_le := by rw [hrepeats, hstart]; exact h.start_le

/-- A request that is sent now. -/
theorem Regular.request (h : g.Regular i) (hclock : 0 ≤ g.clock) :
    (g.note i (.request g.clock true)).Regular (i.act (.request g.clock true)) := by
  have hact : i.act (.request g.clock true) =
      { i with toGi := i.toGi.requested, startTime := g.clock, notified := i.notified + 1 } := rfl
  rw [hact, note]
  split_ifs with hfirst
  · exact ⟨h.clock_lt, fun _ => by simp [Gi.requested, hfirst.2], fun _ => Or.inl rfl,
      fun _ => hclock, fun _ => le_rfl, fun _ => le_rfl⟩
  · have hpos : 0 < i.repeats := Nat.pos_of_ne_zero fun h0 => hfirst ⟨rfl, h0⟩
    refine ⟨h.clock_lt, fun _ => ?_, fun _ => h.bounded hpos, fun _ => hclock,
      fun _ => (h.last_le hpos).trans (h.start_le hpos), fun _ => le_rfl⟩
    exact (h.counted hpos).trans (Nat.le_succ _)

/-- The act lemma. -/
theorem Regular.act (h : g.Regular i) (hclock : 0 ≤ g.clock) {a : Act}
    (ha : ∀ n sent, a = .request n sent → n = g.clock) : (g.note i a).Regular (i.act a) := by
  cases a with
  | arbitrate lost active =>
    rw [note, Interrogation.act]
    split_ifs
    · exact regular_of_zero h.clock_lt rfl
    · exact h.congr rfl rfl rfl
  | queue | receive | forget => exact h.congr rfl rfl rfl
  | complete success => exact regular_of_zero h.clock_lt rfl
  | request n sent =>
    obtain rfl := ha n sent rfl
    cases sent with
    | false => exact h
    | true => exact h.request hclock

theorem clock_note (a : Act) : (g.note i a).clock = g.clock := by
  cases a with
  | request now sent => simp only [note]; split_ifs <;> rfl
  | _ => rfl

theorem clock_notes : (g.notes i as).clock = g.clock := by
  induction as generalizing g i with
  | nil => rfl
  | cons a as ih => exact ih.trans (clock_note a)

theorem Regular.acts (h : g.Regular i) (hclock : 0 ≤ g.clock)
    (has : ∀ a ∈ as, ∀ n sent, a = .request n sent → n = g.clock) :
    (g.notes i as).Regular (i.acts as) := by
  induction as generalizing g i with
  | nil => exact h
  | cons a as ih =>
    obtain ⟨ha, has⟩ := List.forall_mem_cons.mp has
    refine ih (h.act hclock ha) ?_ ?_
    · rwa [clock_note]
    · rwa [clock_note]

/-- A repetition begins no GI. -/
theorem notes_again {n : Int} (hpos : 0 < i.repeats) :
    g.notes i (.forget :: .request n true :: as) =
      g.notes ((i.act .forget).act (.request n true)) as := by
  have hsame : g.note (i.act .forget) (.request n true) = g :=
    if_neg fun h => absurd h.2 (Nat.pos_iff_ne_zero.mp hpos)
  change (g.note (i.act .forget) (.request n true)).notes _ _ = _
  rw [hsame]

end Repetitions

/-! ## Events -/

namespace System

variable {s t : System} {ev : Event} {g : Repetitions} {now : Instant}

/-- What the settings of a connection make of the configuration; without a path it has none. -/
def Settled (s : System) : Prop :=
  s.connection.giRepeatCountMax = int32 s.connection.conf.giRepeatCount.toNat ∧
      s.connection.giTimeMax = int32 (s.connection.conf.giTime * 1000).toNat ∨
    s.connection.giRepeatCountMax = 0

theorem settled_create (hnz : HNZ) (now : Instant) : (create hnz now).Settled := by
  unfold Settled
  rw [(create_fresh hnz now).1.conf]
  obtain ⟨s, hs⟩ : ∃ s, s = create hnz now := ⟨_, rfl⟩
  rw [← hs]
  by_cases h : (!hnz.conf.configured .A && !hnz.conf.configured .B) = true
  · rw [hs.trans (if_pos h)]
    exact Or.inr rfl
  · have hsettings := congrArg
      (fun s : System => (s.connection.giRepeatCountMax, s.connection.giTimeMax)) (hs.trans (if_neg h))
    dsimp only at hsettings
    exact Or.inl (Prod.mk.inj hsettings)

variable [Platform]

/-- The clock after an event. -/
def clockAfter (ev : Event) (clock : Int) : Int :=
  match ev.time with
  | none => clock
  | some now => now.ms

/-- The event submits a repetition. -/
def resubmits (s : System) (ev : Event) : Prop :=
  s.repeatsGi ev = true ∧ s.connection.activePath ≠ none

instance (s : System) (ev : Event) : Decidable (s.resubmits ev) := inferInstanceAs (Decidable (_ ∧ _))

/-- **What was submitted**, after an event. -/
def repeating (s : System) (ev : Event) (g : Repetitions) : Repetitions :=
  let clock := clockAfter ev g.clock
  let g := if s.resubmits ev then ⟨g.count + 1, clock, clock⟩ else { g with clock := clock }
  g.notes s.interrogation (s.acts ev)

/-- The clock does not run backwards, and a repetition is sent at once. -/
def prompt (s : System) (ev : Event) (g : Repetitions) : Bool :=
  decide (g.clock ≤ clockAfter ev g.clock) && decide (clockAfter ev g.clock < 2 ^ 63) &&
    match ev with
    | .checkGI now =>
      !s.repeatsGi ev || (decide (s.connection.current ≤ now.ms) &&
        (s.requestedActive now).all fun a => a == .request now.ms true)
    | _ => true

/-- The configuration and the settings stay. -/
theorem Settled.step (hs : s.Settled) (h : s.step ev = some t) : t.Settled := by
  have hconf := (run_link_step h .A).1
  have hcount := congrArg Interrogation.countMax (interrogation_step h)
  have htime := congrArg Interrogation.timeMax (interrogation_step h)
  rw [(Interrogation.settings_acts _).1] at hcount
  rw [(Interrogation.settings_acts _).2] at htime
  unfold Settled
  rw [hconf]
  exact hs.imp (fun hs => ⟨hcount.trans hs.1, htime.trans hs.2⟩) hcount.trans

omit [Platform] in
/-- The requests of idle acts are made now. -/
theorem Idle.request_eq {a : Act} (h : Idle ev.time a) (clock n : Int) (sent : Bool)
    (ha : a = .request n sent) : n = clockAfter ev clock := by
  subst ha
  obtain ⟨now, hnow, rfl⟩ := h
  rw [clockAfter, Option.mem_def.mp hnow]

omit [Platform] in
/-- A repetition that is sent now. -/
theorem regular_again {i : Interrogation} (hs : g.Regular i) (hclock : 0 ≤ g.clock)
    (hpos : 0 < i.repeats) (hle : (i.repeats : Int) ≤ i.countMax) :
    Repetitions.Regular ⟨g.count + 1, g.clock, g.clock⟩
      ((i.act .forget).act (.request g.clock true)) where
  clock_lt := hs.clock_lt
  counted _ := Nat.succ_le_succ (hs.counted hpos)
  bounded _ := by
    have hcount : ((g.count + 1 : Nat) : Int) ≤ i.repeats := Int.ofNat_le.mpr (hs.counted hpos)
    exact Or.inr (hcount.trans hle)
  nonneg _ := hclock
  last_le _ := le_rfl
  start_le _ := le_rfl

omit [Platform] in
/-- The timer repeats a GI that counts, and has not been sent too often. -/
theorem repeatsGi_checkGI :
    s.repeatsGi (.checkGI now) = true ↔ s.TimedOut ∧
      (s.interrogation.repeats : Int) ≤ s.interrogation.countMax := by
  simp [repeatsGi, System.interrogation, gi]

theorem repeatsGi_of_completes (h : s.completes ev = true) : s.repeatsGi ev = false := by
  cases ev with
  | checkGI now => simp [repeatsGi, (completes_checkGI.mp h).2]
  | _ => rfl

omit [Platform] in
theorem not_resubmits (h : s.repeatsGi ev = false) : ¬s.resubmits ev := by
  rintro ⟨hr, -⟩
  rw [h] at hr
  cases hr

/-- **The step lemma.** -/
theorem regular_step (h : s.step ev = some t) (hgood : s.prompt ev g = true)
    (hclock : 0 ≤ g.clock) (hs : g.Regular s.interrogation) :
    (s.repeating ev g).Regular t.interrogation := by
  simp only [prompt, Bool.and_eq_true, decide_eq_true_eq] at hgood
  obtain ⟨⟨hmono, hlt⟩, hgood⟩ := hgood
  have htick := hs.tick hmono hlt
  have hnonneg : 0 ≤ clockAfter ev g.clock := hclock.trans hmono
  rw [interrogation_step h, repeating]
  cases s.kind ev with
  | again now rest hev hc hr hacts has =>
    subst hev
    obtain ⟨hout, hle⟩ := repeatsGi_checkGI.mp hr
    have hpos : 0 < s.interrogation.repeats := Nat.pos_of_ne_zero hout.1
    have hrest : ∀ a ∈ rest, ∀ n sent, a = .request n sent → n = clockAfter (.checkGI now) g.clock :=
      fun a ha n sent => (has a (List.mem_append_right _ ha)).request_eq g.clock n sent
    have hsent : ∀ a ∈ s.requestedActive now, a = .request now.ms true := by
      simp only [hr, Bool.not_true, Bool.false_or, Bool.and_eq_true, List.all_eq_true,
        beq_iff_eq] at hgood
      exact hgood.2
    rw [hacts]
    cases hactive : s.connection.activePath with
    | none =>
      have hnone : s.requestedActive now = [] := by rw [requestedActive, hactive]
      rw [if_neg fun h => h.2 hactive, hnone]
      exact htick.acts hnonneg (List.forall_mem_cons.mpr ⟨(fun _ _ h => by cases h), hrest⟩)
    | some p =>
      have hone : s.requestedActive now = [s.requested p now] := by rw [requestedActive, hactive]
      have hsome : s.requestedActive now = [.request now.ms true] := by
        rw [hone, hsent (s.requested p now) (by rw [hone]; exact List.mem_singleton_self _)]
      rw [if_pos ⟨hr, by rw [hactive]; exact Option.some_ne_none p⟩, hsome, List.singleton_append,
        Repetitions.notes_again hpos]
      exact (regular_again htick hnonneg hpos hle).acts hnonneg hrest
  | ends pre as success hc hacts hpre has =>
    rw [if_neg (not_resubmits (repeatsGi_of_completes hc)), hacts]
    refine htick.acts hnonneg (List.forall_mem_append.mpr
      ⟨?_, List.forall_mem_cons.mpr ⟨(fun _ _ h => by cases h), ?_⟩⟩)
    · obtain rfl | rfl := hpre
      · simp
      · simp
    · exact fun a ha n sent => (has a ha).request_eq g.clock n sent
  | brings data now hev hcg hc hr hacts =>
    rw [if_neg (not_resubmits hr), hacts]
    exact htick.acts hnonneg (by simp)
  | idle hc hr hb has =>
    rw [if_neg (not_resubmits hr)]
    exact htick.acts hnonneg fun a ha n sent => (has a ha).request_eq g.clock n sent

theorem clock_repeating : (s.repeating ev g).clock = clockAfter ev g.clock := by
  rw [repeating, Repetitions.clock_notes]
  split_ifs <;> rfl

omit [Platform] in
theorem le_clockAfter (h : s.prompt ev g = true) : g.clock ≤ clockAfter ev g.clock := by
  simp only [prompt, Bool.and_eq_true, decide_eq_true_eq] at h
  exact h.1.1

omit [Platform] in
/-- The bound is that of the configuration. -/
theorem count_le (hs : g.Regular s.interrogation) (hset : s.Settled)
    (hpos : 0 < s.interrogation.repeats) : g.count ≤ s.connection.conf.giRepeatCount.toNat := by
  have hmax : s.interrogation.countMax ≤ s.connection.conf.giRepeatCount.toNat := by
    obtain ⟨hcount, -⟩ | hzero := hset
    · exact (le_of_eq hcount).trans (int32_le _)
    · exact (le_of_eq hzero).trans (Int.natCast_nonneg _)
  obtain h | h := hs.bounded hpos
  · rw [h]
    exact Nat.zero_le _
  · exact Int.ofNat_le.mp (h.trans hmax)

omit [Platform] in
/-- **A repetition in time**: within the bound, and more than the configured delay after the last submission. -/
theorem lt_of_repeats (hs : g.Regular s.interrogation) (hset : s.Settled)
    (hgood : s.prompt (.checkGI now) g = true) (hr : s.repeatsGi (.checkGI now) = true) :
    g.count + 1 ≤ s.connection.conf.giRepeatCount.toNat ∧
      (s.connection.conf.giTime.toNat * 1000 < 2 ^ 31 →
        g.last + s.connection.conf.giTime.toNat * 1000 < now.ms) := by
  obtain ⟨⟨hne, hlate⟩, hle⟩ := repeatsGi_checkGI.mp hr
  have hpos : 0 < s.interrogation.repeats := Nat.pos_of_ne_zero hne
  have hcurrent : s.connection.current ≤ now.ms := by
    simp only [prompt, hr, Bool.and_eq_true, Bool.not_true, Bool.false_or, decide_eq_true_eq] at hgood
    exact hgood.2.1
  obtain ⟨hcount, hdelay⟩ | hzero := hset
  · have hcounted : ((g.count + 1 : Nat) : Int) ≤ s.interrogation.repeats :=
      Int.ofNat_le.mpr (hs.counted hpos)
    have hmax : s.interrogation.countMax ≤ s.connection.conf.giRepeatCount.toNat :=
      (le_of_eq hcount).trans (int32_le _)
    refine ⟨by omega, fun htime => ?_⟩
    have hmul : (s.connection.conf.giTime * 1000).toNat = s.connection.conf.giTime.toNat * 1000 := by
      rw [UInt32.toNat_mul]
      exact Nat.mod_eq_of_lt (htime.trans (by decide))
    have hdelay : s.connection.giTimeMax = s.connection.conf.giTime.toNat * 1000 := by
      rw [hdelay, hmul, int32_of_lt (by omega) (by omega)]
      omega
    have hnonneg : 0 ≤ s.connection.giStartTime := hs.nonneg hpos
    have hstart : s.connection.giStartTime ≤ g.clock := hs.start_le hpos
    have hlast : g.last ≤ s.connection.giStartTime := hs.last_le hpos
    have hclock := hs.clock_lt
    rw [u64_of_lt (by omega) (by omega), hdelay] at hlate
    omega
  · have : s.interrogation.countMax = 0 := hzero
    omega

end System

/-! ## The plugin -/

namespace Plugin

variable {pl pl' : Plugin} {c : HNZConnection} {g : Repetitions}

variable [Platform]

/-- What was submitted, after a call. -/
def repeating (pl : Plugin) (call : Call) (g : Repetitions) : Repetitions :=
  match pl.connection, call with
  | some c, .event ev => System.repeating ⟨pl.hnz, c⟩ ev g
  | _, _ => g

/-- The call, if it is an event, is prompt. -/
def prompt (x : Plugin × Repetitions) (call : Call) : Bool :=
  match x.1.connection, call with
  | some c, .event ev => System.prompt ⟨x.1.hnz, c⟩ ev x.2
  | _, _ => true

/-- The repetitions are within bounds, and the bounds are those of the configuration. -/
structure Regular (g : Repetitions) (pl : Plugin) : Prop where
  clock_nonneg : 0 ≤ g.clock
  clock_lt : g.clock < 2 ^ 63
  connection : pl.InConnection fun s => g.Regular s.interrogation ∧ s.Settled

omit [Platform] in
/-- Nothing counts in a new connection, and it takes the bounds of the configuration. -/
theorem durable_regular (hclock : g.clock < 2 ^ 63) :
    Durable fun s => g.Regular s.interrogation ∧ s.Settled where
  hnz _ h := ⟨h.1.congr rfl rfl rfl, h.2⟩
  schedule _ h := ⟨h.1.congr rfl rfl rfl, h.2⟩
  create hnz _ now :=
    ⟨Repetitions.regular_of_zero hclock (System.create_fresh hnz now).1.giRepeat,
      System.settled_create hnz now⟩

theorem regular_step {call : Call} (h : Step pl call pl') (hgood : prompt (pl, g) call = true)
    (hs : pl.Regular g) : pl'.Regular (pl.repeating call g) := by
  by_cases hev : ∃ c ev, pl.connection = some c ∧ call = .event ev
  · obtain ⟨c, ev, hc, rfl⟩ := hev
    obtain ⟨d, t, hd, ht, rfl⟩ := step_cases h
    obtain rfl : c = d := Option.some.inj (hc.symm.trans hd)
    simp only [prompt, hc] at hgood
    obtain ⟨hregular, hsettled⟩ := hs.connection c hc
    have hregular' := System.regular_step ht hgood hs.clock_nonneg hregular
    have hclock : (System.repeating ⟨pl.hnz, c⟩ ev g).clock = _ := System.clock_repeating
    simp only [repeating, hc]
    refine ⟨?_, hregular'.clock_lt, fun d hd => ?_⟩
    · rw [hclock]
      exact hs.clock_nonneg.trans (System.le_clockAfter hgood)
    · obtain rfl : t.connection = d := Option.some.inj hd
      exact ⟨hregular', hsettled.step ht⟩
  · have hsame : pl.repeating call g = g := by
      unfold repeating
      split
      · next c ev hc => exact absurd ⟨c, ev, hc, rfl⟩ hev
      · rfl
    rw [hsame]
    refine ⟨hs.clock_nonneg, hs.clock_lt, ?_⟩
    exact (durable_regular hs.clock_lt).step h hs.connection
      fun c ev _ hc heq => absurd ⟨c, ev, hc, heq⟩ hev

/-- **Bounded repetition**: while a GI counts it was repeated at most as often as configured; and
the next repetition still is within that number, and comes more than the configured delay after the
last submission. -/
theorem repetitions_of_run {calls : List Call}
    (h : Run (Under (fun x call => prompt x call = true) (Observed repeating Step))
      ({}, {}) calls (pl, g)) (hc : pl.connection = some c) :
    (0 < c.giRepeat → g.count ≤ c.conf.giRepeatCount.toNat) ∧
      ∀ now, prompt (pl, g) (.event (.checkGI now)) = true →
        System.repeatsGi ⟨pl.hnz, c⟩ (.checkGI now) = true →
        g.count + 1 ≤ c.conf.giRepeatCount.toNat ∧
          (c.conf.giTime.toNat * 1000 < 2 ^ 31 →
            g.last + c.conf.giTime.toNat * 1000 < now.ms) := by
  have hs : pl.Regular g :=
    h.invariant (I := fun x => x.1.Regular x.2)
      (fun {x call y} hx hxy => by rw [hxy.2.2]; exact regular_step hxy.2.1 hxy.1 hx)
      ⟨le_rfl, by decide, fun c hc => by cases hc⟩
  obtain ⟨hregular, hsettled⟩ := hs.connection c hc
  refine ⟨fun hpos => ?_, fun now hgood hr => ?_⟩
  · exact System.count_le hregular hsettled hpos
  · exact System.lt_of_repeats hregular hsettled (by simpa only [prompt, hc] using hgood) hr

end Plugin

/-! ## A full window -/

namespace Plugin

open Sample

/-- The clock is read, and the GI is looked at, at each of these times. -/
def ticking (times : List Nat) : List Call :=
  times.flatMap fun ms => [.event (.currentTime (ms * 1000000)), .event (.checkGI (ms * 1000000))]

set_option maxRecDepth 8000 in
/-- A GI is repeated once, and about to be repeated again. -/
theorem repetitions_losingGi :
    ∃ pl c g, Run (Under (fun x call => prompt x call = true) (Observed repeating Step)) ({}, {})
        (losingGi.take 6 ++ ticking [1100] ++ [.event (.currentTime 2200000000)]) (pl, g) ∧
      pl.connection = some c ∧ c.giRepeat = 2 ∧ g.count = 1 ∧ g.last = 1100 ∧
      g.count + 1 ≤ c.conf.giRepeatCount.toNat ∧
      g.last + c.conf.giTime.toNat * 1000 < Instant.ms 2200000000 := by
  have hexec : (exec (fun x call => if prompt x call = true then
      (step x.1 call).map fun pl => (pl, repeating x.1 call x.2) else none) ({}, {})
      (losingGi.take 6 ++ ticking [1100] ++ [.event (.currentTime 2200000000)])).any (fun x =>
    x.1.connection.any fun c => c.giRepeat == 2 && x.2.count == 1 && x.2.last == 1100 &&
      prompt x (.event (.checkGI 2200000000)) &&
      System.repeatsGi ⟨x.1.hnz, c⟩ (.checkGI 2200000000) &&
      decide (c.conf.giTime.toNat * 1000 < 2 ^ 31)) = true := by decide +kernel
  obtain ⟨⟨pl, g⟩, hx, hc⟩ := (Option.any_eq_true _ _).mp hexec
  obtain ⟨c, hc, h⟩ := (Option.any_eq_true _ _).mp hc
  simp only [Bool.and_eq_true, beq_iff_eq, decide_eq_true_eq] at h
  obtain ⟨⟨⟨⟨⟨hrepeat, hcount⟩, hlast⟩, hprompt⟩, hagain⟩, htime⟩ := h
  have hrun : Run (Under (fun x call => prompt x call = true) (Observed repeating Step)) ({}, {})
      (losingGi.take 6 ++ ticking [1100] ++ [.event (.currentTime 2200000000)]) (pl, g) := by
    rw [observed_det]
    exact run_under_iff.mpr hx
  obtain ⟨hbound, hdelay⟩ := (repetitions_of_run hrun hc).2 _ hprompt hagain
  exact ⟨pl, c, g, hrun, hc, hrepeat, hcount, hlast, hbound, hdelay htime⟩

/-- A GI on a path whose window holds one message; the RTU does not answer. -/
def crowding : List Call :=
  [.setJsonConfig { HNZConf.sample with anticipationRatio := 1 } "hnz" 0, .start 0,
    .event (.connect .A 0), .event (.protocol .A .receivedSarm 0),
    .event (.protocol .A .receivedUa 0),
    .event (.operation "north_status" [("status", "init_socket_finished")] 0)]

set_option maxRecDepth 8000 in
/-- The GI may be repeated twice, after a second each; it is submitted three more times, every tenth
of a second, and still counts one request. -/
theorem not_repetitions_crowding :
    ∃ pl c pl' c', exec step {} crowding = some pl ∧ pl.connection = some c ∧
      exec step pl (ticking [1100, 1200, 1300]) = some pl' ∧ pl'.connection = some c' ∧
      c.conf.giRepeatCount = 2 ∧ c.conf.giTime = 1 ∧ c.giRepeat = 1 ∧ c'.giRepeat = 1 ∧
      (c'.path .A).taken = (c.path .A).taken ++
        [System.giPayload, System.giPayload, System.giPayload] := by
  let pl : Plugin := (exec step {} crowding).get (by decide +kernel)
  let c : HNZConnection := pl.connection.get (by decide +kernel)
  let pl' : Plugin := (exec step pl (ticking [1100, 1200, 1300])).get (by decide +kernel)
  let c' : HNZConnection := pl'.connection.get (by decide +kernel)
  exact ⟨pl, c, pl', c', (Option.some_get _).symm, (Option.some_get _).symm, (Option.some_get _).symm,
    (Option.some_get _).symm, by decide +kernel, by decide +kernel, by decide +kernel,
    by decide +kernel, by decide +kernel⟩

end Plugin

end Hnz
