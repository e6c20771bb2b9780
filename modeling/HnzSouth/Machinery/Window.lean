import HnzSouth.Machinery.Run

/-!
# Machinery/Window — a window that slides over a channel

A sender numbers its messages, transmits those of a window, and transmits any of them again until it
is told that the receiver has it.  The receiver takes the messages in order, and reports how many it
has taken.  Both channels are first in, first out, and may lose what they carry.

The counters of a `Transfer` run without end; the two parties compare them modulo `N`.  If the
window is smaller than `N` they cannot be misled (`Valid.eq_of_accept`, `Valid.eq_of_acknowledge`),
and the counters stay in step (`Valid.run`).
-/

namespace Machinery

/-- **A transfer**: what was acknowledged to the sender, what it has sent, what the receiver has taken,
the messages under way and the reports under way, each channel with its oldest first. -/
structure Transfer where
  base : Nat
  next : Nat
  received : Nat
  data : List Nat := []
  acks : List Nat := []

namespace Transfer

variable {w N : Nat} {t u : Transfer} {j k a : Nat} {rest : List Nat}

/-! ## Steps -/

inductive Act
  | send
  | resend
  | accept
  | refuse
  | report
  | acknowledge
  | lose
  | forget
  deriving DecidableEq

/-- **The steps** of a transfer with a window of `w` and numbers modulo `N`.  The receiver reports
what it accepts, and may repeat its report at any time; messages are lost, and so are reports. -/
inductive Step (w N : Nat) : Transfer → Act → Transfer → Prop
  | send {t : Transfer} (h : t.next < t.base + w) :
    Step w N t .send { t with next := t.next + 1, data := t.data ++ [t.next] }
  | resend {t : Transfer} {j : Nat} (hbase : t.base ≤ j) (hnext : j < t.next) :
    Step w N t .resend { t with data := t.data ++ [j] }
  | accept {t : Transfer} {j : Nat} {rest : List Nat} (hdata : t.data = j :: rest)
    (hj : j ≡ t.received [MOD N]) :
    Step w N t .accept
      { t with received := t.received + 1, data := rest, acks := t.acks ++ [t.received + 1] }
  | refuse {t : Transfer} {j : Nat} {rest : List Nat} (hdata : t.data = j :: rest)
    (hj : ¬j ≡ t.received [MOD N]) : Step w N t .refuse { t with data := rest }
  | report (t : Transfer) : Step w N t .report { t with acks := t.acks ++ [t.received] }
  | acknowledge {t : Transfer} {a k : Nat} {rest : List Nat} (hacks : t.acks = a :: rest)
    (hk : t.base + k ≤ t.next) (ha : t.base + k ≡ a [MOD N]) :
    Step w N t .acknowledge { t with base := t.base + k, acks := rest }
  | lose {t : Transfer} {data : List Nat} (hdata : data.Sublist t.data) :
    Step w N t .lose { t with data := data }
  | forget {t : Transfer} {acks : List Nat} (hacks : acks.Sublist t.acks) :
    Step w N t .forget { t with acks := acks }

/-! ## In step -/

/-- **The counters are in step**: no message under way is a window ahead of another or of the
receiver, and the reports under way are in order. -/
structure Valid (w : Nat) (t : Transfer) : Prop where
  base_le : t.base ≤ t.received
  received_le : t.received ≤ t.next
  next_le : t.next ≤ t.base + w
  data_lt : ∀ j ∈ t.data, j < t.next
  received_le_add : ∀ j ∈ t.data, t.received ≤ j + w
  data_pairwise : t.data.Pairwise fun i j => i < j + w
  acks_mem : ∀ a ∈ t.acks, t.base ≤ a ∧ a ≤ t.received
  acks_sorted : t.acks.Pairwise (· ≤ ·)

/-- Two numbers of one residue that are less than `N` apart are equal. -/
theorem eq_of_modEq (h : j ≡ k [MOD N]) (hj : j < k + N) (hk : k < j + N) : j = k := by
  rcases le_total j k with hle | hle
  · have hdvd : N ∣ k - j := (Nat.modEq_iff_dvd' hle).mp h
    have hzero := Nat.eq_zero_of_dvd_of_lt hdvd (by omega)
    omega
  · have hdvd : N ∣ j - k := (Nat.modEq_iff_dvd' hle).mp h.symm
    have hzero := Nat.eq_zero_of_dvd_of_lt hdvd (by omega)
    omega

/-- **The receiver is not misled**: a message with the residue it expects is the one it expects. -/
theorem Valid.eq_of_accept (h : t.Valid w) (hw : w < N) (hdata : t.data = j :: rest)
    (hj : j ≡ t.received [MOD N]) : j = t.received := by
  have hmem : j ∈ t.data := hdata ▸ List.mem_cons_self
  have hlt := h.data_lt j hmem
  have hle := h.received_le_add j hmem
  have hbase := h.base_le
  have hnext := h.next_le
  exact eq_of_modEq hj (by omega) (by omega)

/-- **The sender is not misled**: a report with the residue of a number in its window is that
number. -/
theorem Valid.eq_of_acknowledge (h : t.Valid w) (hw : w < N) (hacks : t.acks = a :: rest)
    (hk : t.base + k ≤ t.next) (ha : t.base + k ≡ a [MOD N]) : t.base + k = a := by
  have hmem := h.acks_mem a (hacks ▸ List.mem_cons_self)
  have hreceived := h.received_le
  have hnext := h.next_le
  exact eq_of_modEq ha (by omega) (by omega)

/-- A message of the window can be sent, for the first time or again. -/
theorem Valid.transmit (h : t.Valid w) (hbase : t.base ≤ j) (hw : j < t.base + w) :
    Valid w { t with next := max t.next (j + 1), data := t.data ++ [j] } where
  base_le := h.base_le
  received_le := h.received_le.trans (le_max_left _ _)
  next_le := max_le h.next_le hw
  data_lt i hi := by
    rcases List.mem_append.mp hi with hi | hi
    · exact (h.data_lt i hi).trans_le (le_max_left _ _)
    · rw [List.mem_singleton.mp hi]
      exact Nat.lt_of_lt_of_le (Nat.lt_succ_self j) (le_max_right _ _)
  received_le_add i hi := by
    rcases List.mem_append.mp hi with hi | hi
    · exact h.received_le_add i hi
    · rw [List.mem_singleton.mp hi]
      exact (h.received_le.trans h.next_le).trans (Nat.add_le_add_right hbase w)
  data_pairwise := by
    refine List.pairwise_append.mpr ⟨h.data_pairwise, List.pairwise_singleton _ _, ?_⟩
    intro i hi k hk
    rw [List.mem_singleton.mp hk]
    exact (h.data_lt i hi).trans_le (h.next_le.trans (Nat.add_le_add_right hbase w))
  acks_mem := h.acks_mem
  acks_sorted := h.acks_sorted

/-- A report can be made at any time, also of a message just accepted. -/
theorem Valid.report (h : t.Valid w) : Valid w { t with acks := t.acks ++ [t.received] } where
  base_le := h.base_le
  received_le := h.received_le
  next_le := h.next_le
  data_lt := h.data_lt
  received_le_add := h.received_le_add
  data_pairwise := h.data_pairwise
  acks_mem a ha := by
    rcases List.mem_append.mp ha with ha | ha
    · exact h.acks_mem a ha
    · rw [List.mem_singleton.mp ha]
      exact ⟨h.base_le, le_rfl⟩
  acks_sorted := by
    refine List.pairwise_append.mpr ⟨h.acks_sorted, List.pairwise_singleton _ _, ?_⟩
    intro a ha b hb
    rw [List.mem_singleton.mp hb]
    exact (h.acks_mem a ha).2

theorem Valid.lose (h : t.Valid w) {data : List Nat} (hdata : data.Sublist t.data) :
    Valid w { t with data := data } :=
  { h with
    data_lt := fun j hj => h.data_lt j (hdata.subset hj)
    received_le_add := fun j hj => h.received_le_add j (hdata.subset hj)
    data_pairwise := h.data_pairwise.sublist hdata }

theorem Valid.forget (h : t.Valid w) {acks : List Nat} (hacks : acks.Sublist t.acks) :
    Valid w { t with acks := acks } :=
  { h with
    acks_mem := fun a ha => h.acks_mem a (hacks.subset ha)
    acks_sorted := h.acks_sorted.sublist hacks }

/-- The message that is expected can be taken. -/
theorem Valid.take (h : t.Valid w) (hdata : t.data = t.received :: rest) :
    Valid w { t with received := t.received + 1, data := rest } := by
  have hpairwise := h.data_pairwise
  rw [hdata, List.pairwise_cons] at hpairwise
  have htail : ∀ j ∈ rest, j ∈ t.data := fun j hj => hdata ▸ List.mem_cons_of_mem _ hj
  exact {
    base_le := h.base_le.trans (Nat.le_succ _)
    received_le := h.data_lt _ (hdata ▸ List.mem_cons_self)
    next_le := h.next_le
    data_lt := fun j hj => h.data_lt j (htail j hj)
    received_le_add := fun j hj => hpairwise.1 j hj
    data_pairwise := hpairwise.2
    acks_mem := fun a ha => ⟨(h.acks_mem a ha).1, (h.acks_mem a ha).2.trans (Nat.le_succ _)⟩
    acks_sorted := h.acks_sorted }

/-- **The step lemma.** -/
theorem Valid.step (h : t.Valid w) (hw : w < N) {x : Act} (hst : Step w N t x u) : u.Valid w := by
  cases hst with
  | send hroom =>
    have hmax : max t.next (t.next + 1) = t.next + 1 := by omega
    have hsent := h.transmit (h.base_le.trans h.received_le) hroom
    rwa [hmax] at hsent
  | resend hbase hnext =>
    have hmax : ∀ j, j < t.next → max t.next (j + 1) = t.next := by omega
    have hsent := h.transmit hbase (hnext.trans_le h.next_le)
    rwa [hmax _ hnext] at hsent
  | accept hdata hj =>
    rw [h.eq_of_accept hw hdata hj] at hdata
    exact (h.take hdata).report
  | @refuse j rest hdata hj =>
    exact h.lose (hdata ▸ List.sublist_cons_self j rest)
  | report => exact h.report
  | @acknowledge a k rest hacks hk ha =>
    obtain rfl := h.eq_of_acknowledge hw hacks hk ha
    have hsorted := h.acks_sorted
    rw [hacks, List.pairwise_cons] at hsorted
    have hmem := h.acks_mem _ (hacks ▸ List.mem_cons_self)
    have hrest := h.forget (hacks ▸ List.sublist_cons_self (t.base + k) rest)
    exact { hrest with
      base_le := hmem.2
      next_le := h.next_le.trans (Nat.add_le_add_right hmem.1 w)
      acks_mem := fun b hb => ⟨hsorted.1 b hb, (hrest.acks_mem b hb).2⟩ }
  | lose hdata => exact h.lose hdata
  | forget hacks => exact h.forget hacks

/-- A transfer that begins. -/
theorem valid_start (w n : Nat) : Valid w ⟨n, n, n, [], []⟩ :=
  ⟨le_rfl, le_rfl, Nat.le_add_right _ _, by simp, by simp, .nil, by simp, .nil⟩

/-- **The run lemma.** -/
theorem Valid.run (hw : w < N) {xs : List Act} (h : Run (Step w N) t xs u) (ht : t.Valid w) :
    u.Valid w :=
  h.invariant (I := Valid w) (fun hs hst => hs.step hw hst) ht

/-! ## Nothing lost, nothing repeated -/

/-- The step puts messages under way in their order, or takes the oldest. -/
def Act.Faithful (x : Act) : Prop := x ≠ .resend ∧ x ≠ .lose

instance : DecidablePred Act.Faithful := fun x => inferInstanceAs (Decidable (x ≠ _ ∧ x ≠ _))

/-- The messages under way are those that were sent and not taken, in order. -/
def Consecutive (t : Transfer) : Prop := t.data = List.range' t.received (t.next - t.received)

theorem Consecutive.head (h : t.Consecutive) (hdata : t.data = j :: rest) :
    j = t.received ∧ rest = List.range' (t.received + 1) (t.next - (t.received + 1)) := by
  rw [Consecutive, hdata] at h
  obtain ⟨n, hn⟩ : ∃ n, t.next - t.received = n + 1 :=
    Nat.exists_eq_succ_of_ne_zero (by rintro hzero; rw [hzero] at h; cases h)
  rw [hn, List.range'_succ] at h
  obtain ⟨rfl, rfl⟩ := List.cons.inj h
  exact ⟨rfl, by rw [show t.next - (t.received + 1) = n by omega]⟩

/-- **Then every message is taken at its turn**. -/
theorem Consecutive.step (h : t.Consecutive) (hv : t.Valid w) {x : Act} (hx : x.Faithful)
    (hst : Step w N t x u) : u.Consecutive := by
  cases hst with
  | send =>
    have hle := hv.received_le
    simp only [Consecutive] at h ⊢
    rw [h, show t.next + 1 - t.received = t.next - t.received + 1 by omega, List.range'_concat]
    congr 2
    omega
  | accept hdata _ => exact (h.head hdata).2
  | refuse hdata hj => exact absurd ((h.head hdata).1 ▸ Nat.ModEq.refl _) hj
  | report | acknowledge _ _ _ | forget _ => exact h
  | resend => exact absurd rfl hx.1
  | lose => exact absurd rfl hx.2

theorem Consecutive.run (hw : w < N) {xs : List Act} (h : Run (Step w N) t xs u)
    (hxs : ∀ x ∈ xs, x.Faithful) (hv : t.Valid w) (ht : t.Consecutive) : u.Consecutive := by
  induction h with
  | nil => exact ht
  | cons hst _ ih =>
    have hx := hxs _ List.mem_cons_self
    exact ih (fun x hx => hxs x (List.mem_cons_of_mem _ hx)) (hv.step hw hst) (ht.step hv hx hst)

/-! ## Several steps of one kind -/

/-- Messages sent in a row. -/
theorem run_sends (N : Nat) (hw : t.next + k ≤ t.base + w) :
    Run (Step w N) t (List.replicate k .send)
      { t with next := t.next + k, data := t.data ++ List.range' t.next k } := by
  induction k generalizing t with
  | zero => simpa using Run.nil t
  | succ k ih =>
    have hfirst : Step w N t .send { t with next := t.next + 1, data := t.data ++ [t.next] } :=
      .send (by omega)
    have hrest := ih (t := { t with next := t.next + 1, data := t.data ++ [t.next] })
      (by simp only; omega)
    simp only [List.append_assoc, List.singleton_append, ← List.range'_succ, Nat.add_assoc,
      Nat.add_comm 1 k] at hrest
    exact .cons hfirst hrest

/-- Reports in a row. -/
theorem run_reports (w N k : Nat) (t : Transfer) :
    Run (Step w N) t (List.replicate k .report)
      { t with acks := t.acks ++ List.replicate k t.received } := by
  induction k generalizing t with
  | zero => simpa using Run.nil t
  | succ k ih =>
    have hrest := ih { t with acks := t.acks ++ [t.received] }
    simp only [List.append_assoc, List.singleton_append] at hrest
    exact .cons (.report t) hrest

end Transfer

end Machinery
