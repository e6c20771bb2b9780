import HnzSouth.Lifecycle.Start

/-!
# Interrogation/Mismatch — the report on the addresses of a GI

The report names the configured TS that a GI did not bring and the addresses it brought besides.
The first list is a set difference for every record of addresses.  The second one is a set
difference only if no configured TS came twice: a repeated TSCG makes its TS extra ones
(`mismatch_iff`).
-/

namespace Hnz

open Machinery Std

/-- **The report is right**: each list is a set difference, ascending and without duplicates. -/
structure AddressesDiff.Exact (diff : AddressesDiff) (configured : Nat → Prop)
    (received : List Nat) : Prop where
  mem_missing : ∀ a, a ∈ diff.missingAddresses ↔ configured a ∧ a ∉ received
  mem_extra : ∀ a, a ∈ diff.extraAddresses ↔ a ∈ received ∧ ¬configured a
  missing_ascending : diff.missingAddresses.Pairwise (· < ·)
  extra_ascending : diff.extraAddresses.Pairwise (· < ·)

/-- The list of a set of numbers is ascending. -/
theorem toList_ascending (set : TreeSet Nat) : set.toList.Pairwise (· < ·) :=
  TreeSet.ordered_toList.imp compare_lt_iff_lt.mp

namespace System

variable {s : System} {table : TreeMap Nat String} {a : Nat}

/-- The configured TS of the station, where the configuration has a table of them. -/
def allTSs (s : System) : Option (TreeMap Nat String) :=
  s.hnz.conf.messagesAt "TS" s.hnz.remoteAddress

/-- A configured TS. -/
def IsTS (s : System) (a : Nat) : Prop := ∃ table ∈ s.allTSs, a ∈ table

theorem isTS_iff (h : s.allTSs = some table) : s.IsTS a ↔ a ∈ table := by
  simp only [IsTS, h, Option.mem_def, Option.some.injEq, exists_eq_left']

/-- The two sets of the report. -/
def mismatch (table : TreeMap Nat String) (received : List Nat) : TreeSet Nat × TreeSet Nat :=
  received.foldl consume ((∅ : TreeSet Nat).insertMany table.keys, ∅)

/-- **The report** is that of the table, and needs it. -/
theorem getMismatchingTSCGAddresses_eq (s : System) : s.getMismatchingTSCGAddresses =
    match s.allTSs with
    | none => .error .outOfRange
    | some table =>
      .ok ⟨(mismatch table s.hnz.giAddressesReceived).1.toList,
        (mismatch table s.hnz.giAddressesReceived).2.toList⟩ := by
  rw [getMismatchingTSCGAddresses, allTSs, HNZConf.messagesAt]
  cases s.hnz.conf.msgList["TS"]? with
  | none => rfl
  | some stations => rfl

theorem mem_expected : a ∈ (∅ : TreeSet Nat).insertMany table.keys ↔ a ∈ table := by
  rw [TreeSet.mem_insertMany_list, List.contains_iff_mem, TreeMap.mem_keys,
    or_iff_right TreeSet.not_mem_emptyc]

/-- **The missing addresses**, whatever was received, and how often. -/
theorem mem_mismatch_fst {received : List Nat} :
    a ∈ (mismatch table received).1 ↔ a ∈ table ∧ a ∉ received := by
  rw [mismatch, mem_fold_consume_fst, mem_expected]

/-- **The extra addresses** are the right ones exactly if no TS of the table was received twice. -/
theorem mem_mismatch_snd_iff {received : List Nat} :
    (∀ a, a ∈ (mismatch table received).2 ↔ a ∈ received ∧ a ∉ table) ↔
      ∀ a ∈ table, received.count a ≤ 1 := by
  have h := mem_fold_consume_snd_iff_forall ((∅ : TreeSet Nat).insertMany table.keys) received
  simp only [mem_expected] at h
  exact h

/-- **The report is right exactly if** the configuration has a table of TS for the station, and no
TS of it was received twice. -/
theorem mismatch_iff (s : System) :
    (∃ diff, s.getMismatchingTSCGAddresses = .ok diff ∧
        diff.Exact s.IsTS s.hnz.giAddressesReceived) ↔
      s.allTSs.isSome ∧ ∀ a, s.IsTS a → s.hnz.giAddressesReceived.count a ≤ 1 := by
  rw [getMismatchingTSCGAddresses_eq]
  cases h : s.allTSs with
  | none => exact iff_of_false (fun ⟨_, h, _⟩ => by cases h) fun h => by cases h.1
  | some table =>
    simp only [isTS_iff h, Option.isSome_some, true_and, ← mem_mismatch_snd_iff]
    constructor
    · rintro ⟨diff, hdiff, hexact⟩ a
      cases hdiff
      rw [← TreeSet.mem_toList, hexact.mem_extra, isTS_iff h]
    · intro hextra
      refine ⟨_, rfl, fun a => ?_, fun a => ?_, toList_ascending _, toList_ascending _⟩
      · rw [TreeSet.mem_toList, mem_mismatch_fst, isTS_iff h]
      · rw [TreeSet.mem_toList, hextra, isTS_iff h]

/-- A plugin with TS 100 and TS 511: the TSCG of TS 100 came twice, then the last one. -/
def repeatedTSCG : System where
  hnz :=
    { conf :=
        { HNZConf.sample with
          msgList := HNZConf.sample.msgList.insert "TS"
            (TreeMap.empty.insert 1 ((TreeMap.empty.insert 511 "TS1").insert 100 "TS0")) }
      remoteAddress := 1
      giAddressesReceived := [100, 100, 511] }
  connection := { conf := .sample }

/-- A TS that came twice is reported as an extra one. -/
theorem not_exact_repeatedTSCG :
    ¬∃ diff, repeatedTSCG.getMismatchingTSCGAddresses = .ok diff ∧
      diff.Exact repeatedTSCG.IsTS repeatedTSCG.hnz.giAddressesReceived := by
  have hreport : repeatedTSCG.getMismatchingTSCGAddresses = .ok ⟨[], [100]⟩ := by decide
  rintro ⟨diff, hdiff, hexact⟩
  rw [hreport] at hdiff
  cases hdiff
  have hTS : ¬repeatedTSCG.IsTS 100 := ((hexact.mem_extra 100).mp (by simp)).2
  exact hTS ⟨_, rfl, by decide⟩

end System

end Hnz
