import HnzSouth.Path.History
import HnzSouth.Sending.Window

/-!
# Sending/Order — first in, first out

The messages a path holds should be the submissions that were not acknowledged yet, in their order
(`InOrder`).  Each step keeps this exactly if it serves the queues in order (`InOrder.step_iff`): a
submitted message must not find messages that wait while the window is open, and a received number
must not acknowledge a message that waits.  A retransmission leads to both: it opens the window, and
lets messages wait that were sent before.
-/

namespace Hnz

open Machinery

namespace Link

variable {c : PathConf} {now : Int} {l l' : Link} {op : Op} {msg : List UInt8} {n k : Nat}

/-! ## The order of submission -/

/-- The submissions, each with its place. -/
def numbered (l : Link) : List (Nat × List UInt8) := l.taken.mapIdx Prod.mk

@[simp] theorem length_numbered : l.numbered.length = l.taken.length := List.length_mapIdx

theorem numbered_of_taken (h : l'.taken = l.taken ++ [msg]) :
    l'.numbered = l.numbered ++ [(l.taken.length, msg)] := by
  rw [numbered, h, List.mapIdx_concat, numbered]

/-- **First in, first out**: the messages held are the submissions from the `n`-th on. -/
structure InOrder (l : Link) (n : Nat) : Prop where
  held : l.held = l.numbered.drop n
  le : n ≤ l.taken.length

theorem inOrder_iff_of_taken (h : l'.taken = l.taken ++ [msg]) (hl : l.InOrder n) :
    l'.InOrder n ↔ l'.held = l.held ++ [(l.taken.length, msg)] := by
  have hdrop : l'.numbered.drop n = l.held ++ [(l.taken.length, msg)] := by
    rw [numbered_of_taken h, List.drop_append_of_le_length (by simpa using hl.le), hl.held]
  have hle : n ≤ l'.taken.length := by
    rw [h, List.length_append]
    exact hl.le.trans (Nat.le_add_right _ _)
  exact ⟨fun hl' => hl'.held.trans hdrop, fun hheld => ⟨hheld.trans hdrop.symm, hle⟩⟩

/-- A number that acknowledges `k` messages. -/
theorem inOrder_iff_of_drop (htaken : l'.taken = l.taken)
    (hheld : l'.held = l.held.drop (min k l.msgSent.length)) (hl : l.InOrder n) :
    l'.InOrder (min (n + k) l.taken.length) ↔ l.msgWaiting = [] ∨ k ≤ l.msgSent.length := by
  have hdrop : l'.numbered.drop (min (n + k) l.taken.length) = l.held.drop k := by
    rw [numbered, htaken, hl.held, List.drop_drop]
    rcases le_total (n + k) l.taken.length with h | h
    · rw [min_eq_left h, numbered]
    · rw [min_eq_right h, List.drop_of_length_le (by simp), List.drop_of_length_le (by simpa using h)]
  have hlength : l.held.length = l.msgSent.length + l.msgWaiting.length := by
    rw [Link.held, List.length_map, List.length_append]
  constructor
  · intro hl'
    have hlen := congrArg List.length (hheld.symm.trans (hl'.held.trans hdrop))
    rw [List.length_drop, List.length_drop, hlength] at hlen
    rw [← List.length_eq_zero_iff]
    omega
  · intro h
    refine ⟨?_, by rw [htaken]; exact min_le_right _ _⟩
    rw [hheld, hdrop]
    obtain hnil | hle := h
    · rcases le_total k l.msgSent.length with hk | hk
      · rw [min_eq_left hk]
      · rw [hnil, List.length_nil, Nat.add_zero] at hlength
        rw [List.drop_of_length_le (by rw [hlength, min_eq_right hk]),
          List.drop_of_length_le (by rw [hlength]; exact hk)]
    · rw [min_eq_left hle]

/-! ## Steps -/

/-- The number of submissions that were acknowledged or discarded, after a move. -/
def acked (l : Link) (a : Op ⊕ ConnectionEvent) (n : Nat) : Nat :=
  match a with
  | .inl (.acknowledge type) =>
    min (n + l.acknowledges (nrField type) (pfField type)) l.taken.length
  | .inl (.inform type) => min (n + l.acknowledges (nrField type) false) l.taken.length
  | .inl _ => n
  | .inr e => if performs discards l.protocolState e then l.taken.length else n

/-- **The step serves the queues in order**: a message that is submitted, and not refused, finds
nothing that waits, or a full window; a number that is received acknowledges no message that waits,
or all of them. -/
def Serves (c : PathConf) (l : Link) : Op → Prop
  | .submit msg _ =>
    l.admits c msg = true → l.msgWaiting = [] ∨ c.anticipationRatio ≤ l.msgSent.length
  | .acknowledge type =>
    l.msgWaiting = [] ∨ l.acknowledges (nrField type) (pfField type) ≤ l.msgSent.length
  | .inform type => l.msgWaiting = [] ∨ l.acknowledges (nrField type) false ≤ l.msgSent.length
  | .resend | .supervise | .touch => True

/-- A message that is sent goes between those sent and those that wait. -/
theorem held_sendInfo (hadmits : l.admits c msg = true) :
    (l.sendInfo c now msg).2.held =
      if l.msgSent.length < c.anticipationRatio then
        l.msgSent.map Message.body ++ (l.taken.length, msg) :: l.msgWaiting.map Message.body
      else l.held ++ [(l.taken.length, msg)] := by
  rw [sendInfo_eq, if_pos hadmits]
  split_ifs
  · have hm : (l.take msg).admits c (l.submitted msg).payload := hadmits
    rw [transmit_of_admits hm]
    simp [Link.held, take, sendFrame, submitted, Message.body]
  · simp [Link.held, take, submitted, Message.body]

/-- A submitted message keeps the order if it does not overtake. -/
theorem InOrder.submit_iff (h : l.InOrder n) (now : Int) (msg : List UInt8) :
    (l.sendInfo c now msg).2.InOrder n ↔
      (l.admits c msg = true → l.msgWaiting = [] ∨ c.anticipationRatio ≤ l.msgSent.length) := by
  have htaken := (Step.submit (c := c) now msg l).taken
  simp only [Op.takes] at htaken
  by_cases hadmits : l.admits c msg = true
  · rw [if_pos hadmits] at htaken
    rw [inOrder_iff_of_taken htaken h, held_sendInfo hadmits]
    simp only [hadmits, true_imp_iff]
    split_ifs with hroom
    · rw [or_iff_left (not_le.mpr hroom), Link.held, List.map_append, List.append_assoc,
        List.append_cancel_left_eq]
      constructor
      · intro heq
        cases hw : l.msgWaiting with
        | nil => rfl
        | cons m ms =>
          rw [hw, List.map_cons, List.cons_append, List.cons.injEq] at heq
          -- what waits was submitted before
          have hmem : m.body ∈ l.numbered.drop n := by
            rw [← h.held, Link.held, hw]
            simp
          obtain ⟨i, hi, hget⟩ := List.mem_iff_getElem.mp (List.mem_of_mem_drop hmem)
          rw [← heq.1] at hget
          have hplace : i = l.taken.length := by
            simpa [numbered] using congrArg Prod.fst hget
          rw [length_numbered] at hi
          omega
      · intro hnil
        rw [hnil]
        rfl
    · exact iff_of_true rfl (Or.inr (not_lt.mp hroom))
  · rw [sendInfo_eq, if_neg hadmits]
    exact iff_of_true h fun hyes => absurd hyes hadmits

/-- **The step lemma**: a step keeps the order exactly if it serves the queues in order. -/
theorem InOrder.step_iff (h : l.InOrder n) (hst : Step c l op l') :
    l'.InOrder (l.acked (.inl op) n) ↔ Serves c l op := by
  have htaken := hst.taken
  cases hst with
  | submit now msg => exact h.submit_iff now msg
  | acknowledge hrr =>
    exact inOrder_iff_of_drop (htaken.trans (List.append_nil _)) (held_receivedRR hrr) h
  | inform hrr =>
    exact inOrder_iff_of_drop (htaken.trans (List.append_nil _)) (held_sendRR hrr) h
  | resend => exact iff_of_true ⟨(held_resend _).trans h.held, h.le⟩ trivial
  | supervise => exact iff_of_true ⟨h.held, h.le⟩ trivial
  | touch hcore =>
    have htaken : l'.taken = l.taken := congrArg Core.taken hcore
    refine iff_of_true ⟨?_, by rw [htaken]; exact h.le⟩ trivial
    rw [held_of_core hcore, numbered, htaken]
    exact h.held

/-- A transition keeps the messages, or discards all of them. -/
theorem InOrder.transition (h : l.InOrder n) (e : ConnectionEvent) :
    (l.transition now e).InOrder (l.acked (.inr e) n) := by
  have hnumbered : (l.transition now e).numbered = l.numbered := by
    rw [numbered, taken_transition, numbered]
  refine ⟨?_, ?_⟩
  · rw [held_transition, hnumbered]
    simp only [acked]
    split_ifs
    · exact (List.drop_of_length_le (by simp)).symm
    · exact h.held
  · rw [taken_transition]
    simp only [acked]
    split_ifs
    · exact le_rfl
    · exact h.le

/-! ## Runs -/

/-- The move, if it is a step, serves the queues in order. -/
def ServesAll (c : PathConf) (x : Link × Nat) (a : Op ⊕ ConnectionEvent) : Prop :=
  ∀ op, a = .inl op → Serves c x.1 op

/-- **First in, first out**: in every run of a path that serves the queues in order, the messages it
holds are all the submissions that were neither acknowledged nor discarded, in their order. -/
theorem held_of_run {l₀ : Link} (hrest : l₀.core = ({} : Link).core)
    {as : List (Op ⊕ ConnectionEvent)}
    (h : Run (Under (ServesAll c) (Observed acked (Move c))) (l₀, 0) as (l, n)) :
    l.held = l.numbered.drop n := by
  have hstart : l₀.InOrder 0 := by
    have htaken : l₀.taken = [] := congrArg Core.taken hrest
    refine ⟨?_, Nat.zero_le _⟩
    rw [held_of_core hrest, numbered, htaken]
    rfl
  have hend : l.InOrder n :=
    h.invariant (I := fun x => x.1.InOrder x.2)
      (fun {x a y} hx hxy => by
        obtain ⟨hserves, hmove, hn⟩ := hxy
        rw [hn]
        cases a with
        | inl op => exact (hx.step_iff hmove).mpr (hserves op rfl)
        | inr e =>
          obtain ⟨now, hy⟩ := hmove
          rw [hy]
          exact hx.transition e) hstart
  exact hend.held

/-- Three commands fill the window, and a fourth one waits; the first one is acknowledged, and the
fourth one leaves behind the others. -/
theorem held_answered :
    ∃ l, Run (Under (ServesAll (HNZConf.sample.pathConf .A))
          (Observed acked (Move (HNZConf.sample.pathConf .A)))) ({}, 0)
        [.inr .receivedSarm, .inr .receivedUa, .inl (.submit [0x19, 0x1F, 0x08] true),
          .inl (.submit [0x19, 0x20, 0x08] true), .inl (.submit [0x19, 0x21, 0x08] true),
          .inl (.submit [0x19, 0x22, 0x08] false), .inl (.acknowledge 0x21)] (l, 1) ∧
      l.held = [(1, [0x19, 0x20, 0x08]), (2, [0x19, 0x21, 0x08]), (3, [0x19, 0x22, 0x08])] := by
  let c : PathConf := HNZConf.sample.pathConf .A
  let l₁ : Link := transition 0 .receivedSarm {}
  let l₂ : Link := l₁.transition 0 .receivedUa
  let l₃ : Link := (l₂.sendInfo c 0 [0x19, 0x1F, 0x08]).2
  let l₄ : Link := (l₃.sendInfo c 0 [0x19, 0x20, 0x08]).2
  let l₅ : Link := (l₄.sendInfo c 0 [0x19, 0x21, 0x08]).2
  let l₆ : Link := (l₅.sendInfo c 0 [0x19, 0x22, 0x08]).2
  have hok : (l₆.receivedRR c 0 (nrField 0x21) (pfField 0x21)).toOption.isSome := by decide +kernel
  obtain ⟨⟨b, l⟩, hl⟩ := Option.isSome_iff_exists.mp hok
  have hrr : l₆.receivedRR c 0 (nrField 0x21) (pfField 0x21) = .ok (b, l) := by
    cases hr : l₆.receivedRR c 0 (nrField 0x21) (pfField 0x21) <;> rw [hr] at hl <;> cases hl
    rfl
  have hlast : Step c l₆ (.acknowledge 0x21) l := .acknowledge hrr
  have hconnect : ∀ (l : Link) (e : ConnectionEvent), acked l (.inr e) 0 = 0 →
      Under (ServesAll c) (Observed acked (Move c)) (l, 0) (.inr e) (l.transition 0 e, 0) :=
    fun l e hn => ⟨nofun, ⟨0, rfl⟩, hn.symm⟩
  have hserves : ∀ {l l' : Link} {op : Op} {m n : Nat}, Serves c l op → Step c l op l' →
      n = acked l (.inl op) m →
      Under (ServesAll c) (Observed acked (Move c)) (l, m) (.inl op) (l', n) :=
    fun h hst hn => ⟨fun _ heq => Sum.inl.inj heq ▸ h, hst, hn⟩
  have hsubmit : ∀ (l : Link) (msg : List UInt8) (b : Bool), l.msgWaiting = [] →
      (l.sendInfo c 0 msg).1 = b →
      Under (ServesAll c) (Observed acked (Move c)) (l, 0) (.inl (.submit msg b))
        ((l.sendInfo c 0 msg).2, 0) := by
    rintro l msg _ h rfl
    exact hserves (fun _ => Or.inl h) (.submit 0 _ _) rfl
  -- The number acknowledges none that waits.
  have hone : l₆.acknowledges (nrField 0x21) (pfField 0x21) ≤ l₆.msgSent.length := by
    decide +kernel
  have hrun : Run (Under (ServesAll c) (Observed acked (Move c))) ({}, 0)
      [.inr .receivedSarm, .inr .receivedUa, .inl (.submit [0x19, 0x1F, 0x08] true),
        .inl (.submit [0x19, 0x20, 0x08] true), .inl (.submit [0x19, 0x21, 0x08] true),
        .inl (.submit [0x19, 0x22, 0x08] false), .inl (.acknowledge 0x21)] (l, 1) :=
    .cons (hconnect {} .receivedSarm rfl) <| .cons (hconnect l₁ .receivedUa rfl) <|
      .cons (hsubmit l₂ _ true (by decide +kernel) (by decide +kernel)) <|
      .cons (hsubmit l₃ _ true (by decide +kernel) (by decide +kernel)) <|
      .cons (hsubmit l₄ _ true (by decide +kernel) (by decide +kernel)) <|
      .cons (hsubmit l₅ _ false (by decide +kernel) (by decide +kernel)) <|
      .cons (hserves (Or.inr hone) hlast (by decide +kernel)) (.nil _)
  refine ⟨l, hrun, ?_⟩
  have htaken : l₆.taken =
      [[0x19, 0x1F, 0x08], [0x19, 0x20, 0x08], [0x19, 0x21, 0x08], [0x19, 0x22, 0x08]] := by
    decide +kernel
  have hsame : l.taken = l₆.taken := hlast.taken.trans (List.append_nil _)
  rw [held_of_run rfl hrun, numbered, hsame, htaken]
  rfl

end Link

/-! ## A command that overtakes another -/

namespace Plugin

variable [Platform]

/-- A path of the plugin is the end of such a run. -/
theorem exists_run_acked {pl : Plugin} {calls : List Call} {c : HNZConnection}
    (h : Run Step {} calls pl) (hc : pl.connection = some c) (p : PathId) :
    ∃ l₀ as n, l₀.core = ({} : Link).core ∧
      Run (Observed Link.acked (Link.Move (c.conf.pathConf p))) (l₀, 0) as ((c.path p).toLink, n) := by
  obtain ⟨l₀, as, hrest, hrun⟩ := linkInvariant_run.plugin_always h hc p
  obtain ⟨n, hn⟩ := hrun.observe Link.acked 0
  exact ⟨l₀, as, n, hrest, hn⟩

end Plugin

namespace Plugin

open Sample

/-- A third command, after the first one was sent back and the second one moved back to the waiting
queue. -/
def overtaking : List Call :=
  resending ++ [.event (.operation "HNZCommand"
    [("co_type", "TC"), ("co_addr", "33"), ("co_value", "1")] 4000000000)]

set_option maxRecDepth 8000 in
/-- The third command goes ahead of the second one; nothing was acknowledged. -/
theorem not_inOrder_overtaking :
    ∃ pl c, exec Plugin.step {} overtaking = some pl ∧ pl.connection = some c ∧
      (c.path .A).protocolState = .connected ∧ (c.path .A).nrr = 0 ∧
      (c.path .A).msgSent.map Message.id = [0, 2] ∧ (c.path .A).msgWaiting.map Message.id = [1] ∧
      ¬∃ n, (c.path .A).toLink.held = (c.path .A).toLink.numbered.drop n := by
  let pl : Plugin := (exec Plugin.step {} overtaking).get rfl
  let c : HNZConnection := pl.connection.get rfl
  have hheld : (c.path .A).toLink.held.map Prod.fst = [0, 2, 1] := by rfl
  have hnumbered : (c.path .A).toLink.numbered.map Prod.fst = [0, 1, 2] := by rfl
  refine ⟨pl, c, rfl, rfl, rfl, rfl, rfl, rfl, ?_⟩
  rintro ⟨n, h⟩
  have hplaces := congrArg (List.map Prod.fst) h
  rw [List.map_drop, hheld, hnumbered] at hplaces
  match n with
  | 0 => exact absurd hplaces (by decide)
  | n + 1 =>
    have hlength := congrArg List.length hplaces
    simp only [List.length_drop, List.length_cons, List.length_nil] at hlength
    omega

end Plugin

end Hnz
