import HnzSouth.Behaviour.Links
import HnzSouth.Path.History

/-!
# Sending/Queues — no message survives a loss of connection

The queues hold only what the protocol state admits: nothing before the connection, and only BULLE
while only the output is connected (`Link.Drained`).  So the release loop always ends, and every
other message that leaves was submitted since the path was last unconnected.
-/

namespace Hnz

open Machinery

namespace Link

variable {c : PathConf} {l l' l₀ : Link}

/-- **The queues of a path**, state by state, and what follows for the release loop. -/
structure Drained (c : PathConf) (l : Link) : Prop where
  unconnected : l.protocolState = .connection ∨ l.protocolState = .inputConnected →
    l.msgSent = [] ∧ l.msgWaiting = []
  outputConnected : l.protocolState = .outputConnected →
    ∀ m ∈ l.msgSent ++ l.msgWaiting, c.isBULLE m.payload
  /-- No waiting message is refused. -/
  accepts : ∀ m ∈ l.msgWaiting, ∀ now, (l.sendInfoImmediately c now m).1 = true
  /-- The release loop ends. -/
  ends : ∀ nr now, ∃ l', l.nrAccepted c now nr = .ok l'

theorem Admitted.drained (h : l.Admitted c) : l.Drained c where
  unconnected hp := by
    have hnil := List.map_eq_nil_iff.mp (h.held_eq_nil hp)
    exact List.append_eq_nil_iff.mp hnil
  outputConnected hp m hm := by
    have hadmits := h m.body (List.mem_map_of_mem hm)
    simpa [admits, hp, Message.body] using hadmits
  accepts m hm now := by
    rw [sendInfoImmediately_of_admits (h m.body (List.mem_map_of_mem (List.mem_append_right _ hm)))]
  ends nr now := by
    rw [nrAccepted_eq]
    exact exists_releaseWaiting now fun m hm =>
      h m.body (List.mem_map_of_mem (List.mem_append_right _ hm))

/-! ## What leaves after a pause -/

/-- The message is a BULLE, or was submitted after the first `n`. -/
def Recent (c : PathConf) (n : Nat) (b : Nat × List UInt8) : Prop := c.isBULLE b.2 ∨ n ≤ b.1

/-- **Since the link was `l₀`**, every frame that left and every message still held is recent. -/
structure Since (c : PathConf) (l₀ l : Link) : Prop where
  recorded : l.Recorded
  le : l₀.taken.length ≤ l.taken.length
  held : ∀ b ∈ l.held, Recent c l₀.taken.length b
  frames : ∃ new, l.frames = l₀.frames ++ new ∧ ∀ f ∈ new, ∀ b, f.body = some b →
    l.taken[b.1]? = some b.2 ∧ Recent c l₀.taken.length b

/-- A path that is not connected holds only BULLE. -/
theorem Since.refl (hr : l.Recorded) (ha : l.Admitted c) (hl : l.protocolState ≠ .connected) :
    Since c l l where
  recorded := hr
  le := le_rfl
  held b hb := by
    have hadmits := ha b hb
    simp only [admits, Bool.or_eq_true, Bool.and_eq_true, beq_iff_eq] at hadmits
    exact Or.inl (hadmits.resolve_left hl).2
  frames := ⟨[], (List.append_nil _).symm, by simp⟩

/-- **The step lemma**: a step sends what it leaves in the queues, and adds what it submits. -/
theorem Since.step {op : Op} (h : Since c l₀ l) (hst : Step c l op l') : Since c l₀ l' := by
  have htaken := hst.taken
  have hheld : ∀ b ∈ l'.held, Recent c l₀.taken.length b := by
    intro b hb
    obtain hb | ⟨msg, sent, -, rfl, -⟩ := hst.held hb
    · exact h.held b hb
    · exact Or.inr h.le
  refine ⟨h.recorded.step hst, by rw [htaken, List.length_append]; exact h.le.trans (by omega),
    hheld, ?_⟩
  obtain ⟨old, hold, hprop⟩ := h.frames
  obtain ⟨new, hnew, hbody⟩ := hst.frames
  refine ⟨old ++ new, by rw [hnew, hold, List.append_assoc], fun f hf b hb => ?_⟩
  rcases List.mem_append.mp hf with hf | hf
  · obtain ⟨hget, hrecent⟩ := hprop f hf b hb
    rw [htaken, List.getElem?_append_left (List.getElem?_eq_some_iff.mp hget).1]
    exact ⟨hget, hrecent⟩
  · exact ⟨h.recorded.step hst b (hbody f hf b hb), hheld b (hbody f hf b hb)⟩

theorem Since.transition (h : Since c l₀ l) (now : Int) (e : ConnectionEvent) :
    Since c l₀ (l.transition now e) where
  recorded := h.recorded.transition e
  le := by rw [taken_transition]; exact h.le
  held b hb := by
    rw [held_transition] at hb
    split_ifs at hb
    · cases hb
    · exact h.held b hb
  frames := by rw [frames_transition, taken_transition]; exact h.frames

/-- **The run lemma.** -/
theorem Since.run {as : List (Op ⊕ ConnectionEvent)} (h : Since c l₀ l)
    (hrun : Run (Move c) l as l') : Since c l₀ l' := by
  refine hrun.invariant (I := Since c l₀) (fun {l a l'} h hst => ?_) h
  cases a with
  | inl op => exact h.step hst
  | inr e => obtain ⟨now, rfl⟩ := hst; exact h.transition now e

end Link

/-- Messages are recorded. -/
theorem linkInvariant_recorded : LinkInvariant (fun _ _ _ => True) fun _ l => l.Recorded where
  init h b hb := by rw [Link.held_of_core h] at hb; cases hb
  step h hst _ := h.step hst
  transition _ e h := h.transition e

/-! ## Runs of the plugin -/

namespace Plugin

variable [Platform]

/-- **No message survives**: in every connection of every run the queues are drained; and after a
state in which a path is not connected, the frames it sends carry BULLE and messages submitted
since. -/
theorem drained_of_run {pl : Plugin} {calls : List Call} {c : HNZConnection}
    (h : Run Step {} calls pl) (hc : pl.connection = some c) (p : PathId) :
    (c.path p).toLink.Drained (c.conf.pathConf p) ∧
      ((c.path p).protocolState ≠ .connected →
        ∀ evs t, Run System.Step ⟨pl.hnz, c⟩ evs t →
          ∃ new, (t.path p).frames = (c.path p).frames ++ new ∧
            ∀ f ∈ new, ∀ k msg, f.body = some (k, msg) → (t.path p).taken[k]? = some msg ∧
              ((c.conf.pathConf p).isBULLE msg ∨ (c.path p).taken.length ≤ k)) := by
  have hadm := linkInvariant_admitted.plugin_always h hc p
  have hrec := linkInvariant_recorded.plugin_always h hc p
  refine ⟨hadm.drained, fun hp evs t hrun => ?_⟩
  obtain ⟨-, as, has⟩ := System.run_link hrun p
  obtain ⟨new, hnew, hprop⟩ := ((Link.Since.refl hrec hadm hp).run has).frames
  exact ⟨new, hnew, fun f hf k msg hb => hprop f hf (k, msg) hb⟩

omit [Platform] in
set_option maxRecDepth 8000 in
/-- A command submitted once the path is connected is the message that leaves. -/
theorem drained_command : letI : Platform := .sample
    ∃ (pl : Plugin) (c : HNZConnection) (t : System) (new : List Frame),
      exec Plugin.step {} listening = some pl ∧ pl.connection = some c ∧
      (c.path .A).toLink.Drained (c.conf.pathConf .A) ∧
      exec System.step ⟨pl.hnz, c⟩ [.protocol .A .receivedUa 0,
        .operation "HNZCommand" [("co_type", "TC"), ("co_addr", "31"), ("co_value", "1")] 0] = some t ∧
      (t.path .A).frames = (c.path .A).frames ++ new ∧
      ∀ f ∈ new, ∀ k msg, f.body = some (k, msg) → (t.path .A).taken[k]? = some msg ∧
        ((c.conf.pathConf .A).isBULLE msg ∨ (c.path .A).taken.length ≤ k) := by
  let : Platform := .sample
  let pl : Plugin := (exec Plugin.step {} listening).get rfl
  let c : HNZConnection := pl.connection.get rfl
  let t : System := (exec System.step ⟨pl.hnz, c⟩ [.protocol .A .receivedUa 0,
    .operation "HNZCommand" [("co_type", "TC"), ("co_addr", "31"), ("co_value", "1")] 0]).get rfl
  have hpl : exec Plugin.step {} listening = some pl := rfl
  have hc : pl.connection = some c := rfl
  have ht : exec System.step ⟨pl.hnz, c⟩ [.protocol .A .receivedUa 0,
    .operation "HNZCommand" [("co_type", "TC"), ("co_addr", "31"), ("co_value", "1")] 0] = some t := rfl
  obtain ⟨hdrained, hsince⟩ := drained_of_run (run_det_iff.mpr hpl) hc .A
  obtain ⟨new, hnew, hbody⟩ := hsince nofun _ t (run_det_iff.mpr ht)
  exact ⟨pl, c, t, new, hpl, hc, hdrained, ht, hnew, hbody⟩

end Plugin

end Hnz
