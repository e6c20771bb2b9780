import HnzSouth.Arbitration.OneActive
import HnzSouth.Behaviour.Links
import HnzSouth.Effects.Events
import HnzSouth.Path.History

/-!
# Arbitration/Exclusive — commands on the active path only

Two paths may be connected at once, and the remote station must not get commands or requests from
both.  A path that is not the active one holds BULLE only, and sends nothing else
(`exclusive_of_run`): whoever submits another message has asked the arbiter first, and a path that is
no longer active has discarded what it held.
-/

namespace Hnz

open Machinery

namespace System

variable {s t u : System} {p : PathId} {now : Instant} {a : Arbiter} {ok : Effect → Prop}

/-- **The frames that leave in between** carry no message but BULLE. -/
def SendsBulle (s t : System) (p : PathId) : Prop :=
  ∃ new, (t.path p).frames = (s.path p).frames ++ new ∧
    ∀ f ∈ new, ∀ b, f.body = some b → (s.pathConf p).isBULLE b.2

theorem sendsBulle_of_eq (h : (t.path p).frames = (s.path p).frames) : s.SendsBulle t p :=
  ⟨[], by rw [h, List.append_nil], by simp⟩

theorem SendsBulle.trans (h : s.SendsBulle t p) (h' : t.SendsBulle u p)
    (hconf : t.connection.conf = s.connection.conf) : s.SendsBulle u p := by
  obtain ⟨new, hnew, hbulle⟩ := h
  obtain ⟨more, hmore, hbulle'⟩ := h'
  rw [pathConf, hconf] at hbulle'
  exact ⟨new ++ more, by rw [hmore, hnew, List.append_assoc],
    List.forall_mem_append.mpr ⟨hbulle, hbulle'⟩⟩

/-! ## What a path holds -/

/-- **Messages are reserved to the active path**: the other ones hold BULLE. -/
structure Reserved (s : System) : Prop where
  admitted : LinkInvariant.Holds (fun c l => l.Admitted c) s
  active : ∀ p, (s.path p).connectionState = .active → s.connection.activePath = some p
  bulle : ∀ p, s.connection.activePath ≠ some p → ∀ b ∈ (s.path p).held, (s.pathConf p).isBULLE b.2

/-- A path that is not active after its transition holds BULLE: it was not active, or it has
discarded its messages. -/
theorem Reserved.transition (h : s.Reserved) (ha : s.Represents a) (hp : s.configured p)
    (e : ConnectionEvent) (now : Instant) : (s.protocolStateTransition p e now).Reserved where
  admitted := linkInvariant_admitted.protocolStateTransition h.admitted
  active q hq := ((ha.transition hp e now).oneActive.active_iff q).mp hq
  bulle q hq b hb := by
    rw [pathConf_protocolStateTransition]
    cases hmap : transitionMap (s.path p).protocolState e with
    | none =>
      rw [protocolStateTransition, hmap] at hq hb
      exact h.bulle q hq b hb
    | some entry =>
      obtain ⟨st, acts⟩ := entry
      rw [activePath_protocolStateTransition hmap] at hq
      rw [link_protocolStateTransition] at hb
      by_cases hqp : q = p
      · subst hqp
        rw [if_pos rfl, Link.held_transition] at hb
        obtain hd | rfl | hst := Link.performs_discards hmap
        · rw [if_pos hd] at hb
          cases hb
        · rw [if_pos rfl] at hq
          split_ifs at hb
          · cases hb
          · refine h.bulle q (fun hactive => hq ?_) b hb
            rw [hactive, Option.some_or]
        · rw [(h.admitted q).held_eq_nil hst] at hb
          split_ifs at hb <;> cases hb
      · rw [if_neg hqp] at hb
        refine h.bulle q (fun hactive => hq ?_) b hb
        have hne : ¬some q = some p := fun heq => hqp (Option.some.inj heq)
        rw [hactive, if_neg hne, Option.some_or, ite_self]

theorem frames_protocolStateTransition (p q : PathId) (e : ConnectionEvent) (now : Instant) :
    ((s.protocolStateTransition p e now).path q).frames = (s.path q).frames := by
  rw [link_protocolStateTransition]
  split_ifs with hq
  · rw [Link.frames_transition, hq]
  · rfl

/-! ## Effects -/

variable [Platform]

/-- **An effect is a step of each link**, as far as messages go; what it submits is served. -/
theorem EffectStep.link_step {e : Effect} (h : EffectStep s e t) (q : PathId) :
    ∃ op l, Link.Step (s.pathConf q) (s.path q).toLink op l ∧ (t.path q).core = l.core ∧
      ∀ msg sent, op = .submit msg sent → s.Serves q msg := by
  have hsame : ∀ v : System, (v.path q).toLink = (s.path q).toLink →
      ∃ op l, Link.Step (s.pathConf q) (s.path q).toLink op l ∧ (v.path q).core = l.core ∧
        ∀ msg sent, op = .submit msg sent → s.Serves q msg := by
    intro v hv
    refine ⟨.touch, (s.path q).toLink, .touch rfl, congrArg Link.core hv, ?_⟩
    rintro _ _ ⟨⟩
  have hlink : ∀ (p : PathId) (f : Link → Link) (op : Link.Op) (l : Link),
      Link.Step (s.pathConf p) (s.path p).toLink op l → (f (s.path p).toLink).core = l.core →
      (∀ msg sent, op = .submit msg sent → s.Serves p msg) →
      ∃ op l, Link.Step (s.pathConf q) (s.path q).toLink op l ∧
        ((s.modifyLink p f).path q).core = l.core ∧
        ∀ msg sent, op = .submit msg sent → s.Serves q msg := by
    intro p f op l hstep hcore hserves
    by_cases hq : q = p
    · subst hq
      exact ⟨op, l, hstep, by rw [link_modifyLink, if_pos rfl]; exact hcore, hserves⟩
    · exact hsame _ (by rw [link_modifyLink, if_neg hq])
  cases h with
  | @submit p msg now h =>
    refine hlink p (fun l => (l.sendInfo (s.pathConf p) now.ms msg).2) _ _ (.submit now.ms msg _)
      rfl ?_
    rintro _ _ ⟨⟩
    exact h
  | @receive p op l hop h =>
    refine hlink p (fun _ => l) op l h rfl fun msg sent hsubmit => ?_
    obtain ⟨type, rfl | rfl⟩ := hop <;> cases hsubmit
  | @resend p m now h => exact hlink p _ .resend _ (.resend h) rfl (by rintro _ _ ⟨⟩)
  | @touch p l h => exact hlink p (fun _ => l) .touch l (.touch h) rfl (by rintro _ _ ⟨⟩)
  | @sendSARM p now h =>
    exact hlink p (Link.sendSARM (s.pathConf p) now.ms) .supervise _
      (.supervise now.ms [Platform.sarmCode] false _) rfl (by rintro _ _ ⟨⟩)
  | sendUA p now =>
    exact hlink p (Link.sendUA (s.pathConf p) now.ms) .supervise _
      (.supervise now.ms [Platform.uaCode] true _) rfl (by rintro _ _ ⟨⟩)
  | answer => exact hsame _ (by rw [path, kept_request.path, path])
  | other h => exact hsame t (by rw [path, h.path, path])

/-- An effect is invisible to the arbiter, but for the designated path. -/
theorem Represents.effect {e : Effect} (h : s.Represents a) (hst : EffectStep s e t) :
    ∃ b, t.Represents b := by
  have hsteady := hst.steady
  refine ⟨{ a with first := t.connection.firstInputConnected }, ?_⟩
  exact
    { protocolState := fun q => by
        obtain ⟨op, l, hl, hcore, -⟩ := hst.link_step q
        have hstate : (t.path q).protocolState = l.protocolState :=
          congrArg Link.Core.protocolState hcore
        exact (hstate.trans hl.protocolState).trans (h.protocolState q)
      active := hsteady.activePath.trans h.active
      first := rfl
      state := fun q => (hsteady.connectionState q).trans (h.state q)
      status := hsteady.connStatus.trans h.status
      running := hsteady.isRunning.trans h.running
      configured := fun q hq => by
        rw [hsteady.conf]
        exact h.configured q hq }

/-- **The step lemma**: an effect. -/
theorem Reserved.effect {e : Effect} (h : s.Reserved) (hst : EffectStep s e t) :
    t.Reserved ∧ ∀ p, s.connection.activePath ≠ some p → s.SendsBulle t p := by
  have hsteady := hst.steady
  have hconf : ∀ p, t.pathConf p = s.pathConf p := fun p => by
    rw [pathConf, hsteady.conf, pathConf]
  have hbulle : ∀ p, t.connection.activePath ≠ some p →
      ∀ b ∈ (t.path p).held, (t.pathConf p).isBULLE b.2 := by
    intro p hp b hb
    rw [hsteady.activePath] at hp
    rw [hconf]
    obtain ⟨op, l, hl, hcore, hserves⟩ := hst.link_step p
    rw [Link.held_of_core hcore] at hb
    obtain hb | ⟨msg, sent, hop, rfl, -⟩ := hl.held hb
    · exact h.bulle p hp b hb
    · obtain hactive | hactive | hmsg := hserves msg sent hop
      · exact absurd hactive hp
      · exact absurd (h.active p hactive) hp
      · exact hmsg
  refine ⟨⟨fun p => ?_, fun p hp => ?_, hbulle⟩, fun p hp => ?_⟩
  · obtain ⟨op, l, hl, hcore, -⟩ := hst.link_step p
    rw [hconf]
    exact linkInvariant_admitted.step (linkInvariant_admitted.step (h.admitted p) hl fun _ => trivial)
      (.touch hcore) fun _ => trivial
  · rw [hsteady.activePath]
    exact h.active p (by rw [← hsteady.connectionState]; exact hp)
  · obtain ⟨op, l, hl, hcore, -⟩ := hst.link_step p
    obtain ⟨new, hnew, hbodies⟩ := hl.frames
    have hframes : (t.path p).frames = l.frames := congrArg Link.Core.frames hcore
    refine ⟨new, hframes.trans hnew, fun f hf b hb => ?_⟩
    rw [← hconf]
    refine hbulle p (by rwa [hsteady.activePath]) b ?_
    rw [Link.held_of_core hcore]
    exact hbodies f hf b hb

theorem Reserved.effects (h : s.Reserved) (hst : Effects ok s t) :
    t.Reserved ∧ (t.connection.conf = s.connection.conf ∧
      t.connection.activePath = s.connection.activePath) ∧
      ∀ p, s.connection.activePath ≠ some p → s.SendsBulle t p := by
  refine hst.invariant (I := fun u => u.Reserved ∧ (u.connection.conf = s.connection.conf ∧
    u.connection.activePath = s.connection.activePath) ∧
    ∀ p, s.connection.activePath ≠ some p → s.SendsBulle u p) ?_ ?_
  · rintro u v e - ⟨hu, ⟨hconf, hactive⟩, hsends⟩ huv
    obtain ⟨hv, hmore⟩ := hu.effect huv
    have hsteady := huv.steady
    refine ⟨hv, ⟨hsteady.conf.trans hconf, hsteady.activePath.trans hactive⟩, fun p hp => ?_⟩
    exact (hsends p hp).trans (hmore p (by rwa [hactive])) hconf
  · exact ⟨h, ⟨rfl, rfl⟩, fun p _ => ⟨[], by simp, by simp⟩⟩

/-- The arbiter is there after some effects, too. -/
theorem Represents.effects (h : s.Represents a) (hst : Effects ok s t) : ∃ b, t.Represents b := by
  refine hst.invariant (I := fun u => ∃ b, u.Represents b) ?_ ⟨a, h⟩
  rintro u v e - ⟨b, hb⟩ huv
  exact hb.effect huv

/-! ## Events -/

/-- **The step lemma.**  A path that is active neither before an event nor after it sends BULLE. -/
theorem Reserved.step {ev : Event} (h : s.Reserved) (hst : s.step ev = some t)
    (ha : s.fires ev ≠ none → ∃ a, s.Represents a) :
    t.Reserved ∧ ∀ p, s.connection.activePath ≠ some p → t.connection.activePath ≠ some p →
      s.SendsBulle t p := by
  have htarget := (step_cases hst).1
  obtain ⟨now, hpre, hpost⟩ := staged_of_step hst
  generalize s.before ev = u at hpre hpost
  obtain ⟨hu, ⟨huconf, huactive⟩, hbefore⟩ := h.effects hpre
  cases hf : s.fires ev with
  | none =>
    rw [hf] at hpost
    obtain ⟨ht, -, hafter⟩ := hu.effects hpost
    refine ⟨ht, fun p hp _ => ?_⟩
    exact (hbefore p hp).trans (hafter p (huactive ▸ hp)) huconf
  | some pe =>
    obtain ⟨q, e⟩ := pe
    rw [hf] at hpost
    obtain ⟨a, ha⟩ := ha (by simp [hf])
    obtain ⟨b, hb⟩ := ha.effects hpre
    have hq : u.configured q := by
      rw [configured, huconf]
      exact htarget q (target_of_fires hf)
    obtain ⟨ht, ⟨-, hactive⟩, hafter⟩ := (hu.transition hb hq e now).effects hpost
    refine ⟨ht, fun p hp hp' => ?_⟩
    have hfire : u.SendsBulle (u.protocolStateTransition q e now) p :=
      sendsBulle_of_eq (frames_protocolStateTransition q p e now)
    have hlast := hafter p (hactive ▸ hp')
    exact ((hbefore p hp).trans hfire huconf).trans hlast
      ((conf_protocolStateTransition e now).trans huconf)

end System

/-! ## Runs -/

namespace Plugin

variable {pl : Plugin} {calls : List Call}

/-- A new connection holds nothing. -/
theorem durable_reserved : Durable System.Reserved where
  hnz _ h := ⟨h.admitted, h.active, h.bulle⟩
  schedule _ h := ⟨h.admitted, h.active, h.bulle⟩
  create hnz h now := by
    have hfresh := (System.create_fresh hnz now).1
    refine ⟨fun p => linkInvariant_admitted.init (hfresh.core p), fun p hp => ?_, fun p _ b hb => ?_⟩
    · have hrest := hfresh.connectionState p
      rw [show ((System.create hnz now).path p).connectionState = .active from hp] at hrest
      cases hrest
    · have hnil : ((System.create hnz now).path p).held = [] := Link.held_of_core (hfresh.core p)
      have hb' : b ∈ ((System.create hnz now).path p).held := hb
      rw [hnil] at hb'
      cases hb'

variable [Platform]

/-- A connection without paths fires no transition. -/
theorem Arbitrated.represents_of_fires {P : Arbiter → Prop} (h : Arbitrated P pl)
    {c : HNZConnection} {ev : Event} {t : System} (hc : pl.connection = some c)
    (hst : System.step ⟨pl.hnz, c⟩ ev = some t) (hf : System.fires ⟨pl.hnz, c⟩ ev ≠ none) :
    ∃ a, System.Represents ⟨pl.hnz, c⟩ a := by
  cases hr : c.isRunning with
  | true =>
    obtain ⟨a, -, ha⟩ := h.represents hc hr
    exact ⟨a, ha⟩
  | false =>
    obtain ⟨⟨p, e⟩, hpe⟩ := Option.ne_none_iff_exists'.mp hf
    have hp : c.conf.configured p = true :=
      (System.step_cases hst).1 p (System.target_of_fires hpe)
    rw [(h.pathless hc hr).2.2 p] at hp
    cases hp

/-- **The run lemma.** -/
theorem reserved (h : Run Step {} calls pl) :
    Arbitrated (fun _ => True) pl ∧ InConnection System.Reserved pl := by
  refine h.invariant
    (I := fun pl => Arbitrated (fun _ => True) pl ∧ InConnection System.Reserved pl) ?_
    ⟨arbitrated_init, fun c hc => by cases hc⟩
  rintro pl call pl' ⟨harb, hpl⟩ hst
  refine ⟨harb.step trivial hst fun _ _ _ _ => trivial, ?_⟩
  refine durable_reserved.step hst hpl fun c ev t hc _ ht => ?_
  exact ((hpl c hc).step ht (harb.represents_of_fires hc ht)).1

/-- **Only the active path carries more than BULLE**: in every connection of every run a path that
is not active holds BULLE only, and sends nothing else in an event that does not activate it. -/
theorem exclusive_of_run {c : HNZConnection} (h : Run Step {} calls pl)
    (hc : pl.connection = some c) (p : PathId) (hp : c.activePath ≠ some p) :
    (∀ m ∈ (c.path p).msgSent ++ (c.path p).msgWaiting, (c.conf.pathConf p).isBULLE m.payload) ∧
      ∀ ev t, System.step ⟨pl.hnz, c⟩ ev = some t → t.connection.activePath ≠ some p →
        ∃ new, (t.path p).frames = (c.path p).frames ++ new ∧
          ∀ f ∈ new, ∀ k msg, f.body = some (k, msg) → (c.conf.pathConf p).isBULLE msg := by
  obtain ⟨harb, hres⟩ := reserved h
  have hreserved := hres c hc
  refine ⟨fun m hm => hreserved.bulle p hp m.body (List.mem_map_of_mem hm), fun ev t ht hp' => ?_⟩
  obtain ⟨new, hnew, hbulle⟩ := (hreserved.step ht (harb.represents_of_fires hc ht)).2 p hp hp'
  exact ⟨new, hnew, fun f hf k msg hb => hbulle f hf (k, msg) hb⟩

end Plugin

namespace Plugin

open Sample

/-- Both paths are connected; a command is sent, and path B is due for a BULLE. -/
def standby : List Call :=
  listening ++ [.event (.protocol .A .receivedUa 0),
    .event (.connect .B 0), .event (.protocol .B .receivedUa 0), .event (.protocol .B .receivedSarm 0),
    .event (.operation "HNZCommand" [("co_type", "TC"), ("co_addr", "31"), ("co_value", "1")] 0),
    .event (.manage .B 11000000000)]

set_option maxRecDepth 8000 in
/-- The command is on path A, and what path B holds is BULLE; so is the frame that it sends next. -/
theorem exclusive_standby :
    ∃ (pl : Plugin) (c : HNZConnection) (t : System) (new : List Frame),
      exec step {} standby = some pl ∧ pl.connection = some c ∧
      (c.path .B).protocolState = .connected ∧
      (c.path .A).msgSent.map Message.payload = [[0x19, 3, 0x28]] ∧
      (c.path .B).msgSent.length = 1 ∧
      (∀ m ∈ (c.path .B).msgSent ++ (c.path .B).msgWaiting,
        (c.conf.pathConf .B).isBULLE m.payload) ∧
      System.step ⟨pl.hnz, c⟩ (.manage .B 22000000000) = some t ∧
      (t.path .B).frames = (c.path .B).frames ++ new ∧ new.length = 1 ∧
      ∀ f ∈ new, ∀ k msg, f.body = some (k, msg) → (c.conf.pathConf .B).isBULLE msg := by
  let pl : Plugin := (exec step {} standby).get (by decide +kernel)
  let c : HNZConnection := pl.connection.get (by decide +kernel)
  let t : System := (System.step ⟨pl.hnz, c⟩ (.manage .B 22000000000)).get (by decide +kernel)
  have hpl : exec step {} standby = some pl := (Option.some_get _).symm
  have hc : pl.connection = some c := (Option.some_get _).symm
  have ht : System.step ⟨pl.hnz, c⟩ (.manage .B 22000000000) = some t := (Option.some_get _).symm
  have hactive : c.activePath ≠ some .B := by decide +kernel
  have hactive' : t.connection.activePath ≠ some .B := by decide +kernel
  obtain ⟨hqueues, hframes⟩ := exclusive_of_run (run_det_iff.mpr hpl) hc .B hactive
  obtain ⟨new, hnew, hbulle⟩ := hframes _ t ht hactive'
  have hone : (t.path .B).frames.length = (c.path .B).frames.length + 1 := by decide +kernel
  rw [hnew, List.length_append, Nat.add_left_cancel_iff] at hone
  exact ⟨pl, c, t, new, hpl, hc, by decide +kernel, by decide +kernel, by decide +kernel, hqueues, ht,
    hnew, hone, hbulle⟩

end Plugin

end Hnz
