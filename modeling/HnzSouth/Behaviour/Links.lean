import HnzSouth.Behaviour.Events
import HnzSouth.Behaviour.Life
import HnzSouth.Path.Queues

/-!
# Behaviour/Links — the invariants of links

An invariant of links holds of a link at rest and is kept by every step and every transition of one
link.  It then holds of both links of every connection the plugin reaches (`LinkInvariant.plugin`).
-/

namespace Hnz

open Machinery

namespace System

/-- The step a piece of work is to a link. -/
def Work.Does (p : PathId) (op : Link.Op) : Work → Prop
  | .link q o => q = p ∧ o = op
  | .interrogate q => q = p ∧ ∃ sent, op = .submit giPayload sent
  | .other => False

theorem Work.Does.not_moves {w : Work} {p : PathId} {op : Link.Op} (h : w.Does p op)
    (hw : w.Keeps) : ¬op.Moves := by
  cases w with
  | link q o => exact h.2 ▸ hw
  | interrogate q => obtain ⟨-, sent, rfl⟩ := h; exact id
  | other => exact h.elim

/-- A request is submitted to its path. -/
theorem link_sendGeneralInterrogation (s : System) (p q : PathId) (now : Instant) :
    ((s.sendGeneralInterrogation q now).path p).toLink =
      if p = q then ((s.path q).sendInfo (s.pathConf q) now.ms giPayload).2
      else (s.path p).toLink := by
  rw [path, (same_sendGeneralInterrogation s q now).2.1]
  exact link_modifyLink fun l => (l.sendInfo (s.pathConf q) now.ms giPayload).2

/-- **A piece of work is a step of a link, or leaves it alone.** -/
theorem WorkStep.link_cases {s t : System} {w : Work} (h : WorkStep s w t) (p : PathId) :
    (t.path p).toLink = (s.path p).toLink ∨
      ∃ op, w.Does p op ∧ Link.Step (s.pathConf p) (s.path p).toLink op (t.path p).toLink := by
  cases h with
  | @link q op l hl =>
    rw [link_modifyLink]
    split_ifs with hq
    · subst hq; exact Or.inr ⟨op, ⟨rfl, rfl⟩, hl⟩
    · exact Or.inl rfl
  | interrogate q now =>
    rw [link_sendGeneralInterrogation]
    split_ifs with hq
    · subst hq; exact Or.inr ⟨_, ⟨rfl, _, rfl⟩, .submit now.ms giPayload _⟩
    · exact Or.inl rfl
  | other hs => rw [path, hs.path]; exact Or.inl rfl

/-- The step is good if the work is. -/
theorem WorkStep.link_cases_of_good {good : PathConf → Link.Core → Link.Op → Prop} {s t : System}
    {w : Work} (h : WorkStep s w t) (hgood : ∀ {p op}, w = .link p op → op.Moves →
      good (s.pathConf p) (s.path p).core op) (p : PathId) :
    (t.path p).toLink = (s.path p).toLink ∨
      ∃ op, w.Does p op ∧ Link.Step (s.pathConf p) (s.path p).toLink op (t.path p).toLink ∧
        (op.Moves → good (s.pathConf p) (s.path p).core op) := by
  obtain hsame | ⟨op, hop, hl⟩ := h.link_cases p
  · exact Or.inl hsame
  · refine Or.inr ⟨op, hop, hl, fun hmoves => ?_⟩
    cases w with
    | link q o =>
      obtain ⟨rfl, rfl⟩ := hop
      exact hgood rfl hmoves
    | interrogate q =>
      obtain ⟨-, sent, rfl⟩ := hop
      exact hmoves.elim
    | other => exact hop.elim

/-- The configuration stays. -/
theorem WorkStep.conf {s t : System} {w : Work} (h : WorkStep s w t) :
    t.connection.conf = s.connection.conf := (Works.single h trivial : Works (fun _ => True) s t).conf

end System

/-! ## The runs of a link -/

/-- A move of a link: a step, or a transition. -/
def Link.Move (c : PathConf) (l : Link) (a : Link.Op ⊕ ConnectionEvent) (l' : Link) : Prop :=
  match a with
  | .inl op => Link.Step c l op l'
  | .inr e => ∃ now, l' = l.transition now e

namespace System

variable {s t : System} {p : PathId}

/-- Work is a run of each link. -/
theorem Works.run_link {ok : Work → Prop} (h : Works ok s t) (p : PathId) :
    ∃ as, Run (Link.Move (s.pathConf p)) (s.path p).toLink as (t.path p).toLink := by
  have hall := h.invariant
    (I := fun u => u.connection.conf = s.connection.conf ∧
      ∃ as, Run (Link.Move (s.pathConf p)) (s.path p).toLink as (u.path p).toLink)
    (fun {u v w} _ hu hst => by
      obtain ⟨hconf, as, hrun⟩ := hu
      refine ⟨hst.conf.trans hconf, ?_⟩
      have hp : u.pathConf p = s.pathConf p := by rw [pathConf, hconf, pathConf]
      obtain hsame | ⟨op, -, hl⟩ := hst.link_cases p
      · rw [hsame]; exact ⟨as, hrun⟩
      · exact ⟨as ++ [.inl op], hrun.snoc (hp ▸ hl)⟩) ⟨rfl, [], .nil _⟩
  exact hall.2

/-- So is a transition. -/
theorem run_link_fire (now : Instant) (f : Option (PathId × ConnectionEvent)) (p : PathId) :
    ∃ as, Run (Link.Move (s.pathConf p)) (s.path p).toLink as ((s.fire now f).path p).toLink := by
  cases f with
  | none => exact ⟨[], .nil _⟩
  | some qe =>
    obtain ⟨q, e⟩ := qe
    simp only [fire, link_protocolStateTransition]
    split_ifs with hq
    · subst hq
      exact ⟨[.inr e], .single ⟨now.ms, rfl⟩⟩
    · exact ⟨[], .nil _⟩

variable [Platform]

/-- **An event is a run of each link.** -/
theorem run_link_step {ev : Event} (h : s.step ev = some t) (p : PathId) :
    t.connection.conf = s.connection.conf ∧
      ∃ as, Run (Link.Move (s.pathConf p)) (s.path p).toLink as (t.path p).toLink := by
  obtain ⟨-, u, now, hpre, hpost⟩ := step_cases h
  have hfire : (u.fire now (s.fires ev)).connection.conf = u.connection.conf := by
    cases s.fires ev with
    | none => rfl
    | some qe => exact conf_protocolStateTransition _ _
  have hu : u.pathConf p = s.pathConf p := by rw [pathConf, hpre.conf, pathConf]
  have hv : (u.fire now (s.fires ev)).pathConf p = s.pathConf p := by
    rw [pathConf, hfire, hpre.conf, pathConf]
  refine ⟨hpost.conf.trans (hfire.trans hpre.conf), ?_⟩
  obtain ⟨as, has⟩ := hpre.run_link p
  obtain ⟨bs, hbs⟩ := run_link_fire now (s.fires ev) p
  obtain ⟨cs, hcs⟩ := hpost.run_link p
  rw [hu] at hbs
  rw [hv] at hcs
  exact ⟨as ++ bs ++ cs, (has.append hbs).append hcs⟩

/-- **A run of the system is a run of each link.** -/
theorem run_link {evs : List Event} (h : Run Step s evs t) (p : PathId) :
    t.connection.conf = s.connection.conf ∧
      ∃ as, Run (Link.Move (s.pathConf p)) (s.path p).toLink as (t.path p).toLink := by
  induction h with
  | nil => exact ⟨rfl, [], .nil _⟩
  | @cons s u t ev evs hst _ ih =>
    obtain ⟨hconf, as, has⟩ := run_link_step hst p
    obtain ⟨hconf', bs, hbs⟩ := ih
    rw [pathConf, hconf] at hbs
    exact ⟨hconf'.trans hconf, as ++ bs, has.append hbs⟩

end System

/-! ## Invariants -/

/-- **An invariant of connections**, kept by work and transitions; the work that moves messages may
have to be good. -/
structure ConnectionInvariant (good : PathConf → Link.Core → Link.Op → Prop) (J : System → Prop) :
    Prop where
  work : ∀ {s t : System} {w : System.Work}, J s → System.WorkStep s w t →
    (∀ {p op}, w = .link p op → op.Moves → good (s.pathConf p) (s.path p).core op) → J t
  transition : ∀ {s : System} (p : PathId) (e : ConnectionEvent) (now : Instant), J s →
    J (s.protocolStateTransition p e now)

/-- Work that moves no message keeps it. -/
theorem ConnectionInvariant.works {good : PathConf → Link.Core → Link.Op → Prop}
    {J : System → Prop} {s t : System} (hJ : ConnectionInvariant good J)
    (hw : System.Works System.Work.Keeps s t) (h : J s) : J t :=
  hw.invariant (I := J) (fun hok h hst => hJ.work h hst fun hlink hmoves => by
    subst hlink
    exact absurd hmoves hok) h

/-- **An invariant of links**, kept by every step and transition; the steps that move messages may
have to be good. -/
structure LinkInvariant (good : PathConf → Link.Core → Link.Op → Prop) (I : PathConf → Link → Prop) :
    Prop where
  init : ∀ {c : PathConf} {l : Link}, l.core = ({} : Link).core → I c l
  step : ∀ {c : PathConf} {l l' : Link} {op : Link.Op}, I c l → Link.Step c l op l' →
    (op.Moves → good c l.core op) → I c l'
  transition : ∀ {c : PathConf} {l : Link} (now : Int) (e : ConnectionEvent), I c l →
    I c (l.transition now e)

namespace LinkInvariant

variable {good : PathConf → Link.Core → Link.Op → Prop} {I : PathConf → Link → Prop}

/-- The invariant holds of both links. -/
def Holds (I : PathConf → Link → Prop) (s : System) : Prop :=
  ∀ p, I (s.pathConf p) (s.path p).toLink

variable {s t : System}

theorem Holds.of_eq (h : Holds I s) (hconf : t.connection.conf = s.connection.conf)
    (hpath : t.connection.path = s.connection.path) : Holds I t := by
  intro p
  rw [System.pathConf, System.path, hconf, hpath]
  exact h p

/-- A transition keeps it. -/
theorem protocolStateTransition (hI : LinkInvariant good I) {p : PathId} {e : ConnectionEvent}
    {now : Instant} (h : Holds I s) : Holds I (s.protocolStateTransition p e now) := by
  intro q
  rw [System.pathConf_protocolStateTransition, System.link_protocolStateTransition]
  split_ifs with hq
  · subst hq; exact hI.transition _ e (h q)
  · exact h q

/-- **Both links together** are an invariant of connections. -/
theorem connection (hI : LinkInvariant good I) : ConnectionInvariant good (Holds I) where
  work {s t w} h hst hgood p := by
    rw [System.pathConf, hst.conf]
    obtain hsame | ⟨op, -, hl, hop⟩ := hst.link_cases_of_good hgood p
    · rw [hsame]; exact h p
    · exact hI.step (h p) hl hop
  transition _ _ _ h := hI.protocolStateTransition h

variable [Platform]

/-- The event's step that moves messages, if it has one, is good. -/
def MovesWell (good : PathConf → Link.Core → Link.Op → Prop) (s : System) (ev : Event) : Prop :=
  match s.moves ev with
  | some (p, op) => good (s.pathConf p) (s.path p).core op
  | none => True

instance [∀ c x op, Decidable (good c x op)] (s : System) (ev : Event) :
    Decidable (MovesWell good s ev) := by
  unfold MovesWell; split <;> infer_instance

end LinkInvariant

/-- **An event keeps an invariant of connections.** -/
theorem ConnectionInvariant.event [Platform] {good : PathConf → Link.Core → Link.Op → Prop}
    {J : System → Prop} {s t : System} (hJ : ConnectionInvariant good J) {ev : Event}
    (hst : s.step ev = some t) (hgood : LinkInvariant.MovesWell good s ev) (h : J s) : J t := by
  unfold LinkInvariant.MovesWell at hgood
  cases hm : s.moves ev with
  | none =>
    obtain ⟨u, now, hpre, hpost⟩ := System.step_keeps hst hm
    refine hJ.works hpost ?_
    have hu := hJ.works hpre.keeps h
    cases s.fires ev with
    | none => exact hu
    | some pe => exact hJ.transition _ _ _ hu
  | some pop =>
    obtain ⟨p, op⟩ := pop
    obtain ⟨l, l', hcore, hl, hpost⟩ := System.step_moves hst hm
    rw [hm] at hgood
    have htouch : J (s.modifyLink p fun _ => l) :=
      hJ.work h (.link (.touch hcore) nofun) fun hlink hmoves => by cases hlink; exact hmoves.elim
    have hlink : ((s.modifyLink p fun _ => l).path p).toLink = l := by
      rw [System.link_modifyLink, if_pos rfl]
    have hmove : System.WorkStep (s.modifyLink p fun _ => l) (.link p op)
        ((s.modifyLink p fun _ => l).modifyLink p fun _ => l') :=
      .link (hlink.symm ▸ hl) fun sent hop => (hop ▸ System.moves_of_moves hm).elim
    rw [System.modifyLink_modifyLink] at hmove
    refine hJ.works hpost (hJ.work htouch hmove fun hop _ => ?_)
    cases hop
    rw [hlink, hcore]
    exact hgood

namespace LinkInvariant

variable {good : PathConf → Link.Core → Link.Op → Prop} {I : PathConf → Link → Prop} {s t : System}
  [Platform]

/-- An event keeps an invariant of links. -/
theorem event (hI : LinkInvariant good I) {ev : Event} (hst : s.step ev = some t)
    (hgood : MovesWell good s ev) (h : Holds I s) : Holds I t := hI.connection.event hst hgood h

/-- The call's step that moves messages, if it has one, is good. -/
def PluginMovesWell (good : PathConf → Link.Core → Link.Op → Prop) (pl : Plugin) (call : Plugin.Call) :
    Prop :=
  match pl.connection, call with
  | some c, .event ev => MovesWell good ⟨pl.hnz, c⟩ ev
  | _, _ => True

instance [∀ c x op, Decidable (good c x op)] (pl : Plugin) (call : Plugin.Call) :
    Decidable (PluginMovesWell good pl call) := by
  unfold PluginMovesWell; split <;> infer_instance

/-- **It holds in every connection of every run.** -/
theorem plugin (hI : LinkInvariant good I) {pl : Plugin} {calls : List Plugin.Call}
    (h : Run (Under (PluginMovesWell good) Plugin.Step) {} calls pl) {c : HNZConnection}
    (hc : pl.connection = some c) : Holds I ⟨pl.hnz, c⟩ := by
  have hdurable : Plugin.Durable (Holds I) :=
    ⟨fun _ h => h.of_eq rfl rfl, fun _ h => h.of_eq rfl rfl,
      fun hnz _ now p => hI.init ((System.create_fresh hnz now).1.core p)⟩
  refine h.invariant (I := Plugin.InConnection (Holds I)) ?_ (fun c hc => by cases hc) c hc
  rintro pl call pl' hpl ⟨hgood, hst⟩
  refine hdurable.step hst hpl fun x ev t hx hev ht => ?_
  subst hev
  exact hI.event ht (by simpa only [PluginMovesWell, hx] using hgood) (hpl x hx)

theorem pluginMovesWell_true {pl : Plugin} {call : Plugin.Call} :
    PluginMovesWell (fun _ _ _ => True) pl call := by
  unfold PluginMovesWell MovesWell
  split
  · split <;> trivial
  · trivial

/-- An invariant that asks nothing of the steps holds in every run. -/
theorem plugin_always (hI : LinkInvariant (fun _ _ _ => True) I) {pl : Plugin}
    {calls : List Plugin.Call} (h : Run Plugin.Step {} calls pl) {c : HNZConnection}
    (hc : pl.connection = some c) : Holds I ⟨pl.hnz, c⟩ := by
  have hgood : Run (Under (PluginMovesWell fun _ _ _ => True) Plugin.Step) {} calls pl :=
    h.mono fun hst => ⟨pluginMovesWell_true, hst⟩
  exact hI.plugin hgood hc

theorem reachable (hI : LinkInvariant (fun _ _ _ => True) I) (h : s.Reachable) : Holds I s := by
  obtain ⟨-, calls, pl, hrun, hhnz, hconn⟩ := h
  exact hI.plugin_always hrun hconn

end LinkInvariant

/-- The queues hold what the protocol state admits. -/
theorem linkInvariant_admitted : LinkInvariant (fun _ _ _ => True) fun c l => l.Admitted c where
  init h b hb := by rw [Link.held_of_core h] at hb; cases hb
  step h hst _ := h.step hst
  transition now e h := h.transition e

/-- A link is the end of a run of a link at rest. -/
theorem linkInvariant_run : LinkInvariant (fun _ _ _ => True) fun c l =>
    ∃ l₀ as, l₀.core = ({} : Link).core ∧ Run (Link.Move c) l₀ as l where
  init {c l} h := ⟨l, [], h, .nil l⟩
  step {c l l' op} h hst _ := by
    obtain ⟨l₀, as, hrest, hrun⟩ := h
    have hmove : Link.Move c l (.inl op) l' := hst
    exact ⟨l₀, _, hrest, hrun.snoc hmove⟩
  transition {c l} now e h := by
    obtain ⟨l₀, as, hrest, hrun⟩ := h
    have hmove : Link.Move c l (.inr e) (l.transition now e) := ⟨now, rfl⟩
    exact ⟨l₀, _, hrest, hrun.snoc hmove⟩

end Hnz
