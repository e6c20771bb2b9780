import HnzSouth.Interrogation.Gi
import HnzSouth.Path.Steps
import HnzSouth.Model.SystemLemmas
import HnzSouth.Model.Step

/-!
# Behaviour/Work — what one event does

An event of the plugin does some work, fires at most one transition of the automaton of one path,
and does some more work (`step_cases`).  Work never moves an automaton and never speaks to the
arbiter: it is a step of one link, a request of a GI, or bookkeeping around them.
-/

namespace Hnz

open Machinery

namespace System

variable {s t u : System} {p q : PathId} {now : Instant}

/-! ## Work -/

/-- The GI, as the two objects that share it see it. -/
def gi (s : System) : Gi := ⟨s.hnz.giStatus, s.hnz.giInQueue, s.connection.giRepeat⟩

/-- The audits, and the name they are written under. -/
def said (s : System) : List Audit × String := (s.hnz.audits, s.hnz.serviceName)

/-- No report to Fledge is an audit. -/
theorem said_sendSouthMonitoringEvent (c g : Bool) :
    (s.sendSouthMonitoringEvent c g).said = s.said := by
  obtain ⟨readings, h⟩ := sendSouthMonitoringEvent_eq (s := s) c g
  rw [h]
  rfl

theorem said_updateGiStatus (status : GiStatus) :
    (s.updateGiStatus status).said = s.said := by
  unfold updateGiStatus
  split_ifs
  · rfl
  · exact said_sendSouthMonitoringEvent false true

/-- What bookkeeping leaves alone: the paths, the arbiter, the configuration, the remote station, the
connection status, the count of GI requests and the audits. -/
structure Same (s t : System) : Prop where
  conf : t.connection.conf = s.connection.conf
  path : t.connection.path = s.connection.path
  activePath : t.connection.activePath = s.connection.activePath
  firstInputConnected : t.connection.firstInputConnected = s.connection.firstInputConnected
  isRunning : t.connection.isRunning = s.connection.isRunning
  giNotified : t.connection.giNotified = s.connection.giNotified
  hnzConf : t.hnz.conf = s.hnz.conf
  remoteAddress : t.hnz.remoteAddress = s.hnz.remoteAddress
  connStatus : t.hnz.connStatus = s.hnz.connStatus
  said : t.said = s.said

theorem Same.rfl : s.Same s :=
  ⟨.refl _, .refl _, .refl _, .refl _, .refl _, .refl _, .refl _, .refl _, .refl _, .refl _⟩

theorem Same.trans (h : s.Same t) (h' : t.Same u) : s.Same u where
  conf := h'.conf.trans h.conf
  path := h'.path.trans h.path
  activePath := h'.activePath.trans h.activePath
  firstInputConnected := h'.firstInputConnected.trans h.firstInputConnected
  isRunning := h'.isRunning.trans h.isRunning
  giNotified := h'.giNotified.trans h.giNotified
  hnzConf := h'.hnzConf.trans h.hnzConf
  remoteAddress := h'.remoteAddress.trans h.remoteAddress
  connStatus := h'.connStatus.trans h.connStatus
  said := h'.said.trans h.said

/-- The kinds of work. -/
inductive Work
  /-- A step of a link; a GI request is none. -/
  | link (p : PathId) (op : Link.Op)
  /-- A GI request. -/
  | interrogate (p : PathId)
  /-- Bookkeeping. -/
  | other
  deriving DecidableEq

/-- **Work.** -/
inductive WorkStep : System → Work → System → Prop
  | link {s : System} {p : PathId} {op : Link.Op} {l : Link}
    (h : Link.Step (s.pathConf p) (s.path p).toLink op l)
    (hgi : ∀ sent, op = .submit giPayload sent → (s.pathConf p).isBULLE giPayload) :
    WorkStep s (.link p op) (s.modifyLink p fun _ => l)
  | interrogate (s : System) (p : PathId) (now : Instant) :
    WorkStep s (.interrogate p) (s.sendGeneralInterrogation p now)
  | other {s t : System} (h : s.Same t) (hg : s.gi.Step t.gi) : WorkStep s .other t

/-- **Work of some kinds only**, any number of pieces of it. -/
def Works (ok : Work → Prop) (s t : System) : Prop := ∃ as, Run WorkStep s as t ∧ ∀ a ∈ as, ok a

namespace Works

variable {ok ok' : Work → Prop}

theorem refl : Works ok s s := ⟨[], .nil s, by simp⟩

theorem single {a : Work} (h : WorkStep s a t) (ha : ok a) : Works ok s t :=
  ⟨[a], .single h, by simpa using ha⟩

theorem trans (h : Works ok s t) (h' : Works ok t u) : Works ok s u := by
  obtain ⟨as, h, has⟩ := h
  obtain ⟨bs, h', hbs⟩ := h'
  refine ⟨as ++ bs, h.append h', fun a ha => ?_⟩
  exact (List.mem_append.mp ha).elim (has a) (hbs a)

theorem mono (hok : ∀ {a}, ok a → ok' a) (h : Works ok s t) : Works ok' s t := by
  obtain ⟨as, h, has⟩ := h
  exact ⟨as, h, fun a ha => hok (has a ha)⟩

/-- What each piece of such work keeps, the whole keeps. -/
theorem invariant {I : System → Prop}
    (step : ∀ {s t : System} {a : Work}, ok a → I s → WorkStep s a t → I t)
    (h : Works ok s t) (hs : I s) : I t := by
  obtain ⟨as, h, has⟩ := h
  induction h with
  | nil => exact hs
  | cons hst _ ih =>
    have ⟨ha, has⟩ := List.forall_mem_cons.mp has
    exact ih (step ha hs hst) has

end Works

/-- Work that moves no message the path holds already. -/
def Work.Keeps : Work → Prop
  | .link _ op => ¬op.Moves
  | _ => True

/-- Such work on a link. -/
def Work.OnLink : Work → Prop
  | .link _ op => ¬op.Moves
  | _ => False

/-- Any work on a link. -/
def Work.Linked : Work → Prop
  | .link _ _ => True
  | _ => False

theorem Work.OnLink.linked {a : Work} (h : a.OnLink) : a.Linked := by
  cases a <;> trivial

theorem Work.OnLink.keeps {a : Work} (h : a.OnLink) : a.Keeps := by
  cases a <;> first | exact h | exact h.elim

theorem Works.keeps (h : Works Work.OnLink s t) : Works Work.Keeps s t := h.mono Work.OnLink.keeps

/-- Work on links does not touch the GI, the active path, or a protocol state. -/
theorem Works.onLink (h : Works Work.OnLink s t) :
    t.gi = s.gi ∧ t.connection.activePath = s.connection.activePath ∧
      ∀ p, (t.path p).protocolState = (s.path p).protocolState :=
  h.invariant
    (I := fun u => u.gi = s.gi ∧ u.connection.activePath = s.connection.activePath ∧
      ∀ p, (u.path p).protocolState = (s.path p).protocolState)
    (fun {u v w} hw hu huv => by
      cases huv with
      | link hl =>
        refine ⟨hu.1, hu.2.1, fun q => ?_⟩
        rw [link_modifyLink]
        split_ifs with hq
        · rw [hl.protocolState, hu.2.2, hq]
        · exact hu.2.2 q
      | interrogate => exact hw.elim
      | other => exact hw.elim) ⟨rfl, rfl, fun _ => rfl⟩

/-! ## Pieces of work -/

/-- A write to a link, as the step of the link it is. -/
theorem works_link {f : Link → Link} {op : Link.Op}
    (h : Link.Step (s.pathConf p) (s.path p).toLink op (f (s.path p).toLink))
    (hgi : ∀ sent, op = .submit giPayload sent → (s.pathConf p).isBULLE giPayload)
    (hop : ¬op.Moves) : Works Work.OnLink s (s.modifyLink p f) :=
  .single (a := .link p op) (.link h hgi) hop

theorem works_touch {f : Link → Link} (h : ∀ l, (f l).core = l.core) :
    Works Work.OnLink s (s.modifyLink p f) := works_link (.touch (h _)) nofun id

theorem works_supervise (bytes : List UInt8) (usePAAddr : Bool) (n : Int) :
    Works Work.OnLink s
      (s.modifyLink p fun l => l.sendFrame (s.pathConf p) n bytes usePAAddr none) :=
  works_link (.supervise n bytes usePAAddr _) nofun id

theorem works_sendInfo {msg : List UInt8} (h : msg = giPayload → (s.pathConf p).isBULLE msg) :
    Works Work.OnLink s (s.sendInfo p now msg).2 := by
  refine works_link (f := fun l => (l.sendInfo (s.pathConf p) now.ms msg).2)
    (.submit now.ms msg _) (fun sent hop => ?_) id
  obtain ⟨hmsg, -⟩ := Link.Op.submit.inj hop
  rw [← hmsg]
  exact h hmsg

theorem works_interrogate : Works Work.Keeps s (s.sendGeneralInterrogation p now) :=
  .single (.interrogate s p now) trivial

theorem works_other (h : s.Same t) (hg : s.gi.Step t.gi) : Works Work.Keeps s t :=
  .single (.other h hg) trivial

/-- Bookkeeping that does not touch the GI either. -/
theorem works_quiet (h : s.Same t) (hg : t.gi = s.gi) : Works Work.Keeps s t :=
  works_other h (hg ▸ .keep _)

end System

end Hnz
