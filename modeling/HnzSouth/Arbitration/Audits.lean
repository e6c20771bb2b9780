import HnzSouth.Arbitration.OneActive
import HnzSouth.Behaviour.Audits
import HnzSouth.Behaviour.Links

/-!
# Arbitration/Audits — the audits tell the truth

A new connection opens the books: one audit for each path, and one for the service
(`told_create`).  From then on every event keeps them true, so that the last audit of a path gives
its connection state, and the last one of the service says whether there is an active path.
-/

namespace Hnz

open Machinery

namespace System

variable {s : System} {p : PathId} {now : Instant} {hnz : HNZ} {x : Subject} {n : Nat}

/-! ## The first audits -/

/-- The first audit about a path, or about a slot without one. -/
def openingAudit (hnz : HNZ) (p : PathId) : Audit :=
  if hnz.conf.configured p then pathAudit hnz.serviceName p .disconnected
  else ⟨.info, hnz.serviceName ++ "-" ++ p.letter ++ "-unused"⟩

theorem about_openingAudit (hnz : HNZ) (p : PathId) (x : Subject) :
    x.about hnz.serviceName (openingAudit hnz p) = (x == .path p) := by
  unfold openingAudit
  split_ifs
  · exact Subject.about_pathAudit x
  · rcases x with - | q
    · change _ = false
      cases p <;> simp [Subject.about, PathId.letter, String.ext_iff]
    · cases p <;> cases q <;>
        simp [Subject.about, PathId.letter, Subject.isPrefixOf_append] <;> rfl

theorem hnz_createPath (h : Fresh hnz s) (now : Instant) (p : PathId) :
    (s.createPath now p).hnz = { s.hnz with audits := s.hnz.audits ++ [openingAudit s.hnz p] } := by
  have hconf : s.configured p = s.hnz.conf.configured p := by
    rw [configured, h.conf, h.status.conf]
  unfold createPath openingAudit
  rw [hconf]
  split_ifs
  · have hrest : (s.sendAuditFail p).requestConnectionState p .disconnected = s.sendAuditFail p :=
      requestConnectionState_of_rest h.activePath h.firstInputConnected
        (congrArg Link.Core.protocolState (h.core p)) (h.connectionState p)
    simp only [runAction, requestOf, hrest]
    rfl
  · rfl

/-- The opening of the books. -/
theorem hnz_create (hconf : hnz.conf.configured .A ∨ hnz.conf.configured .B) (now : Instant) :
    (create hnz now).hnz = { hnz with
      audits := hnz.audits ++ [openingAudit hnz .A, openingAudit hnz .B,
        serviceAudit hnz.serviceName .notConnected] } := by
  have hstart : Fresh hnz ⟨hnz, { conf := hnz.conf }⟩ :=
    ⟨.rfl, rfl, rfl, rfl, rfl, rfl, fun _ => rfl, fun _ => rfl⟩
  have hA := hnz_createPath hstart now .A
  have hB := hnz_createPath (hstart.createPath now .A) now .B
  have hopen : ¬(!hnz.conf.configured .A && !hnz.conf.configured .B) = true := by
    rcases hconf with h | h <;> simp [h]
  obtain ⟨t, ht⟩ : ∃ t, t = create hnz now := ⟨_, rfl⟩
  rw [← ht, ht.trans (if_neg hopen)]
  change (System.audit .fail _ (createPath now (createPath now _ .A) .B)).hnz = _
  simp [audit, hB, hA, openingAudit, serviceAudit]

/-- **A new connection tells the truth**: nobody is connected. -/
theorem told_create (hconf : hnz.conf.configured .A ∨ hnz.conf.configured .B)
    (hstatus : hnz.connStatus = .notConnected) (now : Instant)
    (hx : ∀ p, x = .path p → hnz.conf.configured p) : (create hnz now).Told hnz.audits x := by
  have hhnz := hnz_create hconf now
  have hfresh := (create_fresh hnz now).1
  have hname : (create hnz now).hnz.serviceName = hnz.serviceName := by rw [hhnz]
  have hstate : ∀ p, (create hnz now).statusAudit (.path p) =
      pathAudit hnz.serviceName p .disconnected := fun p => by
    rw [statusAudit, hname, hfresh.connectionState]
  have habout := fun p => about_openingAudit hnz p x
  have hservice : x.about hnz.serviceName (serviceAudit hnz.serviceName .notConnected) =
      (x == .service) := Subject.about_serviceAudit x
  refine ⟨[] ++ [openingAudit hnz .A] ++ [openingAudit hnz .B] ++
    [serviceAudit hnz.serviceName .notConnected], by rw [hhnz]; rfl, ?_⟩
  rw [hname]
  rcases x with - | p
  · have hstatus : (create hnz now).statusAudit .service =
        serviceAudit hnz.serviceName .notConnected := by rw [statusAudit, hhnz, hstatus]
    rw [hstatus]
    refine .first (fun a ha => ?_) hservice
    simp only [List.nil_append, List.cons_append, List.mem_cons, List.not_mem_nil, or_false] at ha
    obtain rfl | rfl := ha
    · exact habout .A
    · exact habout .B
  · have hopening : openingAudit hnz p = (create hnz now).statusAudit (.path p) := by
      rw [hstate, openingAudit, if_pos (hx p rfl)]
    cases p with
    | A =>
      rw [← hopening]
      exact ((Announces.first (by simp) (habout .A)).skip (habout .B)).skip hservice
    | B =>
      rw [← hopening]
      refine (Announces.first (fun a ha => ?_) (habout .B)).skip hservice
      obtain rfl := List.mem_singleton.mp ha
      exact habout .A

/-! ## The truth -/

/-- The audits about a subject, without the first `n` of all. -/
def auditsAbout (n : Nat) (s : System) (x : Subject) : List Audit :=
  (s.hnz.audits.drop n).filter (x.about s.hnz.serviceName)

/-- **The audits tell the truth**, the first `n` left out: the last one of a path gives its
connection state, the last one of the service says whether there is an active path, and none is
repeated without a change. -/
structure Truthful (n : Nat) (s : System) : Prop where
  active_iff : ∀ p, s.configured p → ((s.auditsAbout n (.path p)).getLast? =
    some ⟨.success, s.hnz.serviceName ++ "-" ++ p.letter ++ "-active"⟩ ↔
      (s.path p).connectionState = .active)
  passive_iff : ∀ p, s.configured p → ((s.auditsAbout n (.path p)).getLast? =
    some ⟨.success, s.hnz.serviceName ++ "-" ++ p.letter ++ "-passive"⟩ ↔
      (s.path p).connectionState = .passive)
  disconnected_iff : ∀ p, s.configured p → ((s.auditsAbout n (.path p)).getLast? =
    some ⟨.fail, s.hnz.serviceName ++ "-" ++ p.letter ++ "-disconnected"⟩ ↔
      (s.path p).connectionState = .disconnected ∨ (s.path p).connectionState = .pendingHnz)
  connected_iff : (s.auditsAbout n .service).getLast? =
    some ⟨.success, s.hnz.serviceName ++ "-connected"⟩ ↔ s.connection.activePath ≠ none
  notConnected_iff : (s.auditsAbout n .service).getLast? =
    some ⟨.fail, s.hnz.serviceName ++ "-disconnected"⟩ ↔ s.connection.activePath = none
  path_changes : ∀ p, s.configured p → (s.auditsAbout n (.path p)).IsChain (· ≠ ·)
  service_changes : (s.auditsAbout n .service).IsChain (· ≠ ·)

theorem Told.announces {old : List Audit} (h : s.Told old x) :
    (s.auditsAbout old.length x).getLast? = some (s.statusAudit x) ∧
      (s.auditsAbout old.length x).IsChain (· ≠ ·) := by
  obtain ⟨recent, haudits, htold⟩ := h
  have habout : s.auditsAbout old.length x = recent.filter (x.about s.hnz.serviceName) := by
    rw [auditsAbout, haudits, List.drop_left]
  rw [habout]
  exact ⟨htold.last, htold.chain⟩

/-- The service and the paths of the configuration. -/
def AllTold (old : List Audit) (s : System) : Prop :=
  ∀ x : Subject, (∀ p, x = .path p → s.configured p) → s.Told old x

/-- **True audits of the arbitrated states.** -/
theorem AllTold.truthful {old : List Audit} (h : s.AllTold old) (harb : s.OneActive) :
    s.Truthful old.length := by
  have hpath : ∀ p, s.configured p → _ := fun p hp =>
    (h (.path p) fun q hq => by cases hq; exact hp).announces
  have hservice := (h .service fun q hq => by cases hq).announces
  have hlast : ∀ p st, s.configured p →
      ((s.auditsAbout old.length (.path p)).getLast? = some (pathAudit s.hnz.serviceName p st) ↔
        ((s.path p).connectionState = .active ↔ st = .active) ∧
          ((s.path p).connectionState = .passive ↔ st = .passive)) := fun p st hp => by
    rw [(hpath p hp).1, Option.some.injEq, statusAudit, pathAudit_eq_iff]
  have hstatus : ∀ status, (s.auditsAbout old.length .service).getLast? =
      some (serviceAudit s.hnz.serviceName status) ↔ s.hnz.connStatus = status := fun status => by
    rw [hservice.1, Option.some.injEq, statusAudit, serviceAudit_eq_iff]
  refine ⟨fun p hp => (hlast p .active hp).trans ?_, fun p hp => (hlast p .passive hp).trans ?_,
    fun p hp => (hlast p .disconnected hp).trans ?_, (hstatus .started).trans harb.status_iff,
    (hstatus .notConnected).trans ?_, fun p hp => (hpath p hp).2, hservice.2⟩
  · cases (s.path p).connectionState <;> simp
  · cases (s.path p).connectionState <;> simp
  · cases (s.path p).connectionState <;> simp
  · have hstarted := harb.status_iff
    cases hs : s.hnz.connStatus <;> simp_all

end System

/-! ## Runs of the plugin -/

namespace Plugin

variable {pl pl' : Plugin} {now : Instant} {old : List Audit}

/-- What a new configuration finds: a running plugin is stopped first. -/
def halt (now : Instant) (pl : Plugin) : Plugin := if pl.isRunning then pl.stop false now else pl

/-- The call leaves the connection in its place. -/
def Call.Serving : Call → Prop
  | .event _ | .start _ => True
  | .setJsonConfig .. | .stop _ => False

instance : DecidablePred Call.Serving
  | .event _ | .start _ => isTrue trivial
  | .setJsonConfig .. | .stop _ => isFalse id

/-- The audits are true of a connection with paths. -/
def AllTold (old : List Audit) : Plugin → Prop :=
  InConnection fun s => s.configured .A ∨ s.configured .B → s.AllTold old

theorem AllTold.start (h : pl.AllTold old) {b : Bool} (hst : pl.start b now = .ok pl') :
    pl'.AllTold old := by
  intro d hd
  obtain ⟨h₁, h₂⟩ | ⟨c, readings, hc, h₁, h₂⟩ := start_eq hst
  · rw [h₁]
    exact h d (h₂ ▸ hd)
  · obtain rfl := Option.some.inj (h₂.symm.trans hd)
    rw [h₁]
    exact fun hpath x hx => (h c hc hpath x hx).silent ⟨rfl, rfl, rfl, fun _ => rfl⟩

/-- **The configuration opens the books**: no connection is left when it comes, or a connection of
which no path was connected, and which it replaces. -/
def Opens (conf : HNZConf) (now : Instant) (pl : Plugin) : Prop :=
  ∀ c, (pl.halt now).connection = some c →
    conf.isComplete = true ∧ ∀ p, (c.path p).connectionState = .disconnected

/-- Then nobody is connected, and the connection that is replaced says nothing. -/
theorem Opens.unconnected {conf : HNZConf} (h : pl.Opens conf now)
    (harb : Arbitrated (fun _ => True) (pl.halt now)) :
    (pl.halt now).hnz.connStatus = .notConnected ∧
      ∀ hnz, destroyConnection (pl.halt now).connection now hnz = hnz := by
  cases hc : (pl.halt now).connection with
  | none => exact ⟨harb.unconnected hc, fun _ => rfl⟩
  | some c =>
    obtain ⟨-, hidle⟩ := h c hc
    have hactive : c.activePath = none := by
      cases hr : c.isRunning with
      | false => exact (harb.pathless hc hr).2.1
      | true =>
        obtain ⟨a, -, ha⟩ := harb.represents hc hr
        refine Option.eq_none_iff_forall_ne_some.mpr fun p hp => ?_
        have hp : (c.path p).connectionState = .active := (ha.oneActive.active_iff p).mpr hp
        rw [hidle p] at hp
        cases hp
    refine ⟨?_, fun hnz => ?_⟩
    · cases hstatus : (pl.halt now).hnz.connStatus with
      | notConnected => rfl
      | started => exact absurd hactive ((harb.agree hc).1.mp hstatus)
    · simp only [destroyConnection]
      split_ifs
      · exact System.hnz_stop_of_idle hactive hidle
      · rfl

/-- **A new configuration opens the books.** -/
theorem AllTold.setJsonConfig (harb : Arbitrated (fun _ => True) pl) {conf : HNZConf}
    {name : String} {b : Bool} (hopens : pl.Opens conf now)
    (hst : pl.setJsonConfig conf name now = .ok (b, pl')) :
    pl'.AllTold (pl.halt now).hnz.audits := by
  obtain ⟨q, hq, hcases⟩ := setJsonConfig_cases hst
  have hq : q = pl.halt now := hq
  have hhalt : Arbitrated (fun _ => True) (pl.halt now) := by
    unfold halt
    split_ifs
    · exact harb.stop false
    · exact harb
  subst hq
  obtain ⟨hincomplete, -, h₁, -⟩ | ⟨-, hnz, r, ⟨hstatus, -, -, haudits⟩, h₁, h₂, hr⟩ := hcases
  · intro c hc
    have hcomplete := (hopens c (h₁ ▸ hc)).1
    rw [hincomplete] at hcomplete
    cases hcomplete
  · obtain ⟨hunconnected, hdestroy⟩ := hopens.unconnected hhalt
    have hnew : r.AllTold (pl.halt now).hnz.audits := by
      intro c hc
      obtain rfl := Option.some.inj (h₂.symm.trans hc)
      rw [h₁, hdestroy]
      have hconf := (System.create_fresh hnz now).1.conf
      intro hpath x hx
      simp only [System.configured, hconf] at hpath hx
      rw [← haudits]
      exact System.told_create hpath (hstatus.trans hunconnected) now hx
    obtain rfl | hr := hr
    · exact hnew
    · exact hnew.start hr

variable [Platform]

theorem AllTold.step (h : pl.AllTold old) {call : Call} (hcall : call.Serving)
    (hst : pl.step call = some pl') : pl'.AllTold old := by
  have hcases := step_cases hst
  cases call with
  | event ev =>
    obtain ⟨c, t, hc, ht, rfl⟩ := hcases
    intro d hd
    obtain rfl : t.connection = d := Option.some.inj hd
    have hconf := (System.run_link_step ht .A).1
    intro hpath x hx
    simp only [System.configured, hconf] at hpath hx
    exact (h c hc hpath x hx).step ht
  | start now => exact h.start hcases
  | setJsonConfig => exact hcall.elim
  | stop => exact hcall.elim

/-- **The audits of a service tell the truth**: from the configuration on, at every point of every
run, whatever the order of the events on its paths. -/
theorem truthful_of_run {pl₀ pl₁ pl : Plugin} {calls₀ calls : List Call} {conf : HNZConf}
    {name : String} {now : Instant} {c : HNZConnection} (h₀ : Run Step {} calls₀ pl₀)
    (hopens : pl₀.Opens conf now) (h₁ : pl₀.Step (.setJsonConfig conf name now) pl₁)
    (h : Run Step pl₁ calls pl) (hcalls : ∀ call ∈ calls, call.Serving)
    (hc : pl.connection = some c) (hpath : c.conf.configured .A ∨ c.conf.configured .B) :
    System.Truthful (pl₀.halt now).hnz.audits.length ⟨pl.hnz, c⟩ := by
  have hall : Run Step {} (calls₀ ++ [.setJsonConfig conf name now] ++ calls) pl :=
    (h₀.snoc h₁).append h
  have harb : ∀ {as q}, Run Step {} as q → Arbitrated (fun _ => True) q := fun hrun =>
    arbitrated trivial (fun _ _ _ _ => trivial)
      (hrun.mono fun hst => (⟨trivial, hst⟩ : Under (fun _ _ => True) Step _ _ _))
  have htold : pl.AllTold (pl₀.halt now).hnz.audits :=
    (h.under hcalls).invariant (fun hpl hst => hpl.step hst.1 hst.2) (by
      obtain ⟨b, hset⟩ := step_cases h₁
      exact .setJsonConfig (harb h₀) hopens hset)
  have hrunning : c.isRunning = true := by
    by_contra hr
    have hnopath := ((harb hall).pathless hc (by simpa using hr)).2.2
    simp [hnopath] at hpath
  exact (htold c hc hpath).truthful (oneActive_of_run hall hc hrunning)

end Plugin

set_option maxRecDepth 8000 in
/-- The plugin is configured twice before it runs.  Path A was active and is lost; the last audits say
that path B is active now. -/
theorem Plugin.truthful_failover : letI : Platform := .sample
    ∃ pl c, exec Plugin.step {} (.setJsonConfig .sample "hnz" 0 :: failover) = some pl ∧
      pl.connection = some c ∧ System.Truthful 3 ⟨pl.hnz, c⟩ ∧
      System.auditsAbout 3 ⟨pl.hnz, c⟩ (.path .B) = [⟨.fail, "hnz-B-disconnected"⟩,
        ⟨.success, "hnz-B-passive"⟩, ⟨.success, "hnz-B-active"⟩] ∧
      System.auditsAbout 3 ⟨pl.hnz, c⟩ .service =
        [⟨.fail, "hnz-disconnected"⟩, ⟨.success, "hnz-connected"⟩] := by
  let : Platform := .sample
  let pl : Plugin :=
    (exec Plugin.step {} (.setJsonConfig .sample "hnz" 0 :: failover)).get (by decide +kernel)
  let c : HNZConnection := pl.connection.get (by decide +kernel)
  have hpl : exec Plugin.step {} (.setJsonConfig .sample "hnz" 0 :: failover) = some pl :=
    (Option.some_get _).symm
  have hc : pl.connection = some c := (Option.some_get _).symm
  obtain ⟨pl₀, h₀, hrest₀⟩ := Run.cons_iff.mp (run_det_iff.mpr hpl)
  obtain ⟨pl₁, h₁, hrest⟩ := Run.cons_iff.mp hrest₀
  have hpl₀ : Plugin.step {} (.setJsonConfig .sample "hnz" 0) = some pl₀ := h₀
  -- The first configuration leaves a connection that was not used.
  have hopens : pl₀.Opens .sample 0 := by
    cases hpl₀
    intro c hc
    cases hc
    exact ⟨rfl, fun p => by cases p <;> rfl⟩
  have haudits : (pl₀.halt 0).hnz.audits.length = 3 := by
    cases hpl₀
    rfl
  have htrue : System.Truthful 3 ⟨pl.hnz, c⟩ := haudits ▸
    Plugin.truthful_of_run (.cons h₀ (.nil _)) hopens h₁ hrest (by decide) hc
      (by decide +kernel)
  exact ⟨pl, c, hpl, hc, htrue, by decide +kernel, by decide +kernel⟩

end Hnz
