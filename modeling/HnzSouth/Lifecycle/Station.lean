import HnzSouth.Behaviour.Links
import HnzSouth.Behaviour.Reports

/-!
# Lifecycle/Station — the station the plugin is tuned to

The plugin object holds the remote address twice: in its configuration, and in a field of its own
that only a complete configuration writes.  Everything else leaves both alone (`sameConf_step`), so
that the two agree whenever the configuration is complete (`Tuned`).
-/

namespace Hnz

open Machinery

/-- The same configuration and remote station. -/
def HNZ.SameConf (h h' : HNZ) : Prop := h'.conf = h.conf ∧ h'.remoteAddress = h.remoteAddress

theorem HNZ.SameConf.trans {h h' h'' : HNZ} (a : h.SameConf h') (b : h'.SameConf h'') :
    h.SameConf h'' := ⟨b.1.trans a.1, b.2.trans a.2⟩

/-- Reports leave both alone. -/
theorem HNZ.Reports.sameConf {h h' : HNZ} (a : h.Reports h') : h.SameConf h' :=
  ⟨a.conf, a.remoteAddress⟩

namespace System

variable {s t : System} {p : PathId} {now : Instant} {ev : Event}

/-! ## The connection's life -/

/-- A new path is audited. -/
theorem reports_createPath (now : Instant) (p : PathId) :
    s.hnz.Reports (s.createPath now p).hnz := by
  unfold createPath
  split_ifs
  · exact (reports_audit _ _).trans (reports_runAction _ now)
  · exact reports_audit _ _

/-- **A new connection** reports its paths and its status. -/
theorem reports_create (hnz : HNZ) (now : Instant) : hnz.Reports (create hnz now).hnz := by
  set s : System := [PathId.A, PathId.B].foldl (createPath now) ⟨hnz, { conf := hnz.conf }⟩ with hs
  have hpaths : hnz.Reports (s.audit .fail (s.hnz.serviceName ++ "-disconnected")).hnz :=
    ((reports_createPath (s := ⟨hnz, { conf := hnz.conf }⟩) now .A).trans
      (reports_createPath now .B)).trans (reports_audit _ _)
  unfold create
  simp only
  split_ifs
  · exact .refl hnz
  · exact hpaths

/-- **A connection that stops** disconnects its paths. -/
theorem reports_stop (s : System) (now : Instant) : s.hnz.Reports (s.stop now).hnz := by
  have hone : ∀ (u : System) (q : PathId),
      u.hnz.Reports (if u.configured q then u.disconnect q now else u).hnz := by
    intro u q
    split_ifs
    · exact reports_protocolStateTransition _ now
    · exact .refl _
  exact (hone { s with connection.isRunning := false } .A).trans (hone _ .B)

/-! ## Events -/

/-- **Work leaves both alone.** -/
theorem Works.sameConf {ok : Work → Prop} (h : Works ok s t) : s.hnz.SameConf t.hnz :=
  h.invariant (I := fun u => s.hnz.SameConf u.hnz) (fun _ hu huv => by
    cases huv with
    | link => exact hu
    | interrogate p now =>
      exact hu.trans ⟨(same_sendGeneralInterrogation _ p now).2.2.2.2.2.1,
        remoteAddress_sendGeneralInterrogation⟩
    | other hs => exact hu.trans ⟨hs.hnzConf, hs.remoteAddress⟩) ⟨rfl, rfl⟩

/-- **No event changes the configuration or the station.** -/
theorem sameConf_step [Platform] (h : s.step ev = some t) : s.hnz.SameConf t.hnz := by
  obtain ⟨u, now, hpre, hpost⟩ := (step_cases h).2
  refine (hpre.sameConf.trans ?_).trans hpost.sameConf
  cases hf : s.fires ev with
  | none => exact ⟨rfl, rfl⟩
  | some f => exact (reports_protocolStateTransition f.2 now).sameConf

end System

/-! ## The plugin -/

namespace Plugin

variable {pl pl' : Plugin} {now : Instant}

/-- **A complete configuration names the station the plugin is tuned to.** -/
def Tuned (h : HNZ) : Prop :=
  h.conf.isComplete = true → h.remoteAddress = h.conf.remoteStationAddr.toNat

/-- Only a new configuration tunes the plugin. -/
theorem Tuned.sameConf {h h' : HNZ} (ht : Tuned h) (hs : h.SameConf h') : Tuned h' := by
  intro hc
  rw [hs.1] at hc ⊢
  rw [hs.2]
  exact ht hc

/-- The plugin stops. -/
theorem sameConf_stop (b : Bool) (now : Instant) (pl : Plugin) :
    pl.hnz.SameConf (pl.stop b now).hnz := by
  unfold stop
  cases pl.connection with
  | none => exact ⟨rfl, rfl⟩
  | some c => exact (System.reports_stop ⟨pl.hnz, c⟩ now).sameConf

/-- The old connection is destroyed. -/
theorem sameConf_destroyConnection (c : Option HNZConnection) (now : Instant) (hnz : HNZ) :
    hnz.SameConf (destroyConnection c now hnz) := by
  unfold destroyConnection
  split
  · exact ⟨rfl, rfl⟩
  · next c =>
    split_ifs
    · exact (System.reports_stop ⟨hnz, c⟩ now).sameConf
    · exact ⟨rfl, rfl⟩

/-- The plugin starts, or does not. -/
theorem sameConf_start {b : Bool} (h : pl.start b now = .ok pl') : pl.hnz.SameConf pl'.hnz := by
  obtain ⟨h, -⟩ | ⟨c, readings, -, h, -⟩ := start_eq h <;> rw [h] <;> exact ⟨rfl, rfl⟩

end Plugin

end Hnz
