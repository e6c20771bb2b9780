import HnzSouth.Effects.Effect

/-!
# Effects/Messages — what a received message does

Every handler returns readings about points, whatever the bytes of its message (`Prepared`).
-/

namespace Hnz

open Machinery

namespace System

variable {s t : System} {p : PathId} {now : Instant} {data : List UInt8} {readings : List Reading}

/-! ## Readings -/

/-- The readings are about points of the configuration. -/
def Prepared (s : System) (readings : List Reading) : Prop :=
  s.hnz.Settled → ∀ r ∈ readings, r.OfPoint s.hnz.conf s.hnz.remoteAddress

/-- A reading with the label of its point. -/
theorem ofPoint_of_label {params : ReadingParameters} (hs : s.hnz.Settled)
    (hstation : params.stationAddr = s.hnz.remoteAddress)
    (hlabel : params.label = s.hnz.conf.getLabel params.msgCode params.msgAddress)
    (hne : ¬s.hnz.conf.getLabel params.msgCode params.msgAddress = "") :
    (prepareReading params).OfPoint s.hnz.conf s.hnz.remoteAddress := by
  have hlists := HNZConf.lists_getLabel hne
  rw [← hlabel, ← hs, ← hstation] at hlists
  rw [← hstation]
  exact ofPoint_prepareReading hlists

variable [Platform]

theorem Tells.prepared {type : UInt8} (h : s.Tells type readings) : s.Prepared readings := by
  intro hs r hr
  obtain ⟨params, rfl, hparams⟩ := h r hr
  exact ofPoint_of_label hs hparams.stationAddr hparams.label hparams.known

/-! ## State -/

theorem effects_hears (addresses : List Nat) : Effects Effect.Free s (s.hears addresses) := by
  have hrecords : Effects Effect.Free s (s.records addresses) :=
    effects_quiet ⟨rfl, rfl, rfl, rfl, rfl⟩ rfl rfl rfl rfl rfl
  unfold hears
  split_ifs
  · exact hrecords.trans (effects_updateGiStatus .inProgress)
  · exact hrecords

theorem effects_receivedCommandACK (type : String) (addr : Int) :
    Effects Effect.Free s (s.receivedCommandACK type addr) :=
  receivedCommandACK_rule (fun _ => .refl) .trans fun _ _ => effects_touch fun _ => rfl

theorem Handles.effects {type : UInt8} (h : Handles type now s t) : Effects Effect.Free s t := by
  cases h with
  | idle => exact .refl
  | modulo => exact effects_quiet ⟨rfl, rfl, rfl, rfl, rfl⟩ rfl rfl rfl rfl rfl
  | trigger => exact effects_triggerGI
  | hear => exact effects_hears _
  | acknowledge => exact effects_receivedCommandACK _ _

/-- **A received message.** -/
theorem effects_handleMessage (h : s.handleMessage data now = .ok t) :
    Effects Effect.Free s t := by
  unfold handleMessage at h
  simp only [bind_eq_ok] at h
  obtain ⟨type, -, ⟨readings, u⟩, hu, h⟩ := h
  obtain ⟨hhandles, htells⟩ := dispatch_cases hu
  have hdispatch := hhandles.effects
  have hsettings := hdispatch.sameSettings
  have hsent : Effects Effect.Free u (u.sendToFledge readings) := effects_sendToFledge fun hs => by
    rw [HNZ.Settled, hsettings.conf, hsettings.remoteAddress] at hs
    rw [hsettings.conf, hsettings.remoteAddress]
    exact htells.prepared hs
  simp only at h
  split_ifs at h
  · exact hdispatch.trans (hsent.trans (effects_checkGICompleted h))
  · obtain rfl := Except.ok.inj h
    exact hdispatch.trans hsent

end System

end Hnz
