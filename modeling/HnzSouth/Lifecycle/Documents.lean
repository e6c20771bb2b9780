import HnzSouth.Model.Import

/-!
# Lifecycle/Documents — the steps of an import

A step of the import may have nothing to do with a field (`Keeps`).  A step that accepts has found
what it reads, and a sequence that accepts is a chain of steps that do.
-/

namespace Hnz

open Machinery

namespace Import

/-! ## Steps that leave a field alone -/

/-- The step leaves what `F` reads as it is. -/
def Keeps {β : Type} (F : HNZConf → β) (step : Import) : Prop := ∀ conf, F (step conf).2 = F conf

section Keeps

variable {β : Type} {F : HNZConf → β}

theorem Keeps.eq {step : Import} {ok : Bool} {conf conf' : HNZConf} (h : Keeps F step)
    (heq : step conf = (ok, conf')) : F conf' = F conf := by
  rw [← h conf, heq]

/-- A step that keeps two things keeps each of them. -/
theorem Keeps.comp {γ : Type} {step : Import} (h : Keeps F step) (g : β → γ) :
    Keeps (fun conf => g (F conf)) step := fun conf => congrArg g (h conf)

theorem keeps_store {α : Type} {value : Option α} {set : HNZConf → α → HNZConf}
    (h : ∀ conf x, F (set conf x) = F conf) : Keeps F (store value set) := by
  intro conf
  unfold store
  cases value with
  | none => rfl
  | some x => exact h conf x

theorem keeps_require (check : HNZConf → Bool) : Keeps F (require check) := fun _ => rfl

theorem keeps_optional {step : Import} (h : Keeps F step) : Keeps F (optional step) := h

theorem keeps_within {α : Type} {part : Option α} {step : α → Import} (h : ∀ x, Keeps F (step x)) :
    Keeps F (within part step) := by
  intro conf
  unfold within
  cases part with
  | none => rfl
  | some x => exact h x conf

theorem keeps_all {steps : List Import} (h : ∀ step ∈ steps, Keeps F step) :
    Keeps F (all steps) := by
  induction steps with
  | nil => exact fun _ => rfl
  | cons step steps ih =>
    obtain ⟨hstep, hsteps⟩ := List.forall_mem_cons.mp h
    exact fun conf => (ih hsteps _).trans (hstep conf)

end Keeps

/-- What a sequence leaves, step by step. -/
theorem all_cons_snd (step : Import) (steps : List Import) (conf : HNZConf) :
    (all (step :: steps) conf).2 = (all steps (step conf).2).2 := rfl

/-- **Acceptance**: a sequence accepts when each of its steps does. -/
theorem all_cons_accepts {step : Import} {steps : List Import} {conf : HNZConf} :
    (all (step :: steps) conf).1 = true ↔
      (step conf).1 = true ∧ (all steps (step conf).2).1 = true := by
  rw [all, Bool.and_eq_true]

/-! ## Sequences that accept

A sequence that accepts is read from the front, one step at a time. -/

section Accepts

variable {α : Type} {steps : List Import} {conf conf' : HNZConf}

theorem all_nil_iff : all [] conf = (true, conf') ↔ conf = conf' := by
  rw [all, Prod.mk.injEq, eq_self, true_and]

/-- **A step in front.** -/
theorem all_cons_iff {step : Import} : all (step :: steps) conf = (true, conf') ↔
    ∃ conf₁, step conf = (true, conf₁) ∧ all steps conf₁ = (true, conf') := by
  constructor
  · intro h
    obtain ⟨hstep, hsteps⟩ := all_cons_accepts.mp (congrArg Prod.fst h)
    exact ⟨_, Prod.ext hstep rfl, Prod.ext hsteps (congrArg Prod.snd h :)⟩
  · rintro ⟨conf₁, hstep, hsteps⟩
    rw [all, hstep]
    exact hsteps ▸ rfl

/-- A value that is read and stored. -/
theorem all_store_iff {value : Option α} {set : HNZConf → α → HNZConf} :
    all (store value set :: steps) conf = (true, conf') ↔
      ∃ x, value = some x ∧ all steps (set conf x) = (true, conf') := by
  rw [all_cons_iff]
  cases value with
  | none => simp [store]
  | some x => simp [store]

theorem all_require_iff {check : HNZConf → Bool} :
    all (require check :: steps) conf = (true, conf') ↔
      check conf = true ∧ all steps conf = (true, conf') := by
  rw [all_cons_iff]
  simp [require]

theorem within_iff {part : Option α} {step : α → Import} :
    within part step conf = (true, conf') ↔ ∃ x, part = some x ∧ step x conf = (true, conf') := by
  cases part with
  | none => simp [within]
  | some x => simp [within]

end Accepts

end Import

/-! ## The protocol stack -/

/-- The tables of the exchanged data. -/
def HNZConf.tables (conf : HNZConf) : Nat × MsgList × Std.TreeMap Int Int :=
  (conf.lastTSAddr, conf.msgList, conf.cgTriggeringTsAdresses)

theorem keeps_tables_importConnections : ∀ conns : List (PathId × Json),
    Import.Keeps HNZConf.tables (importConnections conns)
  | [], conf => rfl
  | (p, conn) :: conns, conf => by
    unfold importConnections
    split_ifs
    · refine Import.keeps_all (F := HNZConf.tables) (fun step hstep => ?_) conf
      simp only [List.mem_cons, List.not_mem_nil, or_false] at hstep
      rcases hstep with rfl | rfl | rfl
      · exact Import.keeps_store fun _ _ => rfl
      · exact Import.keeps_store fun _ _ => rfl
      · exact keeps_tables_importConnections conns
    · rfl

theorem keeps_tables_importTransportLayer (transport : Json) :
    Import.Keeps HNZConf.tables (importTransportLayer transport) := by
  intro conf
  unfold importTransportLayer
  split
  · rfl
  · split_ifs
    · rfl
    · exact keeps_tables_importConnections _ conf

/-- The application layer writes neither the tables nor the addresses of the paths. -/
theorem keeps_importApplicationLayer (json : Json) :
    Import.Keeps (fun conf => (conf.tables, conf.pathsIp)) (importApplicationLayer json) := by
  refine Import.keeps_all fun step hstep => ?_
  simp only [List.mem_cons, List.not_mem_nil, or_false] at hstep
  rcases hstep with rfl | rfl | rfl | rfl | rfl | rfl | rfl | rfl | rfl | rfl | rfl | rfl | rfl |
    rfl | rfl | rfl
  all_goals first | exact Import.keeps_require _ | exact Import.keeps_store fun _ _ => rfl

/-- **The protocol stack does not write the tables.** -/
theorem tables_importConfigJson (text : Text) (conf : HNZConf) :
    (importConfigJson text conf).tables = conf.tables := by
  unfold importConfigJson
  cases text.root "protocol_stack" with
  | none => rfl
  | some info =>
    have hlayer : ∀ json, Import.Keeps HNZConf.tables
        (.all [importApplicationLayer json, importUseUtc json]) := fun json =>
      Import.keeps_all (List.forall_mem_cons.mpr ⟨(keeps_importApplicationLayer json).comp Prod.fst,
        List.forall_mem_singleton.mpr (Import.keeps_optional (Import.keeps_store fun _ _ => rfl))⟩)
    have hstack : Import.Keeps HNZConf.tables (importProtocolStack info) := by
      refine Import.keeps_all fun step hstep => ?_
      simp only [List.mem_cons, List.not_mem_nil, or_false] at hstep
      rcases hstep with rfl | rfl | rfl | rfl
      · exact Import.keeps_require _
      · exact Import.keeps_within keeps_tables_importTransportLayer
      · exact Import.keeps_within hlayer
      · exact Import.keeps_optional (Import.keeps_within fun _ => Import.keeps_store fun _ _ => rfl)
    exact hstack conf

end Hnz
