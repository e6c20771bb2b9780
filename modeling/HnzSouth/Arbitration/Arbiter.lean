import HnzSouth.Model.Link

/-!
# Arbitration/Arbiter — what the arbiter is for

Two paths lead to the same remote station.  An `Arbiter` says, for the protocol states of the two,
which path is active: there is one as soon as a path is fully connected, and it is such a path.
That is a field of the structure, so every arbiter has it; the connection state of a path and the
status of the connection are functions of the arbiter.

`first` is the path allowed to extract messages while none is active.  It loses its sense when the
path it designates leaves and the other path stays with its input connected (`Strands`); until then
exactly one path extracts (`exists_unique_extractor`).
-/

namespace Hnz

/-- The input side of the path is connected: it accepts and acknowledges information frames. -/
def ProtocolState.live (st : ProtocolState) : Prop := st = .inputConnected ∨ st = .connected

instance : DecidablePred ProtocolState.live := fun st => by
  unfold ProtocolState.live; infer_instance

/-- **An arbiter of two paths.** -/
structure Arbiter where
  proto : PathId → ProtocolState
  active : Option PathId
  first : Option PathId
  active_connected : ∀ {p}, active = some p → proto p = .connected
  active_of_connected : ∀ {p}, proto p = .connected → active ≠ none

namespace Arbiter

variable {a : Arbiter} {p q : PathId} {st : ProtocolState}

/-- Two paths at rest. -/
def init : Arbiter where
  proto := fun _ => .connection
  active := none
  first := none
  active_connected := nofun
  active_of_connected := nofun

/-- The connection state that goes with a protocol state. -/
def stateFor (st : ProtocolState) (active : Bool) : ConnectionState :=
  match st with
  | .connection => .disconnected
  | .inputConnected | .outputConnected => .pendingHnz
  | .connected => if active then .active else .passive

/-- The connection state of a path. -/
def stateOf (a : Arbiter) (p : PathId) : ConnectionState :=
  stateFor (a.proto p) (a.active == some p)

/-- The status of the connection. -/
def status (a : Arbiter) : ConnectionStatus :=
  if a.active = none then .notConnected else .started

/-- The path may extract messages. -/
def Extracts (a : Arbiter) (p : PathId) : Prop :=
  a.active = some p ∨ (a.first = some p ∧ a.active = none)

/-! ## Moves -/

/-- The active path after `p` has moved to `st`: a path that connects takes the place if it is free,
the active one that leaves hands it over if the other path is connected. -/
def nextActive (a : Arbiter) (p : PathId) (st : ProtocolState) : Option PathId :=
  if st = .connected then a.active.or (some p)
  else if a.active = some p then if a.proto p.other = .connected then some p.other else none
  else a.active

/-- The designated path after `p` has moved to `st`. -/
def nextFirst (a : Arbiter) (p : PathId) (st : ProtocolState) : Option PathId :=
  if a.first = none ∧ st.live then some p
  else if a.first = some p ∧ ¬st.live then none
  else a.first

/-- **A path moves to another protocol state.** -/
def move (a : Arbiter) (p : PathId) (st : ProtocolState) : Arbiter where
  proto := Function.update a.proto p st
  active := a.nextActive p st
  first := a.nextFirst p st
  active_connected {q} h := by
    unfold nextActive at h
    rw [Function.update_apply]
    split_ifs at h with h₁ h₂ h₃
    · split_ifs with hq
      · exact h₁
      · cases ha : a.active with
        | none => simp_all
        | some r => exact a.active_connected (by simp_all)
    · obtain rfl : p.other = q := Option.some.inj h
      rwa [if_neg (PathId.other_ne p)]
    · rw [if_neg (by rintro rfl; exact h₂ h)]
      exact a.active_connected h
  active_of_connected {q} h := by
    unfold nextActive
    rw [Function.update_apply] at h
    split_ifs with h₁ h₂ h₃
    · cases a.active <;> simp
    · simp
    · split_ifs at h with hq
      · exact absurd h h₁
      · rcases p.eq_or_eq_other q with rfl | rfl
        · exact absurd rfl hq
        · exact absurd h h₃
    · split_ifs at h with hq
      · exact absurd h h₁
      · exact a.active_of_connected h

/-- A protocol event of a path; the transition table says where it leads. -/
def react (a : Arbiter) (p : PathId) (e : ConnectionEvent) : Arbiter :=
  match transitionMap (a.proto p) e with
  | none => a
  | some (st, _) => a.move p st

@[simp] theorem proto_move : (a.move p st).proto = Function.update a.proto p st := rfl

@[simp] theorem active_move : (a.move p st).active = a.nextActive p st := rfl

@[simp] theorem first_move : (a.move p st).first = a.nextFirst p st := rfl

/-! ## One active path -/

/-- A passive path has an active one beside it. -/
theorem exists_active_of_passive (h : a.stateOf p = .passive) : a.stateOf p.other = .active := by
  have hp : a.proto p = .connected := by
    cases hp : a.proto p <;> simp_all [stateOf, stateFor]
  have hne : a.active ≠ some p := by
    intro ha; simp [stateOf, stateFor, hp, ha] at h
  obtain ⟨q, hq⟩ := Option.ne_none_iff_exists'.mp (a.active_of_connected hp)
  rcases p.eq_or_eq_other q with rfl | rfl
  · exact absurd hq hne
  · simp [stateOf, stateFor, a.active_connected hq, hq]

theorem stateOf_eq_active_iff : a.stateOf p = .active ↔ a.active = some p := by
  constructor
  · intro h
    cases hp : a.proto p <;> simp_all [stateOf, stateFor]
  · intro h
    simp [stateOf, stateFor, a.active_connected h, h]

theorem stateOf_active_or_passive_iff :
    (a.stateOf p = .active ∨ a.stateOf p = .passive) ↔ a.proto p = .connected := by
  by_cases ha : a.active = some p <;> cases h : a.proto p <;> simp [stateOf, stateFor, h, ha]

theorem stateOf_eq_pending_iff :
    a.stateOf p = .pendingHnz ↔ a.proto p = .inputConnected ∨ a.proto p = .outputConnected := by
  by_cases ha : a.active = some p <;> cases h : a.proto p <;> simp [stateOf, stateFor, h, ha]

theorem stateOf_eq_disconnected_iff : a.stateOf p = .disconnected ↔ a.proto p = .connection := by
  by_cases ha : a.active = some p <;> cases h : a.proto p <;> simp [stateOf, stateFor, h, ha]

theorem status_eq_started_iff : a.status = .started ↔ a.active ≠ none := by
  unfold status; split_ifs <;> simp_all

/-! ## One extractor -/

/-- **The move strands the messages of the other path**: the designated path leaves while the other
one has only its input connected. -/
def Strands (a : Arbiter) (p : PathId) (st : ProtocolState) : Prop :=
  a.first = some p ∧ ¬st.live ∧ a.proto p.other = .inputConnected

/-- The designated path is live. -/
def FirstLive (a : Arbiter) : Prop := ∀ p, a.first = some p → (a.proto p).live

theorem firstLive_init : init.FirstLive := fun _ h => nomatch h

theorem FirstLive.move (h : a.FirstLive) : (a.move p st).FirstLive := by
  intro q hq
  rw [first_move, nextFirst] at hq
  rw [proto_move, Function.update_apply]
  split_ifs at hq with h₁ h₂
  · obtain rfl : p = q := Option.some.inj hq
    rw [if_pos rfl]
    exact h₁.2
  · split_ifs with hqp
    · subst hqp
      by_contra hst
      exact h₂ ⟨hq, hst⟩
    · exact h q hq

theorem FirstLive.react (h : a.FirstLive) (e : ConnectionEvent) : (a.react p e).FirstLive := by
  unfold Arbiter.react
  split
  · exact h
  · exact h.move

/-- A path that extracts is live. -/
theorem FirstLive.live_of_extracts (h : a.FirstLive) (hp : a.Extracts p) : (a.proto p).live := by
  rcases hp with hp | hp
  · exact Or.inr (a.active_connected hp)
  · exact h p hp.1

/-- The designated path is live, and there is one while a path has only its input connected. -/
structure Designates (a : Arbiter) : Prop where
  live : a.FirstLive
  designated : ∀ {p}, a.proto p = .inputConnected → a.first ≠ none

theorem designates_init : init.Designates := ⟨firstLive_init, nofun⟩

/-- **The step lemma**: a move that strands nothing keeps the designation. -/
theorem Designates.move (h : a.Designates) (hs : ¬a.Strands p st) : (a.move p st).Designates := by
  refine ⟨FirstLive.move h.live, ?_⟩
  intro q hq
  rw [proto_move, Function.update_apply] at hq
  rw [first_move, nextFirst]
  split_ifs with h₁ h₂
  · simp
  · -- the designated path left: the other path is not `inputConnected`, or it would be stranded
    split_ifs at hq with hqp
    · exact absurd (Or.inl hq) h₂.2
    · rcases p.eq_or_eq_other q with rfl | rfl
      · exact absurd rfl hqp
      · exact absurd ⟨h₂.1, h₂.2, hq⟩ hs
  · split_ifs at hq with hqp
    · exact fun hf => h₁ ⟨hf, Or.inl hq⟩
    · exact h.designated hq

/-- Exactly one path extracts, and it is live. -/
def OneExtractor (a : Arbiter) : Prop :=
  ∃ p, a.Extracts p ∧ (a.proto p).live ∧ ∀ q, a.Extracts q → q = p

/-- **While a path is live, exactly one extracts, and it is live.** -/
theorem Designates.oneExtractor (h : a.Designates) (hp : (a.proto p).live) : a.OneExtractor := by
  cases ha : a.active with
  | some q =>
    refine ⟨q, Or.inl ha, Or.inr (a.active_connected ha), ?_⟩
    rintro r (hr | hr)
    · exact Option.some.inj (hr.symm.trans ha)
    · exact absurd (ha.symm.trans hr.2) (by simp)
  | none =>
    have hin : a.proto p = .inputConnected :=
      hp.resolve_right fun hc => a.active_of_connected hc ha
    obtain ⟨q, hq⟩ := Option.ne_none_iff_exists'.mp (h.designated hin)
    refine ⟨q, Or.inr ⟨hq, ha⟩, h.live q hq, ?_⟩
    rintro r (hr | hr)
    · exact absurd (hr.symm.trans ha) (by simp)
    · exact Option.some.inj (hr.1.symm.trans hq)

/-- A move that strands the other path leaves it live and without an extractor. -/
theorem not_oneExtractor_of_strands (hs : a.Strands p st) :
    ((a.move p st).proto p.other).live ∧ ¬(a.move p st).OneExtractor := by
  obtain ⟨hf, hst, ho⟩ := hs
  have hfirst : (a.move p st).first = none := by
    rw [first_move, nextFirst, if_neg (by simp [hf]), if_pos ⟨hf, hst⟩]
  have hne : st ≠ .connected := fun h => hst (Or.inr h)
  have hactive : (a.move p st).active = none := by
    rw [active_move, nextActive, if_neg hne]
    split_ifs with ha hc
    · rw [ho] at hc; cases hc
    · rfl
    · rcases hq : a.active with _ | q
      · rfl
      · have hcq := a.active_connected hq
        rcases p.eq_or_eq_other q with rfl | rfl
        · exact absurd hq ha
        · rw [ho] at hcq; cases hcq
  refine ⟨?_, ?_⟩
  · rw [proto_move, Function.update_of_ne (PathId.other_ne p), ho]
    exact Or.inl rfl
  · rintro ⟨q, hq | hq, -⟩
    · exact absurd (hactive.symm.trans hq) (by simp)
    · exact absurd (hfirst.symm.trans hq.1) (by simp)

end Arbiter

end Hnz
