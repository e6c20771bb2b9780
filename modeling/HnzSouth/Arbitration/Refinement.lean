import HnzSouth.Arbitration.Arbiter
import HnzSouth.Model.SystemLemmas

/-!
# Arbitration/Refinement — the code's arbiter refines the abstract one

`Represents s a`: the system shows the protocol states, the active path and the designated path of
`a`, and the connection states and the status that `a` computes.  A protocol transition of a path
carries this along (`Represents.transition`): its one request to the arbiter is the abstract move,
and its other actions touch nothing the arbiter reads.
-/

namespace Hnz

namespace System

/-- The system shows the arbiter, but for these protocol states and this designated path. -/
structure Shows (s : System) (a : Arbiter) (proto : PathId → ProtocolState)
    (first : Option PathId) : Prop where
  protocolState : ∀ q, (s.path q).protocolState = proto q
  active : s.connection.activePath = a.active
  first : s.connection.firstInputConnected = first
  state : ∀ q, (s.path q).connectionState = a.stateOf q
  status : s.hnz.connStatus = a.status
  running : s.connection.isRunning = true
  configured : ∀ q, proto q ≠ .connection → s.connection.conf.configured q = true

/-- **The system represents the arbiter.** -/
abbrev Represents (s : System) (a : Arbiter) : Prop := s.Shows a a.proto a.first

variable {s : System} {a : Arbiter} {p q : PathId} {proto : PathId → ProtocolState}
  {first : Option PathId} {st : ProtocolState}

/-! ## Actions on the path -/

/-- What leaves the protocol state alone is invisible to the arbiter. -/
theorem Shows.modifyLink (h : s.Shows a proto first) {f : Link → Link}
    (hf : (f (s.path p).toLink).protocolState = (s.path p).protocolState) :
    (s.modifyLink p f).Shows a proto first where
  protocolState q := by
    rw [link_modifyLink]
    split_ifs with hq
    · rw [hf, hq, h.protocolState]
    · exact h.protocolState q
  active := h.active
  first := h.first
  state q := by
    rw [path_modifyLink]
    split_ifs with hq
    · rw [hq, ← h.state]
    · exact h.state q
  status := h.status
  running := h.running
  configured := h.configured

/-- A path that has taken its next state, and not yet told the arbiter. -/
theorem Shows.moved (h : s.Represents a) (hp : s.configured p) :
    (s.modifyLink p fun l => { l with protocolState := st }).Shows a
      (Function.update a.proto p st) a.first where
  protocolState q := by
    rw [link_modifyLink, Function.update_apply]
    split_ifs
    · rfl
    · exact h.protocolState q
  active := h.active
  first := h.first
  state q := by
    rw [path_modifyLink]
    split_ifs with hq
    · rw [hq, ← h.state]
    · exact h.state q
  status := h.status
  running := h.running
  configured q hq := by
    rw [Function.update_apply] at hq
    split_ifs at hq with hqp
    · exact hqp ▸ hp
    · exact h.configured q hq

/-! ## The request -/

/-- The first step of a request: the designated path follows. -/
theorem Shows.trackFirstInput (h : s.Shows a (Function.update a.proto p st) a.first) :
    (s.trackFirstInput p).Shows a (Function.update a.proto p st) (a.nextFirst p st) := by
  have hp : (s.path p).protocolState = st := by rw [h.protocolState, Function.update_self]
  have hlive : (st = .inputConnected ∨ st = .connected) ↔ st.live := Iff.rfl
  have hdead : (st = .connection ∨ st = .outputConnected) ↔ ¬st.live := by
    cases st <;> simp [ProtocolState.live]
  unfold System.trackFirstInput Arbiter.nextFirst
  simp only [hp, h.first, hlive, hdead]
  split_ifs
  · exact { h with first := rfl }
  · exact { h with first := rfl }
  · exact h

/-- The connection state of a path that is not connected does not depend on who is active. -/
theorem stateFor_of_ne (h : st ≠ .connected) (x y : Bool) :
    Arbiter.stateFor st x = Arbiter.stateFor st y := by cases st <;> trivial

theorem stateFor_eq_requestFor (h : st ≠ .connected) (x : Bool) :
    Arbiter.stateFor st x = requestFor st := by cases st <;> trivial

/-- The request of a path that has connected: it is active if the place is free. -/
theorem Shows.request_connected
    (h : s.Shows a (Function.update a.proto p .connected) a.first) (hne : a.proto p ≠ .connected) :
    (s.requestConnectionState p .active).Represents (a.move p .connected) := by
  have ht := h.trackFirstInput
  unfold requestConnectionState
  rw [if_pos rfl]
  by_cases ha : a.active = none
  · have hnext : a.nextActive p .connected = some p := by simp [Arbiter.nextActive, ha]
    rw [if_pos (ht.active.trans ha)]
    exact
      { protocolState := by simpa using ht.protocolState
        active := by simp [hnext]
        first := by simpa using ht.first
        state := fun q => by
          rw [Arbiter.stateOf, Arbiter.active_move, hnext, Arbiter.proto_move,
            Function.update_apply]
          simp only [path_updateConnectionStatus, connectionState_setConnectionState,
            path_setActivePath]
          split_ifs with hq
          · simp [hq, Arbiter.stateFor]
          · exact (ht.state q).trans (stateFor_of_ne (fun hc => a.active_of_connected hc ha) _ _)
        status := by simp [hnz_updateConnectionStatus, Arbiter.status, hnext]
        running := by simpa using ht.running
        configured := by simpa using ht.configured }
  · have hp : a.active ≠ some p := fun ha => hne (a.active_connected ha)
    have hnext : a.nextActive p .connected = a.active := by
      obtain ⟨r, hr⟩ := Option.ne_none_iff_exists'.mp ha
      simp [Arbiter.nextActive, hr]
    rw [if_neg (fun h' => ha (ht.active.symm.trans h'))]
    exact
      { protocolState := by simpa using ht.protocolState
        active := by simpa [hnext] using ht.active
        first := by simpa using ht.first
        state := fun q => by
          rw [Arbiter.stateOf, Arbiter.active_move, hnext, Arbiter.proto_move,
            Function.update_apply, connectionState_setConnectionState]
          split_ifs with hq
          · simp [hq, Arbiter.stateFor, hp]
          · exact ht.state q
        status := by
          rw [(sameStatus_setConnectionState _).connStatus, ht.status]
          simp [Arbiter.status, hnext]
        running := by simpa using ht.running
        configured := by simpa using ht.configured }

/-- The request of a path that is not connected: the active one hands over, if it can. -/
theorem Shows.request_leave (h : s.Shows a (Function.update a.proto p st) a.first)
    (hst : st ≠ .connected) :
    (s.requestConnectionState p (requestFor st)).Represents (a.move p st) := by
  have ht := h.trackFirstInput
  have hreq : requestFor st ≠ .active := by cases st <;> simp_all [requestFor]
  unfold requestConnectionState leave
  rw [if_neg hreq]
  generalize s.trackFirstInput p = t at ht
  simp only [activePath_setConnectionState]
  have hself := stateFor_eq_requestFor hst
  have hstate := fun q => t.connectionState_setConnectionState (p := p) (q := q) (requestFor st)
  by_cases ha : a.active = some p
  · rw [if_pos (ht.active.trans ha)]
    have hother : ((t.setConnectionState p (requestFor st)).clearActivePath.path
        p.other).connectionState = a.stateOf p.other := by
      rw [path_clearActivePath, hstate, if_neg (PathId.other_ne p), ht.state]
    by_cases hc : a.proto p.other = .connected
    · -- the other path is passive, and takes over
      have hnext : a.nextActive p st = some p.other := by simp [Arbiter.nextActive, hst, ha, hc]
      have hpassive : a.stateOf p.other = .passive := by
        simp [Arbiter.stateOf, Arbiter.stateFor, hc, ha]
      have hconf : t.connection.conf.configured p.other = true := ht.configured _ (by
        rw [Function.update_of_ne (PathId.other_ne p), hc]; simp)
      rw [tryActivateOtherPath_of_passive (by simpa using ht.running)
        (by simpa [System.configured] using hconf) (hother.trans hpassive)]
      simp only [Bool.not_true, Bool.false_eq_true, if_false]
      exact
        { protocolState := by simpa using ht.protocolState
          active := by simp [hnext]
          first := by simpa using ht.first
          state := fun q => by
            rw [Arbiter.stateOf, Arbiter.active_move, hnext, Arbiter.proto_move]
            simp only [path_updateConnectionStatus, connectionState_setConnectionState,
              path_setActivePath, path_clearActivePath]
            rcases p.eq_or_eq_other q with rfl | rfl
            · simp [hself]
            · simp [hc, Arbiter.stateFor]
          status := by simp [hnz_updateConnectionStatus, Arbiter.status, hnext]
          running := by simpa using ht.running
          configured := by simpa using ht.configured }
    · -- there is no path to take over
      have hnext : a.nextActive p st = none := by simp [Arbiter.nextActive, hst, ha, hc]
      have hpassive : a.stateOf p.other ≠ .passive := fun h' =>
        hc (Arbiter.stateOf_active_or_passive_iff.mp (Or.inr h'))
      rw [tryActivateOtherPath_of_not_passive (fun h' => hpassive (hother.symm.trans h'))]
      simp only [Bool.not_false, if_true]
      exact
        { protocolState := by simpa using ht.protocolState
          active := by simp [hnext]
          first := by simpa using ht.first
          state := fun q => by
            rw [Arbiter.stateOf, Arbiter.active_move, hnext, Arbiter.proto_move,
              path_updateConnectionStatus, path_clearActivePath, hstate]
            rcases p.eq_or_eq_other q with rfl | rfl
            · simp [hself]
            · rw [if_neg (PathId.other_ne p), Function.update_of_ne (PathId.other_ne p)]
              exact (ht.state _).trans (stateFor_of_ne hc _ _)
          status := by simp [hnz_updateConnectionStatus, Arbiter.status, hnext]
          running := by simpa using ht.running
          configured := by simpa using ht.configured }
  · rw [if_neg fun h' => ha (ht.active.symm.trans h')]
    have hnext : a.nextActive p st = a.active := by simp [Arbiter.nextActive, hst, ha]
    exact
      { protocolState := by simpa using ht.protocolState
        active := by simpa [hnext] using ht.active
        first := by simpa using ht.first
        state := fun q => by
          rw [hstate, Arbiter.stateOf, Arbiter.proto_move, Function.update_apply]
          split_ifs with hq
          · rw [hself]
          · rw [Arbiter.active_move, hnext]
            exact ht.state q
        status := by
          rw [(sameStatus_setConnectionState _).connStatus, ht.status]
          simp [Arbiter.status, hnext]
        running := by simpa using ht.running
        configured := by simpa using ht.configured }

/-- **The request is the abstract move.** -/
theorem Shows.request (h : s.Shows a (Function.update a.proto p st) a.first)
    (hne : st = .connected → a.proto p ≠ .connected) :
    (s.requestConnectionState p (requestFor st)).Represents (a.move p st) := by
  by_cases hst : st = .connected
  · subst hst
    exact h.request_connected (hne rfl)
  · exact h.request_leave hst

/-! ## The transition -/

/-- An action without a request is invisible; the one with a request is the move. -/
theorem Shows.runAction (h : s.Shows a proto first) {now : Instant} {act : Action}
    (hact : requestOf act = none) : (s.runAction p now act).Shows a proto first := by
  unfold System.runAction
  rw [hact]
  exact h.modifyLink (act_protocolState _ _ _)

theorem Represents.foldl_runAction {now : Instant} {acts : List Action} (h : s.Represents a)
    (hacts : acts.filterMap requestOf = []) :
    (acts.foldl (System.runAction p now) s).Represents a := by
  induction acts generalizing s with
  | nil => exact h
  | cons act acts ih =>
    have hnone : requestOf act = none := List.filterMap_eq_nil_iff.mp hacts act (by simp)
    exact ih (h.runAction hnone) (by rwa [List.filterMap_cons_none hnone] at hacts)

/-- A run of actions with one request. -/
theorem Shows.foldl_runAction {now : Instant} {acts : List Action}
    (h : s.Shows a (Function.update a.proto p st) a.first)
    (hne : st = .connected → a.proto p ≠ .connected)
    (hacts : acts.filterMap requestOf = [requestFor st]) :
    (acts.foldl (System.runAction p now) s).Represents (a.move p st) := by
  induction acts generalizing s with
  | nil => cases hacts
  | cons act acts ih =>
    rw [List.foldl_cons]
    cases hact : requestOf act with
    | none =>
      exact ih (h.runAction hact) (by rwa [List.filterMap_cons_none hact] at hacts)
    | some x =>
      rw [List.filterMap_cons_some hact] at hacts
      obtain ⟨rfl, hrest⟩ := List.cons.inj hacts
      refine Represents.foldl_runAction ?_ hrest
      unfold System.runAction
      rw [hact]
      exact (h.request hne).modifyLink (act_protocolState _ _ _)

/-- **A protocol transition is the abstract reaction.** -/
theorem Represents.transition (h : s.Represents a) (hp : s.configured p) (e : ConnectionEvent)
    (now : Instant) : (s.protocolStateTransition p e now).Represents (a.react p e) := by
  unfold protocolStateTransition Arbiter.react
  rw [h.protocolState]
  cases hmap : transitionMap (a.proto p) e with
  | none => exact h
  | some entry =>
    obtain ⟨hacts, hne⟩ := transitionMap_request hmap
    exact (Shows.moved h hp).foldl_runAction hne hacts

end System

end Hnz
