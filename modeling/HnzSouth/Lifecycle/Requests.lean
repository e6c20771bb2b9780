import HnzSouth.Configuration.Tables
import HnzSouth.Model.Request

/-!
# Lifecycle/Requests — the calls of the plugin object

Whether a call finds what it uses depends on five facts about the plugin (`Life`), and every call
moves them by a rule of its own (`life_serve`).  A start and two of the operations use the
connection without a check: `lifeCycle_iff` says in which sequences of calls they all find
it.
-/

namespace Hnz

open Machinery

/-! ## The facts -/

/-- **What the calls depend on.** -/
structure Life where
  complete : Bool := false
  readable : Bool := false
  attached : Bool := false
  isRunning : Bool := false
  shouldRun : Bool := false
  deriving DecidableEq, Repr

namespace Life

/-- A start; none when it faults. -/
def start (requestedStart : Bool) (l : Life) : Option Life :=
  let l := { l with shouldRun := requestedStart || l.shouldRun }
  if l.isRunning || !l.complete then some l
  else if l.readable && l.attached then some { l with isRunning := true }
  else none

def stop (requestedStop : Bool) (l : Life) : Life :=
  { l with
    attached := false
    isRunning := false
    shouldRun := !requestedStop && l.shouldRun }

/-- Stopped before its configuration changes. -/
def halted (l : Life) : Life := if l.isRunning then l.stop false else l

/-- With another configuration. -/
def configured (conf : HNZConf) (attached : Bool) (l : Life) : Life :=
  { l with
    complete := conf.isComplete
    readable := conf.readable conf.remoteStationAddr.toNat
    attached := attached }

/-- A new configuration, which starts the plugin again if it should run. -/
def setJsonConfig (conf : HNZConf) (l : Life) : Option Life :=
  if !conf.isComplete then some (l.halted.configured conf l.halted.attached)
  else
    let l := l.halted.configured conf true
    if (conf.configured .A || conf.configured .B) && l.shouldRun then l.start false else some l

/-- **The rule of a call.** -/
def next (l : Life) : Plugin.Request → Option Life
  | .event _ => some l
  | .reconfigure .empty .empty "" _ => some l
  | .reconfigure protocolConf msgConf _ _ => l.setJsonConfig (.ofTexts protocolConf msgConf)
  | .start requestedStart _ => l.start requestedStart
  | .stop requestedStop _ => some (l.stop requestedStop)
  | .operation name params _ => if reaches name params && !l.attached then none else some l

end Life

/-- The facts about a plugin. -/
def Plugin.life (pl : Plugin) : Life where
  complete := pl.hnz.conf.isComplete
  readable := pl.hnz.conf.readable pl.hnz.conf.remoteStationAddr.toNat
  attached := pl.connection.isSome
  isRunning := pl.isRunning
  shouldRun := pl.shouldRun

theorem Plugin.life_empty : ({} : Plugin).life = {} := by decide +kernel

/-! ## The connection -/

namespace System

variable {s : System} {now : Instant}

theorem isRunning_create (hnz : HNZ) (now : Instant) :
    (create hnz now).connection.isRunning = (hnz.conf.configured .A || hnz.conf.configured .B) := by
  obtain ⟨s, hs⟩ : ∃ s, s = create hnz now := ⟨_, rfl⟩
  rw [← hs]
  by_cases hnone : (!hnz.conf.configured .A && !hnz.conf.configured .B) = true
  · rw [hs.trans (if_pos hnone)]
    simp at hnone
    simp [hnone]
  · have hrunning := congrArg (fun s : System => s.connection.isRunning) (hs.trans (if_neg hnone))
    dsimp only at hrunning
    rw [hrunning]
    cases hA : hnz.conf.configured .A <;> simp_all

/-- **An operation leaves the configuration alone.** -/
theorem sameConf_operation [Platform] (name : String) (params : List (String × String)) :
    s.hnz.SameConf (s.operation name params now).2.hnz := (works_operation name params).sameConf

end System

namespace Plugin

variable {pl pl' : Plugin} {now : Instant}

/-! ## Call by call -/

theorem life_start (ht : Tuned pl.hnz) (b : Bool) (now : Instant) :
    (pl.start b now).toOption.map life = pl.life.start b := by
  unfold Life.start
  by_cases hidle : pl.isRunning = true ∨ pl.hnz.conf.isComplete = false
  · have hlife : (pl.life.isRunning || !pl.life.complete) = true := by simpa [life] using hidle
    rw [start_of_idle b now hidle, if_pos hlife]
    rfl
  · obtain ⟨hr, hc⟩ := not_or.mp hidle
    rw [Bool.not_eq_true] at hr
    rw [Bool.not_eq_false] at hc
    have hlife : ¬(pl.life.isRunning || !pl.life.complete) = true := by simp [life, hr, hc]
    have hread : pl.life.readable = pl.hnz.conf.readable pl.hnz.remoteAddress := by
      rw [ht hc]
      rfl
    simp only [if_neg hlife, hread]
    cases h : pl.hnz.conf.readable pl.hnz.remoteAddress with
    | false =>
      rw [start_of_not_readable b now hr hc h]
      rfl
    | true =>
      cases hconnection : pl.connection with
      | none =>
        rw [start_of_null b now hr hc h hconnection]
        simp [life, hconnection, Except.toOption]
      | some c =>
        obtain ⟨readings, connection, hstart⟩ := start_of_connection b now hr hc h hconnection
        rw [hstart]
        have hlife : pl.hnz.conf.readable pl.hnz.conf.remoteStationAddr.toNat = true :=
          hread.trans h
        simp [life, hconnection, asked, hlife, Except.toOption]

theorem life_stop (b : Bool) (now : Instant) (pl : Plugin) :
    (pl.stop b now).life = pl.life.stop b := by
  have hconf := (sameConf_stop b now pl).1
  simp only [life, hconf]
  cases b <;> rfl

/-- A plugin that runs is stopped before its configuration changes. -/
def halted (now : Instant) (pl : Plugin) : Plugin :=
  if pl.isRunning then pl.stop false now else pl

/-- A configuration that is not complete is kept, with the connection there is. -/
theorem setJsonConfig_of_incomplete {conf : HNZConf} (h : conf.isComplete = false) (name : String)
    (now : Instant) (pl : Plugin) :
    ∃ q : Plugin, pl.setJsonConfig conf name now = .ok (false, q) ∧ q.hnz.conf = conf ∧
      q.connection = (pl.halted now).connection ∧ q.isRunning = (pl.halted now).isRunning ∧
      q.shouldRun = (pl.halted now).shouldRun := by
  unfold setJsonConfig
  simp only [h]
  exact ⟨_, rfl, rfl, rfl, rfl, rfl⟩

/-- A complete configuration gets a connection, and is started if there is a path. -/
theorem setJsonConfig_of_complete {conf : HNZConf} (h : conf.isComplete = true) (name : String)
    (now : Instant) (pl : Plugin) :
    ∃ q : Plugin, q.hnz.conf = conf ∧ q.hnz.remoteAddress = conf.remoteStationAddr.toNat ∧
      q.connection.isSome = true ∧ q.isRunning = (pl.halted now).isRunning ∧
      q.shouldRun = (pl.halted now).shouldRun ∧
      pl.setJsonConfig conf name now =
        if conf.configured .A || conf.configured .B then
          if q.shouldRun then (q.start false now).map (true, ·) else .ok (true, q)
        else .ok (false, q) := by
  set r := pl.halted now with hr
  set hnz : HNZ := { r.hnz with
    serviceName := if name = "" then r.hnz.serviceName else name
    conf := conf
    remoteAddress := conf.remoteStationAddr.toNat
    testMsgReceive := conf.testMsgReceive } with hhnz
  have hconf : hnz.SameConf (destroyConnection r.connection now (System.create hnz now).hnz) :=
    (System.reports_create hnz now).sameConf.trans (sameConf_destroyConnection _ now _)
  refine ⟨{ r with
    hnz := destroyConnection r.connection now (System.create hnz now).hnz
    connection := some (System.create hnz now).connection }, hconf.1, hconf.2, rfl, rfl, rfl, ?_⟩
  have hrunning : (System.create hnz now).connection.isRunning =
      (conf.configured .A || conf.configured .B) := System.isRunning_create hnz now
  have hcall : pl.setJsonConfig conf name now = (do
      let q : Plugin := { r with
        hnz := destroyConnection r.connection now (System.create hnz now).hnz
        connection := some (System.create hnz now).connection }
      if !(System.create hnz now).connection.isRunning then return (false, q)
      if q.shouldRun then return (true, ← q.start false now) else return (true, q)) := by
    unfold setJsonConfig
    simp only [h]
    rfl
  rw [hcall, hrunning]
  cases hpath : conf.configured .A || conf.configured .B with
  | false => rfl
  | true =>
    simp only [Bool.not_true, Bool.false_eq_true, if_false, if_true]
    split_ifs
    · cases start false now _ <;> rfl
    · rfl

theorem life_halted (now : Instant) (pl : Plugin) : (pl.halted now).life = pl.life.halted := by
  unfold halted Life.halted
  split_ifs with h h' h'
  · exact life_stop false now pl
  · exact absurd h h'
  · exact absurd h' h
  · rfl

theorem life_setJsonConfig (conf : HNZConf) (name : String) (now : Instant) (pl : Plugin) :
    (pl.setJsonConfig conf name now).toOption.map (fun r => r.2.life) =
      pl.life.setJsonConfig conf := by
  unfold Life.setJsonConfig
  rw [← life_halted now]
  cases hc : conf.isComplete with
  | false =>
    obtain ⟨q, hq, hconf, hconnection, hrunning, hshould⟩ :=
      setJsonConfig_of_incomplete hc name now pl
    rw [hq]
    simp [Except.toOption, life, Life.configured, hconf, hconnection, hrunning, hshould, hc]
  | true =>
    obtain ⟨q, hconf, haddress, hconnection, hrunning, hshould, hq⟩ :=
      setJsonConfig_of_complete hc name now pl
    have hlife : q.life = (pl.halted now).life.configured conf true := by
      simp [life, Life.configured, hconf, hconnection, hrunning, hshould]
    have htuned : Tuned q.hnz := fun _ => by rw [haddress, hconf]
    have hrunLife : q.life.shouldRun = q.shouldRun := rfl
    rw [hq, ← hlife]
    simp only [hrunLife]
    cases hpath : conf.configured .A || conf.configured .B with
    | false => rfl
    | true =>
      cases hrun : q.shouldRun with
      | false => rfl
      | true =>
        refine Eq.trans ?_ (life_start htuned false now)
        cases q.start false now <;> rfl

/-- A new configuration, unless nothing is given. -/
theorem reconfigure_eq (protocolConf msgConf : Text) (name : String) (now : Instant)
    (pl : Plugin) :
    (pl.reconfigure protocolConf msgConf name now = .ok pl ∧
        pl.life.next (.reconfigure protocolConf msgConf name now) = some pl.life) ∨
      ∃ audits : Bool → HNZ → List Audit,
        pl.reconfigure protocolConf msgConf name now =
          (pl.setJsonConfig (.ofTexts protocolConf msgConf) name now).map
            (fun r => { r.2 with hnz.audits := audits r.1 r.2.hnz }) ∧
        pl.life.next (.reconfigure protocolConf msgConf name now) =
          pl.life.setJsonConfig (.ofTexts protocolConf msgConf) := by
  unfold reconfigure Life.next
  split
  · exact Or.inl ⟨rfl, rfl⟩
  · next hgiven =>
    refine Or.inr ⟨fun success hnz => if success then hnz.audits else hnz.audits ++
      [⟨.info, hnz.serviceName ++ "-A-unused"⟩, ⟨.info, hnz.serviceName ++ "-B-unused"⟩,
        ⟨.fail, hnz.serviceName ++ "-disconnected"⟩], ?_, ?_⟩
    · cases pl.setJsonConfig (.ofTexts protocolConf msgConf) name now with
      | error e => rfl
      | ok r =>
        obtain ⟨success, q⟩ := r
        cases success <;> rfl
    · split
      · next h => cases h
      · next h =>
        cases h
        exact (hgiven rfl rfl rfl).elim
      · next h =>
        cases h
        rfl
      all_goals next h => cases h

/-! ## Tuning -/

theorem Tuned.empty : Tuned {} := fun hc => by cases hc

theorem Tuned.start {b : Bool} (ht : Tuned pl.hnz) (h : pl.start b now = .ok pl') :
    Tuned pl'.hnz := ht.sameConf (sameConf_start h)

/-- A configuration that is complete tunes the plugin, and one that is not has no say. -/
theorem tuned_setJsonConfig {conf : HNZConf} {name : String} {ok : Bool}
    (h : pl.setJsonConfig conf name now = .ok (ok, pl')) : Tuned pl'.hnz := by
  cases hc : conf.isComplete with
  | false =>
    obtain ⟨q, hq, hconf, -⟩ := setJsonConfig_of_incomplete hc name now pl
    rw [hq] at h
    cases h
    intro hcomplete
    rw [hconf, hc] at hcomplete
    cases hcomplete
  | true =>
    obtain ⟨q, hconf, haddress, -, -, -, hq⟩ := setJsonConfig_of_complete hc name now pl
    have htuned : Tuned q.hnz := fun _ => by rw [haddress, hconf]
    rw [hq] at h
    split_ifs at h
    · cases hstart : q.start false now with
      | error e =>
        rw [hstart] at h
        cases h
      | ok r =>
        rw [hstart] at h
        cases h
        exact htuned.start hstart
    · cases h
      exact htuned
    · cases h
      exact htuned

/-! ## Events and operations -/

/-- What leaves the configuration and the connection leaves the facts. -/
theorem life_congr (hconf : pl.hnz.SameConf pl'.hnz)
    (hconnection : pl'.connection.isSome = pl.connection.isSome)
    (hrunning : pl'.isRunning = pl.isRunning) (hshould : pl'.shouldRun = pl.shouldRun) :
    pl'.life = pl.life := by
  simp only [life, hconf.1, hconnection, hrunning, hshould]

variable [Platform]

/-- **An operation**: it faults, or it is answered and leaves the facts. -/
theorem operation_eq (name : String) (params : List (String × String)) (now : Instant)
    (pl : Plugin) :
    ((reaches name params && !pl.life.attached) = true ∧
        pl.operation name params now = .error .nullPath) ∨
      (reaches name params && !pl.life.attached) = false ∧
        ∃ ok q, pl.operation name params now = .ok (ok, q) ∧ pl.hnz.SameConf q.hnz ∧
          q.life = pl.life := by
  cases hreaches : reaches name params with
  | false =>
    have hconf : pl.hnz.SameConf (if name = "request_connection_status" then
        { pl with
          hnz := (System.sendSouthMonitoringEvent true true ⟨pl.hnz, pl.connection.getD {}⟩).hnz }
        else pl).hnz := by
      split_ifs
      · obtain ⟨readings, h⟩ :=
          System.sendSouthMonitoringEvent_eq (s := ⟨pl.hnz, pl.connection.getD {}⟩) true true
        rw [h]
        exact ⟨rfl, rfl⟩
      · exact ⟨rfl, rfl⟩
    rw [operation_of_not_reaches hreaches]
    refine Or.inr ⟨rfl, _, _, rfl, hconf, life_congr hconf ?_ ?_ ?_⟩ <;> split_ifs <;> rfl
  | true =>
    rw [operation_of_reaches hreaches, through]
    cases hc : pl.connection with
    | none => exact Or.inl ⟨by simp [life, hc], rfl⟩
    | some c =>
      have hconf : pl.hnz.SameConf (System.operation name params now ⟨pl.hnz, c⟩).2.hnz :=
        System.sameConf_operation (s := ⟨pl.hnz, c⟩) name params
      refine Or.inr ⟨by simp [life, hc], _, _, rfl, hconf, life_congr hconf ?_ rfl rfl⟩
      rw [hc]
      rfl

/-! ## All calls -/

theorem serve_event (pl : Plugin) (ev : Event) : ∃ q, pl.serve (.event ev) = .ok (none, q) ∧
    pl.hnz.SameConf q.hnz ∧ q.life = pl.life := by
  unfold serve
  cases hc : pl.connection with
  | none => exact ⟨pl, rfl, ⟨rfl, rfl⟩, rfl⟩
  | some c =>
    cases hstep : System.step ⟨pl.hnz, c⟩ ev with
    | none =>
      simp only [hstep]
      exact ⟨pl, rfl, ⟨rfl, rfl⟩, rfl⟩
    | some s =>
      have hconf : pl.hnz.SameConf s.hnz := System.sameConf_step hstep
      simp only [hstep]
      refine ⟨_, rfl, hconf, life_congr hconf ?_ rfl rfl⟩
      rw [hc]
      rfl

/-- **The facts follow their rule.** -/
theorem life_serve (ht : Tuned pl.hnz) (request : Request) :
    (pl.serve request).toOption.map (fun r => r.2.life) = pl.life.next request := by
  cases request with
  | event ev =>
    obtain ⟨q, h, -, hlife⟩ := serve_event pl ev
    rw [h]
    exact congrArg some hlife
  | reconfigure protocolConf msgConf name now =>
    obtain ⟨h, hnext⟩ | ⟨audits, h, hnext⟩ := reconfigure_eq protocolConf msgConf name now pl
    · rw [serve, h, hnext]
      rfl
    · rw [serve, h, hnext, ← life_setJsonConfig _ name now]
      cases pl.setJsonConfig (.ofTexts protocolConf msgConf) name now <;> rfl
  | start requestedStart now =>
    refine Eq.trans ?_ (life_start ht requestedStart now)
    rw [serve]
    cases pl.start requestedStart now <;> rfl
  | stop requestedStop now => exact congrArg some (life_stop requestedStop now pl)
  | operation name params now =>
    rw [serve, Life.next]
    obtain ⟨hnull, h⟩ | ⟨hfound, ok, q, h, -, hlife⟩ := operation_eq name params now pl
    · rw [h, if_pos hnull]
      rfl
    · rw [h, if_neg (by rw [hfound]; exact Bool.false_ne_true)]
      exact congrArg some hlife

/-- **The plugin stays tuned.** -/
theorem Tuned.serves {request : Request} (ht : Tuned pl.hnz) (h : Serves pl request pl') :
    Tuned pl'.hnz := by
  obtain ⟨r, hr, rfl⟩ := Option.map_eq_some_iff.mp h
  cases request with
  | event ev =>
    obtain ⟨q, hq, hconf, -⟩ := serve_event pl ev
    rw [hq] at hr
    cases hr
    exact ht.sameConf hconf
  | reconfigure protocolConf msgConf name now =>
    obtain ⟨hq, -⟩ | ⟨audits, hq, -⟩ := reconfigure_eq protocolConf msgConf name now pl
    · rw [serve, hq] at hr
      cases hr
      exact ht
    · rw [serve, hq] at hr
      cases hset : pl.setJsonConfig (.ofTexts protocolConf msgConf) name now with
      | error e =>
        rw [hset] at hr
        cases hr
      | ok r =>
        rw [hset] at hr
        cases hr
        obtain ⟨ok, q⟩ := r
        exact (tuned_setJsonConfig hset).sameConf ⟨rfl, rfl⟩
  | start requestedStart now =>
    rw [serve] at hr
    cases hstart : pl.start requestedStart now with
    | error e =>
      rw [hstart] at hr
      cases hr
    | ok q =>
      rw [hstart] at hr
      cases hr
      exact ht.start hstart
  | stop requestedStop now =>
    cases hr
    exact ht.sameConf (sameConf_stop requestedStop now pl)
  | operation name params now =>
    rw [serve] at hr
    obtain ⟨-, hq⟩ | ⟨-, ok, q, hq, hconf, -⟩ := operation_eq name params now pl
    · rw [hq] at hr
      cases hr
    · rw [hq] at hr
      cases hr
      exact ht.sameConf hconf

theorem tuned_run {requests : List Request} (h : Run Serves {} requests pl) : Tuned pl.hnz :=
  h.invariant (I := fun pl => Tuned pl.hnz) (fun ht => ht.serves) .empty

/-! ## Answers -/

/-- **The call is answered**: an operation by true or false, a start by a plugin that runs or not,
and none of the others uses a connection that is not there. -/
def Answers (pl : Plugin) : Request → Prop
  | .operation name params now =>
    ∃ ok q, pl.serve (.operation name params now) = .ok (some ok, q)
  | .start requestedStart now => ∃ q, pl.serve (.start requestedStart now) = .ok (none, q)
  | request => pl.serve request ≠ .error .nullPath

end Plugin

/-- The call finds what it uses. -/
def Life.finds (l : Life) : Plugin.Request → Bool
  | .operation name params _ => l.attached || !reaches name params
  | .start _ _ => l.isRunning || !l.complete || l.readable && l.attached
  | _ => true

/-- **Each call of a sequence finds what it uses**, as far as the sequence gets. -/
def Life.guarded : Life → List Plugin.Request → Bool
  | _, [] => true
  | l, request :: requests => l.finds request && (l.next request).all (guarded · requests)

theorem Life.isSome_start (b : Bool) (l : Life) : (l.start b).isSome =
    (l.isRunning || !l.complete || l.readable && l.attached) := by
  unfold start
  simp only
  split_ifs with hidle hready
  · rw [hidle]
    rfl
  · rw [hready, Bool.or_true]
    rfl
  · rw [Bool.eq_false_of_not_eq_true hidle, Bool.eq_false_of_not_eq_true hready]
    rfl

namespace Plugin

variable {pl pl' : Plugin} {now : Instant}

/-- A start with a connection does not lack one. -/
theorem avoids_nullPath_start (b : Bool) (h : pl.connection.isSome = true) :
    Avoids .nullPath (pl.start b now) := by
  obtain ⟨c, hc⟩ := Option.isSome_iff_exists.mp h
  by_cases hidle : pl.isRunning = true ∨ pl.hnz.conf.isComplete = false
  · rw [start_of_idle b now hidle]
    exact .ok _
  · obtain ⟨hr, hcomplete⟩ := not_or.mp hidle
    rw [Bool.not_eq_true] at hr
    rw [Bool.not_eq_false] at hcomplete
    cases hread : pl.hnz.conf.readable pl.hnz.remoteAddress with
    | false =>
      rw [start_of_not_readable b now hr hcomplete hread]
      exact fun hnull => by cases hnull
    | true =>
      obtain ⟨readings, connection, hstart⟩ := start_of_connection b now hr hcomplete hread hc
      rw [hstart]
      exact .ok _

/-- Neither does a new configuration. -/
theorem avoids_nullPath_setJsonConfig (conf : HNZConf) (name : String) :
    Avoids .nullPath (pl.setJsonConfig conf name now) := by
  cases hc : conf.isComplete with
  | false =>
    obtain ⟨q, hq, -⟩ := setJsonConfig_of_incomplete hc name now pl
    rw [hq]
    exact .ok _
  | true =>
    obtain ⟨q, -, -, hconnection, -, -, hq⟩ := setJsonConfig_of_complete hc name now pl
    rw [hq]
    refine .ite (fun _ => .ite (fun _ => ?_) fun _ => .ok _) fun _ => .ok _
    exact fun hnull => avoids_nullPath_start false hconnection (error_of_map hnull)

variable [Platform]

/-- **A call is answered when it finds what it uses.** -/
theorem answers_iff (ht : Tuned pl.hnz) (request : Request) :
    pl.Answers request ↔ pl.life.finds request = true := by
  cases request with
  | event ev =>
    obtain ⟨q, h, -⟩ := serve_event pl ev
    refine iff_of_true (fun hnull => ?_) rfl
    rw [h] at hnull
    cases hnull
  | reconfigure protocolConf msgConf name now =>
    refine iff_of_true (fun hnull => ?_) rfl
    obtain ⟨h, -⟩ | ⟨audits, h, -⟩ := reconfigure_eq protocolConf msgConf name now pl
    · rw [serve, h] at hnull
      cases hnull
    · rw [serve, h] at hnull
      exact avoids_nullPath_setJsonConfig _ _ (error_of_map (error_of_map hnull))
  | start requestedStart now =>
    have hlife := congrArg Option.isSome (life_start ht requestedStart now)
    rw [Life.isSome_start, Option.isSome_map] at hlife
    rw [Answers, Life.finds, ← hlife, serve]
    cases pl.start requestedStart now with
    | error e => exact iff_of_false (fun ⟨_, h⟩ => by cases h) Bool.false_ne_true
    | ok q => exact iff_of_true ⟨q, rfl⟩ rfl
  | stop requestedStop now => exact iff_of_true (fun hnull => by cases hnull) rfl
  | operation name params now =>
    have hfinds : pl.life.finds (.operation name params now) =
        !(reaches name params && !pl.life.attached) := by
      rw [Life.finds, Bool.not_and, Bool.not_not, Bool.or_comm]
    rw [Answers, hfinds, serve]
    obtain ⟨hnull, h⟩ | ⟨hfound, ok, q, h, -⟩ := operation_eq name params now pl
    · rw [h, hnull]
      exact iff_of_false (fun ⟨_, _, hok⟩ => by cases hok) Bool.false_ne_true
    · rw [h, hfound]
      exact iff_of_true ⟨ok, q, rfl⟩ rfl

/-- What holds of one call holds of a sequence. -/
theorem throughout_answers_iff : ∀ (requests : List Request) {pl : Plugin}, Tuned pl.hnz →
    (Throughout Serves Answers pl requests ↔ pl.life.guarded requests = true)
  | [], pl, ht => iff_of_true throughout_nil rfl
  | request :: requests, pl, ht => by
    have hlife := life_serve ht request
    rw [throughout_cons_iff, answers_iff ht, Life.guarded, Bool.and_eq_true, ← hlife]
    refine and_congr_right fun _ => ?_
    constructor
    · intro h
      cases hserve : pl.serve request with
      | error e => rfl
      | ok r =>
        have hserves : Serves pl request r.2 := by rw [Serves, Det, hserve]; rfl
        exact (throughout_answers_iff requests (ht.serves hserves)).mp (h r.2 hserves)
    · intro h pl' hserves
      refine (throughout_answers_iff requests (ht.serves hserves)).mpr ?_
      obtain ⟨r, hserve, rfl⟩ := Option.map_eq_some_iff.mp hserves
      rw [hserve] at h
      exact h

/-- **The sequences of calls that are all answered**, from a plugin that was just built. -/
theorem lifeCycle_iff (requests : List Request) :
    Throughout Serves Answers {} requests ↔ Life.guarded {} requests = true := by
  rw [throughout_answers_iff requests Tuned.empty, life_empty]

end Plugin

namespace Plugin

/-- A command to the first TC. -/
def firstTC : Request :=
  .operation "HNZCommand" [("co_type", "TC"), ("co_addr", "1"), ("co_value", "1")] 0

/-- An accepted configuration, a start, a stop, and another start. -/
def restarting : List Request :=
  [.reconfigure (.stack [("remote_station_addr", .integer 1)])
      (.exchanged [Json.hnzDatapoint "TM1" "TM" "20" [], Json.hnzDatapoint "TS1" "TS" "511" []])
      "hnz" 0,
    .start true 0, .stop true 0, .start true 0]

/-- **A command before any configuration, and a start after a stop**, find no connection. -/
theorem not_answers_restarting : letI : Platform := .sample
    Plugin.serve {} firstTC = .error .nullPath ∧ ¬Throughout Serves Answers {} [firstTC] ∧
      ¬Throughout Serves Answers {} restarting := by
  let : Platform := .sample
  have hfirst : Life.guarded {} [firstTC] = false := by decide +kernel
  have hrestarting : Life.guarded {} restarting = false := by decide +kernel
  refine ⟨rfl, fun h => ?_, fun h => ?_⟩
  · rw [throughout_answers_iff _ .empty, life_empty, hfirst] at h
    cases h
  · rw [throughout_answers_iff _ .empty, life_empty, hrestarting] at h
    cases h

end Plugin

end Hnz
