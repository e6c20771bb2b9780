import HnzSouth.Configuration.Startable

/-!
# Lifecycle/Refused — a configuration that is refused

`setJsonConfig` refuses a configuration that is not complete, and a complete one without a path.
A start only asks whether the configuration is complete, so that it is made with the second one; and
without any text the answer is true, whether or not the plugin runs.  `refusal_iff` says that
nothing else can start a refused configuration, or leave an accepted one stopped.
-/

namespace Hnz

open Machinery

def Text.isEmpty : Text → Bool
  | .empty => true
  | _ => false

namespace Plugin

/-- **`setJsonConfig`**, on its three strings. -/
def setTexts (protocolConf msgConf : Text) (serviceName : String) (now : Instant) (pl : Plugin) :
    Result (Bool × Plugin) :=
  if protocolConf.isEmpty && msgConf.isEmpty && serviceName == "" then .ok (true, pl)
  else pl.setJsonConfig (.ofTexts protocolConf msgConf) serviceName now

/-- **A call**; an event of the connection may come in between. -/
inductive Setup
  | event (ev : Event)
  | setJsonConfig (protocolConf msgConf : Text) (serviceName : String) (now : Instant)
  | start (requestedStart : Bool) (now : Instant)
  | stop (requestedStop : Bool) (now : Instant)

/-- What the answers and the requests so far come to. -/
structure Notes where
  /-- The last call of `setJsonConfig` returned false. -/
  refused : Bool := false
  /-- A start was requested, and no stop since. -/
  requested : Bool := false

/-- **The claims of a call** on its answer: a refused configuration leaves the plugin stopped, and
a start leaves it so; an accepted one runs if a start was requested. -/
def Obeys (x : Plugin × Notes) : Setup → Prop
  | .setJsonConfig protocolConf msgConf serviceName now =>
    ∀ ok q, x.1.setTexts protocolConf msgConf serviceName now = .ok (ok, q) →
      (ok = false → q.isRunning = false) ∧
        (ok = true → x.2.requested = true → q.isRunning = true)
  | .start requestedStart now =>
    requestedStart = true → x.2.refused = true →
      ∃ q, x.1.start true now = .ok q ∧ q.isRunning = false ∧ q.hnz = x.1.hnz ∧
        q.connection = x.1.connection
  | _ => True

/-- **The calls that obey**: no start with a refused configuration that is complete, and no empty
configuration for a plugin that should run and does not. -/
def Sound (x : Plugin × Notes) : Setup → Prop
  | .setJsonConfig protocolConf msgConf serviceName _ =>
    (protocolConf.isEmpty && msgConf.isEmpty && serviceName == "") = true →
      x.2.requested = true → x.1.isRunning = true
  | .start requestedStart _ =>
    requestedStart = true → x.2.refused = true → x.1.hnz.conf.isComplete = false
  | _ => True

/-- What is noted of a call. -/
def note (pl : Plugin) (call : Setup) (n : Notes) : Notes :=
  match call with
  | .event _ => n
  | .setJsonConfig protocolConf msgConf serviceName now =>
    match pl.setTexts protocolConf msgConf serviceName now with
    | .error _ => n
    | .ok (ok, _) => { n with refused := !ok }
  | .start requestedStart _ => { n with requested := requestedStart || n.requested }
  | .stop requestedStop _ => { n with requested := !requestedStop && n.requested }

variable {pl q : Plugin} {now : Instant} {x y : Plugin × Notes}

/-! ## Call by call -/

/-- **What a start leaves**: the request, the configuration, and a plugin that runs if that is
complete. -/
theorem start_spec {b : Bool} (h : pl.start b now = .ok q) :
    q.shouldRun = (b || pl.shouldRun) ∧ q.hnz.conf = pl.hnz.conf ∧
      (pl.hnz.conf.isComplete = true → q.isRunning = true) ∧
      (pl.hnz.conf.isComplete = false → q = pl.asked b) := by
  by_cases hidle : pl.isRunning = true ∨ pl.hnz.conf.isComplete = false
  · rw [start_of_idle b now hidle] at h
    cases h
    refine ⟨rfl, rfl, fun hc => ?_, fun _ => rfl⟩
    rw [hc] at hidle
    simpa [asked] using hidle
  · obtain ⟨hr, hc⟩ := not_or.mp hidle
    rw [Bool.not_eq_true] at hr
    rw [Bool.not_eq_false] at hc
    cases hread : pl.hnz.conf.readable pl.hnz.remoteAddress with
    | false =>
      rw [start_of_not_readable b now hr hc hread] at h
      cases h
    | true =>
      cases hconnection : pl.connection with
      | none =>
        rw [start_of_null b now hr hc hread hconnection] at h
        cases h
      | some c =>
        obtain ⟨readings, connection, hstart⟩ := start_of_connection b now hr hc hread hconnection
        rw [hstart] at h
        cases h
        refine ⟨rfl, rfl, fun _ => rfl, fun hincomplete => ?_⟩
        rw [hc] at hincomplete
        cases hincomplete

theorem isRunning_halted (now : Instant) (pl : Plugin) : (pl.halted now).isRunning = false := by
  unfold halted
  split_ifs with h
  · rfl
  · simpa using h

theorem shouldRun_halted (now : Instant) (pl : Plugin) :
    (pl.halted now).shouldRun = pl.shouldRun := by
  unfold halted
  split_ifs with h
  · rfl
  · rfl

/-- **The answer of a new configuration**: a refused one leaves the plugin stopped, an accepted one
runs if it should. -/
theorem answer_setJsonConfig {conf : HNZConf} {name : String} {ok : Bool}
    (h : pl.setJsonConfig conf name now = .ok (ok, q)) :
    q.shouldRun = pl.shouldRun ∧ q.isRunning = (ok && pl.shouldRun) := by
  rw [← shouldRun_halted now pl]
  cases hc : conf.isComplete with
  | false =>
    obtain ⟨r, hr, -, -, hrunning, hshould⟩ := setJsonConfig_of_incomplete hc name now pl
    rw [hr] at h
    cases h
    exact ⟨hshould, hrunning.trans (isRunning_halted now pl)⟩
  | true =>
    obtain ⟨r, hconf, -, -, hrunning, hshould, hr⟩ := setJsonConfig_of_complete hc name now pl
    rw [isRunning_halted] at hrunning
    rw [← hshould]
    rw [hr] at h
    split_ifs at h with hpath hrun
    · cases hstart : r.start false now with
      | error e =>
        rw [hstart] at h
        cases h
      | ok t =>
        rw [hstart] at h
        cases h
        obtain ⟨hstart', -, hrunning', -⟩ := start_spec hstart
        exact ⟨hstart', (hrunning' (by rw [hconf, hc])).trans (by rw [hrun]; rfl)⟩
    · cases h
      refine ⟨rfl, hrunning.trans ?_⟩
      rw [Bool.eq_false_of_not_eq_true hrun]
      rfl
    · cases h
      exact ⟨rfl, hrunning⟩

theorem answer_setTexts {protocolConf msgConf : Text} {name : String} {ok : Bool}
    (h : pl.setTexts protocolConf msgConf name now = .ok (ok, q)) :
    (protocolConf.isEmpty && msgConf.isEmpty && name == "") = true ∧ ok = true ∧ q = pl ∨
      (protocolConf.isEmpty && msgConf.isEmpty && name == "") = false ∧
        q.shouldRun = pl.shouldRun ∧ q.isRunning = (ok && pl.shouldRun) := by
  rw [setTexts] at h
  split_ifs at h with hempty
  · cases h
    exact .inl ⟨hempty, rfl, rfl⟩
  · exact .inr ⟨Bool.eq_false_of_not_eq_true hempty, answer_setJsonConfig h⟩

/-! ## The notes -/

/-- **The notes are right**: a start that was requested is one that should be made, and with a
refused configuration the plugin runs only if that is complete. -/
structure Right (x : Plugin × Notes) : Prop where
  requested : x.2.requested = x.1.shouldRun
  refused : x.2.refused = true → x.1.hnz.conf.isComplete = false → x.1.isRunning = false

/-- **A call obeys exactly if it is sound.** -/
theorem obeys_iff_sound (h : Right x) (call : Setup) : Obeys x call ↔ Sound x call := by
  cases call with
  | event ev => exact Iff.rfl
  | stop requestedStop now => exact Iff.rfl
  | setJsonConfig protocolConf msgConf name now =>
    rw [Obeys, Sound, h.requested]
    constructor
    · intro hobeys hempty
      refine (hobeys true x.1 ?_).2 rfl
      rw [setTexts, if_pos hempty]
    · intro hsound ok q hanswer
      obtain ⟨hempty, rfl, rfl⟩ | ⟨-, -, hrunning⟩ := answer_setTexts hanswer
      · exact ⟨Bool.noConfusion, fun _ => hsound hempty⟩
      · rw [hrunning]
        exact ⟨fun hok => by rw [hok]; rfl, fun hok hrun => by rw [hok, hrun]; rfl⟩
  | start requestedStart now =>
    refine imp_congr_right fun _ => forall_congr' fun hrefused => ?_
    constructor
    · rintro ⟨q, hq, hrunning, -⟩
      by_contra hc
      rw [(start_spec hq).2.2.1 (by simpa using hc)] at hrunning
      cases hrunning
    · intro hc
      exact ⟨_, start_of_idle true now (.inr hc), h.refused hrefused hc, rfl, rfl⟩

variable [Platform]

/-- The plugin after a call, if it returns. -/
def receive (pl : Plugin) : Setup → Result Plugin
  | .event ev => (pl.serve (.event ev)).map Prod.snd
  | .setJsonConfig protocolConf msgConf serviceName now =>
    (pl.setTexts protocolConf msgConf serviceName now).map Prod.snd
  | .start requestedStart now => pl.start requestedStart now
  | .stop requestedStop now => .ok (pl.stop requestedStop now)

/-- The calls that return, as a relation, with their notes. -/
abbrev Receives : Plugin × Notes → Setup → Plugin × Notes → Prop :=
  Observed note (Det fun pl call => (pl.receive call).toOption)

/-- **The step lemma.** -/
theorem Right.receives {call : Setup} (h : Right x) (hxy : Receives x call y) : Right y := by
  obtain ⟨hreceive, hnote⟩ := hxy
  obtain ⟨pl, n⟩ := x
  obtain ⟨q, m⟩ := y
  dsimp only at hreceive hnote
  subst hnote
  rw [Det] at hreceive
  cases call with
  | event ev =>
    obtain ⟨r, hr, hconf, hlife⟩ := serve_event pl ev
    rw [receive, hr] at hreceive
    cases hreceive
    have hrunning : r.isRunning = pl.isRunning := congrArg Life.isRunning hlife
    have hshould : r.shouldRun = pl.shouldRun := congrArg Life.shouldRun hlife
    refine ⟨h.requested.trans hshould.symm, ?_⟩
    dsimp only
    rw [hconf.1, hrunning]
    exact h.refused
  | setJsonConfig protocolConf msgConf name now =>
    rw [receive] at hreceive
    cases hset : pl.setTexts protocolConf msgConf name now with
    | error e =>
      rw [hset] at hreceive
      cases hreceive
    | ok r =>
      rw [hset] at hreceive
      cases hreceive
      obtain ⟨ok, q⟩ := r
      simp only [note, hset]
      obtain ⟨-, rfl, rfl⟩ | ⟨-, hshould, hrunning⟩ := answer_setTexts hset
      · exact ⟨h.requested, fun hrefused => by cases hrefused⟩
      · refine ⟨h.requested.trans hshould.symm, fun hrefused _ => hrunning.trans ?_⟩
        rw [show ok = false by simpa using hrefused]
        rfl
  | start b now =>
    rw [receive] at hreceive
    cases hstart : pl.start b now with
    | error e =>
      rw [hstart] at hreceive
      cases hreceive
    | ok r =>
      rw [hstart] at hreceive
      cases hreceive
      obtain ⟨hshould, hconf, -, hidle⟩ := start_spec hstart
      refine ⟨(congrArg (b || ·) h.requested).trans hshould.symm, fun hrefused hc => ?_⟩
      rw [hconf] at hc
      rw [hidle hc]
      exact h.refused hrefused hc
  | stop b now =>
    cases hreceive
    refine ⟨?_, fun _ _ => rfl⟩
    rw [note, h.requested]
    cases b <;> rfl

/-- **A refused configuration is not started, and an accepted one runs if it should**, in the
sequences of calls that are sound, and in no others. -/
theorem refusal_iff (calls : List Setup) :
    Throughout Receives Obeys ({}, {}) calls ↔ Throughout Receives Sound ({}, {}) calls :=
  throughout_congr (fun h => h.receives) ⟨rfl, fun h => by cases h⟩ fun x call h =>
    obeys_iff_sound h call

end Plugin

namespace Plugin

/-- The exchanged data of one TM and one TS. -/
def tmAndTs : Text :=
  .exchanged [Json.hnzDatapoint "TM1" "TM" "20" [], Json.hnzDatapoint "TS1" "TS" "511" []]

/-- A complete configuration that has no path, and a start. -/
def startingRefused : List Setup := [.setJsonConfig .unconnected tmAndTs "hnz" 0, .start true 0]

/-- A start without a configuration, and no configuration after it. -/
def startingEmpty : List Setup := [.start true 0, .setJsonConfig .empty .empty "" 0]

/-- **A start of a refused configuration, and an empty one that is accepted.** -/
theorem not_obeys_starting : letI : Platform := .sample
    ¬Throughout Receives Obeys ({}, {}) startingRefused ∧
      ¬Throughout Receives Obeys ({}, {}) startingEmpty := by
  let : Platform := .sample
  refine ⟨fun h => ?_, fun h => ?_⟩
  · have hcomplete : (HNZConf.ofTexts .unconnected tmAndTs).isComplete = true := by decide +kernel
    obtain ⟨q, hconf, -, -, -, -, hset⟩ := setJsonConfig_of_complete hcomplete "hnz" 0 {}
    have htexts : setTexts .unconnected tmAndTs "hnz" 0 {} = .ok (false, q) := by
      rw [setTexts, if_neg (by decide), hset, if_neg (by decide +kernel)]
    have hstep : Receives ({}, {}) (.setJsonConfig .unconnected tmAndTs "hnz" 0)
        (q, ⟨true, false⟩) := by
      refine ⟨?_, ?_⟩
      · rw [Det, receive, htexts]
        rfl
      · simp only [note, htexts]
        rfl
    obtain ⟨r, hr, hrunning, -⟩ :=
      (throughout_cons_iff.mp ((throughout_cons_iff.mp h).2 _ hstep)).1 rfl rfl
    rw [(start_spec hr).2.2.1 (by rw [hconf, hcomplete])] at hrunning
    cases hrunning
  · have hstep : Receives ({}, {}) (.start true 0) ({ shouldRun := true }, ⟨false, true⟩) :=
      ⟨rfl, rfl⟩
    have hobeys := (throughout_cons_iff.mp ((throughout_cons_iff.mp h).2 _ hstep)).1
    have hrunning := (hobeys true _ rfl).2 rfl rfl
    cases hrunning

end Plugin

end Hnz
