import HnzSouth.Model.Import
import HnzSouth.Model.Plugin
import HnzSouth.Model.SystemLemmas

/-!
# Model/Request — what Fledge asks of the plugin object

The four calls `reconfigure`, `start`, `stop` and `operation`, on a plugin that may have no
connection.  Between them the connection, if there is one, goes on with its events.
-/

namespace Hnz

open Machinery

/-- The command of a request, before the connection is asked for: all three parameters are given,
and two of them are numbers. -/
def commandRequest (params : List (String × String)) : Option (String × Int × Int) :=
  let type := System.commandParam params "co_type"
  let addrStr := System.commandParam params "co_addr"
  let valStr := System.commandParam params "co_value"
  if type = "" ∨ addrStr = "" ∨ valStr = "" then none
  else
    match stoi addrStr.toList, stoi valStr.toList with
    | some address, some value => some (type, address, value)
    | _, _ => none

/-- The operations that get as far as the connection. -/
def reaches (name : String) (params : List (String × String)) : Bool :=
  if name = "HNZCommand" then (commandRequest params).isSome
  else name == "north_status" &&
    match params with
    | [param] => param.2 == "init_socket_finished"
    | _ => false

namespace Plugin

/-- `reconfigure`: a configuration that fails resets the audits of the connection. -/
def reconfigure (protocolConf msgConf : Text) (serviceName : String) (now : Instant)
    (pl : Plugin) : Result Plugin := do
  match protocolConf, msgConf, serviceName with
  | .empty, .empty, "" => return pl
  | _, _, _ =>
    let (success, pl) ← pl.setJsonConfig (.ofTexts protocolConf msgConf) serviceName now
    if success then return pl
    else
      let name := pl.hnz.serviceName
      return { pl with
        hnz.audits := pl.hnz.audits ++
          [⟨.info, name ++ "-A-unused"⟩, ⟨.info, name ++ "-B-unused"⟩,
            ⟨.fail, name ++ "-disconnected"⟩] }

/-- A call that goes through the connection, without a check. -/
def through (f : System → Bool × System) (pl : Plugin) : Result (Bool × Plugin) :=
  match pl.connection with
  | none => .error .nullPath
  | some connection =>
    let (ok, s) := f ⟨pl.hnz, connection⟩
    .ok (ok, { pl with hnz := s.hnz, connection := some s.connection })

variable [Platform]

/-- **`operation`**, with a connection or without. -/
def operation (name : String) (params : List (String × String)) (now : Instant) (pl : Plugin) :
    Result (Bool × Plugin) :=
  if name = "HNZCommand" then
    match commandRequest params with
    | none => .ok (false, pl)
    | some _ => pl.through (System.operation name params now)
  else if name = "request_connection_status" then
    let s : System := ⟨pl.hnz, pl.connection.getD {}⟩
    .ok (true, { pl with hnz := (s.sendSouthMonitoringEvent true true).hnz })
  else if name = "north_status" then
    match params with
    | [param] =>
      if param.2 = "init_socket_finished" then pl.through (System.operation name params now)
      else .ok (false, pl)
    | _ => .ok (false, pl)
  else .ok (false, pl)

/-- **What Fledge asks**; an event of the connection may come in between. -/
inductive Request
  | event (ev : Event)
  | reconfigure (protocolConf msgConf : Text) (serviceName : String) (now : Instant)
  | start (requestedStart : Bool) (now : Instant)
  | stop (requestedStop : Bool) (now : Instant)
  | operation (name : String) (params : List (String × String)) (now : Instant)

/-- The answer of a call, as far as it has one, and the plugin after it. -/
def serve (pl : Plugin) : Request → Result (Option Bool × Plugin)
  | .event ev =>
    match pl.connection with
    | none => .ok (none, pl)
    | some connection =>
      match System.step ⟨pl.hnz, connection⟩ ev with
      | none => .ok (none, pl)
      | some s => .ok (none, { pl with hnz := s.hnz, connection := some s.connection })
  | .reconfigure protocolConf msgConf serviceName now =>
    (pl.reconfigure protocolConf msgConf serviceName now).map (none, ·)
  | .start requestedStart now => (pl.start requestedStart now).map (none, ·)
  | .stop requestedStop now => .ok (none, pl.stop requestedStop now)
  | .operation name params now =>
    (pl.operation name params now).map fun (answer, pl) => (some answer, pl)

/-- The calls that return, as a relation. -/
abbrev Serves : Plugin → Request → Plugin → Prop :=
  Det fun pl request => (pl.serve request).toOption.map Prod.snd

end Plugin

namespace System

variable [Platform] {s : System} {params : List (String × String)} {now : Instant}

/-- Without a command in it the request is refused. -/
theorem processCommandOperation_of_none (h : commandRequest params = none) :
    s.processCommandOperation params now = (1, s) := by
  unfold commandRequest at h
  unfold processCommandOperation
  simp only at h ⊢
  generalize commandParam params "co_addr" = addrStr at h ⊢
  generalize commandParam params "co_value" = valStr at h ⊢
  by_cases hempty : commandParam params "co_type" = "" ∨ addrStr = "" ∨ valStr = ""
  · rw [if_pos hempty]
  rw [if_neg hempty] at h ⊢
  cases haddress : stoi addrStr.toList with
  | none => rfl
  | some address =>
    cases hvalue : stoi valStr.toList with
    | none => rfl
    | some value => simp only [haddress, hvalue, reduceCtorEq] at h

/-- An operation that does not get to the connection: refused, or the status of the connection. -/
theorem operation_of_not_reaches {name : String} (h : reaches name params = false) :
    s.operation name params now =
      (name == "request_connection_status",
        if name = "request_connection_status" then s.sendSouthMonitoringEvent true true else s) := by
  unfold reaches at h
  unfold operation
  by_cases hcommand : name = "HNZCommand"
  · rw [if_pos hcommand, Option.isSome_eq_false_iff, Option.isNone_iff_eq_none] at h
    subst hcommand
    simp [processCommandOperation_of_none h]
  rw [if_neg hcommand] at h ⊢
  by_cases hstatus : name = "request_connection_status"
  · simp [hstatus]
  by_cases hnorth : name = "north_status"
  · subst hnorth
    simp only [if_neg hstatus, if_true, northStatus]
    split
    · next param =>
      have hparam : param.2 ≠ "init_socket_finished" := by simpa using h
      simp [if_neg hparam]
    · simp
  · simp [hstatus, hnorth]

end System

namespace Plugin

variable [Platform] {pl : Plugin} {name : String} {params : List (String × String)} {now : Instant}

theorem operation_of_reaches (h : reaches name params = true) :
    pl.operation name params now = pl.through (System.operation name params now) := by
  unfold reaches at h
  unfold operation
  by_cases hcommand : name = "HNZCommand"
  · rw [if_pos hcommand] at h ⊢
    obtain ⟨request, hrequest⟩ := Option.isSome_iff_exists.mp h
    rw [hrequest]
  rw [if_neg hcommand, Bool.and_eq_true, beq_iff_eq] at h
  obtain ⟨rfl, h⟩ := h
  split at h
  · next param => simpa using fun hne => absurd (by simpa using h) hne
  · cases h

theorem operation_of_not_reaches (h : reaches name params = false) :
    pl.operation name params now =
      .ok (name == "request_connection_status",
        if name = "request_connection_status" then
          { pl with
            hnz := (System.sendSouthMonitoringEvent true true ⟨pl.hnz, pl.connection.getD {}⟩).hnz }
        else pl) := by
  unfold reaches at h
  unfold operation
  by_cases hcommand : name = "HNZCommand"
  · rw [if_pos hcommand, Option.isSome_eq_false_iff, Option.isNone_iff_eq_none] at h
    subst hcommand
    simp [h]
  rw [if_neg hcommand] at h ⊢
  by_cases hstatus : name = "request_connection_status"
  · simp [hstatus]
  by_cases hnorth : name = "north_status"
  · subst hnorth
    rw [if_neg hstatus, if_pos rfl]
    split
    · next param =>
      have hparam : param.2 ≠ "init_socket_finished" := by simpa using h
      simp [if_neg hparam]
    · simp
  · simp [hstatus, hnorth]

end Plugin

end Hnz
