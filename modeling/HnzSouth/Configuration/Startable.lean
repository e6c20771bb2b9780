import HnzSouth.Configuration.Tables
import HnzSouth.Lifecycle.Requests

/-!
# Configuration/Startable — what a start asks of the documents

A start needs a path, and the tables of the TM and of the TS of its station.  The import checks
neither: a transport layer may come without its connections, and the exchanged data without a TM or
a TS.  `startable_iff` says which accepted documents have all three.
-/

namespace Hnz

open Machinery

/-! ## The tables of a type -/

namespace HNZConf

variable {conf : HNZConf}

/-- The station has messages of that type. -/
def hasMessages (conf : HNZConf) (msgCode : String) : Bool :=
  (conf.messagesAt msgCode conf.remoteStationAddr.toNat).isSome

theorem hasMessages_enter (e : Entry) (msgCode : String) :
    (conf.enter e).hasMessages msgCode = (e.code == msgCode || conf.hasMessages msgCode) := by
  simp only [hasMessages, messagesAt, enter, MsgList.set, Std.TreeMap.getElem?_insert,
    Std.LawfulEqCmp.compare_eq_iff_eq]
  by_cases hcode : e.code = msgCode
  · rw [if_pos hcode, Option.bind_some, Std.TreeMap.getElem?_insert_self, beq_iff_eq.mpr hcode]
    rfl
  · rw [if_neg hcode, beq_false_of_ne hcode, Bool.false_or]

theorem hasMessages_foldl (msgCode : String) : ∀ (entries : List Entry) (conf : HNZConf),
    (entries.foldl enter conf).hasMessages msgCode =
      (entries.any (fun e => e.code == msgCode) || conf.hasMessages msgCode)
  | [], conf => rfl
  | e :: entries, conf => by
    rw [List.foldl_cons, hasMessages_foldl, hasMessages_enter, List.any_cons]
    cases e.code == msgCode <;> simp

end HNZConf

/-- **The types of the entries** are the tables of the station. -/
theorem hasMessages_ofTexts (protocolConf msgConf : Text) (msgCode : String) :
    (HNZConf.ofTexts protocolConf msgConf).hasMessages msgCode = true ↔
      ∃ e ∈ msgConf.entries, e.code = msgCode := by
  obtain ⟨conf, isComplete, htables, h⟩ := ofTexts_eq protocolConf msgConf
  have hlist : conf.msgList = ∅ := congrArg (fun t => t.2.1) htables
  have hempty : conf.hasMessages msgCode = false := by
    rw [HNZConf.hasMessages, HNZConf.messagesAt, hlist]
    rfl
  have hmessages : (HNZConf.ofTexts protocolConf msgConf).hasMessages msgCode =
      (msgConf.entries.foldl HNZConf.enter conf).hasMessages msgCode :=
    (congrArg (HNZConf.hasMessages · msgCode) h :)
  rw [hmessages, HNZConf.hasMessages_foldl, hempty, Bool.or_false, List.any_eq_true]
  simp

/-! ## The paths -/

/-- The addresses of the connections of a text. -/
def Text.addresses (text : Text) : List String :=
  let transport := (text.root "protocol_stack").bind (Json.objectAt "transport_layer")
  ((transport.bind (Json.arrayAt "connections")).getD []).map fun conn =>
    (retrieve Json.string? conn "srv_ip").getD ""

theorem PathId.exists_iff {P : PathId → Prop} : (∃ p, P p) ↔ P .A ∨ P .B := by
  constructor
  · rintro ⟨p, hp⟩
    cases p with
    | A => exact Or.inl hp
    | B => exact Or.inr hp
  · rintro (h | h)
    · exact ⟨_, h⟩
    · exact ⟨_, h⟩

theorem pathsIp_importConnections : ∀ (conns : List (PathId × Json)) {conf conf' : HNZConf},
    importConnections conns conf = (true, conf') →
      conf'.pathsIp = conns.foldl (fun ips conn =>
        Function.update ips conn.1 ((retrieve Json.string? conn.2 "srv_ip").getD "")) conf.pathsIp
  | [], conf, conf', h => by
    cases h
    rfl
  | (p, conn) :: conns, conf, conf', h => by
    unfold importConnections at h
    split_ifs at h
    · rw [Import.all_store_iff] at h
      obtain ⟨ip, hip, h⟩ := h
      rw [Import.all_store_iff] at h
      obtain ⟨port, -, h⟩ := h
      rw [Import.all_cons_iff] at h
      obtain ⟨conf₁, hconns, h⟩ := h
      rw [Import.all_nil_iff] at h
      subst h
      rw [pathsIp_importConnections conns hconns, List.foldl_cons, hip]
      rfl
    · cases h

/-- **The addresses that are given are the ones of the paths.** -/
theorem configured_importTransportLayer {transport : Json} {conf conf' : HNZConf}
    (hempty : conf.pathsIp = fun _ => "") (h : importTransportLayer transport conf = (true, conf')) :
    (∃ p, conf'.configured p = true) ↔ ∃ conn ∈ (transport.arrayAt "connections").getD [],
      (retrieve Json.string? conn "srv_ip").getD "" ≠ "" := by
  unfold importTransportLayer at h
  cases hconns : transport.arrayAt "connections" with
  | none =>
    rw [hconns] at h
    cases h
    simp [HNZConf.configured, hempty]
  | some conns =>
    rw [hconns] at h
    simp only at h
    split_ifs at h with hlength
    · cases h
    have hips := pathsIp_importConnections _ h
    simp only [HNZConf.configured, bne_iff_ne, hips, hempty, Option.getD_some]
    -- one connection or two
    obtain _ | ⟨a, _ | ⟨b, _ | ⟨c, rest⟩⟩⟩ := conns
    · simp at hlength
    · simp [PathId.exists_iff]
    · simp [PathId.exists_iff]
    · simp at hlength

/-- Nothing after the transport layer writes the addresses. -/
theorem pathsIp_importProtocolStack {info : Json} {conf conf' : HNZConf}
    (h : importProtocolStack info conf = (true, conf')) :
    ∃ transport conf₁, info.objectAt "transport_layer" = some transport ∧
      importTransportLayer transport conf = (true, conf₁) ∧ conf'.pathsIp = conf₁.pathsIp := by
  have hutcKept : ∀ json, Import.Keeps HNZConf.pathsIp (importUseUtc json) := fun _ =>
    Import.keeps_optional (Import.keeps_store fun _ _ => rfl)
  have hmonitoringKept : Import.Keeps HNZConf.pathsIp (importMonitoring info) :=
    Import.keeps_optional (Import.keeps_within fun _ => Import.keeps_store fun _ _ => rfl)
  rw [importProtocolStack, Import.all_require_iff] at h
  simp only [Import.all_cons_iff, Import.all_nil_iff, Import.within_iff] at h
  obtain ⟨-, conf₁, ⟨transport, htransport, hconnections⟩, _, ⟨json, -, _, hlayer, _, hutc, rfl⟩, _,
    hmonitoring, rfl⟩ := h
  refine ⟨transport, conf₁, htransport, hconnections, ?_⟩
  rw [hmonitoringKept.eq hmonitoring, (hutcKept json).eq hutc]
  exact ((keeps_importApplicationLayer json).comp Prod.snd).eq hlayer

/-- After an accepted document a path is configured when an address is given. -/
theorem configured_importConfigJson {text : Text}
    (h : (importConfigJson text {}).configIsComplete = true) :
    (∃ p, (importConfigJson text {}).configured p = true) ↔ ∃ ip ∈ text.addresses, ip ≠ "" := by
  unfold importConfigJson at h ⊢
  cases hroot : text.root "protocol_stack" with
  | none =>
    rw [hroot] at h
    cases h
  | some info =>
    rw [hroot] at h
    obtain ⟨transport, conf₁, htransport, hconnections, hips⟩ :=
      pathsIp_importProtocolStack (Prod.ext h rfl)
    have hiff := configured_importTransportLayer rfl hconnections
    simp only [HNZConf.configured, ← hips] at hiff
    simp only [Text.addresses, hroot, Option.bind_some, htransport, List.mem_map,
      exists_exists_and_eq_and]
    exact hiff

/-- The exchanged data leaves the paths, and whether the protocol stack is complete. -/
theorem paths_ofTexts (protocolConf msgConf : Text) :
    (HNZConf.ofTexts protocolConf msgConf).pathsIp = (importConfigJson protocolConf {}).pathsIp ∧
      (HNZConf.ofTexts protocolConf msgConf).configIsComplete =
        (importConfigJson protocolConf {}).configIsComplete :=
  ⟨keeps_ofTexts (F := HNZConf.pathsIp) (fun _ _ => rfl) (fun _ _ => rfl) _ _,
    keeps_ofTexts (F := HNZConf.configIsComplete) (fun _ _ => rfl) (fun _ _ => rfl) _ _⟩

theorem configured_ofTexts {protocolConf msgConf : Text}
    (h : (HNZConf.ofTexts protocolConf msgConf).isComplete = true) :
    (∃ p, (HNZConf.ofTexts protocolConf msgConf).configured p = true) ↔
      ∃ ip ∈ protocolConf.addresses, ip ≠ "" := by
  obtain ⟨hips, hcomplete⟩ := paths_ofTexts protocolConf msgConf
  rw [HNZConf.isComplete, Bool.and_eq_true, hcomplete] at h
  simp only [HNZConf.configured, hips]
  exact configured_importConfigJson h.1

/-! ## Starting -/

namespace Plugin

variable {pl : Plugin} {now : Instant}

/-- With both tables nothing is out of range, whether there is a connection or not. -/
theorem avoids_outOfRange_start (b : Bool) (now : Instant)
    (h : pl.hnz.conf.readable pl.hnz.remoteAddress = true) :
    Avoids .outOfRange (pl.start b now) := by
  by_cases hidle : pl.isRunning = true ∨ pl.hnz.conf.isComplete = false
  · rw [start_of_idle b now hidle]
    exact .ok _
  · obtain ⟨hr, hc⟩ := not_or.mp hidle
    rw [Bool.not_eq_true] at hr
    rw [Bool.not_eq_false] at hc
    cases hconnection : pl.connection with
    | none =>
      rw [start_of_null b now hr hc h hconnection]
      exact fun hnull => by cases hnull
    | some c =>
      obtain ⟨readings, connection, hstart⟩ := start_of_connection b now hr hc h hconnection
      rw [hstart]
      exact .ok _

end Plugin

section

variable [Platform]

/-- **The configuration can be started**: it has a path, the two lookups find their table, and no
call of a plugin that has it is out of range. -/
structure Startable (conf : HNZConf) : Prop where
  path : ∃ p, conf.configured p = true
  tables : ∀ msgCode ∈ ["TM", "TS"],
    (conf.messagesAt msgCode conf.remoteStationAddr.toNat).isSome = true
  start : ∀ requests pl, Run Plugin.Serves {} requests pl → pl.hnz.conf = conf →
    ∀ b now, Avoids .outOfRange (pl.start b now)
  timers : ∀ requests pl c, Run Plugin.Serves {} requests pl → pl.hnz.conf = conf →
    pl.connection = some c → ∀ success now,
      Avoids .outOfRange (System.updateQualityUpdateTimer now ⟨pl.hnz, c⟩) ∧
        Avoids .outOfRange (System.giCompleted success now ⟨pl.hnz, c⟩)

/-- **What a start asks of the documents.** -/
structure Equipped (protocolConf msgConf : Text) : Prop where
  address : ∃ ip ∈ protocolConf.addresses, ip ≠ ""
  tm : ∃ e ∈ msgConf.entries, e.code = "TM"
  ts : ∃ e ∈ msgConf.entries, e.code = "TS"

/-- **The accepted documents that can be started.** -/
theorem startable_iff {protocolConf msgConf : Text}
    (h : (HNZConf.ofTexts protocolConf msgConf).isComplete = true) :
    Startable (.ofTexts protocolConf msgConf) ↔ Equipped protocolConf msgConf := by
  constructor
  · intro hs
    exact ⟨(configured_ofTexts h).mp hs.path,
      (hasMessages_ofTexts _ _ "TM").mp (hs.tables "TM" (by simp)),
      (hasMessages_ofTexts _ _ "TS").mp (hs.tables "TS" (by simp))⟩
  · intro he
    have hTM := (hasMessages_ofTexts protocolConf msgConf "TM").mpr he.tm
    have hTS := (hasMessages_ofTexts protocolConf msgConf "TS").mpr he.ts
    -- whoever has the configuration is tuned to its station
    have hreadable : ∀ {requests pl}, Run Plugin.Serves {} requests pl →
        pl.hnz.conf = .ofTexts protocolConf msgConf →
          pl.hnz.conf.readable pl.hnz.remoteAddress = true := by
      intro requests pl hrun hconf
      have htuned := Plugin.tuned_run hrun (hconf ▸ h)
      rw [htuned, hconf]
      exact Bool.and_eq_true_iff.mpr ⟨hTM, hTS⟩
    refine ⟨(configured_ofTexts h).mpr he.address, ?_, fun requests pl hrun hconf b now => ?_,
      fun requests pl c hrun hconf _ success now => ?_⟩
    · simp only [List.mem_cons, List.not_mem_nil, or_false]
      rintro msgCode (rfl | rfl)
      · exact hTM
      · exact hTS
    · exact Plugin.avoids_outOfRange_start b now (hreadable hrun hconf)
    · exact ⟨System.avoids_updateQualityUpdateTimer (hreadable hrun hconf),
        System.avoids_outOfRange_giCompleted success (hreadable hrun hconf)⟩

end

/-- One path, a TM and a TS. -/
theorem startable_smallest : letI : Platform := .sample
    Startable (.ofTexts (.stack [("remote_station_addr", .integer 1)])
      (.exchanged [Json.hnzDatapoint "TM1" "TM" "20" [], Json.hnzDatapoint "TS1" "TS" "511" []])) := by
  let : Platform := .sample
  exact (startable_iff (by decide +kernel)).mpr ⟨by decide +kernel, by decide +kernel,
    by decide +kernel⟩

/-- A protocol stack without connections. -/
def Text.unconnected : Text :=
  .json (.object [("protocol_stack", .object [
    ("name", .string "hnzsouth"), ("version", .string "1.0"), ("transport_layer", .object []),
    ("application_layer", .object [("remote_station_addr", .integer 1)])])])

/-- **An accepted configuration that has neither a path nor a TM.** -/
theorem not_startable_unconnected : letI : Platform := .sample
    (HNZConf.ofTexts .unconnected
        (.exchanged [Json.hnzDatapoint "TS1" "TS" "511" []])).isComplete = true ∧
      (∀ p, (HNZConf.ofTexts .unconnected
        (.exchanged [Json.hnzDatapoint "TS1" "TS" "511" []])).configured p = false) ∧
      (HNZConf.ofTexts .unconnected
        (.exchanged [Json.hnzDatapoint "TS1" "TS" "511" []])).messagesAt "TM" 1 = none ∧
      ¬Startable (.ofTexts .unconnected (.exchanged [Json.hnzDatapoint "TS1" "TS" "511" []])) := by
  let : Platform := .sample
  have hpaths : ∀ p, (HNZConf.ofTexts .unconnected
      (.exchanged [Json.hnzDatapoint "TS1" "TS" "511" []])).configured p = false := by
    intro p
    cases p with
    | A => decide +kernel
    | B => decide +kernel
  refine ⟨by decide +kernel, hpaths, by decide +kernel, fun h => ?_⟩
  obtain ⟨p, hp⟩ := h.path
  rw [hpaths p] at hp
  cases hp

end Hnz
