import HnzSouth.Configuration.Accepted

/-!
# Configuration/Entries — the exchanged data, entry by entry

Each protocol of a datapoint that is one of HNZ makes an entry: a type, an address, a label, and the
value that triggers a GI.  The import of a document enters them one after the other
(`importExchangedDataJson_eq`), whatever else it finds missing.
-/

namespace Hnz

open Machinery

/-! ## Entries -/

/-- **An entry of the exchanged data.** -/
structure Entry where
  code : String
  address : UInt32
  label : String
  /-- The value of `trigger_south_gi`. -/
  trigger : Option UInt32
  deriving DecidableEq, Repr

namespace Entry

/-- The value of the trigger as the `int` that is stored; `-1` stands for none. -/
def value (e : Entry) : Int := e.trigger.elim (-1) fun v => int32 v.toNat

/-- The entry is stored as one that triggers a GI. -/
def triggers (e : Entry) : Bool := e.value ≠ -1

/-- The entry is one of a TS. -/
def isTS (e : Entry) : Bool := e.code = "TS"

end Entry

/-- The value under `trigger_south_gi` in the first subtype that has the name. -/
def triggerSouthGi (msg : Json) : Option UInt32 :=
  ((msg.arrayAt "pivot_subtypes").bind
    (List.find? fun subtype => (subtype.member "trigger_south_gi").isSome)).bind
      fun subtype => retrieve Json.uint? subtype "trigger_south_gi"

/-- The entry of a protocol. -/
def protocolEntry (label : String) (trigger : Option UInt32) (protocol : Json) : Option Entry :=
  if (retrieve Json.string? protocol "name").getD "" ≠ "hnzip" then none
  else
    let address := (retrieveOr Json.string? protocol "address" "").getD ""
    let tmp := (stoul address.toList).getD 0
    some {
      code := (retrieveOr Json.string? protocol "typeid" "").getD ""
      address := UInt32.ofNat (if tmp < 2 ^ 32 then tmp else 0)
      label := label
      trigger := trigger }

/-- The entries of a datapoint: a protocol that is not an object ends them. -/
def datapointEntries (msg : Json) : List Entry :=
  (((msg.arrayAt "protocols").getD []).takeWhile Json.isObject).filterMap
    (protocolEntry ((retrieve Json.string? msg "label").getD "") (triggerSouthGi msg))

/-- The datapoints of a text. -/
def Text.datapoints (text : Text) : Option (List Json) :=
  (text.root "exchanged_data").bind (Json.arrayAt "datapoints")

/-- **The entries of a text**, in the order of the document. -/
def Text.entries (text : Text) : List Entry := (text.datapoints.getD []).flatMap datapointEntries

/-- **What an entry adds to the tables.** -/
def HNZConf.enter (conf : HNZConf) (e : Entry) : HNZConf :=
  { conf with
    msgList := conf.msgList.set e.code conf.remoteStationAddr.toNat e.address.toNat e.label
    lastTSAddr := max e.address.toNat conf.lastTSAddr
    cgTriggeringTsAdresses :=
      if e.value ≠ -1 then
        conf.cgTriggeringTsAdresses.insertIfNew (int32 e.address.toNat) e.value
      else conf.cgTriggeringTsAdresses }

/-! ## The import -/

theorem isGiTriggeringTs_eq (msg : Json) :
    isGiTriggeringTs msg = (triggerSouthGi msg).elim (-1) fun v => int32 v.toNat := by
  unfold isGiTriggeringTs triggerSouthGi
  split
  · next hnone =>
    rw [hnone]
    rfl
  · next subtype hsubtype =>
    rw [hsubtype, Option.bind_some]
    split
    · next hnone =>
      rw [hnone]
      rfl
    · next v hv => rw [hv, Option.elim_some]

/-- A protocol enters its entry, if it has one. -/
theorem importProtocol_eq (label : String) (trigger : Option UInt32) (protocol : Json)
    (conf : HNZConf) :
    (importProtocol label (trigger.elim (-1) fun v => int32 v.toNat) protocol conf).2 =
      (protocolEntry label trigger protocol).toList.foldl HNZConf.enter conf := by
  have haddress : ∀ tmp : Nat, (UInt32.ofNat (if tmp < 2 ^ 32 then tmp else 0)).toNat =
      if tmp < 2 ^ 32 then tmp else 0 := by
    intro tmp
    split_ifs with htmp
    · exact UInt32.toNat_ofNat_of_lt' htmp
    · rfl
  simp only [importProtocol, protocolEntry]
  by_cases hname : (retrieve Json.string? protocol "name").getD "" ≠ "hnzip"
  · rw [if_pos hname, if_pos hname]
    rfl
  · rw [if_neg hname, if_neg hname]
    simp only [Option.toList_some, List.foldl_cons, List.foldl_nil, HNZConf.enter, Entry.value,
      haddress]

/-- So do the protocols of a datapoint, up to one that is not an object. -/
theorem importProtocols_eq (label : String) (trigger : Option UInt32) :
    ∀ (protocols : List Json) (conf : HNZConf),
      (importProtocols label (trigger.elim (-1) fun v => int32 v.toNat) protocols conf).2 =
        ((protocols.takeWhile Json.isObject).filterMap (protocolEntry label trigger)).foldl
          HNZConf.enter conf
  | [], conf => rfl
  | protocol :: protocols, conf => by
    cases hobject : protocol.isObject with
    | false => simp [importProtocols, hobject]
    | true =>
      have hrest := importProtocols_eq label trigger protocols
      have hprotocol := importProtocol_eq label trigger protocol conf
      rw [List.takeWhile_cons_of_pos hobject, importProtocols, if_pos hobject, Import.all_cons_snd,
        Import.all_cons_snd, hprotocol, hrest, List.filterMap_cons]
      cases protocolEntry label trigger protocol with
      | none => rfl
      | some e => rfl

/-- The datapoint enters its entries. -/
theorem importDatapoint_eq (msg : Json) (conf : HNZConf) :
    (importDatapoint msg conf).2 = (datapointEntries msg).foldl HNZConf.enter conf := by
  unfold importDatapoint datapointEntries
  rw [Import.all_cons_snd, Import.all_cons_snd, isGiTriggeringTs_eq]
  cases msg.arrayAt "protocols" with
  | none => rfl
  | some protocols => exact importProtocols_eq _ _ protocols conf

/-- So do the datapoints. -/
theorem importDatapoints_eq : ∀ (datapoints : List Json) (conf : HNZConf),
    (Import.all (datapoints.map importDatapoint) conf).2 =
      (datapoints.flatMap datapointEntries).foldl HNZConf.enter conf
  | [], conf => rfl
  | msg :: datapoints, conf => by
    rw [List.map_cons, Import.all_cons_snd, importDatapoint_eq, importDatapoints_eq,
      List.flatMap_cons, List.foldl_append]

/-- **The import enters the entries of the text**, in a configuration that forgets its last TS. -/
theorem importExchangedDataJson_eq (text : Text) {conf : HNZConf} (h : conf.lastTSAddr = 0) :
    ∃ isComplete, importExchangedDataJson text conf =
      { text.entries.foldl HNZConf.enter conf with exchangeDataIsComplete := isComplete } := by
  have hforget : { conf with lastTSAddr := 0 } = conf := by rw [← h]
  unfold Text.entries Text.datapoints importExchangedDataJson
  cases hroot : text.root "exchanged_data" with
  | none => exact ⟨false, rfl⟩
  | some info =>
    simp only [Option.bind_some]
    cases hdatapoints : info.arrayAt "datapoints" with
    | none => exact ⟨false, rfl⟩
    | some datapoints =>
      simp only [hforget, Option.getD_some, ← importDatapoints_eq]
      exact ⟨_, rfl⟩

/-- **The exchanged data leaves what its entries do not write.** -/
theorem keeps_ofTexts {β : Type} {F : HNZConf → β} (henter : ∀ conf e, F (.enter conf e) = F conf)
    (hcomplete : ∀ conf b, F { conf with exchangeDataIsComplete := b } = F conf)
    (protocolConf msgConf : Text) :
    F (.ofTexts protocolConf msgConf) = F (importConfigJson protocolConf {}) := by
  have hzero : (importConfigJson protocolConf {}).lastTSAddr = 0 :=
    congrArg Prod.fst (tables_importConfigJson protocolConf {})
  have hentered : ∀ (entries : List Entry) (conf : HNZConf),
      F (entries.foldl HNZConf.enter conf) = F conf := by
    intro entries
    induction entries with
    | nil => exact fun _ => rfl
    | cons e entries ih => exact fun conf => (ih (conf.enter e)).trans (henter conf e)
  obtain ⟨isComplete, h⟩ := importExchangedDataJson_eq msgConf hzero
  rw [HNZConf.ofTexts, h, hcomplete, hentered]

end Hnz
