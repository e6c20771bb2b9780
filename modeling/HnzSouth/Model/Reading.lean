import HnzSouth.Model.Basic

/-!
# Model/Reading — what the plugin hands to Fledge

Readings, and the audits of the connection.
-/

namespace Hnz

/-- The value of a datapoint. -/
inductive DatapointValue
  | str (s : String)
  | int (i : Int)
  deriving DecidableEq, Repr

/-- A reading: its asset, and the one object it holds, with the attributes in order. -/
structure Reading where
  asset : String
  object : String
  attributes : List (String × DatapointValue)
  deriving DecidableEq, Repr

/-- The value of an attribute. -/
def Reading.get? (r : Reading) (name : String) : Option DatapointValue := r.attributes.lookup name

/-- The level of an audit. -/
inductive AuditLevel
  | success
  | fail
  | info
  deriving DecidableEq, Repr

/-- An audit of the `SRVFL` category. -/
structure Audit where
  level : AuditLevel
  text : String
  deriving DecidableEq, Repr

/-- The parameters of a reading about a monitored point. -/
structure ReadingParameters where
  label : String := ""
  msgCode : String
  stationAddr : Nat := 0
  msgAddress : Nat := 0
  value : Int := 0
  valid : Nat := 0
  /-- For a TSCE. -/
  ts : Nat := 0
  tsIv : Nat := 0
  tsC : Nat := 0
  tsS : Nat := 0
  /-- A TSCE without its time stamp. -/
  emptyTimestamp : Bool := false
  /-- For a TS. -/
  cg : Bool := false
  /-- For a TM. -/
  an : String := ""
  outdated : Bool := false
  qualityUpdate : Bool := false

/-- `m_prepare_reading`. -/
def prepareReading (params : ReadingParameters) : Reading :=
  let isTS := params.msgCode == "TS"
  let isTSCE := isTS && !params.cg
  let isTM := params.msgCode == "TM"
  { asset := params.label
    object := "data_object"
    attributes :=
      [("do_type", .str params.msgCode),
        ("do_station", .int params.stationAddr),
        ("do_addr", .int params.msgAddress)] ++
      (if !params.qualityUpdate then [("do_value", .int params.value)] else []) ++
      [("do_valid", .int params.valid)] ++
      (if isTM then [("do_an", .str params.an)] else []) ++
      (if isTS then [("do_cg", .int params.cg.toNat)] else []) ++
      (if isTM || isTS then [("do_outdated", .int params.outdated.toNat)] else []) ++
      (if isTSCE then
        (if !params.emptyTimestamp then [("do_ts", .int (int64 params.ts))] else []) ++
        [("do_ts_iv", .int params.tsIv), ("do_ts_c", .int params.tsC),
          ("do_ts_s", .int params.tsS)]
      else []) }

end Hnz
