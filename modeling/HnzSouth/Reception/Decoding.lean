import HnzSouth.Machinery.Signed
import HnzSouth.Model.Import

/-!
# Reception/Decoding — the handlers read what the station wrote

A point is an address, a value, and a flag that the value is invalid.  A message carries several of
them: four measurements in ones' complement (TM4), four of 8 bits or two of 16 bits (TMN), sixteen
states (TSCG), or one state (TSCE).  The encoders below write such a message; its handler gives one
reading per point with a label, in the order of the message (`Reads`).  A handler takes a point whose
label is empty for one that the configuration does not have, so that the message decodes to the
points of the configuration exactly where none of them is listed so (`decodes_iff`).
-/

namespace Hnz

open Machinery

/-! ## Points and their readings -/

/-- A point of the station. -/
structure Point where
  address : Nat
  value : Int
  invalid : Bool
  deriving DecidableEq, Repr

namespace HNZConf

/-- **The configuration has the point**: its address is listed, under whatever label. -/
def has (conf : HNZConf) (msgCode : String) (pt : Point) : Bool :=
  (conf.entry? msgCode pt.address).isSome

/-- The point has a label. -/
def labels (conf : HNZConf) (msgCode : String) (pt : Point) : Bool :=
  conf.getLabel msgCode pt.address != ""

/-- **The reading of a point**, under the label of the configuration. -/
structure Shows (conf : HNZConf) (msgCode : String) (r : Reading) (pt : Point) : Prop where
  asset : r.asset = conf.getLabel msgCode pt.address
  type : r.get? "do_type" = some (.str msgCode)
  address : r.get? "do_addr" = some (.int pt.address)
  value : r.get? "do_value" = some (.int pt.value)
  invalid : r.get? "do_valid" = some (.int pt.invalid.toNat)

/-- **The points of a message**: one reading for each one that has a label, in order. -/
def Reads (conf : HNZConf) (msgCode : String) (readings : Result (List Reading))
    (points : List Point) : Prop :=
  ∃ rs, readings = .ok rs ∧
    List.Forall₂ (conf.Shows msgCode) rs (points.filter (conf.labels msgCode))

/-- **The message decodes to these points**: one reading for each one the configuration has, in
order. -/
def Decodes (conf : HNZConf) (msgCode : String) (readings : Result (List Reading))
    (points : List Point) : Prop :=
  ∃ rs, readings = .ok rs ∧ List.Forall₂ (conf.Shows msgCode) rs (points.filter (conf.has msgCode))

/-- None of these points is listed under an empty label. -/
def Labelled (conf : HNZConf) (msgCode : String) (points : List Point) : Prop :=
  ∀ pt ∈ points, conf.entry? msgCode pt.address ≠ some ""

section
variable {conf : HNZConf} {msgCode : String} {points : List Point} {pt : Point}

/-- A point has a label if the configuration has it, and not under an empty one. -/
theorem labels_iff : conf.labels msgCode pt = true ↔
    conf.has msgCode pt = true ∧ conf.entry? msgCode pt.address ≠ some "" := by
  rw [labels, has, getLabel_eq]
  cases conf.entry? msgCode pt.address <;> simp

/-- The points with a label are among those of the configuration. -/
theorem filter_labels (points : List Point) :
    (points.filter (conf.has msgCode)).filter (conf.labels msgCode) =
      points.filter (conf.labels msgCode) := by
  rw [List.filter_filter]
  refine List.filter_congr fun pt _ => ?_
  cases hlabels : conf.labels msgCode pt with
  | false => rfl
  | true => rw [(labels_iff.mp hlabels).1, Bool.and_self]

/-- They are the same where no label is empty. -/
theorem filter_labels_iff : points.filter (conf.labels msgCode) = points.filter (conf.has msgCode) ↔
    conf.Labelled msgCode points := by
  rw [← filter_labels, List.filter_eq_self, Labelled]
  refine forall_congr' fun pt => ?_
  rw [List.mem_filter, and_imp]
  refine imp_congr_right fun _ => ?_
  rw [labels_iff]
  constructor
  · intro h hempty
    exact (h (by rw [has, hempty]; rfl)).2 hempty
  · exact fun h hhas => ⟨hhas, h⟩

/-- **A message decodes to its points** where none of them is listed under an empty label: a point
that is makes no reading. -/
theorem Reads.decodes_iff_labelled {readings : Result (List Reading)}
    (h : conf.Reads msgCode readings points) :
    conf.Decodes msgCode readings points ↔ conf.Labelled msgCode points := by
  obtain ⟨rs, rfl, hshows⟩ := h
  rw [← filter_labels_iff]
  constructor
  · rintro ⟨rs', hrs, hshows'⟩
    obtain rfl := Except.ok.inj hrs
    -- As many points have a label as the configuration has.
    have hlength := hshows.length_eq.symm.trans hshows'.length_eq
    rw [← filter_labels] at hlength ⊢
    exact List.filter_sublist.eq_of_length hlength
  · exact fun heq => ⟨rs, rfl, heq ▸ hshows⟩

end

end HNZConf

/-- The reading that `m_prepare_reading` makes of a point. -/
theorem shows_prepareReading {conf : HNZConf} {params : ReadingParameters} {msgCode : String}
    (pt : Point) (hcode : params.msgCode = msgCode)
    (hlabel : params.label = conf.getLabel msgCode pt.address)
    (haddress : params.msgAddress = pt.address) (hvalue : params.value = pt.value)
    (hvalid : params.valid = pt.invalid.toNat) (hquality : params.qualityUpdate = false) :
    conf.Shows msgCode (prepareReading params) pt := by
  refine ⟨hlabel, ?_, ?_, ?_, ?_⟩ <;>
    simp [Reading.get?, prepareReading, List.lookup_cons, hcode, haddress, hvalue, hvalid, hquality]

/-- The one point of a message, with the label looked up first. -/
theorem HNZConf.reads_ite {conf : HNZConf} {msgCode : String} {r : Reading} {pt : Point}
    (h : conf.Shows msgCode r pt) :
    conf.Reads msgCode (.ok (if conf.getLabel msgCode pt.address = "" then [] else [r])) [pt] := by
  refine ⟨_, rfl, ?_⟩
  split_ifs with hlabel
  · rw [List.filter_cons_of_neg (by simpa [HNZConf.labels] using hlabel)]
    exact .nil
  · rw [List.filter_cons_of_pos (by simpa [HNZConf.labels] using hlabel)]
    exact .cons h .nil

/-! ## One point after the other -/

section
variable {conf : HNZConf} {msgCode : String} {n : Nat} {α : Type} {view : α → Reading}

/-- One pass of a handler's loop: no reading without a label, else the reading of the point. -/
structure HNZConf.ReadsOne (conf : HNZConf) (msgCode : String) (view : α → Reading)
    (x : Result (Option α)) (pt : Point) : Prop where
  skips : conf.labels msgCode pt = false → x = .ok none
  shows : conf.labels msgCode pt = true → ∃ a, x = .ok (some a) ∧ conf.Shows msgCode (view a) pt

/-- A pass with the label looked up first. -/
theorem HNZConf.readsOne_ite {x : Result (Option α)} {pt : Point} {a : α}
    (hx : x = .ok (if conf.getLabel msgCode pt.address = "" then none else some a))
    (ha : conf.Shows msgCode (view a) pt) : conf.ReadsOne msgCode view x pt := by
  refine ⟨fun h => ?_, fun h => ⟨a, ?_, ha⟩⟩
  · rw [hx, if_pos (by simpa [HNZConf.labels] using h)]
  · rw [hx, if_neg (by simpa [HNZConf.labels] using h)]

/-- **The loop of a handler**: what each pass reads makes up what the message reads. -/
theorem HNZConf.reads_mapM {ι : Type} {l : List ι} {f : ι → Result (Option α)} {pt : ι → Point}
    (h : ∀ i ∈ l, conf.ReadsOne msgCode view (f i) (pt i)) :
    ∃ as, l.mapM f = .ok as ∧ List.Forall₂ (conf.Shows msgCode) (as.reduceOption.map view)
      ((l.map pt).filter (conf.labels msgCode)) := by
  induction l with
  | nil => exact ⟨[], rfl, .nil⟩
  | cons i l ih =>
    obtain ⟨hi, hl⟩ := List.forall_mem_cons.mp h
    obtain ⟨as, has, hshows⟩ := ih hl
    rw [List.mapM_cons, List.map_cons]
    cases hpt : conf.labels msgCode (pt i) with
    | false =>
      rw [List.filter_cons_of_neg (by simp [hpt]), hi.skips hpt, has]
      exact ⟨none :: as, rfl, hshows⟩
    | true =>
      obtain ⟨a, ha, hshow⟩ := hi.shows hpt
      rw [List.filter_cons_of_pos hpt, ha, has]
      exact ⟨some a :: as, rfl, .cons hshow hshows⟩

variable (msgCode view) in
theorem HNZConf.reads_range {f : Nat → Result (Option α)} {pt : Fin n → Point}
    (h : ∀ i : Fin n, conf.ReadsOne msgCode view (f i) (pt i)) :
    ∃ as, (List.range n).mapM f = .ok as ∧ List.Forall₂ (conf.Shows msgCode)
      (as.reduceOption.map view) ((List.ofFn pt).filter (conf.labels msgCode)) := by
  rw [← List.map_coe_finRange_eq_range, List.mapM_map, List.ofFn_eq_map]
  exact HNZConf.reads_mapM fun i _ => h i

end

/-! ## What the station writes -/

/-- The values of a TM4; its byte `0xFF` is an invalid measurement. -/
abbrev TM4Value := Option (Set.Icc (-127 : Int) 127)

/-- The values of a TM16. -/
abbrev TM16Value := Set.Ico (-32768 : Int) 32768

def TM4Value.byte : TM4Value → UInt8
  | none => 0xFF
  | some v => onesComplement v

/-- The flags of a TMN: the invalid bits, and the bit 7 that tells 8 bits from 16. -/
def tmnFlags (isTM8 : Bool) (invalid : Fin 4 → Bool) : UInt8 :=
  UInt8.ofNat ((invalid 0).toNat + 2 * (invalid 1).toNat + 4 * (invalid 2).toNat +
    8 * (invalid 3).toNat + 128 * isTM8.toNat)

/-- Four states (E, V) in a byte, the first one in the highest bits. -/
def tscgByte (states : Fin 4 → Bool × Bool) : UInt8 :=
  let bits (state : Bool × Bool) : Nat := state.1.toNat + 2 * state.2.toNat
  UInt8.ofNat (64 * bits (states 0) + 16 * bits (states 1) + 4 * bits (states 2) + bits (states 3))

/-- Four of the sixteen states of a TSCG. -/
def quarter (states : Fin 16 → Bool × Bool) (j : Fin 4) : Fin 4 → Bool × Bool :=
  fun k => states ⟨4 * j + k, by omega⟩

/-- The second byte of a TSCE: ADB, the state (E, V), and the three bits about its time. -/
def tsceByte (adB : Fin 8) (state : Bool × Bool) (time : Bool × Bool × Bool) : UInt8 :=
  UInt8.ofNat (32 * adB.val + 16 * state.2.toNat + 8 * state.1.toNat + 4 * time.1.toNat +
    2 * time.2.1.toNat + time.2.2.toNat)

section
variable [Platform] (base : UInt8)

def encodeTM4 (vs : Fin 4 → TM4Value) : List UInt8 :=
  [Platform.tm4Code, base, (vs 0).byte, (vs 1).byte, (vs 2).byte, (vs 3).byte]

def encodeTM8 (vs : Fin 4 → UInt8) (invalid : Fin 4 → Bool) : List UInt8 :=
  [Platform.tmnCode, base, vs 0, vs 1, vs 2, vs 3, tmnFlags true invalid]

/-- Only the bits 0 and 2 of the flags are used. -/
def encodeTM16 (vs : Fin 2 → TM16Value) (invalid : Fin 4 → Bool) : List UInt8 :=
  [Platform.tmnCode, base, lowByte (vs 0), highByte (vs 0), lowByte (vs 1), highByte (vs 1),
    tmnFlags false invalid]

def encodeTSCG (states : Fin 16 → Bool × Bool) : List UInt8 :=
  [Platform.tscgCode, base, tscgByte (quarter states 0), tscgByte (quarter states 1),
    tscgByte (quarter states 2), tscgByte (quarter states 3)]

def encodeTSCE (adB : Fin 8) (state : Bool × Bool) (time : Bool × Bool × Bool) (ts₁ ts₂ : UInt8) :
    List UInt8 :=
  [Platform.tsceCode, base, tsceByte adB state time, ts₁, ts₂]

end

/-! ## The fields of the bytes -/

theorem TM4Value.ofOnesComplement_byte (v : TM4Value) :
    ofOnesComplement v.byte = (v.map Subtype.val).getD 0 := by
  cases v with
  | none => exact ofOnesComplement_minusZero
  | some v => exact ofOnesComplement_onesComplement v.2.1 v.2.2

theorem TM4Value.byte_eq_minusZero (v : TM4Value) : (v.byte == 0xFF) = v.isNone := by
  cases v with
  | none => rfl
  | some v => exact beq_false_of_ne (onesComplement_ne_minusZero v.2.1 v.2.2)

theorem tmnFlags_isTM8 (isTM8 : Bool) (invalid : Fin 4 → Bool) :
    (tmnFlags isTM8 invalid >>> 7 == 1) = isTM8 := by
  unfold tmnFlags
  generalize invalid 0 = a, invalid 1 = b, invalid 2 = c, invalid 3 = d
  revert isTM8 a b c d
  decide +kernel

theorem tmnFlags_invalid (isTM8 : Bool) (invalid : Fin 4 → Bool) (i : Fin 4) :
    ((tmnFlags isTM8 invalid >>> UInt8.ofNat i) &&& 0x1).toNat = (invalid i).toNat := by
  have hbits : ∀ a b c d : Bool, ∀ i : Fin 4,
      ((UInt8.ofNat (a.toNat + 2 * b.toNat + 4 * c.toNat + 8 * d.toNat + 128 * isTM8.toNat) >>>
        UInt8.ofNat i) &&& 0x1).toNat = (![a, b, c, d] i).toNat := by
    revert isTM8
    decide +kernel
  have hinvalid : ![invalid 0, invalid 1, invalid 2, invalid 3] = invalid := by
    ext k
    fin_cases k <;> rfl
  rw [tmnFlags, hbits, hinvalid]

/-- The bits of one state. -/
theorem tscgByte_state (states : Fin 4 → Bool × Bool) (k : Fin 4) :
    ((tscgByte states >>> UInt8.ofNat ((3 - k) * 2)) &&& 0x1).toNat = (states k).1.toNat ∧
      (((tscgByte states >>> UInt8.ofNat ((3 - k) * 2)) &&& 0x2) >>> 1).toNat =
        (states k).2.toNat := by
  have hbits : ∀ a b c d : Bool × Bool, ∀ k : Fin 4,
      ((tscgByte ![a, b, c, d] >>> UInt8.ofNat ((3 - k) * 2)) &&& 0x1).toNat =
          (![a, b, c, d] k).1.toNat ∧
        (((tscgByte ![a, b, c, d] >>> UInt8.ofNat ((3 - k) * 2)) &&& 0x2) >>> 1).toNat =
          (![a, b, c, d] k).2.toNat := by
    decide +kernel
  have hstates : ![states 0, states 1, states 2, states 3] = states := by
    ext k <;> fin_cases k <;> rfl
  rw [← hstates]
  exact hbits _ _ _ _ k

theorem tsceByte_fields : ∀ (adB : Fin 8) (state : Bool × Bool) (time : Bool × Bool × Bool),
    (tsceByte adB state time >>> 5).toNat = adB ∧
      ((tsceByte adB state time >>> 3) &&& 0x1).toNat = state.1.toNat ∧
      ((tsceByte adB state time >>> 4) &&& 0x1).toNat = state.2.toNat := by
  decide +kernel

/-! ## The points of the messages -/

section
variable (base : UInt8)

/-- The points of a TM4. -/
def tm4Points (vs : Fin 4 → TM4Value) : List Point :=
  List.ofFn fun i => ⟨base.toNat + i, ((vs i).map Subtype.val).getD 0, (vs i).isNone⟩

/-- The points of a TM8. -/
def tm8Points (vs : Fin 4 → UInt8) (invalid : Fin 4 → Bool) : List Point :=
  List.ofFn fun i => ⟨base.toNat + i, (vs i).toNat, invalid i⟩

/-- The points of a TM16. -/
def tm16Points (vs : Fin 2 → TM16Value) (invalid : Fin 4 → Bool) : List Point :=
  List.ofFn fun i => ⟨base.toNat + i * 2, vs i, invalid ⟨i * 2, by omega⟩⟩

/-- The point of the state `i` of a TSCG. -/
def tscgPoint (states : Fin 16 → Bool × Bool) (i : Fin 16) : Point :=
  ⟨10 * (base.toNat + i / 8) + i % 8, (states i).1.toNat, (states i).2⟩

/-- The points of a TSCG. -/
def tscgPoints (states : Fin 16 → Bool × Bool) : List Point :=
  List.ofFn (tscgPoint base states)

/-- The point of a TSCE. -/
def tscePoint (adO : UInt8) (adB : Fin 8) (state : Bool × Bool) : Point :=
  ⟨10 * adO.toNat + adB, state.1.toNat, state.2⟩

end

/-- A TSCE and a TSCG about the same address and state are about the same point. -/
theorem tscePoint_eq_tscgPoint {base adO : UInt8} {states : Fin 16 → Bool × Bool} {i : Fin 16}
    (h : adO.toNat = base.toNat + i / 8) :
    tscePoint adO ⟨i % 8, Nat.mod_lt _ (by decide)⟩ (states i) = tscgPoint base states i := by
  rw [tscePoint, tscgPoint, h]

/-! ## The handlers -/

namespace System

variable [Platform] {s : System} {base : UInt8}

theorem handleTM4Point_eq (vs : Fin 4 → TM4Value) (i : Fin 4) :
    handleTM4Point (encodeTM4 base vs) s i =
      .ok (if s.hnz.conf.getLabel "TM" (base.toNat + i) = "" then none else
        some (prepareReading
          { label := s.hnz.conf.getLabel "TM" (base.toNat + i), msgCode := "TM"
            stationAddr := s.hnz.remoteAddress, msgAddress := base.toNat + i
            value := ofOnesComplement (vs i).byte, valid := ((vs i).byte == 0xFF).toNat
            an := "TMA" })) := by
  have hbase : readByte (encodeTM4 base vs) 1 = .ok base := rfl
  have hbyte : readByte (encodeTM4 base vs) (2 + i) = .ok (vs i).byte := by fin_cases i <;> rfl
  simp only [handleTM4Point, hbase, hbyte, bind, Except.bind, pure, Except.pure, ofOnesComplement]
  split_ifs <;> rfl

/-- **A TM4 is read as it was written.** -/
theorem reads_handleTM4 (vs : Fin 4 → TM4Value) :
    s.hnz.conf.Reads "TM" (s.handleTM4 (encodeTM4 base vs)) (tm4Points base vs) := by
  obtain ⟨as, has, hshows⟩ := s.hnz.conf.reads_range "TM" id
    (f := handleTM4Point (encodeTM4 base vs) s) fun i =>
      HNZConf.readsOne_ite (handleTM4Point_eq vs i)
        (shows_prepareReading ⟨base.toNat + i, ((vs i).map Subtype.val).getD 0, (vs i).isNone⟩
          rfl rfl rfl (vs i).ofOnesComplement_byte (congrArg Bool.toNat (vs i).byte_eq_minusZero) rfl)
  rw [List.map_id] at hshows
  exact ⟨_, by rw [handleTM4, has]; rfl, hshows⟩

theorem handleTMNPoint_tm8 (vs : Fin 4 → UInt8) (invalid : Fin 4 → Bool) (i : Fin 4) :
    handleTMNPoint true (tmnFlags true invalid) (encodeTM8 base vs invalid) s i =
      .ok (if s.hnz.conf.getLabel "TM" (base.toNat + i) = "" then none else
        some (prepareReading
          { label := s.hnz.conf.getLabel "TM" (base.toNat + i), msgCode := "TM"
            stationAddr := s.hnz.remoteAddress, msgAddress := base.toNat + i
            value := (vs i).toNat
            valid := ((tmnFlags true invalid >>> UInt8.ofNat i) &&& 0x1).toNat
            an := "TM8" })) := by
  have hbase : readByte (encodeTM8 base vs invalid) 1 = .ok base := rfl
  have hbyte : readByte (encodeTM8 base vs invalid) (2 + i) = .ok (vs i) := by
    fin_cases i <;> rfl
  simp only [handleTMNPoint, tmnValue, hbase, hbyte, bind, Except.bind, pure, Except.pure, if_true]
  split_ifs <;> rfl

/-- **A TMN of 8 bits is read as it was written.** -/
theorem reads_handleTM8 (vs : Fin 4 → UInt8) (invalid : Fin 4 → Bool) :
    s.hnz.conf.Reads "TM" (s.handleTMN (encodeTM8 base vs invalid)) (tm8Points base vs invalid) := by
  obtain ⟨as, has, hshows⟩ := s.hnz.conf.reads_range "TM" id
    (f := handleTMNPoint true (tmnFlags true invalid) (encodeTM8 base vs invalid) s) fun i =>
      HNZConf.readsOne_ite (handleTMNPoint_tm8 vs invalid i)
        (shows_prepareReading ⟨base.toNat + i, (vs i).toNat, invalid i⟩
          rfl rfl rfl rfl (tmnFlags_invalid true invalid i) rfl)
  rw [List.map_id] at hshows
  have hflags : readByte (encodeTM8 base vs invalid) 6 = .ok (tmnFlags true invalid) := rfl
  refine ⟨_, ?_, hshows⟩
  simp only [handleTMN, hflags, bind, Except.bind, tmnFlags_isTM8, if_true, has]
  rfl

theorem handleTMNPoint_tm16 (vs : Fin 2 → TM16Value) (invalid : Fin 4 → Bool) (i : Fin 2) :
    handleTMNPoint false (tmnFlags false invalid) (encodeTM16 base vs invalid) s i =
      .ok (if s.hnz.conf.getLabel "TM" (base.toNat + i * 2) = "" then none else
        some (prepareReading
          { label := s.hnz.conf.getLabel "TM" (base.toNat + i * 2), msgCode := "TM"
            stationAddr := s.hnz.remoteAddress, msgAddress := base.toNat + i * 2
            value := ofTwosComplement (lowByte (vs i)) (highByte (vs i))
            valid := ((tmnFlags false invalid >>> UInt8.ofNat (i * 2)) &&& 0x1).toNat
            an := "TM16" })) := by
  have hbase : readByte (encodeTM16 base vs invalid) 1 = .ok base := rfl
  have hlow : readByte (encodeTM16 base vs invalid) (2 + i * 2) = .ok (lowByte (vs i)) := by
    fin_cases i <;> rfl
  have hhigh : readByte (encodeTM16 base vs invalid) (2 + i * 2 + 1) = .ok (highByte (vs i)) := by
    fin_cases i <;> rfl
  simp only [handleTMNPoint, tmnValue, hbase, hlow, hhigh, bind, Except.bind, pure, Except.pure,
    Bool.false_eq_true, if_false, ofTwosComplement]
  split_ifs <;> rfl

/-- **A TMN of 16 bits is read as it was written.** -/
theorem reads_handleTM16 (vs : Fin 2 → TM16Value) (invalid : Fin 4 → Bool) :
    s.hnz.conf.Reads "TM" (s.handleTMN (encodeTM16 base vs invalid))
      (tm16Points base vs invalid) := by
  obtain ⟨as, has, hshows⟩ := s.hnz.conf.reads_range "TM" id
    (f := handleTMNPoint false (tmnFlags false invalid) (encodeTM16 base vs invalid) s) fun i =>
      HNZConf.readsOne_ite (handleTMNPoint_tm16 vs invalid i)
        (shows_prepareReading ⟨base.toNat + i * 2, vs i, invalid ⟨i * 2, by omega⟩⟩
          rfl rfl rfl (ofTwosComplement_lowByte_highByte (vs i).2.1 (vs i).2.2)
          (tmnFlags_invalid false invalid ⟨i * 2, by omega⟩) rfl)
  rw [List.map_id] at hshows
  have hflags : readByte (encodeTM16 base vs invalid) 6 = .ok (tmnFlags false invalid) := rfl
  refine ⟨_, ?_, hshows⟩
  simp only [handleTMN, hflags, bind, Except.bind, tmnFlags_isTM8, Bool.false_eq_true, if_false,
    has]
  rfl

theorem readByte_encodeTSCG (states : Fin 16 → Bool × Bool) (i : Fin 16) :
    readByte (encodeTSCG base states) (2 + i / 4) =
      .ok (tscgByte (quarter states ⟨i / 4, by omega⟩)) := by
  fin_cases i <;> rfl

theorem handleTSCGPoint_eq (states : Fin 16 → Bool × Bool) (i : Fin 16) :
    handleTSCGPoint (encodeTSCG base states) s i =
      .ok (if s.hnz.conf.getLabel "TS" (tscgPoint base states i).address = "" then none else
        some ((tscgPoint base states i).address, prepareReading
          { label := s.hnz.conf.getLabel "TS" (tscgPoint base states i).address, msgCode := "TS"
            stationAddr := s.hnz.remoteAddress, msgAddress := (tscgPoint base states i).address
            value := (states i).1.toNat, valid := (states i).2.toNat, cg := true })) := by
  have hbase : readByte (encodeTSCG base states) 1 = .ok base := rfl
  have haddress : concatAddress (base.toNat + i / 8) (i % 8) = (tscgPoint base states i).address :=
    concatAddress_eq (by have := base.toNat_lt; omega) (by omega)
  obtain ⟨he, hv⟩ := tscgByte_state (quarter states ⟨i / 4, by omega⟩) ⟨i % 4, by omega⟩
  have hstate : quarter states ⟨i / 4, by omega⟩ ⟨i % 4, by omega⟩ = states i :=
    congrArg states (Fin.ext (Nat.div_add_mod i 4))
  rw [hstate] at he hv
  simp only [handleTSCGPoint, hbase, readByte_encodeTSCG, haddress, he, hv, bind, Except.bind, pure,
    Except.pure]
  split_ifs <;> rfl

/-- **A TSCG is read as it was written.** -/
theorem reads_handleTSCG (states : Fin 16 → Bool × Bool) :
    s.hnz.conf.Reads "TS" ((s.handleTSCG (encodeTSCG base states)).map Prod.fst)
      (tscgPoints base states) := by
  obtain ⟨as, has, hshows⟩ := s.hnz.conf.reads_range "TS" Prod.snd
    (f := handleTSCGPoint (encodeTSCG base states) s) fun i =>
      HNZConf.readsOne_ite (handleTSCGPoint_eq states i)
        (shows_prepareReading (tscgPoint base states i) rfl rfl rfl rfl rfl rfl)
  exact ⟨_, by rw [handleTSCG, has]; rfl, hshows⟩

theorem handleTSCE_eq (adB : Fin 8) (state : Bool × Bool) (time : Bool × Bool × Bool)
    (ts₁ ts₂ : UInt8) (now : Instant) :
    (s.handleTSCE (encodeTSCE base adB state time ts₁ ts₂) now).map Prod.fst =
      .ok (if s.hnz.conf.getLabel "TS" (tscePoint base adB state).address = "" then [] else
        [prepareReading
          { label := s.hnz.conf.getLabel "TS" (tscePoint base adB state).address, msgCode := "TS"
            stationAddr := s.hnz.remoteAddress, msgAddress := (tscePoint base adB state).address
            value := state.1.toNat, valid := state.2.toNat
            ts := s.eventTimestamp (ts₁.toNat <<< 8 ||| ts₂.toNat) now
            tsIv := ((tsceByte adB state time >>> 2) &&& 0x1).toNat
            tsC := ((tsceByte adB state time >>> 1) &&& 0x1).toNat
            tsS := (tsceByte adB state time &&& 0x1).toNat, cg := false
            emptyTimestamp := s.activeInputConnected }]) := by
  obtain ⟨hadB, he, hv⟩ := tsceByte_fields adB state time
  have hbase : readByte (encodeTSCE base adB state time ts₁ ts₂) 1 = pure base := rfl
  have hsecond : readByte (encodeTSCE base adB state time ts₁ ts₂) 2 =
    pure (tsceByte adB state time) := rfl
  have hts₁ : readByte (encodeTSCE base adB state time ts₁ ts₂) 3 = pure ts₁ := rfl
  have hts₂ : readByte (encodeTSCE base adB state time ts₁ ts₂) 4 = pure ts₂ := rfl
  have haddress : concatAddress base.toNat adB = (tscePoint base adB state).address :=
    concatAddress_eq (by have := base.toNat_lt; omega) (by omega)
  simp only [handleTSCE, hbase, hsecond, hts₁, hts₂, hadB, haddress, he, hv, pure_bind]
  split_ifs <;> rfl

/-- **A TSCE is read as it was written.** -/
theorem reads_handleTSCE (adB : Fin 8) (state : Bool × Bool) (time : Bool × Bool × Bool)
    (ts₁ ts₂ : UInt8) (now : Instant) :
    s.hnz.conf.Reads "TS" ((s.handleTSCE (encodeTSCE base adB state time ts₁ ts₂) now).map Prod.fst)
      [tscePoint base adB state] := by
  rw [handleTSCE_eq]
  exact HNZConf.reads_ite (shows_prepareReading _ rfl rfl rfl rfl rfl rfl)

/-- **Decoding undoes the encoding of the station**, for every configuration and every message, if no
point of the message is listed under an empty label. -/
theorem decodes_iff (s : System) (base : UInt8) :
    (∀ vs, s.hnz.conf.Decodes "TM" (s.handleTM4 (encodeTM4 base vs)) (tm4Points base vs) ↔
      s.hnz.conf.Labelled "TM" (tm4Points base vs)) ∧
    (∀ vs invalid, s.hnz.conf.Decodes "TM" (s.handleTMN (encodeTM8 base vs invalid))
        (tm8Points base vs invalid) ↔ s.hnz.conf.Labelled "TM" (tm8Points base vs invalid)) ∧
    (∀ vs invalid, s.hnz.conf.Decodes "TM" (s.handleTMN (encodeTM16 base vs invalid))
        (tm16Points base vs invalid) ↔ s.hnz.conf.Labelled "TM" (tm16Points base vs invalid)) ∧
    ∀ states,
      (s.hnz.conf.Decodes "TS" ((s.handleTSCG (encodeTSCG base states)).map Prod.fst)
        (tscgPoints base states) ↔ s.hnz.conf.Labelled "TS" (tscgPoints base states)) ∧
      ∀ (i : Fin 16) (adO : UInt8) time ts₁ ts₂ now, adO.toNat = base.toNat + i / 8 →
        (s.hnz.conf.Decodes "TS" ((s.handleTSCE
          (encodeTSCE adO ⟨i % 8, Nat.mod_lt _ (by decide)⟩ (states i) time ts₁ ts₂) now).map
            Prod.fst)
          [tscgPoint base states i] ↔ s.hnz.conf.Labelled "TS" [tscgPoint base states i]) := by
  refine ⟨fun vs => (reads_handleTM4 vs).decodes_iff_labelled,
    fun vs invalid => (reads_handleTM8 vs invalid).decodes_iff_labelled,
    fun vs invalid => (reads_handleTM16 vs invalid).decodes_iff_labelled,
    fun states => ⟨(reads_handleTSCG states).decodes_iff_labelled, fun i adO time ts₁ ts₂ now h => ?_⟩⟩
  rw [← tscePoint_eq_tscgPoint h]
  exact (reads_handleTSCE _ _ time ts₁ ts₂ now).decodes_iff_labelled

end System

section
open Sample

/-- The second state of a TSCG, address 511 of the sample, and the reading of the TSCE about it. -/
theorem decodes_sample :
    ∃ r, (System.handleTSCE (encodeTSCE 51 1 (true, false) (false, false, false) 0x1D 0x4C)
        5000000000 ⟨{ conf := .sample }, {}⟩).map Prod.fst = .ok [r] ∧
      HNZConf.sample.Shows "TS" r (tscgPoint 51 (fun _ => (true, false)) 1) := by
  have hentry : HNZConf.sample.entry? "TS" (tscgPoint 51 (fun _ => (true, false)) 1).address =
      some "TS1" := show HNZConf.sample.entry? "TS" 511 = some "TS1" by decide +kernel
  obtain ⟨rs, hrs, hshows⟩ := (((System.decodes_iff ⟨{ conf := .sample }, {}⟩ 51).2.2.2
    fun _ => (true, false)).2 1 51 (false, false, false) 0x1D 0x4C 5000000000 rfl).mpr (by
      rw [HNZConf.Labelled, List.forall_mem_singleton, hentry]
      decide)
  rw [List.filter_cons_of_pos (by rw [HNZConf.has, hentry]; rfl), List.filter_nil] at hshows
  obtain ⟨r, rfl⟩ := List.length_eq_one_iff.mp hshows.length_eq
  exact ⟨r, hrs, (List.forall₂_cons.mp hshows).1⟩

/-- A TM whose label is empty, beside a TM and a TS that have one. -/
def unlabelled : Text :=
  .exchanged [Json.hnzDatapoint "" "TM" "20" [], Json.hnzDatapoint "TM1" "TM" "21" [],
    Json.hnzDatapoint "TS1" "TS" "511" []]

/-- **A point without a reading**: the documents are accepted, and list TM 20 under an empty label;
a TM4 from there on gives TM 21 only. -/
theorem not_decodes_unlabelled :
    ∃ conf, conf = HNZConf.ofTexts (.stack [("remote_station_addr", .integer 1)]) unlabelled ∧
      conf.isComplete = true ∧ conf.entry? "TM" 20 = some "" ∧ conf.entry? "TM" 21 = some "TM1" ∧
      ∃ r, System.handleTM4 (encodeTM4 20 fun _ => none) ⟨{ conf := conf }, {}⟩ = .ok [r] ∧
        r.asset = "TM1" ∧
        ¬conf.Decodes "TM" (System.handleTM4 (encodeTM4 20 fun _ => none) ⟨{ conf := conf }, {}⟩)
          (tm4Points 20 fun _ => none) := by
  let conf := HNZConf.ofTexts (.stack [("remote_station_addr", .integer 1)]) unlabelled
  let s : System := ⟨{ conf := conf }, {}⟩
  have hempty : conf.entry? "TM" 20 = some "" := by decide +kernel
  have hreads : conf.Reads "TM" (System.handleTM4 (encodeTM4 20 fun _ => none) s)
      (tm4Points 20 fun _ => none) := System.reads_handleTM4 fun _ => none
  have hiff := hreads.decodes_iff_labelled
  obtain ⟨rs, hrs, hshows⟩ := hreads
  have hpoints : (tm4Points 20 fun _ => none).filter (conf.labels "TM") = [⟨21, 0, true⟩] := by
    decide +kernel
  rw [hpoints] at hshows
  obtain ⟨r, rfl⟩ := List.length_eq_one_iff.mp hshows.length_eq
  have hasset : conf.getLabel "TM" 21 = "TM1" := by decide +kernel
  refine ⟨conf, rfl, by decide +kernel, hempty, by decide +kernel, r, hrs,
    (List.forall₂_cons.mp hshows).1.asset.trans hasset, fun hdecodes => ?_⟩
  exact hiff.mp hdecodes ⟨20, 0, true⟩ (by decide) hempty

end

end Hnz
