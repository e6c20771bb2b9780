import HnzSouth.Interrogation.Course
import HnzSouth.Reception.Payload

/-!
# Reception/Handlers — the faults of a message

A message of a well-sized payload has the length of its type, or is a BULLE, or is of an unknown
type (`Whole`).  Its handler reads inside it (`inside_handleMessage`).  Nothing else that a handler
does can fail, but for the end of a GI, which needs the table of the TS and, for a GI that waits, an
active path.  Each handler is gone through once for all the faults: what the message must have is
asked for where the fault is the one that it excludes.
-/

namespace Hnz

variable {e : Fault}

/-- **The call reads nothing outside its data.** -/
abbrev Inside {α : Type} (x : Result α) : Prop := Avoids .badRead x

/-- A read in a message of a known length. -/
theorem Avoids.read {data : List UInt8} {n i : Nat} (h : e = .badRead → data.length = n)
    (hi : i < n) : Avoids e (readByte data i) :=
  avoids_readByte fun he => (h he).symm ▸ hi

/-! ## The end of a GI -/

namespace System

variable {s : System} {now : Instant} {data : List UInt8}

theorem avoids_sendAllTIQualityReadings {params : ReadingParameters}
    (h : e = .outOfRange →
      (s.hnz.conf.messagesAt params.msgCode params.stationAddr).isSome = true)
    (filter : List Nat) : Avoids e (s.sendAllTIQualityReadings params filter) := by
  unfold sendAllTIQualityReadings
  split
  · next hstations =>
    rintro ⟨⟩
    simp [HNZConf.messagesAt, hstations] at h
  · next stations hstations =>
    split
    · next hmessages =>
      rintro ⟨⟩
      simp [HNZConf.messagesAt, hstations, hmessages] at h
    · exact .ok _

/-- **The end of a GI** reads the TS of the station, and sends the GI that waits on the active
path. -/
theorem avoids_giCompleted
    (hrange : e = .outOfRange → (s.hnz.conf.messagesAt "TS" s.hnz.remoteAddress).isSome = true)
    (hnull : e = .nullPath → s.hnz.giInQueue = true → s.connection.activePath.isSome = true)
    (success : Bool) : Avoids e (s.giCompleted success now) := by
  refine .bind (avoids_sendAllTIQualityReadings hrange _) fun u hu => ?_
  obtain rfl := sendAllTSQualityReadings_eq_ok hu
  set v : System := { s with connection.giRepeat := 0 }.sendToFledge
    (s.missingReadings s.hnz.giAddressesReceived now) with hv
  refine .ite (fun hq => ?_) fun _ => .ok _
  have hqueue : s.hnz.giInQueue = true :=
    (hnz_updateGiStatus (s := v) (if success then .finished else .failed)).2.2.2.symm.trans hq
  have hactive : (v.updateGiStatus (if success then .finished else .failed)).connection.activePath =
      s.connection.activePath := by rw [connection_updateGiStatus]; rfl
  split
  · next hnone =>
    rintro ⟨⟩
    have hsome : s.connection.activePath.isSome = true := hnull rfl hqueue
    rw [← hactive, Option.isSome_iff_ne_none] at hsome
    exact absurd hnone hsome
  · exact .ok _

theorem avoids_checkGICompleted
    (hrange : e = .outOfRange → (s.hnz.conf.messagesAt "TS" s.hnz.remoteAddress).isSome = true)
    (hnull : e = .nullPath → s.hnz.giInQueue = true → s.connection.activePath.isSome = true)
    (success : Bool) : Avoids e (s.checkGICompleted success now) := by
  unfold checkGICompleted
  refine .ite (fun _ => avoids_giCompleted hrange hnull true) fun _ =>
    .ite (fun _ => avoids_giCompleted hrange hnull false) fun _ => ?_
  simp only
  split <;> exact .ok _

/-! ## Handlers -/

theorem avoids_handleTM4 (h : e = .badRead → data.length = 6) : Avoids e (s.handleTM4 data) := by
  refine .bind (.mapM fun i hi => ?_) fun _ _ => .ok _
  have hi : i < 4 := List.mem_range.mp hi
  refine .bind (.read h (by omega)) fun _ _ => .ite (fun _ => .ok _) fun _ => ?_
  exact .bind (.read h (by omega)) fun _ _ => .ok _

theorem avoids_handleTMN (h : e = .badRead → data.length = 7) : Avoids e (s.handleTMN data) := by
  refine .bind (.read h (by omega)) fun flags _ => .bind (.mapM fun i hi => ?_) fun _ _ => .ok _
  rw [List.mem_range] at hi
  refine .bind (.read h (by omega)) fun _ _ => .ite (fun _ => .ok _) fun _ => .bind ?_ fun _ _ => .ok _
  unfold tmnValue
  refine .ite (fun h8 => ?_) fun h8 => ?_
  · rw [if_pos h8] at hi
    exact .bind (.read h (by omega)) fun _ _ => .ok _
  · rw [if_neg h8] at hi
    exact .bind (.read h (by omega)) fun _ _ => .bind (.read h (by omega)) fun _ _ => .ok _

theorem avoids_handleATC (h : e = .badRead → data.length = 3) : Avoids e (s.handleATC data) := by
  refine .bind (.read h (by omega)) fun _ _ => .bind (.read h (by omega)) fun _ _ => ?_
  exact .ite (fun _ => .ok _) fun _ => .ok _

theorem avoids_handleATVC (h : e = .badRead → data.length = 4) : Avoids e (s.handleATVC data) := by
  refine .bind (.read h (by omega)) fun _ _ => .ite (fun _ => .ok _) fun _ => ?_
  exact .bind (.read h (by omega)) fun _ _ => .bind (.read h (by omega)) fun _ _ => .ok _

theorem avoids_handleTSCG (h : e = .badRead → data.length = 6) : Avoids e (s.handleTSCG data) := by
  refine .bind (.mapM fun i hi => ?_) fun _ _ => .ok _
  have hi : i < 16 := List.mem_range.mp hi
  refine .bind (.read h (by omega)) fun _ _ => .ite (fun _ => .ok _) fun _ => ?_
  exact .bind (.read h (by omega)) fun _ _ => .ok _

end System

variable [Platform]

theorem System.avoids_handleTSCE {s : System} {now : Instant} {data : List UInt8}
    (h : e = .badRead → data.length = 5) : Avoids e (s.handleTSCE data now) := by
  refine .bind (.read h (by omega)) fun _ _ => .bind (.read h (by omega)) fun _ _ => ?_
  refine .ite (fun _ => .ok _) fun _ => .bind (.read h (by omega)) fun _ _ => ?_
  exact .bind (.read h (by omega)) fun _ _ => .ite (fun _ => .ok _) fun _ => .ok _

/-! ## Messages -/

/-- The length of each known type; the codes are distinct. -/
theorem fixedLength_codes :
    fixedLength Platform.tm4Code = some 6 ∧ fixedLength Platform.tsceCode = some 5 ∧
      fixedLength Platform.tscgCode = some 6 ∧ fixedLength Platform.tmnCode = some 7 ∧
      fixedLength Platform.moduloCode = some 2 ∧ fixedLength Platform.tcackCode = some 3 ∧
      fixedLength Platform.tvcackCode = some 4 := by
  have h := Platform.received_nodup
  simp only [List.nodup_cons, List.mem_cons, List.not_mem_nil, or_false, not_or, List.nodup_nil,
    and_true, not_false_eq_true] at h
  grind [fixedLength]

variable {bulle : BulleFormat} {data : List UInt8} {messages : List (List UInt8)} {t : UInt8}
  {n : Nat}

/-- **The message is whole**: it ends where its type says. -/
def Whole (bulle : BulleFormat) (data : List UInt8) : Prop :=
  headLength bulle data = some data.length

theorem whole_take (h : headLength bulle data = some n) (hn : n < data.length) :
    Whole bulle (data.take n) := by
  cases data with
  | nil => cases h
  | cons t rest =>
    obtain ⟨k, rfl⟩ : ∃ k, n = k + 1 := ⟨n - 1, by have := headLength_pos h; omega⟩
    have hk : k < rest.length := by simpa using hn
    unfold Whole headLength at *
    simp only [List.take_succ_cons, List.length_cons, List.length_take,
      min_eq_left hk.le] at h ⊢
    cases hf : fixedLength t with
    | some len =>
      simp only [hf] at h ⊢
      split_ifs at h
      cases h
      exact if_pos le_rfl
    | none =>
      simp only [hf] at h ⊢
      split_ifs at h ⊢
      · cases rest with
        | nil => cases h
        | cons b rest =>
          simp only at h
          split_ifs at h with hb
          · cases h
            exact if_pos hb
          · cases h
            simp at hk
      · cases h
        omega

theorem WellSized.whole (h : WellSized bulle data messages) :
    ∀ m ∈ messages, Whole bulle m := by
  induction h with
  | last h => simpa [Whole] using h
  | cons h hn _ ih => exact List.forall_mem_cons.mpr ⟨whole_take h hn, ih⟩

theorem Whole.pos (h : Whole bulle data) : 0 < data.length := headLength_pos h

theorem Whole.length (h : Whole bulle data) (ht : data[0]? = some t)
    (hf : fixedLength t = some n) : data.length = n := by
  cases data with
  | nil => cases ht
  | cons b rest =>
    cases ht
    simp only [Whole, headLength, hf] at h
    split_ifs at h
    exact (Option.some.inj h).symm

/-- The check for a BULLE reads the second byte only of a message that has one. -/
theorem avoids_isReceivedBULLE (h : e = .badRead → Whole bulle data) (ht : data[0]? = some t)
    (hf : fixedLength t = none) : Avoids e (isReceivedBULLE bulle t data) := by
  unfold isReceivedBULLE
  refine .ite (fun hfirst => .bind (avoids_readByte fun he => ?_) fun _ _ => .ok _) fun _ => .ok _
  have hwhole := h he
  cases data with
  | nil => cases ht
  | cons b rest =>
    cases ht
    cases rest with
    | nil =>
      simp only [Whole, headLength, hf, if_pos hfirst] at hwhole
      cases hwhole
    | cons b rest => simp

/-! ## The dispatch -/

namespace System

variable {s : System} {now : Instant}

/-- The handler of a whole message reads inside it, and has no other fault. -/
theorem avoids_dispatch (h : e = .badRead → Whole s.hnz.testMsgReceive data)
    (ht : data[0]? = some t) : Avoids e (s.dispatch t data now) := by
  obtain ⟨h₁, h₂, h₃, h₄, h₅, h₆, h₇⟩ := fixedLength_codes
  have hlength : ∀ {n}, fixedLength t = some n → e = .badRead → data.length = n :=
    fun hf he => (h he).length ht hf
  unfold dispatch
  refine .ite (fun ht' => ?_) fun n₁ => ?_
  · exact .bind (.read (hlength (ht' ▸ h₅)) (by decide)) fun _ _ => .ok _
  refine .ite (fun ht' => ?_) fun n₂ => ?_
  · exact .bind (avoids_handleTM4 (hlength (ht' ▸ h₁))) fun _ _ => .ok _
  refine .ite (fun ht' => avoids_handleTSCE (hlength (ht' ▸ h₂))) fun n₃ => ?_
  refine .ite (fun ht' => avoids_handleTSCG (hlength (ht' ▸ h₃))) fun n₄ => ?_
  refine .ite (fun ht' => ?_) fun n₅ => ?_
  · exact .bind (avoids_handleTMN (hlength (ht' ▸ h₄))) fun _ _ => .ok _
  refine .ite (fun ht' => avoids_handleATC (hlength (ht' ▸ h₆))) fun n₆ => ?_
  refine .ite (fun ht' => avoids_handleATVC (hlength (ht' ▸ h₇))) fun n₇ => ?_
  have hf : fixedLength t = none := by
    simp only [fixedLength, n₁, n₂, n₃, n₄, n₅, n₆, n₇, if_false]
  exact .bind (avoids_isReceivedBULLE h ht hf) fun _ _ => .ok _

/-- **The faults of a message**: one that is not whole, and the two that the end of a GI may have. -/
theorem avoids_handleMessage (hwhole : e = .badRead → Whole s.hnz.testMsgReceive data)
    (hrange : e = .outOfRange → (s.hnz.conf.messagesAt "TS" s.hnz.remoteAddress).isSome = true)
    (hnull : e = .nullPath → s.hnz.giInQueue = true → s.connection.activePath.isSome = true) :
    Avoids e (s.handleMessage data now) := by
  refine .bind (avoids_readByte fun he => (hwhole he).pos) fun t ht => ?_
  refine .bind (avoids_dispatch hwhole (readByte_eq_ok.mp ht)) fun ⟨readings, u⟩ hu => ?_
  refine .ite (fun hlast => ?_) fun _ => .ok _
  obtain ⟨rfl, -⟩ := hlast
  rw [dispatch_codes.1] at hu
  -- A TSCG leaves alone what the end of the GI needs.
  obtain ⟨hact, hconnection, hconf, hremote⟩ := handleTSCG_spec hu
  have hqueue : u.hnz.giInQueue = s.hnz.giInQueue :=
    congrArg (fun i : Interrogation => i.queued) hact
  refine avoids_checkGICompleted (fun he => ?_) (fun he hq => ?_) true
  · change (u.hnz.conf.messagesAt "TS" u.hnz.remoteAddress).isSome = true
    rw [hconf, hremote]
    exact hrange he
  · change u.connection.activePath.isSome = true
    rw [hconnection]
    exact hnull he (hqueue.symm.trans hq)

/-- **`m_handle_message` reads inside every whole message.** -/
theorem inside_handleMessage (h : Whole s.hnz.testMsgReceive data) :
    Inside (s.handleMessage data now) :=
  avoids_handleMessage (fun _ => h) (by nofun) (by nofun)

end System

end Hnz
