import HnzSouth.Arbitration.Plugin
import HnzSouth.Model.Request
import HnzSouth.Path.History
import HnzSouth.Reception.Decoding

/-!
# Commands/Encoding — a command is sent faithfully or refused

A request for a command gives its address and its value as strings.  Both are read by `stoi`, cut to
bytes and masked; the station echoes the bytes, and the handler of the echo reads address and value
back.  The echo says what was asked exactly when the strings are decimal integers that the format
holds (`WellFormed`); nothing refuses the other requests once there is a path for them
(`System.faithfulOrRefused_iff`).
-/

namespace Hnz

open Machinery

/-! ## Requests -/

/-- **The format holds the command.** -/
def Fits (type : String) (address value : Int) : Prop :=
  type = "TC" ∧ 0 ≤ address ∧ address ≤ 2557 ∧ address % 10 ≤ 7 ∧ 0 ≤ value ∧ value ≤ 3 ∨
    type = "TVC" ∧ 0 ≤ address ∧ address ≤ 31 ∧ -127 ≤ value ∧ value ≤ 127

/-- **The request is well formed**: its address and its value are decimal integers, and the format
holds them. -/
def WellFormed (params : List (String × String)) : Prop :=
  ∃ address value,
    Decimal.whole (System.commandParam params "co_addr").toList = some address ∧
      Decimal.whole (System.commandParam params "co_value").toList = some value ∧
      Fits (System.commandParam params "co_type") address value

theorem fits_tc_iff {address value : Int} : Fits "TC" address value ↔
    0 ≤ address ∧ address ≤ 2557 ∧ address % 10 ≤ 7 ∧ 0 ≤ value ∧ value ≤ 3 := by
  simp [Fits]

theorem fits_tvc_iff {address value : Int} : Fits "TVC" address value ↔
    0 ≤ address ∧ address ≤ 31 ∧ -127 ≤ value ∧ value ≤ 127 := by
  simp [Fits]

theorem commandRequest_eq_some {params : List (String × String)} {type : String}
    {address value : Int} (h : commandRequest params = some (type, address, value)) :
    System.commandParam params "co_type" = type ∧
      stoi (System.commandParam params "co_addr").toList = some address ∧
      stoi (System.commandParam params "co_value").toList = some value := by
  simp only [commandRequest] at h
  split_ifs at h
  split at h
  · next haddress hvalue =>
    cases h
    exact ⟨rfl, haddress, hvalue⟩
  · cases h

/-- A decimal integer of the format is read as such. -/
theorem stoi_of_whole {cs : List Char} {z : Int} (h : Decimal.whole cs = some z)
    (hz : -2 ^ 31 ≤ z ∧ z < 2 ^ 31) : stoi cs = some z := by
  rw [stoi, Decimal.read_of_whole h]
  exact if_pos hz

/-- A well-formed request is read as it is written. -/
theorem WellFormed.fits {params : List (String × String)} {type : String} {address value : Int}
    (h : WellFormed params) (hrequest : commandRequest params = some (type, address, value)) :
    Decimal.whole (System.commandParam params "co_addr").toList = some address ∧
      Decimal.whole (System.commandParam params "co_value").toList = some value ∧
      Fits type address value := by
  obtain ⟨rfl, haddress, hvalue⟩ := commandRequest_eq_some hrequest
  obtain ⟨a, v, ha, hv, hfits⟩ := h
  have hrange : (-2 ^ 31 ≤ a ∧ a < 2 ^ 31) ∧ (-2 ^ 31 ≤ v ∧ v < 2 ^ 31) := by
    obtain ⟨-, hfits⟩ | ⟨-, hfits⟩ := hfits <;> omega
  obtain rfl := Option.some.inj ((stoi_of_whole ha hrange.1).symm.trans haddress)
  obtain rfl := Option.some.inj ((stoi_of_whole hv hrange.2).symm.trans hvalue)
  exact ⟨ha, hv, hfits⟩

/-! ## The bytes of a command -/

theorem toNat_digitChar {d : Nat} (hd : d < 10) : d.digitChar.toNat - '0'.toNat = d := by
  interval_cases d <;> rfl

/-- The byte of a TC with its last digit and its value. -/
def tcByte (adB : Nat) (value : UInt8) : UInt8 :=
  UInt8.ofNat ((value &&& 0x3).toNat <<< 3 ||| adB <<< 5)

theorem tcByte_fields : ∀ (adB : Fin 8) (value : Fin 4),
    (tcByte adB (UInt8.ofNat value) >>> 5).toNat = adB ∧
      ((tcByte adB (UInt8.ofNat value) >>> 3) &&& 0x3).toNat = value := by
  decide +kernel

theorem toNat_and_one (b : UInt8) : (b &&& 0x1).toNat = (b &&& 0x1 == 1).toNat := by
  have hbit : (b &&& 0x1).toNat = b.toNat % 2 := by
    rw [UInt8.toNat_and]
    exact Nat.and_one_is_mod _
  have hone : (b &&& 0x1 == 1) = (b.toNat % 2 == 1) := by
    rw [Bool.eq_iff_iff, beq_iff_eq, beq_iff_eq, ← UInt8.toNat_inj, hbit]
    rfl
  rw [hbit, hone]
  rcases Nat.mod_two_eq_zero_or_one b.toNat with h | h <;> rw [h] <;> rfl

/-- The masks of a TVC, once by the path and once by the handler. -/
theorem tvcByte_fields : ∀ (address : Fin 32) (magnitude : Fin 128),
    (UInt8.ofNat address &&& 0x1F &&& 0x1F).toNat = address ∧
      (UInt8.ofNat magnitude &&& 0x7F &&& 0x7F).toNat = magnitude := by
  decide +kernel

/-! ## Acknowledgements -/

namespace System

variable {s : System} {p : PathId}

/-- An acknowledgement is noted on every path there is. -/
theorem commandSent_receivedCommandACK (hp : s.configured p) (type : String) (addr : Int) :
    ((s.receivedCommandACK type addr).path p).commandSent =
      (s.path p).commandSent.filter fun cmd => !(cmd.type == type && cmd.addr == addr) := by
  simp only [receivedCommandACK, List.foldl_cons, List.foldl_nil]
  cases p with
  | A =>
    rw [if_pos hp]
    split_ifs <;> simp [Link.receivedCommandACK]
  | B =>
    have hB : ∀ u : System, (if s.configured .A then s.modifyLink .A
        (Link.receivedCommandACK type addr) else s) = u → u.configured .B := by
      rintro u rfl
      split_ifs <;> exact hp
    rw [if_pos (hB _ rfl)]
    split_ifs <;> simp [Link.receivedCommandACK]

/-- The handler of the acknowledgements of a type of commands. -/
def handleACK (type : String) (data : List UInt8) (s : System) : Result (List Reading × System) :=
  if type = "TC" then s.handleATC data else s.handleATVC data

/-- **The message acknowledges the command**: it reads as address and value, whatever the state, and
removes the command from its path. -/
structure Acknowledges (p : PathId) (cmd : CommandMessage) (value : Int) (data : List UInt8) :
    Prop where
  reads : ∃ (n : Nat) (invalid : Bool), cmd.addr = n ∧ ∀ s : System,
    s.hnz.conf.Reads cmd.type ((s.handleACK cmd.type data).map Prod.fst) [⟨n, value, invalid⟩]
  removes : ∀ {s t : System} {readings}, s.configured p →
    s.handleACK cmd.type data = .ok (readings, t) → cmd ∉ (t.path p).commandSent

/-- An acknowledgement whose handler makes one reading, if the point has a label. -/
theorem Acknowledges.of_handleACK {type : String} {data : List UInt8} {n : Nat} {value : Int}
    (invalid : Bool) {deadline : Nat} {r : System → Reading}
    (h : ∀ s : System, s.handleACK type data =
      .ok (if s.hnz.conf.getLabel type n = "" then [] else [r s], s.receivedCommandACK type n))
    (hr : ∀ s : System, s.hnz.conf.Shows type (r s) ⟨n, value, invalid⟩) :
    Acknowledges p ⟨type, n, deadline⟩ value data where
  reads := by
    refine ⟨n, invalid, rfl, fun s => ?_⟩
    rw [h]
    exact HNZConf.reads_ite (hr s)
  removes {s t readings} hp hack := by
    obtain ⟨-, rfl⟩ := Prod.mk.inj (Except.ok.inj ((h s).symm.trans hack))
    rw [commandSent_receivedCommandACK hp, List.mem_filter]
    simp

/-- The acknowledgement of a TC. -/
theorem handleATC_eq (code adO second : UInt8) :
    s.handleATC [code, adO, second] =
      .ok (if s.hnz.conf.getLabel "TC" (10 * adO.toNat + (second >>> 5).toNat) = "" then [] else
        [prepareReading
          { label := s.hnz.conf.getLabel "TC" (10 * adO.toNat + (second >>> 5).toNat)
            msgCode := "TC", stationAddr := s.hnz.remoteAddress
            msgAddress := 10 * adO.toNat + (second >>> 5).toNat
            value := ((second >>> 3) &&& 0x3).toNat
            valid := if second &&& 0x7 = 0x1 then 0 else 1 }],
        s.receivedCommandACK "TC" (10 * adO.toNat + (second >>> 5).toNat : Nat)) := by
  have hadB : (second >>> 5).toNat < 10 := by
    have := second.toNat_lt
    change second.toNat >>> 5 < 10
    rw [Nat.shiftRight_eq_div_pow]
    omega
  have haddress := concatAddress_eq (by have := adO.toNat_lt; omega : adO.toNat ≤ 256) hadB
  have hadO : readByte [code, adO, second] 1 = pure adO := rfl
  have hsecond : readByte [code, adO, second] 2 = pure second := rfl
  simp only [handleATC, hadO, hsecond, pure_bind, haddress, hnz_receivedCommandACK]
  split_ifs <;> rfl

theorem acknowledges_handleATC (code adO second : UInt8) (deadline : Nat) :
    Acknowledges p ⟨"TC", (10 * adO.toNat + (second >>> 5).toNat : Nat), deadline⟩
      ((second >>> 3) &&& 0x3).toNat [code, adO, second] :=
  .of_handleACK (!decide (second &&& 0x7 = 0x1)) (fun _ => handleATC_eq code adO second)
    fun _ => shows_prepareReading _ rfl rfl rfl rfl (by split_ifs with h <;> simp [h]) rfl

/-- The acknowledgement of a TVC. -/
theorem handleATVC_eq (code first second third : UInt8) :
    s.handleATVC [code, first, second, third] =
      .ok (if s.hnz.conf.getLabel "TVC" (first &&& 0x1F).toNat = "" then [] else
        [prepareReading
          { label := s.hnz.conf.getLabel "TVC" (first &&& 0x1F).toNat, msgCode := "TVC"
            stationAddr := s.hnz.remoteAddress, msgAddress := (first &&& 0x1F).toNat
            value := if third >>> 7 &&& 0x1 = 1 then -(second &&& 0x7F).toNat
              else (second &&& 0x7F).toNat
            valid := (first >>> 6 &&& 0x1).toNat }],
        s.receivedCommandACK "TVC" (first &&& 0x1F).toNat) := by
  have hfirst : readByte [code, first, second, third] 1 = pure first := rfl
  have hsecond : readByte [code, first, second, third] 2 = pure second := rfl
  have hthird : readByte [code, first, second, third] 3 = pure third := rfl
  simp only [handleATVC, hfirst, hsecond, hthird, pure_bind, hnz_receivedCommandACK]
  split_ifs <;> rfl

theorem acknowledges_handleATVC (code first second third : UInt8) (deadline : Nat) :
    Acknowledges p ⟨"TVC", (first &&& 0x1F).toNat, deadline⟩
      (if third >>> 7 &&& 0x1 = 1 then -(second &&& 0x7F).toNat else (second &&& 0x7F).toNat)
      [code, first, second, third] :=
  .of_handleACK (first >>> 6 &&& 0x1 == 1) (fun _ => handleATVC_eq code first second third)
    fun _ => shows_prepareReading _ rfl rfl rfl rfl (toNat_and_one _) rfl

end System

/-! ## The echo of a command -/

section

variable [Platform] {p : PathId} {address value : Int}

/-- The acknowledgement that echoes the bytes of a command. -/
def echo (type : String) (payload : List UInt8) : List UInt8 :=
  (if type = "TC" then Platform.tcackCode else Platform.tvcackCode) :: payload.tail

/-- The address of a TC is written in decimal, and cut before its last digit. -/
theorem tcMessage_natCast {n : Nat} (hn : n < 2 ^ 31) (value : UInt8) :
    System.tcMessage n value = [Platform.tcCode, u8 (n / 10 : Nat), tcByte (n % 10) value] := by
  obtain ⟨ds, hds, hread⟩ := Decimal.zero_cons_toDigits n
  have hstoi : stoi ds = some ((n / 10 : Nat) : Int) := by
    rw [stoi, hread]
    exact if_pos (by omega)
  have hprint : '0' :: Decimal.print (n : Int) = ds ++ [(n % 10).digitChar] := hds
  rw [System.tcMessage, hprint, List.dropLast_concat, hstoi, List.getLastD_concat,
    toNat_digitChar (Nat.mod_lt _ (by decide))]
  rfl

/-- **The echo of a TC acknowledges it.** -/
theorem acknowledges_tc (h : Fits "TC" address value) (deadline : Nat) :
    System.Acknowledges p ⟨"TC", address, deadline⟩ value
      (echo "TC" (System.tcMessage address (u8 value))) := by
  obtain ⟨ha₀, ha, hdigit, hv₀, hv⟩ := fits_tc_iff.mp h
  lift address to Nat using ha₀
  lift value to Nat using hv₀
  obtain ⟨hadB, hval⟩ := tcByte_fields ⟨address % 10, by omega⟩ ⟨value, by omega⟩
  have hvalue : u8 (value : Int) = UInt8.ofNat value := by
    rw [u8]
    congr 1
    omega
  have hadO : (u8 (address / 10 : Nat)).toNat = address / 10 := by
    rw [u8, UInt8.toNat_ofNat']
    omega
  have hack := System.acknowledges_handleATC (p := p) Platform.tcackCode
    (u8 (address / 10 : Nat)) (tcByte (address % 10) (UInt8.ofNat value)) deadline
  rw [hadB, hval, hadO, show 10 * (address / 10) + address % 10 = address by omega] at hack
  rw [tcMessage_natCast (by omega), hvalue]
  exact hack

/-- **The echo of a TVC acknowledges it.** -/
theorem acknowledges_tvc (h : Fits "TVC" address value) (deadline : Nat) :
    System.Acknowledges p ⟨"TVC", address, deadline⟩ value
      (echo "TVC" (Link.tvcPayload (u8 address) value)) := by
  obtain ⟨ha₀, ha, hv₀, hv⟩ := fits_tvc_iff.mp h
  lift address to Nat using ha₀
  obtain ⟨haddress, hmagnitude⟩ := tvcByte_fields ⟨address, by omega⟩ ⟨value.natAbs, by omega⟩
  have hbyte : u8 (address : Int) = UInt8.ofNat address := by
    rw [u8]
    congr 1
    omega
  have habs : u8 (if 0 ≤ value then value else -value) = UInt8.ofNat value.natAbs := by
    rw [u8]
    congr 1
    omega
  have hack := System.acknowledges_handleATVC (p := p) Platform.tvcackCode
    (UInt8.ofNat address &&& 0x1F) (UInt8.ofNat value.natAbs &&& 0x7F)
    (if 0 ≤ value then 0 else 0x80) deadline
  rw [haddress, hmagnitude] at hack
  have hvalue : (if (if 0 ≤ value then 0 else 0x80 : UInt8) >>> 7 &&& 0x1 = 1 then
      -(value.natAbs : Int) else value.natAbs) = value := by
    rcases le_or_gt 0 value with hpos | hneg
    · rw [if_pos hpos, if_neg (by decide)]
      omega
    · simp only [if_neg (not_le.mpr hneg)]
      rw [if_pos (by decide)]
      omega
  rw [hvalue] at hack
  rw [Link.tvcPayload, hbyte, habs]
  exact hack

/-! ## The operation -/

/-- The bytes of a command. -/
def commandPayload (type : String) (address value : Int) : List UInt8 :=
  if type = "TC" then System.tcMessage address (u8 value) else Link.tvcPayload (u8 address) value

/-- The address a command is registered under. -/
def commandAddress (type : String) (address : Int) : Int :=
  if type = "TC" then address else (u8 address).toNat

theorem acknowledges_echo {type : String} (h : Fits type address value) (deadline : Nat) :
    System.Acknowledges p ⟨type, commandAddress type address, deadline⟩ value
      (echo type (commandPayload type address value)) ∧ commandAddress type address = address := by
  obtain ⟨rfl, -⟩ | ⟨rfl, hfits⟩ := id h
  · exact ⟨acknowledges_tc h deadline, rfl⟩
  · have haddress : commandAddress "TVC" address = address := by
      change ((u8 address).toNat : Int) = address
      rw [u8, UInt8.toNat_ofNat']
      omega
    rw [haddress]
    exact ⟨acknowledges_tvc h deadline, rfl⟩

namespace System

variable {s t : System} {params : List (String × String)} {now : Instant} {type : String}

/-- Without a command, or without an active path, the request is refused. -/
theorem operation_refused (h : commandRequest params = none ∨ s.connection.activePath = none) :
    s.operation "HNZCommand" params now = (false, s) := by
  have hrefused : (s.processCommandOperation params now).1 ≠ 0 ∧
      (s.processCommandOperation params now).2 = s := by
    rcases h with h | h
    · rw [processCommandOperation_of_none h]
      exact ⟨one_ne_zero, rfl⟩
    · obtain hrefused | ⟨-, -, p, -, -, hp, -⟩ := processCommandOperation_cases params now s
      · exact hrefused
      · rw [h] at hp
        cases hp
  rw [operation, if_pos rfl]
  exact Prod.ext (beq_eq_false_iff_ne.mpr hrefused.1) hrefused.2

/-- **A command on the active path**: its bytes are submitted, and it is registered if they were
sent. -/
theorem operation_command (hrequest : commandRequest params = some (type, address, value))
    (hp : s.connection.activePath = some p) (htype : type = "TC" ∨ type = "TVC") :
    s.operation "HNZCommand" params now =
      ((s.sendInfo p now (commandPayload type address value)).1,
        (s.sendInfo p now (commandPayload type address value)).2.modifyLink p
          (Link.registerCommandIfSent (s.pathConf p) now.ms type
            (s.sendInfo p now (commandPayload type address value)).1
            (commandAddress type address))) := by
  have hsuccess (b : Bool) : ((if b then 0 else 2 : Nat) == 0) = b := by cases b <;> rfl
  simp only [commandRequest] at hrequest
  split_ifs at hrequest with hempty
  split at hrequest
  · next haddress hvalue =>
    cases hrequest
    rw [operation, if_pos rfl]
    unfold processCommandOperation
    simp only [if_neg hempty, haddress, hvalue, hp]
    rcases htype with htype | htype
    · simp only [htype, if_true, hsuccess]
      rfl
    · simp only [htype, if_true, hsuccess, String.reduceEq, if_false]
      rfl
  · cases hrequest

/-- The operation succeeds exactly if the window is open. -/
theorem operation_command_iff (h : s.Reachable)
    (hrequest : commandRequest params = some (type, address, value))
    (hp : s.connection.activePath = some p) (htype : type = "TC" ∨ type = "TVC") :
    (s.operation "HNZCommand" params now).1 = true ↔
      (s.path p).msgSent.length < (s.pathConf p).anticipationRatio := by
  rw [operation_command hrequest hp htype, sendInfo, Link.sendInfo_eq,
    if_pos (Link.admits_of_connected (h.active hp).1 _)]
  split_ifs with hroom <;> simp [hroom]

/-- The path after a command. -/
theorem link_operation_command (now : Instant)
    (hrequest : commandRequest params = some (type, address, value))
    (hp : s.connection.activePath = some p) (htype : type = "TC" ∨ type = "TVC") :
    ((s.operation "HNZCommand" params now).2.path p).toLink =
      Link.registerCommandIfSent (s.pathConf p) now.ms type
        (s.operation "HNZCommand" params now).1 (commandAddress type address)
        ((s.path p).toLink.sendInfo (s.pathConf p) now.ms
          (commandPayload type address value)).2 := by
  rw [operation_command hrequest hp htype, link_modifyLink, if_pos rfl, sendInfo, link_modifyLink,
    if_pos rfl]

/-- **A command is sent faithfully**: one information frame leaves on the path, one entry is
registered, and the echo of the frame reads as the command and removes the entry. -/
def SentFaithfully (type : String) (address value : Int) (p : PathId) (s t : System) : Prop :=
  ∃ payload cmd,
    (t.path p).frames = (s.path p).frames ++ [⟨(s.pathConf p).addressARP,
      infoType (s.path p).nr (s.path p).ns false :: payload, some (s.path p).taken.length⟩] ∧
    (t.path p).commandSent = cmd :: (s.path p).commandSent ∧
    cmd.type = type ∧ cmd.addr = address ∧ Acknowledges p cmd value (echo type payload)

/-- **The command is sent faithfully if the operation succeeds**, and a request that is not well
formed is refused: nothing is sent, and nothing kept for later. -/
def FaithfulOrRefused (params : List (String × String)) (now : Instant) (s : System) : Prop :=
  ((s.operation "HNZCommand" params now).1 = true → ∃ address value p,
    Decimal.whole (commandParam params "co_addr").toList = some address ∧
      Decimal.whole (commandParam params "co_value").toList = some value ∧
      s.connection.activePath = some p ∧
      SentFaithfully (commandParam params "co_type") address value p s
        (s.operation "HNZCommand" params now).2) ∧
    (¬WellFormed params → s.operation "HNZCommand" params now = (false, s))

/-- A well-formed command that is sent is sent faithfully. -/
theorem sentFaithfully_operation (hrequest : commandRequest params = some (type, address, value))
    (hp : s.connection.activePath = some p) (hfits : Fits type address value)
    (hsent : (s.operation "HNZCommand" params now).1 = true) :
    SentFaithfully type address value p s (s.operation "HNZCommand" params now).2 := by
  have htype : type = "TC" ∨ type = "TVC" := hfits.imp And.left And.left
  have hlink := link_operation_command now hrequest hp htype
  rw [hsent] at hlink
  rw [operation_command hrequest hp htype] at hsent
  obtain ⟨hframes, hcommands⟩ := Link.sendInfo_of_sent hsent
  obtain ⟨hack, haddress⟩ :=
    acknowledges_echo (p := p) hfits (u64 (now.ms + (s.pathConf p).cAckTimeMax))
  refine ⟨commandPayload type address value, _, ?_, ?_, rfl, haddress, hack⟩
  · exact (congrArg Link.frames hlink).trans hframes
  · exact (congrArg Link.commandSent hlink).trans (congrArg _ hcommands)

/-- **A request is sent faithfully or refused** exactly if it is well formed, or it is refused before
it gets to a path: it is incomplete, its address or its value does not start like a number, or there
is no active path. -/
theorem faithfulOrRefused_iff (h : s.Reachable)
    (htype : commandParam params "co_type" = "TC" ∨ commandParam params "co_type" = "TVC") :
    s.FaithfulOrRefused params now ↔
      commandRequest params = none ∨ s.connection.activePath = none ∨ WellFormed params := by
  constructor
  · rintro ⟨-, hrefused⟩
    cases hrequest : commandRequest params with
    | none => exact .inl rfl
    | some request =>
      obtain ⟨type, address, value⟩ := request
      cases hp : s.connection.activePath with
      | none => exact .inr (.inl rfl)
      | some p =>
        refine .inr (.inr ?_)
        by_contra hbad
        obtain ⟨rfl, -⟩ := commandRequest_eq_some hrequest
        have hlink := link_operation_command now hrequest hp htype
        rw [hrefused hbad] at hlink
        have htaken := (Link.Step.submit (c := s.pathConf p) now.ms
          (commandPayload (commandParam params "co_type") address value)
          (s.path p).toLink).taken
        have hadmits := Link.admits_of_connected (c := s.pathConf p) (h.active hp).1
          (commandPayload (commandParam params "co_type") address value)
        rw [Link.Op.takes, if_pos hadmits] at htaken
        exact absurd ((congrArg Link.taken hlink).trans htaken) (by simp)
  · intro hcond
    constructor
    · intro hsent
      cases hrequest : commandRequest params with
      | none =>
        rw [operation_refused (.inl hrequest)] at hsent
        cases hsent
      | some request =>
        cases hp : s.connection.activePath with
        | none =>
          rw [operation_refused (.inr hp)] at hsent
          cases hsent
        | some p =>
          have hwf := (hcond.resolve_left (by simp [hrequest])).resolve_left (by simp [hp])
          obtain ⟨haddress, hvalue, hfits⟩ := hwf.fits hrequest
          obtain ⟨htype', -⟩ := commandRequest_eq_some hrequest
          rw [htype']
          exact ⟨request.2.1, request.2.2, p, haddress, hvalue, rfl,
            sentFaithfully_operation hrequest hp hfits hsent⟩
    · intro hbad
      refine operation_refused ?_
      rcases hcond with hcond | hcond | hcond
      · exact .inl hcond
      · exact .inr hcond
      · exact absurd hcond hbad

end System

end

/-! ## A last digit that is not octal -/

namespace System

open Sample

/-- A request for a TC. -/
def tcRequest (address value : String) : List (String × String) :=
  [("co_type", "TC"), ("co_addr", address), ("co_value", value)]

theorem anticipationRatio_sample : (HNZConf.sample.pathConf .A).anticipationRatio = 3 := by
  decide +kernel

/-- Path A is fully connected. -/
def connected : List Plugin.Call :=
  Plugin.listening ++ [.event (.protocol .A .receivedUa 0)]

set_option maxRecDepth 8000 in
/-- A TC to the address 511 is sent faithfully. -/
theorem faithfulOrRefused_511 :
    ∃ s : System, s.Reachable ∧ (s.operation "HNZCommand" (tcRequest "511" "1") 0).1 = true ∧
      s.FaithfulOrRefused (tcRequest "511" "1") 0 := by
  let pl : Plugin := (exec Plugin.step {} connected).get rfl
  let s : System := ⟨pl.hnz, pl.connection.get rfl⟩
  have hs : s.Reachable := ⟨rfl, connected, pl, run_det_iff.mpr rfl, rfl, rfl⟩
  have hsent : (s.operation "HNZCommand" (tcRequest "511" "1") 0).1 = true := by
    have hrequest : commandRequest (tcRequest "511" "1") = some ("TC", 511, 1) := by decide
    have hp : s.connection.activePath = some .A := rfl
    have hempty : (s.path .A).msgSent = [] := rfl
    have hratio : (s.pathConf .A).anticipationRatio = 3 := anticipationRatio_sample
    rw [operation_command_iff hs hrequest hp (.inl rfl), hempty, hratio]
    decide
  refine ⟨s, hs, hsent, (faithfulOrRefused_iff hs (.inl rfl)).mpr ?_⟩
  exact .inr (.inr ⟨511, 1, rfl, rfl, fits_tc_iff.mpr (by decide)⟩)

set_option maxRecDepth 8000 in
/-- A TC to the address 118 is sent, with the bytes of the address 110. -/
theorem not_faithfulOrRefused_118 :
    commandPayload "TC" 118 1 = commandPayload "TC" 110 1 ∧
      ∃ s : System, s.Reachable ∧ (s.operation "HNZCommand" (tcRequest "118" "1") 0).1 = true ∧
        ¬s.FaithfulOrRefused (tcRequest "118" "1") 0 := by
  refine ⟨by decide +kernel, ?_⟩
  let pl : Plugin := (exec Plugin.step {} connected).get rfl
  let s : System := ⟨pl.hnz, pl.connection.get rfl⟩
  have hs : s.Reachable := ⟨rfl, connected, pl, run_det_iff.mpr rfl, rfl, rfl⟩
  have hbad : ¬WellFormed (tcRequest "118" "1") := by
    rintro ⟨address, value, haddress, -, hfits⟩
    have hwhole : Decimal.whole (commandParam (tcRequest "118" "1") "co_addr").toList = some 118 :=
      by decide
    obtain rfl := Option.some.inj (hwhole.symm.trans haddress)
    exact absurd (fits_tc_iff.mp hfits).2.2.1 (by decide)
  have hsent : (s.operation "HNZCommand" (tcRequest "118" "1") 0).1 = true := by
    have hrequest : commandRequest (tcRequest "118" "1") = some ("TC", 118, 1) := by decide
    have hp : s.connection.activePath = some .A := rfl
    have hempty : (s.path .A).msgSent = [] := rfl
    have hratio : (s.pathConf .A).anticipationRatio = 3 := anticipationRatio_sample
    rw [operation_command_iff hs hrequest hp (.inl rfl), hempty, hratio]
    decide
  refine ⟨s, hs, hsent, fun h => ?_⟩
  rw [h.2 hbad] at hsent
  cases hsent

end System

end Hnz
