import HnzSouth.Behaviour.Frames
import HnzSouth.Model.Plugin
import HnzSouth.Model.SystemLemmas
import HnzSouth.Reception.Splitting

/-!
# Reception/Rejection — what a rejected frame leaves behind

A frame may be rejected for its address, its direction, the state of the path, or its number
(`Rejects`).  All but one of these tests come before any effect.  The number of an information frame
is tested last, after the path that extracts has walked through the payload; and there a BULLE marks
the path as alive.  So a rejected frame leaves no trace, unless it is an information frame of that
path whose payload cannot be cut, or holds a BULLE (`leavesNoTrace_iff`).
-/

namespace Hnz

open Machinery

/-! ## What extraction writes -/

section
variable [Platform]

/-- The message is read as the BULLE the path receives. -/
def BulleFormat.IsBULLE (bulle : BulleFormat) (m : List UInt8) : Prop :=
  fixedLength bulle.first = none ∧ m = [bulle.first, bulle.second]

instance (bulle : BulleFormat) (m : List UInt8) : Decidable (bulle.IsBULLE m) :=
  inferInstanceAs (Decidable (_ ∧ _))

/-- The link after the messages have been extracted: a BULLE marks it as alive. -/
def Link.heard (bulle : BulleFormat) (now : Int) (messages : List (List UInt8)) (l : Link) : Link :=
  if ∃ m ∈ messages, bulle.IsBULLE m then l.receivedBULLE now else l

variable {c : PathConf} {now : Int} {data message : List UInt8} {messages : List (List UInt8)}
  {l l' : Link} {t : UInt8} {len : Int}

theorem Link.heard_singleton (bulle : BulleFormat) :
    l.heard bulle now [message] = if bulle.IsBULLE message then l.receivedBULLE now else l := by
  simp [heard]

/-- Marking a path as alive twice is the same as once. -/
theorem Link.heard_cons (bulle : BulleFormat) :
    (l.heard bulle now [message]).heard bulle now messages =
      l.heard bulle now (message :: messages) := by
  rw [heard_singleton]
  simp only [heard, List.mem_cons, exists_eq_or_imp]
  by_cases h₁ : bulle.IsBULLE message <;> by_cases h₂ : ∃ m ∈ messages, bulle.IsBULLE m <;>
    simp [h₁, h₂, receivedBULLE]

/-- **The three kinds of message** at the head of a payload: known, BULLE, unknown. -/
theorem nextLength_cases {payloadSize : Int}
    (h : nextLength c now t data payloadSize l = .ok (len, l')) :
    ((fixedLength t).isSome ∧ l' = l) ∨
      (fixedLength t = none ∧ t = c.testMsgReceive.first ∧
        data[1]? = some c.testMsgReceive.second ∧ len = 2 ∧ l' = l.receivedBULLE now) ∨
      (fixedLength t = none ∧
        ¬(t = c.testMsgReceive.first ∧ data[1]? = some c.testMsgReceive.second) ∧
        len = payloadSize ∧ l' = l) := by
  unfold nextLength at h
  cases hf : fixedLength t with
  | some k =>
    simp only [hf] at h
    cases h
    exact .inl ⟨rfl, rfl⟩
  | none =>
    simp only [hf, isReceivedBULLE, bind_eq_ok] at h
    obtain ⟨b, hb, h⟩ := h
    split_ifs at hb with hfirst
    · simp only [bind_eq_ok, readByte_eq_ok] at hb
      obtain ⟨second, hsecond, hb⟩ := hb
      cases hb
      by_cases heq : second = c.testMsgReceive.second
      · rw [if_pos (beq_iff_eq.mpr heq)] at h
        cases h
        exact .inr (.inl ⟨rfl, hfirst, heq ▸ hsecond, rfl, rfl⟩)
      · rw [if_neg (by simpa using heq)] at h
        cases h
        refine .inr (.inr ⟨rfl, fun hbulle => heq ?_, rfl, rfl⟩)
        exact Option.some.inj (hsecond.symm.trans hbulle.2)
    · cases hb
      rw [if_neg (by decide)] at h
      cases h
      exact .inr (.inr ⟨rfl, fun hbulle => hfirst hbulle.1, rfl, rfl⟩)

/-- The mark that one message leaves. -/
theorem heard_of_nextLength {after : List UInt8} {n : Nat} (ht : readByte (data ++ after) 0 = .ok t)
    (hlen : nextLength c now t (data ++ after) data.length l = .ok ((n : Int), l')) (hpos : 0 < n)
    (hn : n ≤ data.length) : l' = l.heard c.testMsgReceive now [data.take n] := by
  rw [readByte_eq_ok] at ht
  have hfirst : (data.take n)[0]? = some t := by
    rw [List.getElem?_take_of_lt hpos, ← ht, List.getElem?_append_left (hpos.trans_le hn)]
  rw [Link.heard_singleton]
  obtain ⟨hknown, rfl⟩ | ⟨hnone, rfl, hsecond, hn', rfl⟩ | ⟨hnone, hne, hn', rfl⟩ :=
    nextLength_cases hlen
  · refine (if_neg fun ⟨hnone, heq⟩ => ?_).symm
    rw [heq, List.getElem?_cons_zero, Option.some.injEq] at hfirst
    simp [← hfirst, hnone] at hknown
  · refine (if_pos ⟨hnone, ?_⟩).symm
    obtain rfl : n = 2 := by exact_mod_cast hn'
    rcases data with - | ⟨a, - | ⟨b, rest⟩⟩ <;> simp_all
  · refine (if_neg fun ⟨_, heq⟩ => hne ?_).symm
    obtain rfl : n = data.length := by exact_mod_cast hn'
    rw [List.take_length] at heq
    simp [heq] at ht ⊢
    exact ht.symm

/-- An empty payload leaves none. -/
theorem nextLength_zero {data : List UInt8} {payloadSize : Int}
    (hlen : nextLength c now t data payloadSize l = .ok (0, l')) : l' = l := by
  obtain ⟨hknown, rfl⟩ | ⟨-, -, -, hn, -⟩ | ⟨-, -, -, rfl⟩ := nextLength_cases hlen
  · rfl
  · cases hn
  · rfl

/-- **Extraction writes the mark of its messages, and nothing else.** -/
theorem heard_of_extractFrom {after : List UInt8} {fuel : Nat} (hafter : after.length ≤ 2)
    (hsize : data.length < 2 ^ 31)
    (h : extractFrom c now fuel (data ++ after) data.length l = .ok (messages, l')) :
    l' = l.heard c.testMsgReceive now messages := by
  induction fuel generalizing data l messages with
  | zero => cases h
  | succ fuel ih =>
    obtain ⟨k, t, n, l₁, hk, ht, hlen, hn, h⟩ := extractFrom_cases hafter hsize h
    obtain rfl : fuel = k := Nat.succ.inj hk
    obtain ⟨-, rfl, rfl, rfl⟩ | ⟨hne, rfl, rfl, rfl⟩ | ⟨hlt, rest, rfl, hrest⟩ := h
    · rw [nextLength_zero hlen]
      simp [Link.heard]
    · rw [heard_of_nextLength ht hlen (announced_pos hne hn) le_rfl, List.take_length]
    · have hne : data ≠ [] := List.ne_nil_of_length_pos (Nat.zero_lt_of_lt hlt)
      have hmark := heard_of_nextLength ht hlen (announced_pos hne hn) hlt.le
      rw [ih (by rw [List.length_drop]; omega) hrest, hmark, Link.heard_cons]

/-- The payload of a frame. -/
theorem heard_of_extractMessages (hsize : data.length < 2 ^ 31)
    (h : extractMessages c now (data.drop 2) (data.length - 4) l = .ok (messages, l')) :
    l' = l.heard c.testMsgReceive now messages := by
  obtain ⟨hlong, -⟩ := cut_of_extractMessages hsize h
  rw [extractMessages, drop_two_eq hlong, ← length_payloadOf hlong] at h
  exact heard_of_extractFrom (length_crcOf data) (length_payloadOf_lt hsize) h

end

/-! ## Numbers that are not valid -/

namespace Link

variable {c : PathConf} {now : Int} {l : Link} {ns nr : Fin 8} {f : Bool}

/-- A number that is not valid changes nothing. -/
theorem receivedRR_of_not_valid (h : l.isNRValid nr = false) :
    l.receivedRR c now nr f = .ok (false, l) := by
  have hne : nr ≠ l.nrr := by
    rintro rfl
    simp [isNRValid] at h
  simp [receivedRR, hne, h, pure, Except.pure]

theorem sendRR_of_not_valid (h : l.isNRValid nr = false) :
    l.sendRR c now f ns nr = .ok (false, l) := by
  rw [sendRR, receivedRR_of_not_valid h]
  rfl

/-- A repetition that was not asked for changes nothing. -/
theorem receivedRR_of_unsolicited (h : l.repeats = 0) :
    ∃ b, l.receivedRR c now nr true = .ok (b, l) := by
  unfold receivedRR
  split_ifs <;> simp_all [pure, Except.pure]

end Link

/-! ## Rejected frames -/

namespace System

section
variable [Platform] (s : System) (p : PathId)

/-- **A rejected frame**: the address or the direction is wrong; or it is an information frame or an
RR, and the path has no connection, an information frame comes too early, its number or the one of
the RR is not valid, or the RR is repeated without having been asked for. -/
def Rejects : List UInt8 → Prop
  | first :: type :: _ =>
    (s.pathConf p).remoteAddress ≠ (first >>> 2).toNat ∨
      (first >>> 1) &&& 0x01 ≠ expectedDirectionBit type ∨
      (type ≠ Platform.uaCode ∧ type ≠ Platform.sarmCode ∧
        ((s.path p).protocolState = .connection ∨
          (type &&& 0x01 = 0 ∧ (s.path p).protocolState = .outputConnected) ∨
          (s.path p).isNRValid (nrField type) = false ∨
          (type &&& 0x01 ≠ 0 ∧ pfField type = true ∧ (s.path p).repeats = 0)))
  | _ => False

/-- **The frame passes every test up to its number**, as an information frame whose messages the path
extracts. -/
def Walks (data : List UInt8) : Prop :=
  (∃ type, s.frameKind p data = some (.info type)) ∧
    (s.path p).protocolState ≠ .outputConnected ∧ s.canPathExtractMessage p

/-- **The walk through the payload changes nothing**: the frame has room for its CRC, its payload is
cut into messages — or is empty, and its CRC is not read as a message —, and none of them is the
BULLE, or the path is marked as alive at that time already. -/
def Unmarked (data : List UInt8) (now : Instant) : Prop :=
  4 ≤ data.length ∧ ∃ messages,
    Cut (s.pathConf p).testMsgReceive (crcOf data) (payloadOf data) messages ∧
      ((∃ m ∈ messages, (s.pathConf p).testMsgReceive.IsBULLE m) → (s.path p).lastMsgTime = now.ms)

end

section
variable {s : System} {p : PathId}

theorem modifyLink_self : (s.modifyLink p fun _ => (s.path p).toLink) = s := by
  simp [modifyLink, modifyPath, path]

theorem modifyLink_eq_self_iff {l : Link} :
    (s.modifyLink p fun _ => l) = s ↔ l = (s.path p).toLink := by
  refine ⟨fun h => ?_, fun h => by rw [h, modifyLink_self]⟩
  rw [← h, link_modifyLink, if_pos rfl]

end

variable [Platform] {s t : System} {p : PathId} {now : Instant} {data : List UInt8} {type : UInt8}

/-- The tests of a frame, in their order. -/
theorem analyzeFrame_cons {first : UInt8} {rest : List UInt8} :
    s.analyzeFrame p (first :: type :: rest) now =
      if (s.pathConf p).remoteAddress ≠ (first >>> 2).toNat then .ok ([], s)
      else if (first >>> 1) &&& 0x01 ≠ expectedDirectionBit type then .ok ([], s)
      else if type = Platform.uaCode then .ok ([], s.receivedUA p now)
      else if type = Platform.sarmCode then .ok ([], s.receivedSARM p now)
      else if (s.path p).protocolState = .connection then .ok ([], s)
      else if type &&& 0x01 = 0 then s.receivedINFO p (first :: type :: rest) now
      else (s.receivedRR p type now).map fun u => ([], u) := by
  have hrr : ∀ x : Result System, (do return ([], ← x) : Result (List (List UInt8) × System)) =
      x.map fun u => ([], u) := fun x => by cases x <;> rfl
  rw [← hrr]
  rfl

/-- The two first bytes decide what a frame is. -/
theorem exists_of_frameKind (h : s.frameKind p data = some (.info type)) :
    ∃ first rest, data = first :: type :: rest ∧
      (s.pathConf p).remoteAddress = (first >>> 2).toNat ∧
      (first >>> 1) &&& 0x01 = expectedDirectionBit type ∧ type ≠ Platform.uaCode ∧
      type ≠ Platform.sarmCode ∧ (s.path p).protocolState ≠ .connection ∧ type &&& 0x01 = 0 := by
  unfold frameKind at h
  split at h
  · next first type' rest =>
    split_ifs at h with h₁ h₂ h₃ h₄ h₅ h₆ <;> cases h
    exact ⟨first, rest, rfl, not_not.mp h₁, not_not.mp h₂, h₃, h₄, h₅, h₆⟩
  · cases h

/-- **An information frame with a number that is not valid** is walked through, and forgotten. -/
theorem receivedINFO_of_not_valid {first : UInt8} {rest : List UInt8}
    (hout : (s.path p).protocolState ≠ .outputConnected)
    (hnr : (s.path p).isNRValid (nrField type) = false) :
    s.receivedINFO p (first :: type :: rest) now =
      (s.extract p (first :: type :: rest) now).map fun x => ([], x.2) := by
  have h₁ : readByte (first :: type :: rest) 1 = .ok type := rfl
  simp only [receivedINFO, h₁, hout, bind, Except.bind, if_false]
  cases hx : s.extract p (first :: type :: rest) now with
  | error e => rfl
  | ok x =>
    obtain ⟨messages, u⟩ := x
    obtain ⟨l, hcore, hu⟩ := extract_cases hx
    have hlink : (u.path p).toLink = l := by rw [hu, link_modifyLink, if_pos rfl]
    have hnot : (u.path p).toLink.isNRValid (nrField type) = false := by
      rw [hlink, Link.isNRValid_of_core hcore, hnr]
    simp only [Link.sendRR_of_not_valid hnot, modifyLink_self]
    rfl

/-- The walk changes nothing if the payload can be cut, and the mark is no news. -/
theorem extract_eq_self_iff (hsize : data.length < 2 ^ 31) (hcan : s.canPathExtractMessage p) :
    ((s.extract p data now).map fun x => (([], x.2) : List (List UInt8) × System)) = .ok ([], s) ↔
      s.Unmarked p data now := by
  rw [extract, if_pos hcan, map_eq_ok]
  constructor
  · rintro ⟨⟨messages, u⟩, h, hu⟩
    simp only [bind_eq_ok] at h
    obtain ⟨⟨ms, l⟩, hl, h⟩ := h
    cases h
    obtain ⟨hlong, hcut⟩ := cut_of_extractMessages hsize hl
    refine ⟨hlong, ms, hcut, fun hbulle => ?_⟩
    have hself := modifyLink_eq_self_iff.mp (Prod.ext_iff.mp hu).2
    rw [heard_of_extractMessages hsize hl, Link.heard, if_pos hbulle] at hself
    exact (congrArg Link.lastMsgTime hself).symm
  · rintro ⟨hlong, messages, hcut, hmark⟩
    obtain ⟨l, hl⟩ := extractMessages_of_cut (c := s.pathConf p) (l := (s.path p).toLink) hlong hsize
      hcut now.ms
    have hself : l = (s.path p).toLink := by
      rw [heard_of_extractMessages hsize hl, Link.heard]
      split_ifs with hbulle
      · rw [Link.receivedBULLE, ← hmark hbulle]
      · rfl
    subst hself
    refine ⟨(messages, s), ?_, rfl⟩
    rw [hl]
    exact congrArg (fun u => Except.ok (messages, u)) modifyLink_self

/-- An information frame that passes the other tests is rejected for its number. -/
theorem not_valid_of_rejects (h : s.Rejects p data) (hk : s.frameKind p data = some (.info type))
    (hout : (s.path p).protocolState ≠ .outputConnected) :
    (s.path p).isNRValid (nrField type) = false := by
  obtain ⟨first, rest, rfl, haddr, hdir, -, -, hconn, heven⟩ := exists_of_frameKind hk
  obtain h | h | ⟨-, -, h | ⟨-, h⟩ | h | ⟨h, -⟩⟩ := h
  · exact absurd haddr h
  · exact absurd hdir h
  · exact absurd h hconn
  · exact absurd h hout
  · exact h
  · exact absurd heven h

/-- **The other rejections come before any effect.** -/
theorem analyzeFrame_of_not_walks (h : s.Rejects p data) (hwalks : ¬s.Walks p data) :
    s.analyzeFrame p data now = .ok ([], s) := by
  rcases data with - | ⟨first, - | ⟨type, rest⟩⟩
  · exact h.elim
  · exact h.elim
  rw [analyzeFrame_cons]
  split_ifs with haddr hdir hua hsarm hconn heven
  · rfl
  · rfl
  · obtain h | h | ⟨h, -, -⟩ := h
    exacts [absurd h haddr, absurd h hdir, absurd hua h]
  · obtain h | h | ⟨-, h, -⟩ := h
    exacts [absurd h haddr, absurd h hdir, absurd hsarm h]
  · rfl
  · by_cases hout : (s.path p).protocolState = .outputConnected
    · have h₁ : readByte (first :: type :: rest) 1 = .ok type := rfl
      rw [receivedINFO, h₁]
      exact if_pos hout
    · have hk : s.frameKind p (first :: type :: rest) = some (.info type) := by
        rw [frameKind, if_neg haddr, if_neg hdir, if_neg hua, if_neg hsarm, if_neg hconn,
          if_pos heven]
      have hcan : ¬s.canPathExtractMessage p := fun hcan => hwalks ⟨⟨type, hk⟩, hout, hcan⟩
      rw [receivedINFO_of_not_valid hout (not_valid_of_rejects h hk hout), extract, if_neg hcan]
      rfl
  · obtain ⟨b, hb⟩ : ∃ b, (s.path p).toLink.receivedRR (s.pathConf p) now.ms (nrField type)
        (pfField type) = .ok (b, (s.path p).toLink) := by
      obtain h | h | ⟨-, -, h | ⟨h, -⟩ | h | ⟨-, hpf, hrepeats⟩⟩ := h
      · exact absurd h haddr
      · exact absurd h hdir
      · exact absurd h hconn
      · exact absurd h heven
      · exact ⟨false, Link.receivedRR_of_not_valid h⟩
      · rw [hpf]
        exact Link.receivedRR_of_unsolicited hrepeats
    rw [receivedRR, hb]
    exact congrArg (fun u => Except.ok ([], u)) modifyLink_self

/-- **A rejected frame leaves no trace exactly if the walk through its payload leaves none.** -/
theorem leavesNoTrace_iff (h : s.Rejects p data) (hsize : data.length < 2 ^ 31) :
    s.analyzeFrame p data now = .ok ([], s) ↔ (s.Walks p data → s.Unmarked p data now) := by
  by_cases hwalks : s.Walks p data
  · obtain ⟨⟨type, hk⟩, hout, hcan⟩ := hwalks
    have hnr := not_valid_of_rejects h hk hout
    obtain ⟨first, rest, rfl, haddr, hdir, hua, hsarm, hconn, heven⟩ := exists_of_frameKind hk
    rw [analyzeFrame_cons, if_neg (not_not.mpr haddr), if_neg (not_not.mpr hdir), if_neg hua,
      if_neg hsarm, if_neg hconn, if_pos heven, receivedINFO_of_not_valid hout hnr,
      extract_eq_self_iff hsize hcan]
    exact ⟨fun h _ => h, fun h => h ⟨⟨type, hk⟩, hout, hcan⟩⟩
  · exact iff_of_true (analyzeFrame_of_not_walks h hwalks) fun hw => absurd hw hwalks

end System

/-! ## Two frames with a number that is not valid -/

namespace System

open Sample

set_option maxRecDepth 8000 in
/-- The section of the day, in a frame that acknowledges what was never sent; and no message at all,
where the CRC is not read as one. -/
theorem leavesNoTrace_section :
    ∃ s : System, s.Reachable ∧ s.Rejects .A [0x05, 0x20, 0x0F, 0x10, 0xC0, 0xDE] ∧
      s.analyzeFrame .A [0x05, 0x20, 0x0F, 0x10, 0xC0, 0xDE] 5000000000 = .ok ([], s) ∧
      s.Rejects .A [0x05, 0x20, 0xC0, 0xDE] ∧
      s.analyzeFrame .A [0x05, 0x20, 0xC0, 0xDE] 5000000000 = .ok ([], s) := by
  let pl : Plugin := (exec Plugin.step {} Plugin.listening).get rfl
  let s : System := ⟨pl.hnz, pl.connection.get rfl⟩
  have hs : s.Reachable := ⟨rfl, Plugin.listening, pl, run_det_iff.mpr rfl, rfl, rfl⟩
  have hsection : s.Rejects .A [0x05, 0x20, 0x0F, 0x10, 0xC0, 0xDE] :=
    .inr (.inr ⟨by decide, by decide, .inr (.inr (.inl rfl))⟩)
  have hempty : s.Rejects .A [0x05, 0x20, 0xC0, 0xDE] :=
    .inr (.inr ⟨by decide, by decide, .inr (.inr (.inl rfl))⟩)
  refine ⟨s, hs, hsection, (leavesNoTrace_iff hsection (by decide)).mpr fun _ => ?_, hempty,
    (leavesNoTrace_iff hempty (by decide)).mpr fun _ => ?_⟩
  · refine ⟨by decide, [[0x0F, 0x10]], .last rfl (by decide), ?_⟩
    rintro ⟨m, hm, -, rfl⟩
    exact absurd (List.mem_singleton.mp hm) (by decide)
  · refine ⟨by decide, [], .empty rfl, ?_⟩
    rintro ⟨m, hm, -⟩
    cases hm

set_option maxRecDepth 8000 in
/-- The BULLE, in such a frame: the path is marked as alive. -/
theorem not_leavesNoTrace_bulle :
    ∃ s t : System, s.Reachable ∧ s.Rejects .A [0x05, 0x20, 0x13, 0x04, 0xC0, 0xDE] ∧
      s.analyzeFrame .A [0x05, 0x20, 0x13, 0x04, 0xC0, 0xDE] 5000000000 = .ok ([], t) ∧
      (s.path .A).lastMsgTime = 0 ∧ (t.path .A).lastMsgTime = 5000 := by
  let pl : Plugin := (exec Plugin.step {} Plugin.listening).get rfl
  let s : System := ⟨pl.hnz, pl.connection.get rfl⟩
  have hs : s.Reachable := ⟨rfl, Plugin.listening, pl, run_det_iff.mpr rfl, rfl, rfl⟩
  exact ⟨s, _, hs, .inr (.inr ⟨by decide, by decide, .inr (.inr (.inl rfl))⟩), rfl, rfl, rfl⟩

end System

end Hnz
