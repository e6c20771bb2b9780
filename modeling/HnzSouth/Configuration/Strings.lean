import HnzSouth.Configuration.Entries
import HnzSouth.Machinery.Lenient

/-!
# Configuration/Strings — fields written as strings

Three kinds of fields hold numbers in strings: a BULLE, the schedule of the GI, and the address of a
datapoint.  Each has a strict reader here, which accepts what the field is for and nothing else.
The code reads them with `stoul` and `stoi`, which skip blanks, take a sign, and ignore what follows
the number; it finds every value that the strict reader finds, and some more (`readsExactly_iff`).
-/

namespace Hnz

open Machinery

/-! ## The strict readers -/

/-- A byte in two hexadecimal digits. -/
def hexByte (a b : Char) : Option UInt8 := do
  return UInt8.ofNat (16 * (← hexDigit a) + (← hexDigit b))

/-- **A BULLE** is written as four hexadecimal digits. -/
def strictBulle (s : String) : Option BulleFormat :=
  match s.toList with
  | [a, b, c, d] => do return ⟨← hexByte a b, ← hexByte c d⟩
  | _ => none

/-- A number in two decimal digits. -/
def twoDigits (a b : Char) : Option Nat :=
  if a.isDigit ∧ b.isDigit then some (Nat.ofDigitChars 10 [a, b] 0) else none

/-- **A schedule** is written `HH:MM`, and `99:99` when there is none. -/
def strictSchedule (s : String) : Option GIScheduleFormat :=
  if s = "99:99" then some { activate := false, hour := 99, min := 99 }
  else
    match s.toList with
    | [a, b, ':', c, d] => do
      let hour ← twoDigits a b
      let min ← twoDigits c d
      if hour < 24 ∧ min < 60 then return { activate := true, hour := hour, min := min } else none
    | _ => none

/-- **An address** is written in decimal digits, and fits 32 bits. -/
def strictAddress (s : String) : Option UInt32 :=
  if s.toList ≠ [] ∧ s.toList.all Char.isDigit ∧ Nat.ofDigitChars 10 s.toList 0 < 2 ^ 32 then
    some (UInt32.ofNat (Nat.ofDigitChars 10 s.toList 0))
  else none

/-! ## Plain strings -/

/-- ASCII, without a null character. -/
def Plain (s : String) : Prop := ∀ c ∈ s.toList, 0 < c.toNat ∧ c.toNat < 128

instance (s : String) : Decidable (Plain s) := List.decidableBAll _ _

variable {s : String} {a b c d : Char}

theorem Plain.cString (h : Plain s) : Json.cString s = s := by
  have hall : (s.toList.takeWhile fun c => c.toNat != 0) = s.toList :=
    List.takeWhile_eq_self_iff.mpr fun c hc => by simpa using (h c hc).1.ne'
  rw [Json.cString, hall, String.ofList_toList]

theorem utf8EncodeChar_of_lt (h : c.toNat < 128) :
    (String.utf8EncodeChar c).map (fun b => Char.ofNat b.toNat) = [c] := by
  have hsize : c.utf8Size = 1 :=
    Char.utf8Size_eq_one_iff.mpr (UInt32.le_iff_toNat_le.mpr (Nat.le_of_lt_succ h))
  have hbyte : c.val.toUInt8.toNat = c.toNat := Nat.mod_eq_of_lt (h.trans (by decide))
  rw [String.utf8EncodeChar_eq_singleton hsize, List.map_singleton, hbyte, Char.ofNat_toNat]

/-- The bytes of a plain string are its characters. -/
theorem Plain.bytes (h : Plain s) : bytes s = s.toList := by
  rw [Hnz.bytes, String.toUTF8_eq_toByteArray, ← String.utf8Encode_toList, List.utf8Encode,
    List.toList_data_toByteArray, List.map_flatMap]
  refine (List.flatMap_congr fun c hc => utf8EncodeChar_of_lt (h c hc).2).trans ?_
  exact List.flatMap_singleton' _

/-! ## Two hexadecimal digits -/

theorem char_le_iff {a b : Char} : a ≤ b ↔ a.toNat ≤ b.toNat := UInt32.le_iff_toNat_le

/-- A hexadecimal digit, as a character of ASCII. -/
theorem hexDigit_lt {x : Nat} (h : hexDigit c = some x) :
    x < 16 ∧ 48 ≤ c.toNat ∧ c.toNat < 103 := by
  have hdigits : '0'.toNat = 48 ∧ '9'.toNat = 57 := ⟨rfl, rfl⟩
  have hlower : 'a'.toNat = 97 ∧ 'f'.toNat = 102 := ⟨rfl, rfl⟩
  have hupper : 'A'.toNat = 65 ∧ 'F'.toNat = 70 := ⟨rfl, rfl⟩
  simp only [hexDigit, Char.isDigit_iff_toNat, char_le_iff] at h
  split_ifs at h <;> cases h <;> omega

theorem hexDigit_eq_none (h : Decimal.isSpace c ∨ c = '+' ∨ c = '-') : hexDigit c = none := by
  cases hc : hexDigit c with
  | none => rfl
  | some x =>
    obtain ⟨-, hlow, -⟩ := hexDigit_lt hc
    rcases h with h | rfl | rfl
    · simp only [Decimal.isSpace, Bool.or_eq_true, Bool.and_eq_true, beq_iff_eq,
        decide_eq_true_eq] at h
      omega
    · exact absurd hlow (by decide)
    · exact absurd hlow (by decide)

theorem hexNumeral_nil : hexNumeral [] = none := rfl

theorem dropHexPrefix_pair (a b : Char) : dropHexPrefix [a, b] = [a, b] := by
  unfold dropHexPrefix
  split
  · next h => cases h
  · rfl

theorem dropHexPrefix_singleton (a : Char) : dropHexPrefix [a] = [a] := by
  unfold dropHexPrefix
  split
  · next h => cases h
  · rfl

theorem hexNumeral_singleton (b : Char) : hexNumeral [b] = hexDigit b := by
  rw [hexNumeral, dropHexPrefix_singleton]
  cases hb : hexDigit b with
  | none => simp [hb]
  | some y => simp [hb]

/-- Of two characters, the second one counts only after a digit, and only if it is one. -/
theorem hexNumeral_pair (a b : Char) :
    hexNumeral [a, b] = (hexDigit a).map fun x => ((hexDigit b).map (16 * x + ·)).getD x := by
  rw [hexNumeral, dropHexPrefix_pair]
  cases ha : hexDigit a with
  | none => simp [ha]
  | some x =>
    cases hb : hexDigit b with
    | none => simp [ha, hb]
    | some y => simp [ha, hb]

theorem bind_unsignedLong {o : Option Nat} (h : ∀ n ∈ o, n < 2 ^ 64) :
    (o.map fun n : Nat => (n : Int)).bind unsignedLong = o := by
  cases o with
  | none => rfl
  | some n =>
    have hn : n < 2 ^ 64 := h n rfl
    rw [Option.map_some, Option.bind_some, unsignedLong, if_pos (by simpa using hn),
      u64_of_lt (by positivity) (by exact_mod_cast hn), Int.toNat_natCast]

theorem hexDigit_lt_two_pow {n : Nat} (h : n ∈ hexDigit c) : n < 2 ^ 64 :=
  (hexDigit_lt h).1.trans (by decide)

/-- **`stoul` of two characters**, in base 16. -/
theorem stoul16_pair (a b : Char) : stoul16 [a, b] =
    if Decimal.isSpace a ∨ a = '+' then hexDigit b
    else if a = '-' then (hexDigit b).map fun n : Nat => u64 (-n)
    else hexNumeral [a, b] := by
  rw [stoul16, Decimal.signed_pair hexNumeral_nil fun c hc => by
    rw [hexNumeral_singleton, hexDigit_eq_none hc]]
  simp only [hexNumeral_singleton]
  split_ifs
  · exact bind_unsignedLong fun n => hexDigit_lt_two_pow
  · cases hb : hexDigit b with
    | none => rfl
    | some y =>
      have hy : (-(y : Int)).natAbs < 2 ^ 64 := by
        rw [Int.natAbs_neg, Int.natAbs_natCast]
        exact hexDigit_lt_two_pow hb
      rw [Option.map_some, Option.bind_some, unsignedLong, if_pos hy, Option.map_some]
  · refine bind_unsignedLong fun n hn => ?_
    rw [hexNumeral_pair] at hn
    obtain ⟨x, hx, rfl⟩ := Option.map_eq_some_iff.mp hn
    have hx := (hexDigit_lt hx).1
    cases hb : hexDigit b with
    | none => exact hx.trans (by decide)
    | some y =>
      have hy := (hexDigit_lt hb).1
      simp only [Option.map_some, Option.getD_some]
      omega

/-- **The halves of a BULLE that the code accepts**: a digit and anything, or a digit after a blank
or a sign. -/
def HexHalf (a b : Char) : Prop :=
  (hexDigit a).isSome ∨ (Decimal.isSpace a ∨ a = '+' ∨ a = '-') ∧ (hexDigit b).isSome

theorem isSome_stoul16_pair (a b : Char) : (stoul16 [a, b]).isSome ↔ HexHalf a b := by
  rw [stoul16_pair, HexHalf]
  by_cases h : Decimal.isSpace a ∨ a = '+' ∨ a = '-'
  · rw [hexDigit_eq_none h, Option.isSome_none, or_iff_right Bool.false_ne_true, and_iff_right h]
    rw [← or_assoc] at h
    split_ifs with hplus hminus
    · rfl
    · rw [Option.isSome_map]
    · exact absurd h (not_or.mpr ⟨hplus, hminus⟩)
  · have hnone : ¬((Decimal.isSpace a ∨ a = '+' ∨ a = '-') ∧ (hexDigit b).isSome) :=
      fun h' => h h'.1
    rw [or_iff_left hnone]
    rw [← or_assoc, not_or] at h
    rw [if_neg h.1, if_neg h.2, hexNumeral_pair, Option.isSome_map]

theorem u8_natCast (n : Nat) : u8 n = UInt8.ofNat n := by
  rw [← UInt8.toNat_inj, u8, UInt8.toNat_ofNat', UInt8.toNat_ofNat']
  omega

/-- Two digits are read as the strict reader reads them. -/
theorem stoul16_of_hexByte {v : UInt8} (h : hexByte a b = some v) :
    ∃ n, stoul16 [a, b] = some n ∧ u8 n = v := by
  obtain ⟨x, hx, y, hy, h⟩ : ∃ x, hexDigit a = some x ∧ ∃ y, hexDigit b = some y ∧
      UInt8.ofNat (16 * x + y) = v := by
    simpa [hexByte, Option.bind_eq_some_iff] using h
  have ha : ¬(Decimal.isSpace a ∨ a = '+' ∨ a = '-') := fun ha => by
    rw [hexDigit_eq_none ha] at hx
    cases hx
  rw [← or_assoc, not_or] at ha
  refine ⟨16 * x + y, ?_, (u8_natCast _).trans h⟩
  rw [stoul16_pair, if_neg ha.1, if_neg ha.2, hexNumeral_pair, hx, hy]
  rfl

/-! ## BULLE -/

/-- The importer of a BULLE, on the string of its field. -/
def readBulle (s : String) : Option BulleFormat :=
  if (bytes (Json.cString s)).length = 4 then bulleOf (Json.cString s) else none

/-- **What the code takes for a BULLE**: four characters up to the first null, in two halves. -/
def TakenForBulle (s : String) : Prop :=
  ∃ a b c d, bytes (Json.cString s) = [a, b, c, d] ∧ HexHalf a b ∧ HexHalf c d

theorem retrieveBulle_string {json : Json} {key : String}
    (h : json.member key = some (.string s)) : retrieveBulle json key = readBulle s := by
  simp only [retrieveBulle, h]
  rfl

theorem isSome_readBulle_iff : (readBulle s).isSome ↔ TakenForBulle s := by
  rw [readBulle]
  constructor
  · intro h
    split_ifs at h with hlen
    · obtain ⟨a, b, c, d, hbytes⟩ := List.length_eq_four.mp hlen
      obtain ⟨v, hv⟩ := Option.isSome_iff_exists.mp h
      obtain ⟨m, hm, n, hn, -⟩ : ∃ m, stoul16 [a, b] = some m ∧
          ∃ n, stoul16 [c, d] = some n ∧ _ := by
        simpa [bulleOf, hbytes, Option.bind_eq_some_iff] using hv
      exact ⟨a, b, c, d, hbytes, (isSome_stoul16_pair a b).mp (by rw [hm]; rfl),
        (isSome_stoul16_pair c d).mp (by rw [hn]; rfl)⟩
    · cases h
  · rintro ⟨a, b, c, d, hbytes, hab, hcd⟩
    obtain ⟨m, hm⟩ := Option.isSome_iff_exists.mp ((isSome_stoul16_pair a b).mpr hab)
    obtain ⟨n, hn⟩ := Option.isSome_iff_exists.mp ((isSome_stoul16_pair c d).mpr hcd)
    simp [bulleOf, hbytes, hm, hn]

/-- Two hexadecimal digits are plain. -/
theorem plain_of_hexByte {v : UInt8} (h : hexByte a b = some v) :
    ∀ c ∈ [a, b], 0 < c.toNat ∧ c.toNat < 128 := by
  obtain ⟨x, hx, y, hy, -⟩ : ∃ x, hexDigit a = some x ∧ ∃ y, hexDigit b = some y ∧ _ := by
    simpa [hexByte, Option.bind_eq_some_iff] using h
  have ha := (hexDigit_lt hx).2
  have hb := (hexDigit_lt hy).2
  simp only [List.forall_mem_cons]
  exact ⟨by omega, by omega, by simp⟩

/-- The code finds every BULLE. -/
theorem readBulle_of_strict {v : BulleFormat} (h : strictBulle s = some v) :
    readBulle s = some v := by
  obtain ⟨a, b, c, d, hs, first, hfirst, second, hsecond, rfl⟩ :
      ∃ a b c d, s.toList = [a, b, c, d] ∧ ∃ first, hexByte a b = some first ∧
        ∃ second, hexByte c d = some second ∧ ⟨first, second⟩ = v := by
    unfold strictBulle at h
    split at h
    · next a b c d hs =>
      exact ⟨a, b, c, d, hs, by simpa [Option.bind_eq_some_iff] using h⟩
    · cases h
  have hplain : Plain s := by
    rw [Plain, hs]
    exact List.forall_mem_append.mpr ⟨plain_of_hexByte hfirst, plain_of_hexByte hsecond⟩
  obtain ⟨m, hm, hmv⟩ := stoul16_of_hexByte hfirst
  obtain ⟨n, hn, hnv⟩ := stoul16_of_hexByte hsecond
  rw [readBulle, hplain.cString, hplain.bytes, hs,
    if_pos (show [a, b, c, d].length = 4 from rfl), bulleOf, hplain.bytes, hs]
  simp only [List.take_succ_cons, List.take_zero, List.drop_succ_cons, List.drop_zero, hm, hn,
    Option.bind_eq_bind, Option.bind_some, hmv, hnv]
  rfl

/-! ## The schedule -/

/-- **The halves of a schedule that the code accepts**: a digit and anything, if the number is below
the bound; a digit after a blank or a plus; and minus zero. -/
def DecHalf (bound : Nat) (a b : Char) : Prop :=
  a.isDigit ∧ (b.isDigit → Nat.ofDigitChars 10 [a, b] 0 < bound) ∨
    (Decimal.isSpace a ∨ a = '+') ∧ b.isDigit ∨ a = '-' ∧ b = '0'

theorem stoi_eq_some {cs : List Char} {z : Int} :
    stoi cs = some z ↔ Decimal.read cs = some z ∧ -2 ^ 31 ≤ z ∧ z < 2 ^ 31 := by
  rw [stoi]
  cases Decimal.read cs with
  | none => simp
  | some y =>
    simp only [Option.some.injEq]
    split_ifs with h
    · rw [Option.some.injEq]
      exact ⟨fun hz => ⟨hz, hz ▸ h⟩, And.left⟩
    · exact iff_of_false (by simp) fun hz => h (hz.1 ▸ hz.2)

theorem exists_some_iff {n : Int} {bound : Nat} (h : bound ≤ 100) :
    (∃ z, (some n = some z ∧ -2 ^ 31 ≤ z ∧ z < 2 ^ 31) ∧ 0 ≤ z ∧ z < bound) ↔
      0 ≤ n ∧ n < bound := by
  constructor
  · rintro ⟨z, ⟨hz, -⟩, hrange⟩
    rwa [Option.some.inj hz]
  · intro hrange
    exact ⟨n, ⟨rfl, by omega, by omega⟩, hrange⟩

/-- The number of a half is in range exactly for these characters. -/
theorem exists_stoi_pair_iff {bound : Nat} (h₀ : 10 ≤ bound) (h : bound ≤ 100) (a b : Char) :
    (∃ z, stoi [a, b] = some z ∧ 0 ≤ z ∧ z < bound) ↔ DecHalf bound a b := by
  simp only [stoi_eq_some, Decimal.read_pair, DecHalf]
  by_cases hplus : Decimal.isSpace a ∨ a = '+'
  · have ha : a.isDigit = false := Decimal.isDigit_of_start (hplus.imp_right .inl)
    have hminus : a ≠ '-' := by
      rintro rfl
      exact absurd hplus (by decide)
    cases hb : b.isDigit with
    | false => simp [hplus, ha, hminus]
    | true =>
      have hlt := (Decimal.ofDigitChars_singleton hb).1
      simp only [hplus, if_true, exists_some_iff h, ha, hminus]
      exact iff_of_true (by omega) (by simp)
  by_cases hminus : a = '-'
  · subst hminus
    have ha : ('-' : Char).isDigit = false := rfl
    cases hb : b.isDigit with
    | false =>
      have hzero : b ≠ '0' := by
        rintro rfl
        cases hb
      simp [ha, hzero]
    | true =>
      have hzero := (Decimal.ofDigitChars_singleton hb).2
      simp only [hplus, if_false, if_true, exists_some_iff h, ha, Bool.false_eq_true, false_and,
        false_or, true_and, ← hzero]
      omega
  · cases ha : a.isDigit with
    | false => simp [hplus, hminus]
    | true =>
      have hlt := (Decimal.ofDigitChars_singleton ha).1
      cases hb : b.isDigit with
      | false =>
        simp only [hplus, hminus, if_false, if_true, exists_some_iff h, Bool.false_eq_true]
        exact iff_of_true (by omega) (by simp)
      | true =>
        simp only [hplus, hminus, if_false, if_true, exists_some_iff h, false_and, or_false,
          true_implies, true_and]
        omega

/-- The importer of the schedule, on the string of its field. -/
def readSchedule (s : String) : Option GIScheduleFormat :=
  let temp := Json.cString s
  if temp = "99:99" then some { activate := false, hour := 99, min := 99 }
  else if (bytes temp).length ≠ 5 ∨ ((bytes temp).drop 2).take 1 ≠ [':'] then none
  else do
    let hour ← stoi ((bytes temp).take 2)
    let min ← stoi ((bytes temp).drop 3)
    if 0 ≤ hour ∧ hour < 24 ∧ 0 ≤ min ∧ min < 60 then
      return { activate := true, hour := hour, min := min }
    else none

/-- **What the code takes for a schedule**: `99:99`, or two halves around a colon. -/
def TakenForSchedule (s : String) : Prop :=
  Json.cString s = "99:99" ∨ ∃ a b c d, bytes (Json.cString s) = [a, b, ':', c, d] ∧
    DecHalf 24 a b ∧ DecHalf 60 c d

theorem retrieveSchedule_string {json : Json} {key : String}
    (h : json.member key = some (.string s)) : retrieveSchedule json key = readSchedule s := by
  simp only [retrieveSchedule, h]
  rfl

/-- Five characters with a colon in the middle. -/
theorem fiveChars_iff {cs : List Char} :
    ¬(cs.length ≠ 5 ∨ (cs.drop 2).take 1 ≠ [':']) ↔ ∃ a b c d, cs = [a, b, ':', c, d] := by
  constructor
  · intro h
    rcases cs with _ | ⟨a, _ | ⟨b, _ | ⟨m, _ | ⟨c, _ | ⟨d, _ | ⟨e, cs⟩⟩⟩⟩⟩⟩
    case cons.cons.cons.cons.cons.nil =>
      obtain rfl : m = ':' := by simpa using h
      exact ⟨a, b, c, d, rfl⟩
    all_goals exact absurd (.inl (by simp)) h
  · rintro ⟨a, b, c, d, rfl⟩
    simp

theorem isSome_readSchedule_iff : (readSchedule s).isSome ↔ TakenForSchedule s := by
  rw [readSchedule, TakenForSchedule]
  by_cases hnone : Json.cString s = "99:99"
  · simp [hnone]
  rw [if_neg hnone, or_iff_right hnone]
  by_cases hfive : (bytes (Json.cString s)).length ≠ 5 ∨
      ((bytes (Json.cString s)).drop 2).take 1 ≠ [':']
  · rw [if_pos hfive]
    refine iff_of_false (by simp) ?_
    rintro ⟨a, b, c, d, hbytes, -⟩
    exact fiveChars_iff.mpr ⟨a, b, c, d, hbytes⟩ hfive
  · rw [if_neg hfive]
    obtain ⟨a, b, c, d, hbytes⟩ := fiveChars_iff.mp hfive
    have hab := exists_stoi_pair_iff (by decide : 10 ≤ 24) (by decide) a b
    have hcd := exists_stoi_pair_iff (by decide : 10 ≤ 60) (by decide) c d
    simp only [hbytes, List.take_succ_cons, List.take_zero, List.drop_succ_cons, List.drop_zero]
    constructor
    · intro h
      obtain ⟨v, hv⟩ := Option.isSome_iff_exists.mp h
      obtain ⟨hour, hhour, min, hmin, hif⟩ : ∃ hour, stoi [a, b] = some hour ∧
          ∃ min, stoi [c, d] = some min ∧ _ := by
        simpa only [Option.bind_eq_bind, Option.bind_eq_some_iff] using hv
      split_ifs at hif with hrange
      exact ⟨a, b, c, d, rfl, hab.mp ⟨hour, hhour, hrange.1, hrange.2.1⟩,
        hcd.mp ⟨min, hmin, hrange.2.2⟩⟩
    · rintro ⟨a', b', c', d', heq, hab', hcd'⟩
      cases heq
      obtain ⟨hour, hhour, h₀, h₁⟩ := hab.mpr hab'
      obtain ⟨min, hmin, h₂, h₃⟩ := hcd.mpr hcd'
      rw [hhour, hmin]
      simp only [Option.bind_eq_bind, Option.bind_some]
      rw [if_pos ⟨h₀, h₁, h₂, h₃⟩]
      rfl

theorem isDigit_of_twoDigits {n : Nat} (h : twoDigits a b = some n) : a.isDigit ∧ b.isDigit := by
  rw [twoDigits] at h
  split_ifs at h with hdigits
  exact hdigits

theorem stoi_of_twoDigits {n : Nat} (h : twoDigits a b = some n) :
    stoi [a, b] = some (n : Int) := by
  rw [twoDigits] at h
  split_ifs at h with hdigits
  cases h
  have hab : ∀ c ∈ [a, b], c.isDigit := by simpa using hdigits
  have ha := (Decimal.ofDigitChars_singleton hdigits.1).1
  have hb := (Decimal.ofDigitChars_singleton hdigits.2).1
  rw [Nat.ofDigitChars_cons, Nat.ofDigitChars_nil] at ha hb
  refine stoi_eq_some.mpr ⟨Decimal.read_digits (by simp) hab, ?_⟩
  rw [Nat.ofDigitChars_cons, Nat.ofDigitChars_cons, Nat.ofDigitChars_nil]
  omega

theorem plain_of_isDigit (h : c.isDigit) : 0 < c.toNat ∧ c.toNat < 128 := by
  have hdigits : '0'.toNat = 48 ∧ '9'.toNat = 57 := ⟨rfl, rfl⟩
  rw [Char.isDigit_iff_toNat] at h
  omega

/-- The code finds every schedule. -/
theorem readSchedule_of_strict {v : GIScheduleFormat} (h : strictSchedule s = some v) :
    readSchedule s = some v := by
  rw [strictSchedule] at h
  split_ifs at h with hnone
  · subst hnone
    cases h
    have hplain : Plain "99:99" := by decide
    rw [readSchedule, hplain.cString, if_pos rfl]
  obtain ⟨a, b, c, d, hs, hour, hhour, min, hmin, hif⟩ : ∃ a b c d, s.toList = [a, b, ':', c, d] ∧
      ∃ hour, twoDigits a b = some hour ∧ ∃ min, twoDigits c d = some min ∧ _ := by
    split at h
    · next a b c d hs =>
      exact ⟨a, b, c, d, hs, by simpa only [Option.bind_eq_bind, Option.bind_eq_some_iff] using h⟩
    · cases h
  split_ifs at hif with hrange
  cases hif
  have hplain : Plain s := by
    have hab := isDigit_of_twoDigits hhour
    have hcd := isDigit_of_twoDigits hmin
    rw [Plain, hs]
    simp only [List.forall_mem_cons]
    exact ⟨plain_of_isDigit hab.1, plain_of_isDigit hab.2, by decide, plain_of_isDigit hcd.1,
      plain_of_isDigit hcd.2, by simp⟩
  rw [readSchedule, hplain.cString, if_neg hnone, hplain.bytes, hs,
    if_neg (fiveChars_iff.mpr ⟨a, b, c, d, rfl⟩)]
  simp only [List.take_succ_cons, List.take_zero, List.drop_succ_cons, List.drop_zero,
    stoi_of_twoDigits hhour, stoi_of_twoDigits hmin, Option.bind_eq_bind, Option.bind_some]
  rw [if_pos (by omega)]
  rfl

/-! ## The address -/

/-- The importer of an address, on the string of its field. -/
def readAddress (s : String) : Option UInt32 :=
  ((stoul (Json.cString s).toList).filter (· < 2 ^ 32)).map UInt32.ofNat

/-- **What the code takes for an address**: blanks, a sign, digits, and whatever follows, if the
number fits 32 bits; a negative one counts from the end of 64 bits. -/
def TakenForAddress (s : String) : Prop :=
  ∃ n, (Decimal.Spells [] (Json.cString s).toList n ∨
      Decimal.Spells ['+'] (Json.cString s).toList n) ∧ n < 2 ^ 32 ∨
    Decimal.Spells ['-'] (Json.cString s).toList n ∧ (n = 0 ∨ 2 ^ 64 - 2 ^ 32 < n ∧ n < 2 ^ 64)

theorem unsignedLong_natCast {n : Nat} (h : n < 2 ^ 64) : unsignedLong n = some n := by
  rw [unsignedLong, if_pos (by simpa using h), u64_of_lt (by positivity) (by exact_mod_cast h),
    Int.toNat_natCast]

theorem isSome_filter_unsignedLong {z : Int} :
    ((unsignedLong z).filter (· < 2 ^ 32)).isSome ↔
      0 ≤ z ∧ z < 2 ^ 32 ∨ -2 ^ 64 < z ∧ z < -(2 ^ 64 - 2 ^ 32) := by
  rw [unsignedLong]
  split_ifs with h
  · simp only [Option.filter_some, u64]
    split_ifs with hlt
    · simp only [decide_eq_true_eq] at hlt
      simp
      omega
    · simp only [decide_eq_true_eq] at hlt
      simp
      omega
  · simp
    omega

theorem isSome_readAddress_iff : (readAddress s).isSome ↔ TakenForAddress s := by
  have hread : (readAddress s).isSome ↔ ∃ z, Decimal.read (Json.cString s).toList = some z ∧
      ((unsignedLong z).filter (· < 2 ^ 32)).isSome := by
    rw [readAddress, Option.isSome_map, stoul]
    cases Decimal.read (Json.cString s).toList with
    | none => simp
    | some z => simp only [Option.bind_some, Option.some.injEq, exists_eq_left']
  simp only [hread, isSome_filter_unsignedLong, Decimal.read_eq_some, TakenForAddress]
  constructor
  · rintro ⟨z, ⟨n, ⟨h, rfl⟩ | ⟨h, rfl⟩⟩, hrange⟩
    · exact ⟨n, .inl ⟨h, by omega⟩⟩
    · exact ⟨n, .inr ⟨h, by omega⟩⟩
  · rintro ⟨n, ⟨h, hlt⟩ | ⟨h, hrange⟩⟩
    · exact ⟨n, ⟨n, .inl ⟨h, rfl⟩⟩, by omega⟩
    · exact ⟨-n, ⟨n, .inr ⟨h, rfl⟩⟩, by omega⟩

/-- The code finds every address. -/
theorem readAddress_of_strict {v : UInt32} (h : strictAddress s = some v) :
    readAddress s = some v := by
  rw [strictAddress] at h
  split_ifs at h with hdigits
  cases h
  obtain ⟨hne, hall, hlt⟩ := hdigits
  have hdigits : ∀ c ∈ s.toList, c.isDigit := List.all_eq_true.mp hall
  have hplain : Plain s := fun c hc => plain_of_isDigit (hdigits c hc)
  rw [readAddress, hplain.cString, stoul, Decimal.read_digits hne hdigits, Option.bind_some,
    unsignedLong_natCast (hlt.trans (by decide)), Option.filter_some, if_pos (by simpa using hlt)]
  rfl

/-! ## The importers -/

/-- Of two readers, one of which finds what the other one finds, the two agree on a string if the
first one accepts it only when the second one does. -/
theorem eq_iff_isSome {α : Type} {lenient strict : Option α}
    (h : ∀ v, strict = some v → lenient = some v) :
    lenient = strict ↔ (lenient.isSome → strict.isSome) := by
  constructor
  · rintro rfl
    exact id
  · intro himp
    cases hlenient : lenient with
    | none =>
      cases hstrict : strict with
      | none => rfl
      | some v => rw [hlenient] at h; cases h v hstrict
    | some v =>
      obtain ⟨w, hw⟩ := Option.isSome_iff_exists.mp (himp (by rw [hlenient]; rfl))
      rw [hw, ← hlenient, h w hw]

/-- **The field is read exactly**: the import stores what the strict reader finds in its string, and
otherwise fails and stores nothing. -/
def StoresExactly {α : Type} (retrieve : Json → String → Option α) (strict : String → Option α)
    (s : String) : Prop :=
  ∀ (json : Json) (key : String) (set : HNZConf → α → HNZConf) (conf : HNZConf),
    json.member key = some (.string s) →
      Import.store (retrieve json key) set conf =
        match strict s with
        | none => (false, conf)
        | some x => (true, set conf x)

/-- **The address is read exactly**: the message is entered under the address that the strict reader
finds, which is otherwise missed and stays zero. -/
def EntersExactly (s : String) : Prop :=
  ∀ (label : String) (trigger : Option UInt32) (protocol : Json) (code : String) (conf : HNZConf),
    retrieve Json.string? protocol "name" = some "hnzip" →
    protocol.member "address" = some (.string s) →
    retrieveOr Json.string? protocol "typeid" "" = some code →
      importProtocol label (trigger.elim (-1) fun v => int32 v.toNat) protocol conf =
        ((strictAddress s).isSome, conf.enter ⟨code, (strictAddress s).getD 0, label, trigger⟩)

theorem storesExactly_iff {α : Type} {retrieve : Json → String → Option α}
    {read strict : String → Option α} {taken : Prop}
    (hread : ∀ {json key}, json.member key = some (.string s) → retrieve json key = read s)
    (hstrict : ∀ {v}, strict s = some v → read s = some v) (htaken : (read s).isSome ↔ taken) :
    StoresExactly retrieve strict s ↔ (taken → (strict s).isSome) := by
  rw [← htaken]
  constructor
  · intro h hsome
    have hfield : (Json.object [("", .string s)]).member "" = some (.string s) := rfl
    have hstore := congrArg Prod.fst (h _ _ (fun conf _ => conf) {} hfield)
    obtain ⟨v, hv⟩ := Option.isSome_iff_exists.mp hsome
    rw [hread hfield, hv] at hstore
    cases hs : strict s with
    | none => rw [hs] at hstore; cases hstore
    | some w => rfl
  · intro himp json key set conf hfield
    rw [hread hfield, (eq_iff_isSome fun v => hstrict).mpr himp]
    rfl

/-- An HNZ protocol is entered under the address that is read, zero without one. -/
theorem importProtocol_string {label code : String} {trigger : Option UInt32} {protocol : Json}
    {conf : HNZConf} (hname : retrieve Json.string? protocol "name" = some "hnzip")
    (haddress : protocol.member "address" = some (.string s))
    (hcode : retrieveOr Json.string? protocol "typeid" "" = some code) :
    importProtocol label (trigger.elim (-1) fun v => int32 v.toNat) protocol conf =
      ((readAddress s).isSome, conf.enter ⟨code, (readAddress s).getD 0, label, trigger⟩) := by
  have hfield : retrieveOr Json.string? protocol "address" "" = some (Json.cString s) := by
    rw [retrieveOr, haddress]
    rfl
  refine Prod.ext ?_ ?_
  · simp only [importProtocol, hname, hfield, hcode, Option.getD_some, ne_eq, not_true_eq_false,
      if_false, Option.isSome_some, Bool.true_and, readAddress, Option.isSome_map]
    cases stoul (Json.cString s).toList with
    | none => rfl
    | some n =>
      rw [Option.filter_some, Option.isSome_some, Bool.true_and, Option.getD_some]
      by_cases hn : n < 2 ^ 32
      · simp only [hn, decide_true, if_true, Option.isSome_some]
      · simp only [hn, decide_false, Bool.false_eq_true, if_false, Option.isSome_none]
  · rw [importProtocol_eq, protocolEntry, hname, hfield, hcode]
    simp only [Option.getD_some, ne_eq, not_true_eq_false, if_false, Option.toList_some,
      List.foldl_cons, List.foldl_nil, readAddress]
    cases stoul (Json.cString s).toList with
    | none => rfl
    | some n =>
      rw [Option.filter_some, Option.getD_some]
      by_cases hn : n < 2 ^ 32
      · simp only [hn, decide_true, if_true, Option.map_some, Option.getD_some]
      · simp only [hn, decide_false, Bool.false_eq_true, if_false, Option.map_none,
          Option.getD_none]
        rfl

theorem entersExactly_iff :
    EntersExactly s ↔ (TakenForAddress s → (strictAddress s).isSome) := by
  rw [← isSome_readAddress_iff]
  constructor
  · intro h hsome
    have henter := h "" none (.object [("name", .string "hnzip"), ("address", .string s)]) "" {} rfl
      rfl rfl
    rw [importProtocol_string rfl rfl rfl] at henter
    rw [← hsome]
    exact (congrArg Prod.fst henter).symm
  · intro himp label trigger protocol code conf hname haddress hcode
    rw [importProtocol_string hname haddress hcode,
      (eq_iff_isSome fun v => readAddress_of_strict).mpr himp]

/-- **The fields are read exactly** if what the code takes for a value is one. -/
theorem readsExactly_iff (s : String) :
    (StoresExactly retrieveBulle strictBulle s ↔
        (TakenForBulle s → (strictBulle s).isSome)) ∧
      (StoresExactly retrieveSchedule strictSchedule s ↔
        (TakenForSchedule s → (strictSchedule s).isSome)) ∧
      (EntersExactly s ↔ (TakenForAddress s → (strictAddress s).isSome)) :=
  ⟨storesExactly_iff retrieveBulle_string readBulle_of_strict isSome_readBulle_iff,
    storesExactly_iff retrieveSchedule_string readSchedule_of_strict isSome_readSchedule_iff,
    entersExactly_iff⟩

/-- `1g3 ` is a BULLE for the code, `-0: 5` a schedule, and `12 TS` an address. -/
theorem not_readsExactly_lenient :
    ¬StoresExactly retrieveBulle strictBulle "1g3 " ∧
      ¬StoresExactly retrieveSchedule strictSchedule "-0: 5" ∧ ¬EntersExactly "12 TS" := by
  have hbulle : (readBulle "1g3 ").isSome := by decide +kernel
  have hschedule : (readSchedule "-0: 5").isSome := by decide +kernel
  have haddress : (readAddress "12 TS").isSome := by decide +kernel
  refine ⟨fun h => ?_, fun h => ?_, fun h => ?_⟩
  · have hstrict := (storesExactly_iff retrieveBulle_string readBulle_of_strict Iff.rfl).mp h hbulle
    exact absurd hstrict (by decide)
  · have hstrict := (storesExactly_iff retrieveSchedule_string readSchedule_of_strict Iff.rfl).mp h
      hschedule
    exact absurd hstrict (by decide)
  · exact absurd (entersExactly_iff.mp h (isSome_readAddress_iff.mp haddress))
      (by decide)

end Hnz
