import Mathlib.Data.Nat.Bitwise
import Mathlib.Tactic

/-!
# Machinery/Signed — signed numbers in bytes

Ones' complement in one byte, where minus zero is `0xFF` and stands for no number; two's complement
in two bytes, the low one first.  Reading undoes writing.
-/

namespace Machinery

/-! ## Ones' complement -/

/-- The byte of a number. -/
def onesComplement (v : Int) : UInt8 :=
  if 0 ≤ v then UInt8.ofNat v.toNat else UInt8.ofNat (-v).toNat ^^^ 0xFF

/-- The number of a byte. -/
def ofOnesComplement (b : UInt8) : Int :=
  if b &&& 0x80 > 0 then -((b ^^^ 0xFF).toNat : Int) else b.toNat

theorem ofOnesComplement_ofNat : ∀ n : Fin 128, ofOnesComplement (UInt8.ofNat n) = n := by
  decide +kernel

theorem ofOnesComplement_xor : ∀ n : Fin 128, ofOnesComplement (UInt8.ofNat n ^^^ 0xFF) = -n := by
  decide +kernel

/-- Minus zero reads as zero. -/
theorem ofOnesComplement_minusZero : ofOnesComplement 0xFF = 0 := by decide

theorem ofOnesComplement_onesComplement {v : Int} (hlow : -127 ≤ v) (hhigh : v ≤ 127) :
    ofOnesComplement (onesComplement v) = v := by
  unfold onesComplement
  split_ifs with hv
  · rw [ofOnesComplement_ofNat ⟨v.toNat, by omega⟩]
    exact Int.toNat_of_nonneg hv
  · rw [ofOnesComplement_xor ⟨(-v).toNat, by omega⟩]
    simp only [Int.toNat_of_nonneg (show 0 ≤ -v by omega), neg_neg]

theorem ofNat_ne_minusZero : ∀ n : Fin 128, UInt8.ofNat n ≠ 0xFF := by decide +kernel

theorem xor_eq_minusZero_iff : ∀ n : Fin 128, UInt8.ofNat n ^^^ 0xFF = 0xFF ↔ n = 0 := by
  decide +kernel

/-- No number is written as minus zero. -/
theorem onesComplement_ne_minusZero {v : Int} (hlow : -127 ≤ v) (hhigh : v ≤ 127) :
    onesComplement v ≠ 0xFF := by
  unfold onesComplement
  split_ifs with hv
  · exact ofNat_ne_minusZero ⟨v.toNat, by omega⟩
  · rw [Ne, xor_eq_minusZero_iff ⟨(-v).toNat, by omega⟩, Fin.ext_iff]
    simp only [Fin.val_zero]
    omega

/-! ## Two's complement -/

/-- The low byte of a number. -/
def lowByte (v : Int) : UInt8 := UInt8.ofNat (v % 256).toNat

/-- The high byte of a number of two bytes. -/
def highByte (v : Int) : UInt8 := UInt8.ofNat (v / 256 % 256).toNat

/-- The number of two bytes. -/
def ofTwosComplement (low high : UInt8) : Int :=
  let w := high.toNat <<< 8 ||| low.toNat
  if w &&& 0x8000 > 0 then ((w &&& 0x7FFF : Nat) : Int) - 32768 else w

theorem or_lowByte (low high : UInt8) :
    high.toNat <<< 8 ||| low.toNat = high.toNat * 256 + low.toNat := by
  rw [← Nat.shiftLeft_add_eq_or_of_lt low.toNat_lt, Nat.shiftLeft_eq]

/-- The sign bit of sixteen. -/
theorem and_signBit_pos_iff {w : Nat} (hw : w < 65536) : w &&& 0x8000 > 0 ↔ 32768 ≤ w := by
  rw [show (0x8000 : Nat) = 2 ^ 15 from rfl, Nat.and_two_pow, Nat.testBit_eq_decide_div_mod_eq]
  by_cases h : w / 2 ^ 15 % 2 = 1
  · rw [decide_eq_true h]
    exact iff_of_true (by decide) (by omega)
  · rw [decide_eq_false h]
    exact iff_of_false (by decide) (by omega)

theorem ofTwosComplement_lowByte_highByte {v : Int} (hlow : -32768 ≤ v) (hhigh : v < 32768) :
    ofTwosComplement (lowByte v) (highByte v) = v := by
  have hbyte : ∀ n : Int, (UInt8.ofNat (n % 256).toNat).toNat = (n % 256).toNat := fun n => by
    rw [UInt8.toNat_ofNat']
    omega
  simp only [ofTwosComplement, or_lowByte]
  simp only [lowByte, highByte, hbyte]
  rw [show (0x7FFF : Nat) = 2 ^ 15 - 1 from rfl, Nat.and_two_pow_sub_one_eq_mod]
  have hsign := and_signBit_pos_iff (w := (v / 256 % 256).toNat * 256 + (v % 256).toNat) (by omega)
  simp only [hsign]
  split_ifs <;> omega

end Machinery
