import Mathlib.Tactic
import Mathlib.Data.List.TakeWhile

/-!
# Machinery/Decimal — decimal numbers in C strings

`print` writes an integer.  `read` reads one from the front of a string the way `strtol` does in
base 10: blanks, a sign, digits, and whatever follows is ignored.  `whole` is the strict reader —
a sign, digits, and nothing else — and `read` agrees with it wherever it accepts (`read_of_whole`).
-/

namespace Machinery

namespace Decimal

/-! ## Writing -/

/-- An integer in decimal, with a sign only when it is negative. -/
def print : Int → List Char
  | .ofNat n => Nat.toDigits 10 n
  | .negSucc n => '-' :: Nat.toDigits 10 (n + 1)

/-! ## Reading -/

/-- The blanks of the C locale: space, and tab to carriage return. -/
def isSpace (c : Char) : Bool := c.toNat == 32 || (9 ≤ c.toNat && c.toNat ≤ 13)

/-- The value of a digit string; there is none without a digit. -/
def numeral (ds : List Char) : Option Nat :=
  if ds = [] then none else some (Nat.ofDigitChars 10 ds 0)

/-- An optional sign, then what `unsigned` reads. -/
def signed (unsigned : List Char → Option Nat) : List Char → Option Int
  | [] => none
  | c :: cs =>
    if c = '-' then (unsigned cs).map fun n : Nat => -(n : Int)
    else if c = '+' then (unsigned cs).map fun n : Nat => (n : Int)
    else (unsigned (c :: cs)).map fun n : Nat => (n : Int)

/-- **The reader of `strtol`**: skip blanks, then a signed run of digits; the rest is ignored. -/
def read (cs : List Char) : Option Int :=
  signed (fun cs => numeral (cs.takeWhile Char.isDigit)) (cs.dropWhile isSpace)

/-- **The strict reader**: a signed run of digits and nothing else. -/
def whole (cs : List Char) : Option Int :=
  signed (fun cs => if cs.all Char.isDigit then numeral cs else none) cs

/-! ## The readers agree -/

theorem isSpace_of_isDigit {c : Char} (h : c.isDigit) : isSpace c = false := by
  simp only [Char.isDigit, Bool.and_eq_true, decide_eq_true_eq, ge_iff_le,
    UInt32.le_iff_toNat_le] at h
  change 48 ≤ c.toNat ∧ c.toNat ≤ 57 at h
  simp only [isSpace, Bool.or_eq_false_iff, beq_eq_false_iff_ne, Bool.and_eq_false_iff,
    decide_eq_false_iff_not]
  omega

theorem signed_mono {u v : List Char → Option Nat} (h : ∀ {cs n}, u cs = some n → v cs = some n)
    {cs : List Char} {z : Int} (hz : signed u cs = some z) : signed v cs = some z := by
  cases cs with
  | nil => cases hz
  | cons c cs =>
    simp only [signed] at hz ⊢
    split_ifs at hz ⊢ <;>
    · obtain ⟨n, hn, rfl⟩ := Option.map_eq_some_iff.mp hz
      rw [h hn]
      rfl

/-- A string the strict reader accepts starts with a sign or a digit. -/
theorem isSpace_head_of_whole {c : Char} {cs : List Char} {z : Int}
    (h : whole (c :: cs) = some z) : isSpace c = false := by
  by_cases h₁ : c = '-'
  · subst h₁; decide
  by_cases h₂ : c = '+'
  · subst h₂; decide
  simp only [whole, signed, if_neg h₁, if_neg h₂] at h
  obtain ⟨n, hn, -⟩ := Option.map_eq_some_iff.mp h
  have hd : (c :: cs).all Char.isDigit := by
    by_contra hd
    rw [if_neg hd] at hn
    cases hn
  exact isSpace_of_isDigit (List.all_eq_true.mp hd c List.mem_cons_self)

/-- **Where the strict reader accepts, `strtol` reads the same number.** -/
theorem read_of_whole {cs : List Char} {z : Int} (h : whole cs = some z) : read cs = some z := by
  cases cs with
  | nil => cases h
  | cons c cs =>
    rw [read, List.dropWhile_cons_of_neg (by simp [isSpace_head_of_whole h])]
    refine signed_mono (fun {ds n} hn => ?_) h
    split_ifs at hn with hd
    rwa [List.takeWhile_eq_self_iff.mpr (List.all_eq_true.mp hd)]

/-! ## Digit strings -/

theorem whole_digits {cs : List Char} (hne : cs ≠ []) (hd : ∀ c ∈ cs, c.isDigit) :
    whole cs = some ((Nat.ofDigitChars 10 cs 0 : Nat) : Int) := by
  obtain ⟨c, cs, rfl⟩ := List.exists_cons_of_ne_nil hne
  have hc : c.isDigit := hd c (by simp)
  have h₁ : c ≠ '-' := by rintro rfl; exact absurd hc (by decide)
  have h₂ : c ≠ '+' := by rintro rfl; exact absurd hc (by decide)
  have hall : (c :: cs).all Char.isDigit := by simpa using hd
  simp only [whole, signed, if_neg h₁, if_neg h₂, hall, numeral, if_true, reduceCtorEq, if_false,
    Option.map_some]

theorem read_digits {cs : List Char} (hne : cs ≠ []) (hd : ∀ c ∈ cs, c.isDigit) :
    read cs = some ((Nat.ofDigitChars 10 cs 0 : Nat) : Int) :=
  read_of_whole (whole_digits hne hd)

theorem isDigit_of_mem_toDigits {n : Nat} {c : Char} (h : c ∈ Nat.toDigits 10 n) : c.isDigit :=
  Nat.isDigit_of_mem_toDigits (by decide) (by decide) h

/-- **Decimal concatenation**: a number followed by one digit. -/
theorem read_toDigits_append (n : Nat) {d : Nat} (hd : d < 10) :
    read (Nat.toDigits 10 n ++ Nat.toDigits 10 d) = some ((10 * n + d : Nat) : Int) := by
  rw [read_digits, Nat.ofDigitChars_append, Nat.ofDigitChars_ten_toDigits,
    Nat.toDigits_of_lt_base hd, Nat.ofDigitChars_cons_digitChar_of_lt_ten hd,
    Nat.ofDigitChars_nil]
  · simp
  · intro c hc
    rcases List.mem_append.mp hc with hc | hc <;> exact isDigit_of_mem_toDigits hc

/-- **The last digit apart**: with a zero in front, a number is the digits of its tenth followed by
its last digit. -/
theorem zero_cons_toDigits (n : Nat) : ∃ ds : List Char,
    '0' :: Nat.toDigits 10 n = ds ++ [(n % 10).digitChar] ∧ read ds = some ((n / 10 : Nat) : Int) := by
  by_cases hn : n < 10
  · refine ⟨['0'], ?_, ?_⟩
    · rw [Nat.toDigits_of_lt_base hn, Nat.mod_eq_of_lt hn]; rfl
    · rw [Nat.div_eq_of_lt hn]; decide
  · refine ⟨'0' :: Nat.toDigits 10 (n / 10), ?_, ?_⟩
    · rw [Nat.toDigits_of_base_le (by decide) (by omega)]; rfl
    · rw [read_digits (by simp), Nat.ofDigitChars_cons]
      · simp
      · intro c hc
        rcases List.mem_cons.mp hc with rfl | hc
        · decide
        · exact isDigit_of_mem_toDigits hc

end Decimal

end Machinery
