import HnzSouth.Machinery.Decimal

/-!
# Machinery/Lenient — the strings that the reader of `strtol` accepts

`Decimal.read` takes the first number of a string, if only blanks are in front of it
(`Decimal.read_eq_some`).  Of a string of two characters `signed_pair` says what is read, for every
reader of the digits.
-/

namespace Machinery

namespace Decimal

/-! ## What the reader of `strtol` accepts -/

/-- The digits at the front of a string. -/
def Digits (cs : List Char) (n : Nat) : Prop :=
  ∃ digits rest, cs = digits ++ rest ∧ digits ≠ [] ∧ (∀ c ∈ digits, c.isDigit) ∧
    (∀ c ∈ rest.head?, ¬c.isDigit) ∧ Nat.ofDigitChars 10 digits 0 = n

/-- **A number in a string**: blanks, its sign, its digits, and whatever follows. -/
def Spells (sign cs : List Char) (n : Nat) : Prop :=
  ∃ blanks number, cs = blanks ++ (sign ++ number) ∧ (∀ c ∈ blanks, isSpace c) ∧ Digits number n

theorem takeWhile_isDigit {digits rest : List Char} (hd : ∀ c ∈ digits, c.isDigit)
    (hrest : ∀ c ∈ rest.head?, ¬c.isDigit) : (digits ++ rest).takeWhile Char.isDigit = digits := by
  rw [List.takeWhile_append_of_pos hd]
  cases rest with
  | nil => exact List.append_nil _
  | cons c rest => rw [List.takeWhile_cons_of_neg (hrest c rfl), List.append_nil]

theorem numeral_takeWhile_eq_some {cs : List Char} {n : Nat} :
    numeral (cs.takeWhile Char.isDigit) = some n ↔ Digits cs n := by
  constructor
  · intro h
    rw [numeral] at h
    split_ifs at h with hne
    have hrest := List.head?_dropWhile_not Char.isDigit cs
    refine ⟨cs.takeWhile Char.isDigit, cs.dropWhile Char.isDigit,
      List.takeWhile_append_dropWhile.symm, hne, fun c => List.mem_takeWhile_imp, fun c hc => ?_,
      Option.some.inj h⟩
    rw [Option.mem_def.mp hc] at hrest
    simpa using hrest
  · rintro ⟨digits, rest, rfl, hne, hd, hrest, rfl⟩
    rw [takeWhile_isDigit hd hrest, numeral, if_neg hne]

/-- What starts with a digit starts neither with a sign nor with a blank. -/
theorem Digits.head {cs : List Char} {n : Nat} (h : Digits cs n) :
    ∃ c rest, cs = c :: rest ∧ c ≠ '-' ∧ c ≠ '+' ∧ isSpace c = false := by
  obtain ⟨digits, rest, rfl, hne, hd, -⟩ := h
  obtain ⟨c, digits, rfl⟩ := List.exists_cons_of_ne_nil hne
  have hc : c.isDigit := hd c (by simp)
  refine ⟨c, digits ++ rest, rfl, ?_, ?_, isSpace_of_isDigit hc⟩
  · rintro rfl; exact absurd hc (by decide)
  · rintro rfl; exact absurd hc (by decide)

/-- A sign and the digits after it. -/
theorem signed_eq_some {cs : List Char} {z : Int} :
    signed (fun cs => numeral (cs.takeWhile Char.isDigit)) cs = some z ↔
      ∃ n, (Digits cs n ∨ ∃ number, cs = '+' :: number ∧ Digits number n) ∧ z = n ∨
        (∃ number, cs = '-' :: number ∧ Digits number n) ∧ z = -n := by
  constructor
  · intro h
    cases cs with
    | nil => cases h
    | cons c cs =>
      simp only [signed] at h
      split_ifs at h with hminus hplus <;> obtain ⟨n, hn, rfl⟩ := Option.map_eq_some_iff.mp h <;>
        rw [numeral_takeWhile_eq_some] at hn
      · exact ⟨n, .inr ⟨⟨cs, by rw [hminus], hn⟩, rfl⟩⟩
      · exact ⟨n, .inl ⟨.inr ⟨cs, by rw [hplus], hn⟩, rfl⟩⟩
      · exact ⟨n, .inl ⟨.inl hn, rfl⟩⟩
  · rintro ⟨n, ⟨h | ⟨number, rfl, h⟩, rfl⟩ | ⟨⟨number, rfl, h⟩, rfl⟩⟩
    · obtain ⟨c, rest, rfl, hminus, hplus, -⟩ := h.head
      simp only [signed, if_neg hminus, if_neg hplus, numeral_takeWhile_eq_some.mpr h,
        Option.map_some]
    · simp only [signed, numeral_takeWhile_eq_some.mpr h, Option.map_some]
      rfl
    · simp only [signed, if_true, numeral_takeWhile_eq_some.mpr h, Option.map_some]

/-- Blanks in front of anything else are skipped. -/
theorem dropWhile_isSpace {blanks cs : List Char} (hb : ∀ c ∈ blanks, isSpace c)
    (h : ∀ c ∈ cs.head?, isSpace c = false) : (blanks ++ cs).dropWhile isSpace = cs := by
  rw [List.dropWhile_append_of_pos hb]
  cases cs with
  | nil => rfl
  | cons c cs => rw [List.dropWhile_cons_of_neg (by simp [h c rfl])]

theorem Spells.dropWhile {cs sign : List Char} {n : Nat} (h : Spells sign cs n)
    (hsign : ∀ c ∈ sign.head?, isSpace c = false) :
    ∃ number, cs.dropWhile isSpace = sign ++ number ∧ Digits number n := by
  obtain ⟨blanks, number, rfl, hb, hn⟩ := h
  refine ⟨number, dropWhile_isSpace hb fun c hc => ?_, hn⟩
  cases sign with
  | nil =>
    obtain ⟨d, rest, rfl, -, -, hd⟩ := hn.head
    cases hc
    exact hd
  | cons d sign => exact hsign c hc

theorem Spells.of_dropWhile {cs sign number : List Char} {n : Nat}
    (h : cs.dropWhile isSpace = sign ++ number) (hn : Digits number n) : Spells sign cs n :=
  ⟨cs.takeWhile isSpace, number, by rw [← h, List.takeWhile_append_dropWhile],
    fun _ => List.mem_takeWhile_imp, hn⟩

theorem Spells.dropWhile_iff {cs : List Char} {c : Char} {n : Nat} (hc : isSpace c = false) :
    (∃ number, cs.dropWhile isSpace = c :: number ∧ Digits number n) ↔ Spells [c] cs n := by
  constructor
  · rintro ⟨number, hcs, hn⟩
    exact .of_dropWhile hcs hn
  · intro h
    refine h.dropWhile fun d hd => ?_
    rwa [← Option.some.inj hd]

/-- **What `strtol` reads**: the first number of the string, if only blanks are in front of it. -/
theorem read_eq_some {cs : List Char} {z : Int} :
    read cs = some z ↔
      ∃ n, (Spells [] cs n ∨ Spells ['+'] cs n) ∧ z = n ∨ Spells ['-'] cs n ∧ z = -n := by
  rw [read, signed_eq_some]
  refine exists_congr fun n => or_congr (and_congr_left' (or_congr ?_ ?_)) (and_congr_left' ?_)
  · refine ⟨fun h => .of_dropWhile rfl h, fun h => ?_⟩
    obtain ⟨number, hcs, hn⟩ := h.dropWhile (by simp)
    rwa [hcs]
  · exact Spells.dropWhile_iff (by decide)
  · exact Spells.dropWhile_iff (by decide)

/-! ## Two characters -/

/-- **A signed number in two characters**: a blank and a plus are skipped. -/
theorem signed_pair {u : List Char → Option Nat} (hnil : u [] = none)
    (hu : ∀ c, isSpace c ∨ c = '+' ∨ c = '-' → u [c] = none) (a b : Char) :
    signed u ([a, b].dropWhile isSpace) =
      if isSpace a ∨ a = '+' then (u [b]).map fun n : Nat => (n : Int)
      else if a = '-' then (u [b]).map fun n : Nat => -(n : Int)
      else (u [a, b]).map fun n : Nat => (n : Int) := by
  have hone : signed u [b] = (u [b]).map fun n : Nat => (n : Int) := by
    simp only [signed, hnil]
    split_ifs with hminus hplus
    · rw [hu b (.inr (.inr hminus))]
      rfl
    · rw [hu b (.inr (.inl hplus))]
    · rfl
  cases hspace : isSpace a with
  | true =>
    rw [if_pos (.inl rfl), List.dropWhile_cons_of_pos hspace]
    cases hb : isSpace b with
    | true =>
      rw [List.dropWhile_cons_of_pos hb, hu b (.inl hb)]
      rfl
    | false => rw [List.dropWhile_cons_of_neg (by simp [hb]), hone]
  | false =>
    rw [List.dropWhile_cons_of_neg (by simp [hspace]), signed]
    by_cases hminus : a = '-'
    · subst hminus
      rw [if_pos rfl, if_neg (by decide), if_pos rfl]
    by_cases hplus : a = '+'
    · rw [if_neg hminus, if_pos hplus, if_pos (.inr hplus)]
    · rw [if_neg hminus, if_neg hplus, if_neg (by simp [hplus]), if_neg hminus]

variable {c : Char}

theorem isDigit_of_start (h : isSpace c ∨ c = '+' ∨ c = '-') : c.isDigit = false := by
  rcases h with h | rfl | rfl
  · by_contra hc
    rw [isSpace_of_isDigit (by simpa using hc)] at h
    cases h
  · rfl
  · rfl

theorem ofDigitChars_singleton (h : c.isDigit) :
    Nat.ofDigitChars 10 [c] 0 < 10 ∧ (Nat.ofDigitChars 10 [c] 0 = 0 ↔ c = '0') := by
  have hdigits : '0'.toNat = 48 ∧ '9'.toNat = 57 := ⟨rfl, rfl⟩
  rw [Char.isDigit_iff_toNat] at h
  rw [Nat.ofDigitChars_cons, Nat.ofDigitChars_nil, ← Char.toNat_inj]
  omega

theorem numeral_singleton (b : Char) : numeral ([b].takeWhile Char.isDigit) =
    if b.isDigit then some (Nat.ofDigitChars 10 [b] 0) else none := by
  cases hb : b.isDigit with
  | true => rw [List.takeWhile_cons_of_pos hb]; rfl
  | false => rw [List.takeWhile_cons_of_neg (by simp [hb])]; rfl

theorem numeral_pair (a b : Char) : numeral ([a, b].takeWhile Char.isDigit) =
    if a.isDigit then some (Nat.ofDigitChars 10 (if b.isDigit then [a, b] else [a]) 0)
    else none := by
  cases ha : a.isDigit with
  | true =>
    rw [List.takeWhile_cons_of_pos ha]
    cases hb : b.isDigit with
    | true => rw [List.takeWhile_cons_of_pos hb]; rfl
    | false => rw [List.takeWhile_cons_of_neg (by simp [hb])]; rfl
  | false => rw [List.takeWhile_cons_of_neg (by simp [ha])]; rfl

/-- **Two characters**, in base 10. -/
theorem read_pair (a b : Char) : read [a, b] =
    if isSpace a ∨ a = '+' then
      if b.isDigit then some ((Nat.ofDigitChars 10 [b] 0 : Nat) : Int) else none
    else if a = '-' then
      if b.isDigit then some (-((Nat.ofDigitChars 10 [b] 0 : Nat) : Int)) else none
    else if a.isDigit then
      some ((Nat.ofDigitChars 10 (if b.isDigit then [a, b] else [a]) 0 : Nat) : Int)
    else none := by
  rw [read, signed_pair rfl fun c hc => by
    rw [numeral_singleton, isDigit_of_start hc]; rfl]
  rw [numeral_singleton, numeral_pair]
  split_ifs <;> rfl

end Decimal

end Machinery
