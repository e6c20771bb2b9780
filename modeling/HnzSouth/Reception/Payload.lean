import HnzSouth.Model.Handlers

/-!
# Reception/Payload — the payloads the parser gets through

The parser compares no length with the bytes that are left.  Where it returns, it has cut the payload
into messages, each of the length that its type announces (`Cut`); the bytes after the payload are
those of the CRC, and may decide what is announced.  A payload that is cut whatever comes after it is
well sized (`WellSized`): these are the payloads that the parser gets through without a byte more.
-/

namespace Hnz

/-! ## Copies -/

theorem u64_natCast {n : Nat} (h : n < 2 ^ 31) : u64 n = n := by
  rw [u64_of_lt (by omega) (by omega)]; rfl

/-! ## The payload of a frame -/

/-- The CRC of a frame of these bytes. -/
def crcOf (data : List UInt8) : List UInt8 := data.drop (data.length - 2)

section
variable {data : List UInt8}

theorem length_payloadOf (h : 4 ≤ data.length) :
    ((payloadOf data).length : Int) = data.length - 4 := by
  simp only [payloadOf, List.length_take, List.length_drop]
  omega

theorem length_crcOf (data : List UInt8) : (crcOf data).length ≤ 2 := by
  rw [crcOf, List.length_drop]
  omega

/-- What comes after the type byte. -/
theorem drop_two_eq (h : 4 ≤ data.length) : data.drop 2 = payloadOf data ++ crcOf data := by
  have hcrc : crcOf data = (data.drop 2).drop (data.length - 4) := by
    rw [crcOf, List.drop_drop]
    congr 1
    omega
  rw [hcrc, payloadOf, List.take_append_drop]

/-- A frame without room for the CRC has no payload. -/
theorem payloadOf_of_short (h : data.length < 4) : payloadOf data = [] := by
  rw [payloadOf, Nat.sub_eq_zero_of_le h.le, List.take_zero]

theorem length_payloadOf_lt (h : data.length < 2 ^ 31) : (payloadOf data).length < 2 ^ 31 := by
  simp only [payloadOf, List.length_take]
  omega

end

variable [Platform]

/-! ## Well-sized payloads -/

/-- The length of the message at the head, when it is all there.  A message of an unknown type is
the rest of the payload. -/
def headLength (bulle : BulleFormat) : List UInt8 → Option Nat
  | [] => none
  | t :: rest =>
    match fixedLength t with
    | some len => if len ≤ rest.length + 1 then some len else none
    | none =>
      if t = bulle.first then
        match rest with
        | [] => none
        | b :: _ => if b = bulle.second then some 2 else some (rest.length + 1)
      else some (rest.length + 1)

/-- **A payload cut into messages.** -/
inductive WellSized (bulle : BulleFormat) : List UInt8 → List (List UInt8) → Prop
  | last {data : List UInt8} (h : headLength bulle data = some data.length) :
    WellSized bulle data [data]
  | cons {data : List UInt8} {n : Nat} {messages : List (List UInt8)}
    (h : headLength bulle data = some n) (hn : n < data.length)
    (hrest : WellSized bulle (data.drop n) messages) :
    WellSized bulle data (data.take n :: messages)

variable {bulle : BulleFormat} {data : List UInt8} {messages : List (List UInt8)} {n : Nat}

theorem WellSized.flatten (h : WellSized bulle data messages) : messages.flatten = data := by
  induction h with
  | last => simp
  | cons _ _ _ ih => rw [List.flatten_cons, ih, List.take_append_drop]

theorem WellSized.ne_nil (h : WellSized bulle data messages) : messages ≠ [] := by
  cases h <;> simp

/-! ## The lengths -/

theorem fixedLength_le {t : UInt8} (h : fixedLength t = some n) : 2 ≤ n ∧ n ≤ 7 := by
  unfold fixedLength at h
  split_ifs at h <;> cases h <;> decide

theorem fixedLength_pos {t : UInt8} (h : fixedLength t = some n) : 0 < n :=
  Nat.lt_of_lt_of_le Nat.zero_lt_two (fixedLength_le h).1

theorem headLength_pos (h : headLength bulle data = some n) : 0 < n := by
  unfold headLength at h
  split at h
  · cases h
  · split at h
    · next hlen =>
      split_ifs at h
      cases h
      exact fixedLength_pos hlen
    · split at h
      · split at h
        · cases h
        · split_ifs at h <;> cases h <;> omega
      · cases h; omega

/-! ## Payloads in a frame -/

/-- The length announced at the head of these bytes, when `size` of them are payload.  The second
byte of a BULLE may be one that comes after. -/
def announced (bulle : BulleFormat) (size : Nat) : List UInt8 → Option Nat
  | [] => none
  | t :: rest =>
    match fixedLength t with
    | some len => some len
    | none =>
      if t = bulle.first then
        match rest with
        | [] => none
        | b :: _ => if b = bulle.second then some 2 else some size
      else some size

/-- **A payload cut into messages**, with these bytes after it.  Of an empty payload there is no
message, unless the bytes after it are read as one. -/
inductive Cut (bulle : BulleFormat) (after : List UInt8) :
    List UInt8 → List (List UInt8) → Prop
  | empty (h : announced bulle 0 after = some 0) : Cut bulle after [] []
  | last {data : List UInt8} (h : announced bulle data.length (data ++ after) = some data.length)
    (hne : data ≠ []) : Cut bulle after data [data]
  | cons {data : List UInt8} {n : Nat} {messages : List (List UInt8)}
    (h : announced bulle data.length (data ++ after) = some n) (hn : n < data.length)
    (hrest : Cut bulle after (data.drop n) messages) :
    Cut bulle after data (data.take n :: messages)

section
variable {after : List UInt8}

/-- A length that the payload has room for is announced whatever comes after. -/
theorem announced_of_headLength (h : headLength bulle data = some n) (after : List UInt8) :
    announced bulle data.length (data ++ after) = some n := by
  rcases data with - | ⟨t, rest⟩
  · cases h
  · unfold headLength at h
    rw [List.cons_append]
    unfold announced
    cases hf : fixedLength t with
    | some len =>
      simp only [hf] at h ⊢
      split_ifs at h
      exact h
    | none =>
      simp only [hf] at h ⊢
      split_ifs at h ⊢
      · rcases rest with - | ⟨b, rest⟩
        · cases h
        · exact h
      · exact h

theorem headLength_of_announced (hne : data ≠ []) (hn : n ≤ data.length)
    (h : announced bulle data.length data = some n) : headLength bulle data = some n := by
  rcases data with - | ⟨t, rest⟩
  · exact absurd rfl hne
  · unfold announced at h
    unfold headLength
    cases hf : fixedLength t with
    | some len =>
      simp only [hf] at h ⊢
      cases h
      exact if_pos hn
    | none =>
      simp only [hf] at h ⊢
      exact h

theorem announced_pos (hne : data ≠ []) (h : announced bulle data.length (data ++ after) = some n) :
    0 < n := by
  have hpos : 0 < data.length := List.length_pos_of_ne_nil hne
  unfold announced at h
  split at h
  · cases h
  · split at h
    · next hlen => cases h; exact fixedLength_pos hlen
    · split_ifs at h
      · split at h
        · cases h
        · split_ifs at h
          · cases h; decide
          · cases h; exact hpos
      · cases h; exact hpos

/-- What is announced is the payload, or short. -/
theorem announced_cases {size : Nat} (h : announced bulle size data = some n) : n = size ∨ n ≤ 7 := by
  unfold announced at h
  split at h
  · cases h
  · split at h
    · next hlen => cases h; exact Or.inr (fixedLength_le hlen).2
    · split_ifs at h
      · split at h
        · cases h
        · split_ifs at h
          · cases h; exact Or.inr (by decide)
          · cases h; exact Or.inl rfl
      · cases h; exact Or.inl rfl

/-- **A well-sized payload** is cut in the same way in every frame. -/
theorem WellSized.cut (h : WellSized bulle data messages) (after : List UInt8) :
    Cut bulle after data messages := by
  induction h with
  | last hn =>
    refine .last (announced_of_headLength hn after) ?_
    rintro rfl
    cases hn
  | cons hn hlt _ ih => exact .cons (announced_of_headLength hn after) hlt ih

/-- With nothing after it, a payload that is cut is well sized. -/
theorem Cut.wellSized (h : Cut bulle [] data messages) : WellSized bulle data messages := by
  induction h with
  | empty h => cases h
  | last h hne =>
    rw [List.append_nil] at h
    exact .last (headLength_of_announced hne le_rfl h)
  | @cons data n messages h hn _ ih =>
    rw [List.append_nil] at h
    have hne : data ≠ [] := List.ne_nil_of_length_pos (Nat.zero_lt_of_lt hn)
    exact .cons (headLength_of_announced hne hn.le h) hn ih

end

/-! ## The parser -/

section
variable {c : PathConf} {now : Int} {l l' : Link} {t : UInt8} {after : List UInt8} {size fuel : Nat}

/-- The announced length is the one the parser computes. -/
theorem nextLength_of_announced (now : Int) (l : Link)
    (h : announced c.testMsgReceive size data = some n) :
    ∃ t l', readByte data 0 = .ok t ∧ nextLength c now t data size l = .ok ((n : Int), l') := by
  rcases data with - | ⟨t, rest⟩
  · cases h
  · refine ⟨t, ?_⟩
    unfold announced at h
    unfold nextLength
    cases hf : fixedLength t with
    | some len =>
      simp only [hf] at h ⊢
      cases h
      exact ⟨l, rfl, rfl⟩
    | none =>
      simp only [hf, isReceivedBULLE] at h ⊢
      by_cases hfirst : t = c.testMsgReceive.first
      · rw [if_pos hfirst] at h ⊢
        rcases rest with - | ⟨b, rest⟩
        · cases h
        · by_cases hb : b = c.testMsgReceive.second
          · simp only [if_pos hb, Option.some.injEq] at h
            subst h
            refine ⟨l.receivedBULLE now, rfl, ?_⟩
            simp [readByte, hb, bind, Except.bind, pure, Except.pure]
          · simp only [if_neg hb, Option.some.injEq] at h
            subst h
            refine ⟨l, rfl, ?_⟩
            simp [readByte, hb, bind, Except.bind, pure, Except.pure]
      · rw [if_neg hfirst] at h ⊢
        simp only [Option.some.injEq] at h
        subst h
        exact ⟨l, rfl, by simp [bind, Except.bind, pure, Except.pure]⟩

/-- And it computes no other. -/
theorem announced_of_nextLength {len : Int} (ht : readByte data 0 = .ok t)
    (hlen : nextLength c now t data size l = .ok (len, l')) :
    ∃ n : Nat, len = n ∧ announced c.testMsgReceive size data = some n := by
  obtain ⟨rest, rfl⟩ : ∃ rest, data = t :: rest := by
    rcases data with - | ⟨b, rest⟩
    · cases ht
    · cases ht; exact ⟨rest, rfl⟩
  unfold nextLength at hlen
  unfold announced
  cases hf : fixedLength t with
  | some n =>
    simp only [hf] at hlen ⊢
    cases hlen
    exact ⟨n, rfl, rfl⟩
  | none =>
    simp only [hf, isReceivedBULLE, bind_eq_ok] at hlen ⊢
    obtain ⟨b, hb, hlen⟩ := hlen
    by_cases hfirst : t = c.testMsgReceive.first
    · rw [if_pos hfirst] at hb ⊢
      simp only [bind_eq_ok] at hb
      obtain ⟨second, hsecond, hb⟩ := hb
      rcases rest with - | ⟨b', rest⟩
      · cases hsecond
      · cases hsecond
        cases hb
        by_cases hsnd : second = c.testMsgReceive.second
        · rw [if_pos (beq_iff_eq.mpr hsnd)] at hlen
          cases hlen
          exact ⟨2, rfl, if_pos hsnd⟩
        · rw [if_neg (by simpa using hsnd)] at hlen
          cases hlen
          exact ⟨size, rfl, if_neg hsnd⟩
    · rw [if_neg hfirst] at hb ⊢
      cases hb
      rw [if_neg (by decide)] at hlen
      cases hlen
      exact ⟨size, rfl, rfl⟩

/-- **Once the count is negative**, a single byte is not enough for another message. -/
theorem extractFrom_ne_ok_of_neg {payloadSize : Int} (hdata : data.length ≤ 1)
    (hneg : payloadSize < 0) (hlow : -2 ^ 31 < payloadSize) {r : List (List UInt8) × Link} :
    extractFrom c now fuel data payloadSize l ≠ .ok r := by
  intro h
  obtain ⟨k, rfl⟩ : ∃ k, fuel = k + 1 := by
    rcases fuel with - | k
    · cases h
    · exact ⟨k, rfl⟩
  simp only [extractFrom, bind_eq_ok] at h
  obtain ⟨t, ht, ⟨len, l₁⟩, hlen, h⟩ := h
  obtain ⟨rfl⟩ : data = [t] := by
    rcases data with - | ⟨b, - | ⟨b', rest⟩⟩
    · cases ht
    · cases ht; rfl
    · simp at hdata
  have hlong : len ≠ 0 ∧ 1 < u64 len := by
    unfold nextLength at hlen
    cases hf : fixedLength t with
    | some n =>
      simp only [hf] at hlen
      cases hlen
      obtain ⟨hn, hle⟩ := fixedLength_le hf
      rw [u64_natCast (by omega)]
      omega
    | none =>
      simp only [hf, isReceivedBULLE, bind_eq_ok] at hlen
      obtain ⟨b, hb, hlen⟩ := hlen
      split_ifs at hb
      · simp only [bind_eq_ok] at hb
        obtain ⟨_, hsecond, -⟩ := hb
        cases hsecond
      · cases hb
        rw [if_neg (by decide)] at hlen
        cases hlen
        refine ⟨hneg.ne, ?_⟩
        unfold u64
        omega
  simp only [if_neg hlong.1, bind_eq_ok] at h
  obtain ⟨message, hm, -⟩ := h
  rw [convertPayloadToVector, if_neg (by simpa using hlong.2)] at hm
  cases hm

/-- **One call of the parser** on a payload with at most two bytes after it: there is no message, one
that is the whole payload, or one with more after it. -/
theorem extractFrom_cases (hafter : after.length ≤ 2) (hsize : data.length < 2 ^ 31)
    (h : extractFrom c now fuel (data ++ after) data.length l = .ok (messages, l')) :
    ∃ (k : Nat) (t : UInt8) (n : Nat) (l₁ : Link), fuel = k + 1 ∧
      readByte (data ++ after) 0 = .ok t ∧
      nextLength c now t (data ++ after) data.length l = .ok ((n : Int), l₁) ∧
      announced c.testMsgReceive data.length (data ++ after) = some n ∧
      ((data = [] ∧ n = 0 ∧ messages = [] ∧ l' = l₁) ∨
        (data ≠ [] ∧ n = data.length ∧ messages = [data] ∧ l' = l₁) ∨
        (n < data.length ∧ ∃ rest, messages = data.take n :: rest ∧
          extractFrom c now k (data.drop n ++ after) (data.drop n).length l₁ = .ok (rest, l'))) := by
  obtain ⟨k, rfl⟩ : ∃ k, fuel = k + 1 := by
    rcases fuel with - | k
    · cases h
    · exact ⟨k, rfl⟩
  simp only [extractFrom, bind_eq_ok] at h
  obtain ⟨t, ht, ⟨len, l₁⟩, hlen, h⟩ := h
  obtain ⟨n, rfl, hn⟩ := announced_of_nextLength ht hlen
  refine ⟨k, t, n, l₁, rfl, ht, hlen, hn, ?_⟩
  by_cases hnil : data = []
  · subst hnil
    rcases Nat.eq_zero_or_pos n with rfl | hpos
    · simp only [Nat.cast_zero, if_true] at h
      cases h
      exact Or.inl ⟨rfl, rfl, rfl, rfl⟩
    · -- the CRC is read as a message, and nothing is left after it
      exfalso
      simp only [if_neg (by omega : (n : Int) ≠ 0), bind_eq_ok] at h
      obtain ⟨message, hm, h⟩ := h
      rw [if_neg (by simpa using hpos.ne')] at h
      simp only [bind_eq_ok] at h
      obtain ⟨r, hr, -⟩ := h
      have hle : n ≤ 7 := (announced_cases hn).resolve_left hpos.ne'
      refine extractFrom_ne_ok_of_neg ?_ ?_ ?_ hr
      · rw [u64_natCast (by omega), List.nil_append, List.length_drop]
        omega
      · simp only [List.length_nil, Nat.cast_zero]; omega
      · simp only [List.length_nil, Nat.cast_zero]; omega
  · have hpos := announced_pos hnil hn
    have hlt : n < 2 ^ 31 := by rcases announced_cases hn with hle | hle <;> omega
    simp only [if_neg (by omega : (n : Int) ≠ 0), bind_eq_ok] at h
    obtain ⟨message, hm, h⟩ := h
    have hm' : message = (data ++ after).take n := by
      rw [convertPayloadToVector, u64_natCast hlt] at hm
      split_ifs at hm
      exact (Except.ok.inj hm).symm
    by_cases hlast : n = data.length
    · rw [if_pos (by omega)] at h
      cases h
      refine Or.inr (Or.inl ⟨hnil, hlast, ?_, rfl⟩)
      rw [hm', hlast, List.take_left]
    rw [if_neg (by omega)] at h
    simp only [bind_eq_ok] at h
    obtain ⟨⟨rest, l₂⟩, hrest, h⟩ := h
    cases h
    rw [u64_natCast hlt] at hrest
    by_cases hover : data.length < n
    · -- the message ends in the CRC
      exfalso
      refine extractFrom_ne_ok_of_neg ?_ (by omega) ?_ hrest
      · rw [List.length_drop, List.length_append]
        omega
      · rcases announced_cases hn with hle | hle <;> omega
    have hinside : n < data.length := by omega
    refine Or.inr (Or.inr ⟨hinside, rest, ?_, ?_⟩)
    · rw [hm', List.take_append_of_le_length hinside.le]
    · rw [List.drop_append_of_le_length hinside.le] at hrest
      rwa [List.length_drop, Nat.cast_sub hinside.le]

/-- **The parser cuts every payload that can be cut**, in as many calls as there are messages. -/
theorem extractFrom_of_cut (h : Cut c.testMsgReceive after data messages)
    (hsize : data.length < 2 ^ 31) (hfuel : data.length < fuel) :
    ∃ l', extractFrom c now fuel (data ++ after) data.length l = .ok (messages, l') := by
  induction h generalizing fuel l with
  | empty hn =>
    obtain ⟨t, l₁, ht, hlen⟩ := nextLength_of_announced now l hn
    obtain ⟨k, rfl⟩ : ∃ k, fuel = k + 1 := ⟨fuel - 1, by omega⟩
    refine ⟨l₁, ?_⟩
    simp only [extractFrom, bind_eq_ok]
    exact ⟨t, ht, _, hlen, if_pos rfl⟩
  | @last data hn hne =>
    obtain ⟨t, l₁, ht, hlen⟩ := nextLength_of_announced now l hn
    have hpos := announced_pos hne hn
    obtain ⟨k, rfl⟩ : ∃ k, fuel = k + 1 := ⟨fuel - 1, by omega⟩
    refine ⟨l₁, ?_⟩
    simp only [extractFrom, bind_eq_ok]
    refine ⟨t, ht, _, hlen, ?_⟩
    rw [if_neg (by simpa using hpos.ne')]
    simp only [bind_eq_ok]
    refine ⟨data, ?_, if_pos trivial⟩
    rw [convertPayloadToVector, u64_natCast hsize, if_pos (by simp), List.take_left]
  | @cons data n messages hn hlt _ ih =>
    obtain ⟨t, l₁, ht, hlen⟩ := nextLength_of_announced now l hn
    have hne : data ≠ [] := List.ne_nil_of_length_pos (Nat.zero_lt_of_lt hlt)
    have hpos := announced_pos hne hn
    obtain ⟨k, rfl⟩ : ∃ k, fuel = k + 1 := ⟨fuel - 1, by omega⟩
    obtain ⟨l', hrest⟩ : ∃ l', extractFrom c now k (data.drop n ++ after) (data.drop n).length l₁ =
        .ok (messages, l') :=
      ih (by rw [List.length_drop]; omega) (by rw [List.length_drop]; omega)
    refine ⟨l', ?_⟩
    simp only [extractFrom, bind_eq_ok]
    refine ⟨t, ht, _, hlen, ?_⟩
    rw [if_neg (by simpa using hpos.ne')]
    simp only [bind_eq_ok]
    refine ⟨data.take n, ?_, ?_⟩
    · rw [convertPayloadToVector, u64_natCast (by omega),
        if_pos (by rw [List.length_append]; omega), List.take_append_of_le_length hlt.le]
    rw [if_neg (by simpa using hlt.ne)]
    simp only [bind_eq_ok]
    refine ⟨(messages, l'), ?_, rfl⟩
    rw [u64_natCast (by omega), List.drop_append_of_le_length hlt.le]
    rwa [List.length_drop, Nat.cast_sub hlt.le] at hrest

/-- **And no other.** -/
theorem cut_of_extractFrom (hafter : after.length ≤ 2) (hsize : data.length < 2 ^ 31)
    (h : extractFrom c now fuel (data ++ after) data.length l = .ok (messages, l')) :
    Cut c.testMsgReceive after data messages := by
  induction fuel generalizing data l messages with
  | zero => cases h
  | succ fuel ih =>
    obtain ⟨k, t, n, l₁, hk, -, -, hn, h⟩ := extractFrom_cases hafter hsize h
    obtain rfl : fuel = k := Nat.succ.inj hk
    obtain ⟨rfl, rfl, rfl, -⟩ | ⟨hne, rfl, rfl, -⟩ | ⟨hlt, rest, rfl, hrest⟩ := h
    · exact .empty hn
    · exact .last hn hne
    · exact .cons hn hlt (ih (by rw [List.length_drop]; omega) hrest)

/-- **The parser gets through every well-sized payload**, with nothing after it. -/
theorem extractFrom_of_wellSized (h : WellSized c.testMsgReceive data messages)
    (hsize : data.length < 2 ^ 31) (hfuel : data.length < fuel) :
    ∃ l', extractFrom c now fuel data data.length l = .ok (messages, l') := by
  have hcut : ∃ l', extractFrom c now fuel (data ++ []) data.length l = .ok (messages, l') :=
    extractFrom_of_cut (h.cut []) hsize hfuel
  rwa [List.append_nil] at hcut

/-- **And only through those.** -/
theorem wellSized_of_extractFrom (hsize : data.length < 2 ^ 31)
    (h : extractFrom c now fuel data data.length l = .ok (messages, l')) :
    WellSized c.testMsgReceive data messages := by
  rw [← List.append_nil data] at h
  have hcut : Cut c.testMsgReceive [] data messages :=
    cut_of_extractFrom (Nat.zero_le _) hsize (by simpa using h)
  exact hcut.wellSized

end

/-! ## The CRC -/

/-- A CRC that no BULLE goes on with. -/
def filler (c : PathConf) : List UInt8 := List.replicate 2 (c.testMsgReceive.second + 1)

section
variable {c : PathConf} {now m : Int} {l l' : Link} {t : UInt8} {after : List UInt8}

omit [Platform] in
theorem u64_le (k : Nat) : u64 k ≤ k := by
  unfold u64
  omega

/-- The length of a message that ends in the payload depends on nothing else. -/
theorem nextLength_congr {rest : List UInt8} {size len : Int} (x : Link)
    (h : nextLength c now t (t :: (rest ++ after)) size l = .ok (len, l'))
    (hin : len ≤ rest.length + 1) :
    ∃ x', nextLength c m t (t :: (rest ++ filler c)) size x = .ok (len, x') := by
  unfold nextLength at h ⊢
  cases hlength : fixedLength t with
  | some k =>
    rw [hlength] at h
    cases h
    exact ⟨x, rfl⟩
  | none =>
    simp only [hlength, isReceivedBULLE, bind_eq_ok] at h ⊢
    obtain ⟨b, hb, h⟩ := h
    split_ifs at hb ⊢ with hfirst
    · simp only [bind_eq_ok] at hb ⊢
      obtain ⟨second, hsecond, hb⟩ := hb
      cases hb
      rcases rest with - | ⟨b', rest⟩
      · -- the payload ends here, and no BULLE does
        by_cases heq : second = c.testMsgReceive.second
        · rw [if_pos (beq_iff_eq.mpr heq)] at h
          cases h
          simp at hin
        · rw [if_neg (by simpa using heq)] at h
          cases h
          exact ⟨x, false, ⟨c.testMsgReceive.second + 1, rfl, by simp [pure, Except.pure]⟩, rfl⟩
      · cases hsecond
        by_cases heq : second = c.testMsgReceive.second
        · rw [if_pos (beq_iff_eq.mpr heq)] at h
          cases h
          exact ⟨_, true, ⟨second, rfl, by simp [heq, pure, Except.pure]⟩, rfl⟩
        · rw [if_neg (by simpa using heq)] at h
          cases h
          exact ⟨x, false, ⟨second, rfl, by simp [heq, pure, Except.pure]⟩, rfl⟩
    · cases hb
      cases h
      exact ⟨x, false, rfl, rfl⟩

/-- **The link, the time and the CRC do not matter** to the messages of a payload. -/
theorem extractFrom_congr {fuel : Nat} (x : Link) (hafter : after.length ≤ 2) (hne : data ≠ [])
    (h : extractFrom c now fuel (data ++ after) data.length l = .ok (messages, l')) :
    ∃ x', extractFrom c m fuel (data ++ filler c) data.length x = .ok (messages, x') := by
  induction fuel generalizing data l messages x with
  | zero => cases h
  | succ fuel ih =>
    obtain ⟨t, rest, rfl⟩ := List.exists_cons_of_ne_nil hne
    simp only [extractFrom, bind_eq_ok] at h ⊢
    obtain ⟨t', ht, ⟨len, l₁⟩, hlen, h⟩ := h
    obtain rfl : t = t' := Except.ok.inj ht
    obtain ⟨k, rfl, hk⟩ := announced_of_nextLength ht hlen
    have hpos := announced_pos (by simp) hk
    have hzero : (k : Int) ≠ 0 := by omega
    simp only [if_neg hzero, bind_eq_ok] at h
    obtain ⟨message, hmessage, h⟩ := h
    have hin : k ≤ (t :: rest).length := by
      by_contra hover
      have hsmall : k ≤ 7 := by rcases announced_cases hk with hle | hle <;> omega
      rw [if_neg (by omega)] at h
      simp only [bind_eq_ok] at h
      obtain ⟨r, hr, -⟩ := h
      refine extractFrom_ne_ok_of_neg ?_ (by omega) (by omega) hr
      rw [u64_natCast (by omega), List.length_drop, List.length_append]
      omega
    have hu : u64 k ≤ (t :: rest).length := (u64_le k).trans hin
    have hcopy : ∀ more : List UInt8, convertPayloadToVector (t :: rest ++ more) k =
        .ok ((t :: rest).take (u64 k)) := by
      intro more
      rw [convertPayloadToVector, if_pos (by rw [List.length_append]; omega),
        List.take_append_of_le_length hu]
    obtain ⟨x₁, hx₁⟩ := nextLength_congr (m := m) x hlen (by simp at hin; omega)
    rw [hcopy] at hmessage
    by_cases hlast : (k : Int) = (t :: rest).length
    · rw [if_pos hlast] at h
      cases h
      refine ⟨x₁, t, rfl, (k, x₁), hx₁, ?_⟩
      simp only [if_neg hzero, bind_eq_ok]
      exact ⟨message, (hcopy _).trans hmessage, if_pos hlast⟩
    · rw [if_neg hlast] at h
      simp only [bind_eq_ok] at h
      obtain ⟨⟨others, l₂⟩, hothers, h⟩ := h
      cases h
      have hlt : k < (t :: rest).length := by omega
      have hsmall : k ≤ 7 := (announced_cases hk).resolve_left hlt.ne
      rw [u64_natCast (by omega), List.drop_append_of_le_length hlt.le, ← Nat.cast_sub hlt.le,
        ← List.length_drop] at hothers
      have hmore : (t :: rest).drop k ≠ [] :=
        List.ne_nil_of_length_pos (by rw [List.length_drop]; omega)
      obtain ⟨x₂, hx₂⟩ := ih x₁ hmore hothers
      refine ⟨x₂, t, rfl, (k, x₁), hx₁, ?_⟩
      simp only [if_neg hzero, bind_eq_ok]
      refine ⟨message, (hcopy _).trans hmessage, ?_⟩
      rw [if_neg hlast]
      simp only [bind_eq_ok]
      refine ⟨(others, x₂), ?_, rfl⟩
      rw [u64_natCast (by omega), List.drop_append_of_le_length hlt.le, ← Nat.cast_sub hlt.le,
        ← List.length_drop]
      exact hx₂

end

/-! ## The parser on a frame -/

section
variable {c : PathConf} {now : Int} {l l' : Link}

/-- **The payload of a frame** is extracted if it can be cut. -/
theorem extractMessages_of_cut (hlong : 4 ≤ data.length) (hsize : data.length < 2 ^ 31)
    (h : Cut c.testMsgReceive (crcOf data) (payloadOf data) messages) (now : Int) :
    ∃ l', extractMessages c now (data.drop 2) (data.length - 4) l = .ok (messages, l') := by
  rw [extractMessages, drop_two_eq hlong, ← length_payloadOf hlong]
  refine extractFrom_of_cut h (length_payloadOf_lt hsize) ?_
  rw [List.length_append]
  omega

/-- What was extracted is its payload, cut. -/
theorem cut_of_extractMessages (hsize : data.length < 2 ^ 31)
    (h : extractMessages c now (data.drop 2) (data.length - 4) l = .ok (messages, l')) :
    4 ≤ data.length ∧ Cut c.testMsgReceive (crcOf data) (payloadOf data) messages := by
  have hlong : 4 ≤ data.length := by
    by_contra hshort
    refine extractFrom_ne_ok_of_neg ?_ (by omega) (by omega) h
    rw [List.length_drop]
    omega
  refine ⟨hlong, ?_⟩
  rw [extractMessages, drop_two_eq hlong, ← length_payloadOf hlong] at h
  exact cut_of_extractFrom (length_crcOf data) (length_payloadOf_lt hsize) h

theorem WellSized.long (h : WellSized bulle (payloadOf data) messages) : 4 ≤ data.length := by
  by_contra hshort
  rw [payloadOf_of_short (by omega)] at h
  cases h <;> simp_all [headLength]

/-- **A well-sized payload** is extracted from its frame. -/
theorem extractMessages_of_wellSized (hsize : data.length < 2 ^ 31)
    (h : WellSized c.testMsgReceive (payloadOf data) messages) (now : Int) :
    ∃ l', extractMessages c now (data.drop 2) (data.length - 4) l = .ok (messages, l') :=
  extractMessages_of_cut h.long hsize (h.cut _) now

/-- And by itself, without a byte of the CRC. -/
theorem extractMessages_payloadOf (hsize : data.length < 2 ^ 31)
    (h : WellSized c.testMsgReceive (payloadOf data) messages) (now : Int) :
    ∃ l', extractMessages c now (payloadOf data) (data.length - 4) l = .ok (messages, l') := by
  rw [← length_payloadOf h.long]
  exact extractFrom_of_wellSized h (length_payloadOf_lt hsize) (Nat.lt_succ_self _)

end

end Hnz
