import Mathlib.Tactic

/-!
# Model/Basic — the words of the protocol

Bytes, machine integers, the enumerations of the plugin, and the two constants of its surroundings:
the function codes of libhnz and the host's local time.
-/

namespace Hnz

/-! ## Machine integers -/

/-- The value of an integer converted to `uint64_t` (also `size_t` and `unsigned long`). -/
def u64 (x : Int) : Nat := (x % 2 ^ 64).toNat

/-- The value of an integer converted to `long`. -/
def int64 (x : Int) : Int := x.bmod (2 ^ 64)

/-- The value of an integer converted to `int`. -/
def int32 (x : Int) : Int := x.bmod (2 ^ 32)

/-- The value of an integer converted to `unsigned char`. -/
def u8 (x : Int) : UInt8 := UInt8.ofNat (x % 256).toNat

theorem int32_of_lt {x : Int} (h₀ : 0 ≤ x) (h : x < 2 ^ 31) : int32 x = x := by
  rw [int32, Int.bmod_def]
  omega

theorem int64_of_lt {x : Int} (h₀ : 0 ≤ x) (h : x < 2 ^ 63) : int64 x = x := by
  rw [int64, Int.bmod_def]
  omega

theorem int32_le (n : Nat) : int32 n ≤ n := by
  rw [int32, Int.bmod_def]
  omega

theorem u64_of_lt {x : Int} (h₀ : 0 ≤ x) (h : x < 2 ^ 64) : u64 x = x.toNat := by
  rw [u64, Int.emod_eq_of_lt h₀ h]

/-! ## Faults

What C++ leaves undefined, or never leaves, is an error value of the model. -/

/-- The ways a call does not return. -/
inductive Fault
  /-- A read outside the buffer. -/
  | badRead
  /-- A method called through a null path. -/
  | nullPath
  /-- `std::map::at` on a key the map does not have. -/
  | outOfRange
  /-- A loop that nothing ends. -/
  | hang
  deriving DecidableEq, Repr

/-- The value of a call that may not return one. -/
abbrev Result := Except Fault

/-- A computation in two parts returns when both do. -/
theorem bind_eq_ok {α β : Type} {x : Result α} {f : α → Result β} {b : β} :
    (x >>= f) = .ok b ↔ ∃ a, x = .ok a ∧ f a = .ok b := by
  cases x with
  | error e => exact ⟨nofun, fun ⟨_, h, _⟩ => by cases h⟩
  | ok a => exact ⟨fun h => ⟨a, rfl, h⟩, fun ⟨_, h, h'⟩ => by cases h; exact h'⟩

theorem map_eq_ok {α β : Type} {x : Result α} {f : α → β} {b : β} :
    x.map f = .ok b ↔ ∃ a, x = .ok a ∧ f a = b := by
  cases x with
  | error e => exact ⟨nofun, fun ⟨_, h, _⟩ => by cases h⟩
  | ok a => simp [Except.map]

/-- What a list of calls returns, its calls return. -/
theorem exists_of_mem_mapM {α β : Type} {f : α → Result β} {l : List α} {bs : List β}
    (h : l.mapM f = .ok bs) {b : β} (hb : b ∈ bs) : ∃ a ∈ l, f a = .ok b := by
  induction l generalizing bs with
  | nil => cases h; cases hb
  | cons a l ih =>
    rw [List.mapM_cons] at h
    obtain ⟨b', hb', h⟩ := bind_eq_ok.mp h
    obtain ⟨bs', hbs', h⟩ := bind_eq_ok.mp h
    cases h
    rcases List.mem_cons.mp hb with rfl | hb
    · exact ⟨a, by simp, hb'⟩
    · obtain ⟨x, hx, hfx⟩ := ih hbs' hb
      exact ⟨x, by simp [hx], hfx⟩

theorem error_of_map {α β : Type} {x : Result α} {f : α → β} {e : Fault} (h : x.map f = .error e) :
    x = .error e := by
  cases x with
  | error e' => exact congrArg _ (Except.error.inj h)
  | ok a => cases h

/-- **The call does not end with this fault.**  It composes. -/
def Avoids (e : Fault) {α : Type} (x : Result α) : Prop := x ≠ .error e

namespace Avoids

variable {α β : Type} {e : Fault}

theorem ok (a : α) : Avoids e (.ok a) := nofun

theorem bind {x : Result α} {f : α → Result β} (hx : Avoids e x)
    (hf : ∀ a, x = .ok a → Avoids e (f a)) : Avoids e (x >>= f) := by
  cases x with
  | ok a => exact hf a rfl
  | error e => exact fun h => hx (by cases h; rfl)

theorem map {x : Result α} {f : α → β} (hx : Avoids e x) : Avoids e (x.map f) := by
  cases x with
  | ok a => exact ok _
  | error e => exact fun h => hx (by cases h; rfl)

theorem mapM {f : α → Result β} {l : List α} (h : ∀ a ∈ l, Avoids e (f a)) :
    Avoids e (l.mapM f) := by
  induction l with
  | nil => exact ok _
  | cons a l ih =>
    rw [List.mapM_cons]
    refine (h a (by simp)).bind fun b _ => ?_
    exact (ih fun x hx => h x (List.mem_cons_of_mem _ hx)).bind fun _ _ => ok _

theorem ite {p : Prop} [Decidable p] {x y : Result α} (hx : p → Avoids e x)
    (hy : ¬p → Avoids e y) : Avoids e (if p then x else y) := by
  split_ifs with h
  · exact hx h
  · exact hy h

end Avoids

/-- `data[i]` inside the buffer. -/
def readByte (data : List UInt8) (i : Nat) : Result UInt8 :=
  match data[i]? with
  | some b => .ok b
  | none => .error .badRead

theorem readByte_eq_ok {data : List UInt8} {i : Nat} {b : UInt8} :
    readByte data i = .ok b ↔ data[i]? = some b := by
  unfold readByte; split <;> simp_all

/-- A read has no fault but to end up outside the buffer. -/
theorem avoids_readByte {e : Fault} {data : List UInt8} {i : Nat}
    (h : e = .badRead → i < data.length) : Avoids e (readByte data i) := by
  unfold readByte
  split
  · exact .ok _
  · next hnone =>
    rintro ⟨⟩
    exact absurd (h rfl) (not_lt.mpr (List.getElem?_eq_none_iff.mp hnone))

/-! ## The surroundings -/

/-- **The surroundings of the plugin**: the constants of libhnz, which the source names and does
not define, and the local time of the host — UTC plus a fixed number of seconds. -/
class Platform where
  sarmCode : UInt8
  uaCode : UInt8
  tm4Code : UInt8
  tsceCode : UInt8
  tscgCode : UInt8
  tmnCode : UInt8
  moduloCode : UInt8
  tcackCode : UInt8
  tvcackCode : UInt8
  tcCode : UInt8
  tvcCode : UInt8
  setdateCode : UInt8
  settimeCode : UInt8
  utcOffset : Int
  /-- The function codes of the received messages are pairwise distinct. -/
  received_nodup :
    [tm4Code, tsceCode, tscgCode, tmnCode, moduloCode, tcackCode, tvcackCode].Nodup
  /-- So are the function codes of the sent ones. -/
  sent_nodup : [tcCode, tvcCode, setdateCode, settimeCode].Nodup
  /-- SARM and UA are two unnumbered frames: neither reads as an information frame or as RR. -/
  sarm_ne_ua : sarmCode ≠ uaCode
  sarm_unnumbered : sarmCode &&& 0x03 = 0x03
  ua_unnumbered : uaCode &&& 0x03 = 0x03

/-- The constants of the test suite, on a host whose time is UTC. -/
abbrev Platform.sample : Platform where
  sarmCode := 0x0F
  uaCode := 0x63
  tm4Code := 0x02
  tsceCode := 0x0B
  tscgCode := 0x16
  tmnCode := 0x0C
  moduloCode := 0x0F
  tcackCode := 0x09
  tvcackCode := 0x0A
  tcCode := 0x19
  tvcCode := 0x1A
  setdateCode := 0x1C
  settimeCode := 0x1D
  utcOffset := 0
  received_nodup := by decide
  sent_nodup := by decide
  sarm_ne_ua := by decide
  sarm_unnumbered := by decide
  ua_unnumbered := by decide

namespace Sample

/-- The runs on given inputs have these constants. -/
scoped instance platform : Platform := .sample

end Sample

/-- The two bytes of a BULLE. -/
structure BulleFormat where
  first : UInt8 := 0
  second : UInt8 := 0
  deriving DecidableEq, Repr

/-! ## Enumerations -/

/-- The events that move the protocol automaton. -/
inductive ConnectionEvent
  | tcpCnxEstablished
  | receivedSarm
  | receivedUa
  | toRecv
  | maxSend
  | tcpCnxLost
  | toSend
  | receivedInfo
  | sendTc
  | toUa
  | maxSarmSent
  | toLastcg
  | toTcack
  deriving DecidableEq, Repr

/-- The state of the HNZ protocol on a path. -/
inductive ProtocolState
  /-- No connection has been established. -/
  | connection
  /-- SARM received. -/
  | inputConnected
  /-- UA received. -/
  | outputConnected
  /-- Fully connected. -/
  | connected
  deriving DecidableEq, Repr

/-- The state the arbiter gives a path. -/
inductive ConnectionState
  | disconnected
  | pendingHnz
  | passive
  | active
  deriving DecidableEq, Repr

/-- The status of the whole connection. -/
inductive ConnectionStatus
  | started
  | notConnected
  deriving DecidableEq, Repr

/-- The status of the general interrogation (GI). -/
inductive GiStatus
  | idle
  | started
  | inProgress
  | failed
  | finished
  deriving DecidableEq, Repr

/-- The two slots of `m_paths`. -/
inductive PathId
  | A
  | B
  deriving DecidableEq, Repr

namespace PathId

/-- The other slot. -/
def other : PathId → PathId
  | A => B
  | B => A

@[simp] theorem other_other (p : PathId) : p.other.other = p := by cases p <;> rfl

@[simp] theorem other_ne (p : PathId) : p.other ≠ p := by cases p <;> decide

@[simp] theorem ne_other (p : PathId) : p ≠ p.other := by cases p <;> decide

theorem eq_or_eq_other (p q : PathId) : q = p ∨ q = p.other := by
  cases p <;> cases q <;> simp [other]

/-- The letter of the path, as in its name and its audits. -/
def letter : PathId → String
  | A => "A"
  | B => "B"

end PathId

/-! ## The numbering byte

Bit 0 is 0 in an information frame, whose bits are `NR NR NR P NS NS NS 0`; the supervision frame
RR is `NR NR NR F 0 0 0 1`. -/

instance neZero_eight : NeZero 8 := ⟨by decide⟩

theorem ofNat_add (m n : Nat) : Fin.ofNat 8 (m + n) = Fin.ofNat 8 m + Fin.ofNat 8 n := by
  ext
  simp only [Fin.ofNat, Fin.val_add]
  omega

theorem ofNat_one : Fin.ofNat 8 1 = 1 := rfl

theorem val_ofNat_of_lt {n : Nat} (h : n < 8) : (Fin.ofNat 8 n).val = n := Nat.mod_eq_of_lt h

/-- The NS field. -/
def nsField (type : UInt8) : Fin 8 := Fin.ofNat 8 ((type >>> 1) &&& 0x07).toNat

/-- The P/F bit. -/
def pfField (type : UInt8) : Bool := (type >>> 4) &&& 0x01 == 1

/-- The NR field. -/
def nrField (type : UInt8) : Fin 8 := Fin.ofNat 8 ((type >>> 5) &&& 0x07).toNat

/-- The type byte of an information frame. -/
def infoType (nr ns : Fin 8) (p : Bool) : UInt8 :=
  u8 (nr.val * 0x20 + (if p then 0x10 else 0) + ns.val * 0x2)

/-- The type byte of RR. -/
def rrType (nr : Fin 8) (f : Bool) : UInt8 :=
  u8 (0x01 + nr.val * 0x20 + (if f then 0x10 else 0))

/-- The fields of an information frame are the ones it was written with. -/
@[simp] theorem nsField_infoType : ∀ nr ns p, nsField (infoType nr ns p) = ns := by decide +kernel

@[simp] theorem pfField_infoType : ∀ nr ns p, pfField (infoType nr ns p) = p := by decide +kernel

@[simp] theorem nrField_infoType : ∀ nr ns p, nrField (infoType nr ns p) = nr := by decide +kernel

@[simp] theorem infoType_even : ∀ nr ns p, infoType nr ns p &&& 0x01 = 0 := by decide +kernel

/-- The fields of RR are the ones it was written with. -/
@[simp] theorem nrField_rrType : ∀ nr f, nrField (rrType nr f) = nr := by decide +kernel

@[simp] theorem pfField_rrType : ∀ nr f, pfField (rrType nr f) = f := by decide +kernel

end Hnz
