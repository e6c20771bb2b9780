import HnzSouth.Configuration.Accepted
import HnzSouth.Behaviour.Events
import HnzSouth.Interrogation.Repetition

/-!
# Configuration/Durations — the milliseconds of an accepted document

The document gives its durations in seconds, the timers count milliseconds.  Each duration is
multiplied in a type of its own, `int` or `unsigned int`, before or after it is stored in another, so
that each has a range of its own in which nothing wraps (`durations_iff`).
-/

namespace Hnz

open Machinery

/-! ## The durations -/

/-- **The durations of the timers**, in milliseconds. -/
@[ext] structure Durations where
  /-- The silence after which the other side counts as lost. -/
  inacc : Int
  /-- The time for the acknowledgement of a command. -/
  cAck : Int
  /-- The pause in sending that a BULLE ends. -/
  bulle : Int
  /-- The time for a GI to end. -/
  gi : Int
  /-- The time for the acknowledgement of a frame. -/
  repetition : Int
  deriving DecidableEq, Repr

/-- What the code computes: two products of `unsigned int`s, two of `int`s — the second converted
after it — and a conversion. -/
def HNZConf.durations (conf : HNZConf) (p : PathId) : Durations where
  inacc := int32 ((conf.pathConf p).inaccTimeout * 1000)
  cAck := (conf.pathConf p).cAckTimeMax
  bulle := ((conf.pathConf p).bulleTime * 1000 % 2 ^ 32 : Nat)
  gi := int32 (conf.giTime * 1000).toNat
  repetition := (conf.pathConf p).repeatTimeout

/-- What the document means. -/
def ApplicationLayer.durations (layer : ApplicationLayer) : Durations where
  inacc := layer.inaccTimeout.toNat * 1000
  cAck := layer.cAckTime.toNat * 1000
  bulle := layer.bulleTime.toNat * 1000
  gi := layer.giTime.toNat * 1000
  repetition := layer.repeatTimeout.toNat

/-! ## Their use -/

namespace System

variable {s : System} {p : PathId} {now : Instant}

/-- The settings of a new connection that has a path. -/
theorem durations_create (hnz : HNZ) (now : Instant) (p : PathId)
    (h : (create hnz now).connection.isRunning = true) :
    (create hnz now).connection.giTimeMax = (hnz.conf.durations p).gi ∧
      (create hnz now).connection.repeatTimeout = (hnz.conf.durations p).repetition := by
  by_cases hnone : (!hnz.conf.configured .A && !hnz.conf.configured .B) = true
  · have hcreate : create hnz now = { hnz := hnz, connection := { conf := hnz.conf } } :=
      if_pos hnone
    rw [hcreate] at h
    cases h
  · obtain ⟨s, hs⟩ : ∃ s, s = create hnz now := ⟨_, rfl⟩
    rw [← hs]
    have hsettings := congrArg
      (fun s : System => (s.connection.giTimeMax, s.connection.repeatTimeout))
      (hs.trans (if_neg hnone))
    dsimp only at hsettings
    simp only [HNZConf.durations, HNZConf.pathConf]
    exact Prod.mk.inj hsettings

/-- A command is registered until its time is over. -/
theorem durations_registerCommandIfSent {l : Link} (type : String) (address : Int) (now : Int) :
    (l.registerCommandIfSent (s.pathConf p) now type true address).commandSent =
      ⟨type, address, u64 (now + (s.connection.conf.durations p).cAck)⟩ :: l.commandSent := rfl

theorem inacc_durations : (s.connection.conf.durations p).inacc =
    int32 ((s.pathConf p).inaccTimeout * 1000) := by
  simp only [HNZConf.durations, System.pathConf]

theorem bulle_durations : (s.connection.conf.durations p).bulle =
    ((s.pathConf p).bulleTime * 1000 % 2 ^ 32 : Nat) := by
  simp only [HNZConf.durations, System.pathConf]

/-- **The pause in sending** decides how long the thread of a connected path sleeps. -/
theorem durations_manageConnected :
    (s.manageConnected p now).1 =
      if (s.connection.conf.durations p).inacc < now.ms - (s.path p).lastMsgTime ∧
        (s.path p).protocolState = .connected then 10
      else if (s.connection.conf.durations p).bulle ≤ now.ms - (s.path p).lastMsgSentTime then
        (s.connection.conf.durations p).bulle
      else (s.connection.conf.durations p).bulle - (now.ms - (s.path p).lastMsgSentTime) := by
  rw [inacc_durations, bulle_durations]
  unfold manageConnected
  simp only [gt_iff_lt, ge_iff_le]
  split_ifs <;> rfl

/-- **The silence of the other side** is noticed when it is longer than that. -/
theorem durations_fires [Platform] (hp : (s.path p).protocolState ≠ .outputConnected) :
    s.fires (.manage p now) = some (p, .toRecv) ↔
      (s.connection.conf.durations p).inacc < now.ms - (s.path p).lastMsgTime := by
  rw [inacc_durations]
  cases hstate : (s.path p).protocolState with
  | outputConnected => exact absurd hstate hp
  | connection | inputConnected | connected =>
    simp only [fires, hstate]
    split_ifs <;> simp_all

end System

/-! ## Their ranges -/

theorem int32_lt (x : Int) : int32 x < 2 ^ 31 := by
  rw [int32, Int.bmod_def]
  omega

section

variable (n : UInt32)

theorem inacc_iff : int32 (int32 n.toNat * 1000) = n.toNat * 1000 ↔ n ≤ 2147483 := by
  have hmax : (2147483 : UInt32).toNat = 2147483 := rfl
  rw [UInt32.le_iff_toNat_le, hmax]
  constructor
  · intro heq
    have hlt := int32_lt (int32 n.toNat * 1000)
    rw [heq] at hlt
    omega
  · intro hle
    have hstored : int32 n.toNat = n.toNat := int32_of_lt (by omega) (by omega)
    rw [hstored, int32_of_lt (by omega) (by omega)]

theorem cAck_iff : ((n * 1000).toNat : Int) = n.toNat * 1000 ↔ n ≤ 4294967 := by
  have hlt := n.toNat_lt
  have hmax : (4294967 : UInt32).toNat = 4294967 := rfl
  have hunit : (1000 : UInt32).toNat = 1000 := rfl
  rw [UInt32.le_iff_toNat_le, hmax, UInt32.toNat_mul, hunit]
  omega

theorem bulle_iff : ((n.toNat * 1000 % 2 ^ 32 : Nat) : Int) = n.toNat * 1000 ↔ n ≤ 4294967 := by
  have hlt := n.toNat_lt
  have hmax : (4294967 : UInt32).toNat = 4294967 := rfl
  rw [UInt32.le_iff_toNat_le, hmax]
  omega

theorem gi_iff : int32 (n * 1000).toNat = n.toNat * 1000 ↔ n ≤ 2147483 := by
  have hlt := n.toNat_lt
  have hmax : (2147483 : UInt32).toNat = 2147483 := rfl
  have hunit : (1000 : UInt32).toNat = 1000 := rfl
  rw [UInt32.le_iff_toNat_le, hmax, UInt32.toNat_mul, hunit, int32, Int.bmod_def]
  omega

theorem repetition_iff : int32 n.toNat = n.toNat ↔ n ≤ 2147483647 := by
  have hlt := n.toNat_lt
  have hmax : (2147483647 : UInt32).toNat = 2147483647 := rfl
  rw [UInt32.le_iff_toNat_le, hmax, int32, Int.bmod_def]
  omega

end

/-- **The documents whose durations do not wrap.** -/
theorem durations_iff {text : Text} {conf : HNZConf}
    (h : (importConfigJson text conf).configIsComplete = true) :
    (∃ layer, text.applicationLayer = some layer ∧
        ∀ p, (importConfigJson text conf).durations p = layer.durations) ↔
      ∃ layer, text.applicationLayer = some layer ∧ layer.inaccTimeout ≤ 2147483 ∧
        layer.cAckTime ≤ 4294967 ∧ layer.bulleTime ≤ 4294967 ∧ layer.giTime ≤ 2147483 ∧
        layer.repeatTimeout ≤ 2147483647 := by
  obtain ⟨hlayer, -⟩ := applicationLayer_of_accepted h
  simp only [hlayer, Option.some.injEq, exists_eq_left', Durations.ext_iff, HNZConf.durations,
    HNZConf.pathConf, HNZConf.applicationLayer, ApplicationLayer.durations]
  constructor
  · intro hexact
    obtain ⟨hinacc, hcAck, hbulle, hgi, hrepetition⟩ := hexact .A
    exact ⟨(inacc_iff _).mp hinacc, (cAck_iff _).mp hcAck, (bulle_iff _).mp hbulle,
      (gi_iff _).mp hgi, (repetition_iff _).mp hrepetition⟩
  · rintro ⟨hinacc, hcAck, hbulle, hgi, hrepetition⟩ p
    exact ⟨(inacc_iff _).mpr hinacc, (cAck_iff _).mpr hcAck, (bulle_iff _).mpr hbulle,
      (gi_iff _).mpr hgi, (repetition_iff _).mpr hrepetition⟩

/-- The longest durations that do not wrap, and one second more. -/
def longest (more : Int) : Text :=
  .stack [("remote_station_addr", .integer 1), ("inacc_timeout", .integer (2147483 + more)),
    ("c_ack_time", .integer (4294967 + more)), ("bulle_time", .integer (4294967 + more)),
    ("gi_time", .integer (2147483 + more)), ("repeat_timeout", .integer (2147483647 + more))]

theorem durations_longest : (importConfigJson (longest 0) {}).configIsComplete = true ∧
    ∃ layer, (longest 0).applicationLayer = some layer ∧
      ∀ p, (importConfigJson (longest 0) {}).durations p = layer.durations := by
  have haccepted : (importConfigJson (longest 0) {}).configIsComplete = true := by decide +kernel
  refine ⟨haccepted, (durations_iff haccepted).mpr
    ⟨_, (applicationLayer_of_accepted haccepted).1, ?_⟩⟩
  decide +kernel

/-- **Durations that wrap are accepted**: two become negative, and two shorter than a second. -/
theorem not_durations_longest : (importConfigJson (longest 1) {}).configIsComplete = true ∧
    (longest 1).applicationLayer.map ApplicationLayer.durations =
      some ⟨2147484000, 4294968000, 4294968000, 2147484000, 2147483648⟩ ∧
    ∀ p, (importConfigJson (longest 1) {}).durations p =
      ⟨-2147483296, 704, 704, -2147483296, -2147483648⟩ := by
  refine ⟨by decide +kernel, by decide +kernel, fun p => ?_⟩
  cases p with
  | A => decide +kernel
  | B => decide +kernel

end Hnz
