import HnzSouth.Configuration.Accepted
import HnzSouth.Path.History
import HnzSouth.Sending.Window

/-!
# Configuration/Wire — the link parameters of an accepted document

A frame has six bits for the station and three for a number, so that a station below 64 and an
anticipation ratio from 1 to 7 fit (`FitsWire`).  The import checks the station against 64 and the
ratio against nothing: `fitsWire_iff` says which accepted documents fit.
-/

namespace Hnz

open Machinery

/-! ## The station in the first byte -/

/-- The upper six bits of an address byte. -/
def stationField (address : UInt8) : Nat := (address >>> 2).toNat

theorem stationField_eq (address : UInt8) : stationField address = address.toNat / 4 := by
  rw [stationField, UInt8.toNat_shiftRight, Nat.shiftRight_eq_div_pow]
  rfl

theorem stationField_lt (address : UInt8) : stationField address < 64 := by
  have := address.toNat_lt
  rw [stationField_eq]
  omega

/-- A station below 64 and two more bits make a byte. -/
theorem stationField_u8 : ∀ (station : Fin 64) (low : Fin 4),
    stationField (u8 (station.val * 4 + low.val)) = station := by decide +kernel

/-! ## The frames of a path -/

namespace Link

variable {c : PathConf} {now : Int} {l l' : Link} {op : Op}

/-- **Every frame carries one of the two addresses of the path.** -/
def Addressed (c : PathConf) (l : Link) : Prop :=
  ∀ f ∈ l.frames, f.address = c.addressPA ∨ f.address = c.addressARP

theorem Addressed.congr (h : l.Addressed c) (hframes : l'.frames = l.frames) : l'.Addressed c := by
  rw [Addressed, hframes]
  exact h

theorem Addressed.sendFrame (now : Int) (h : l.Addressed c) (bytes : List UInt8) (usePAAddr : Bool)
    (origin : Option Nat) : (l.sendFrame c now bytes usePAAddr origin).Addressed c := by
  intro f hf
  rcases List.mem_append.mp hf with hf | hf
  · exact h f hf
  · obtain rfl := List.mem_singleton.mp hf
    cases usePAAddr with
    | true => exact Or.inl rfl
    | false => exact Or.inr rfl

theorem Addressed.transmit (now : Int) (h : l.Addressed c) (m : Message) :
    (l.transmit c now m).Addressed c := by
  by_cases hm : l.admits c m.payload
  · rw [transmit_of_admits hm]
    exact (h.sendFrame now _ false _).congr rfl
  · rwa [transmit_of_not_admits hm]

theorem Addressed.transmitAll (now : Int) (h : l.Addressed c) (ms : List Message) :
    (l.transmitAll c now ms).Addressed c := by
  induction ms generalizing l with
  | nil => exact h
  | cons m ms ih => exact ih (h.transmit now m)

theorem Addressed.receivedRR {nr : Fin 8} {f b : Bool} (h : l.Addressed c)
    (hrr : l.receivedRR c now nr f = .ok (b, l')) : l'.Addressed c := by
  obtain ⟨-, -, -, hrel⟩ | rfl := receivedRR_cases hrr
  · obtain ⟨out, rest, -, -, rfl, -⟩ := releaseWaiting_cases hrel
    have hacknowledged : (l.acknowledged nr now).Addressed c := h.congr rfl
    exact (hacknowledged.transmitAll now out).congr rfl
  · exact h

/-- **The step lemma.** -/
theorem Addressed.step (h : l.Addressed c) (hst : Step c l op l') : l'.Addressed c := by
  cases hst with
  | submit now msg =>
    rw [sendInfo_eq]
    split_ifs
    · have htaken : (l.take msg).Addressed c := h.congr rfl
      exact htaken.transmit now _
    · exact h.congr rfl
    · exact h
  | acknowledge hrr => exact h.receivedRR hrr
  | @inform now _ _ _ _ hrr =>
    obtain ⟨l₁, h₁, hsent⟩ := sendRR_cases hrr
    have hl₁ := h.receivedRR h₁
    obtain ⟨-, rfl⟩ | ⟨-, -, rfl⟩ | ⟨-, -, -, rfl⟩ | ⟨-, -, -, rfl⟩ := hsent
    · exact hl₁
    · have hcounted : Addressed c { l₁ with nr := l₁.nr + 1 } := hl₁.congr rfl
      exact (hcounted.sendFrame now _ true _).congr rfl
    · exact (hl₁.sendFrame now _ true _).congr rfl
    · exact hl₁.congr rfl
  | @resend now _ _ _ l _ =>
    have hcounted : Addressed c { l with repeats := l.repeats + 1 } := h.congr rfl
    exact (hcounted.sendFrame now _ false _).congr rfl
  | supervise now => exact h.sendFrame now _ _ none
  | touch hcore => exact h.congr (congrArg Core.frames hcore)

end Link

/-- The frames of a path carry its addresses, in every run. -/
theorem linkInvariant_addressed : LinkInvariant (fun _ _ _ => True) fun c l => l.Addressed c where
  init h f hf := by
    rw [show Link.frames _ = [] from congrArg Link.Core.frames h] at hf
    cases hf
  step h hst _ := h.step hst
  transition now e h := h.congr (Link.frames_transition e)

/-! ## Parameters that fit -/

/-- **The link parameters fit the wire format.** -/
structure FitsWire [Platform] (conf : HNZConf) : Prop where
  /-- The station has six bits. -/
  station : conf.remoteStationAddr.toNat < 2 ^ 6
  /-- Every frame that a path ever sends to the station names it. -/
  sends : ∀ (s : System), s.Reachable →
    s.connection.conf.remoteStationAddr = conf.remoteStationAddr →
      ∀ p, ∀ f ∈ (s.path p).frames, stationField f.address = conf.remoteStationAddr.toNat
  /-- The first byte of a frame of the station passes the test of the address. -/
  receives : ∀ (p : PathId) (low : Fin 4),
    (conf.pathConf p).remoteAddress = stationField (u8 (conf.remoteStationAddr.toNat * 4 + low.val))
  /-- The anticipation ratio is a number modulo 8 other than 0. -/
  ratio : ∀ p, 1 ≤ (conf.pathConf p).anticipationRatio ∧ (conf.pathConf p).anticipationRatio ≤ 7
  /-- The NR that acknowledges a full window is not the one that acknowledges nothing. -/
  window : ∀ (p : PathId) (l : Link), l.Consecutive →
    l.msgSent.length = (conf.pathConf p).anticipationRatio → l.ns ≠ l.nrr
  /-- A message is sent when none waits for its acknowledgement. -/
  sendable : ∀ (p : PathId) (l : Link) (msg : List UInt8) (now : Int), l.msgSent = [] →
    l.admits (conf.pathConf p) msg → (l.sendInfo (conf.pathConf p) now msg).1 = true

section

variable {conf : HNZConf}

/-- The two addresses of a path name a station that fits. -/
theorem stationField_addresses (h : conf.remoteStationAddr.toNat < 64) (p : PathId) :
    stationField (conf.pathConf p).addressPA = conf.remoteStationAddr.toNat ∧
      stationField (conf.pathConf p).addressARP = conf.remoteStationAddr.toNat :=
  ⟨stationField_u8 ⟨_, h⟩ 1, stationField_u8 ⟨_, h⟩ 3⟩

/-- The ratio of a path is the configured one, unless that is negative as an `int`. -/
theorem anticipationRatio_pathConf (p : PathId) :
    (1 ≤ (conf.pathConf p).anticipationRatio ∧ (conf.pathConf p).anticipationRatio ≤ 7) ↔
      1 ≤ conf.anticipationRatio ∧ conf.anticipationRatio ≤ 7 := by
  have hlt := conf.anticipationRatio.toNat_lt
  have hone : (1 : UInt32).toNat = 1 := rfl
  have hseven : (7 : UInt32).toNat = 7 := rfl
  simp only [UInt32.le_iff_toNat_le, hone, hseven, HNZConf.pathConf, u64, int32, Int.bmod_def]
  omega

theorem window_of_ratio {l : Link} {n : Nat} (h : l.Consecutive) (hlen : l.msgSent.length = n)
    (hpos : 1 ≤ n) (hle : n ≤ 7) : l.ns ≠ l.nrr := by
  rw [h.next, hlen]
  intro heq
  have hzero : (Fin.ofNat 8 n).val = 0 := congrArg Fin.val (add_eq_left.mp heq)
  rw [val_ofNat_of_lt (by omega)] at hzero
  omega

theorem sendable_of_ratio {c : PathConf} {l : Link} {msg : List UInt8} (now : Int)
    (hratio : 1 ≤ c.anticipationRatio) (hsent : l.msgSent = []) (hadmits : l.admits c msg) :
    (l.sendInfo c now msg).1 = true := by
  have hroom : l.msgSent.length < c.anticipationRatio := by
    rw [hsent]
    exact hratio
  rw [Link.sendInfo_eq, if_pos hadmits, if_pos hroom]

variable [Platform]

/-- **What fits**, of any configuration. -/
theorem fitsWire_of_lt (hstation : conf.remoteStationAddr.toNat < 64)
    (hratio : 1 ≤ conf.anticipationRatio ∧ conf.anticipationRatio ≤ 7) : FitsWire conf where
  station := hstation
  sends s hs hconf p f hf := by
    rw [← hconf] at hstation ⊢
    obtain ⟨hPA, hARP⟩ := stationField_addresses hstation p
    rcases linkInvariant_addressed.reachable hs p f hf with haddress | haddress
    · rw [haddress, ← hPA, System.pathConf]
    · rw [haddress, ← hARP, System.pathConf]
  receives p low := (stationField_u8 ⟨_, hstation⟩ low).symm
  ratio p := (anticipationRatio_pathConf p).mpr hratio
  window p l hl hlen :=
    have hp := (anticipationRatio_pathConf p).mpr hratio
    window_of_ratio hl hlen hp.1 hp.2
  sendable p l msg now hsent hadmits :=
    sendable_of_ratio now ((anticipationRatio_pathConf p).mpr hratio).1 hsent hadmits

/-- **The accepted documents that fit**: the station is not 64, and the anticipation ratio — 3 if it
is not given — is between 1 and 7. -/
theorem fitsWire_iff {text : Text} {conf : HNZConf}
    (h : (importConfigJson text conf).configIsComplete = true) :
    FitsWire (importConfigJson text conf) ↔ ∃ layer, text.applicationLayer = some layer ∧
      layer.remoteStationAddr ≠ 64 ∧ 1 ≤ layer.anticipationRatio ∧ layer.anticipationRatio ≤ 7 := by
  obtain ⟨hlayer, hstation⟩ := applicationLayer_of_accepted h
  rw [UInt32.le_iff_toNat_le] at hstation
  simp only [hlayer, Option.some.injEq, exists_eq_left']
  constructor
  · intro hfits
    refine ⟨fun h64 => ?_, (anticipationRatio_pathConf .A).mp (hfits.ratio .A)⟩
    have h64' : (importConfigJson text conf).remoteStationAddr = 64 := h64
    have hlt := hfits.station
    rw [h64'] at hlt
    exact absurd hlt (by decide)
  · rintro ⟨h64, hratio⟩
    refine fitsWire_of_lt (lt_of_le_of_ne hstation fun heq => h64 ?_) hratio
    exact UInt32.toNat_inj.mp heq

end

section

open Sample

/-- The largest station and the largest ratio. -/
def largestFitting : Text :=
  .stack [("remote_station_addr", .integer 63), ("anticipation_ratio", .integer 7)]

theorem fitsWire_largestFitting : (importConfigJson largestFitting {}).configIsComplete = true ∧
    FitsWire (importConfigJson largestFitting {}) := by
  have haccepted : (importConfigJson largestFitting {}).configIsComplete = true := by decide +kernel
  refine ⟨haccepted, (fitsWire_iff haccepted).mpr ⟨_, (applicationLayer_of_accepted haccepted).1, ?_⟩⟩
  decide +kernel

/-- The station one above the largest. -/
def station64 : HNZConf := importConfigJson (.stack [("remote_station_addr", .integer 64)]) {}

/-- The ratio one above the largest. -/
def ratio8 : HNZConf :=
  importConfigJson (.stack [("remote_station_addr", .integer 1), ("anticipation_ratio", .integer 8)])
    {}

/-- **Station 64 is accepted**: its frames name station 0, and no frame passes its test of the
address.  **The ratio 8 is accepted**: a full window ends where it begins. -/
theorem not_fitsWire_station64 :
    (station64.configIsComplete = true ∧ stationField (station64.pathConf .A).addressARP = 0 ∧
      (∀ first, stationField first ≠ (station64.pathConf .A).remoteAddress) ∧
      ¬FitsWire station64) ∧
    ratio8.configIsComplete = true ∧ (ratio8.pathConf .A).anticipationRatio = 8 ∧
      ¬FitsWire ratio8 := by
  have hstation : (station64.pathConf .A).remoteAddress = 64 := by decide +kernel
  have hratio : (ratio8.pathConf .A).anticipationRatio = 8 := by decide +kernel
  refine ⟨⟨by decide +kernel, by decide +kernel, fun first heq => ?_, fun hfits => ?_⟩,
    by decide +kernel, hratio, fun hfits => ?_⟩
  · have hlt := stationField_lt first
    rw [heq, hstation] at hlt
    exact lt_irrefl _ hlt
  · have hlt : (station64.pathConf .A).remoteAddress < 2 ^ 6 := hfits.station
    rw [hstation] at hlt
    exact lt_irrefl _ hlt
  · have hle := (hfits.ratio .A).2
    rw [hratio] at hle
    exact absurd hle (by decide)

end

end Hnz
