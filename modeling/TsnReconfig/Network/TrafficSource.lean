import Mathlib.Algebra.Order.Floor.Semifield
import Mathlib.Data.Rat.Floor
import Mathlib.Tactic.FieldSimp
import Mathlib.Tactic.Linarith
import TsnReconfig.Opt.Admission

/-!
# The talkers

`IEEE8021QSRPLikeTrafficSourceApp`: what a talker advertises to the controller, and what it
puts on the wire when its stream is ready.
-/

namespace TsnReconfig.Network
open OpenFlow Opt

/-! ## The conversion to 16 bits -/

/-- `static_cast<uint16_t>` of a floating point number. It truncates a number whose integral
part fits into 16 bits; of any other number the language leaves the result undefined. -/
structure Uint16Cast where
  cast : ℚ → UInt16
  truncates : ∀ q, 0 ≤ q → q < 2 ^ 16 → (cast q).toNat = ⌊q⌋₊

/-- The low 16 bits of the integral part. -/
def Uint16Cast.wrap : Uint16Cast where
  cast q := .ofNat ⌊q⌋₊
  truncates q h hlt := by
    have hfloor : ⌊q⌋₊ < 2 ^ 16 := (Nat.floor_lt h).mpr (by exact_mod_cast hlt)
    exact Nat.mod_eq_of_lt hfloor

/-- Zero for every number that does not fit. -/
def Uint16Cast.saturate : Uint16Cast where
  cast q := if q < 2 ^ 16 then .ofNat ⌊q⌋₊ else 0
  truncates q h hlt := by
    rw [if_pos hlt]
    exact Uint16Cast.wrap.truncates q h hlt

/-! ## The application -/

/-- `MAX_ETHERNET_DATA_BYTES`. -/
def maxEthernetDataBytes : ℕ := 1500

/-- `MIN_ETHERNET_FRAME_BYTES`. -/
def minEthernetFrameBytes : ℕ := 64

/-- The byte length of an `EthernetIIFrameWithQTag` without payload. -/
def qTagFrameBytes : ℕ := 22

/-- The parameters of the application, in the ranges `handleParameterChange` accepts. -/
structure SRPLikeTrafficSourceApp where
  payload : ℕ
  sendInterval : SimTime
  streamID : UInt64
  vid : UInt16
  srcAddress : MACAddress
  destAddress : MACAddress
  payload_le : payload ≤ maxEthernetDataBytes
  sendInterval_nonneg : 0 ≤ sendInterval
  sendInterval_le : sendInterval ≤ maxTime

namespace SRPLikeTrafficSourceApp
variable (app : SRPLikeTrafficSourceApp)

/-- `sendInterval` in seconds. -/
def seconds : ℚ := app.sendInterval / ticksPerSecond

/-- `sendTAMessage`. -/
def sendTAMessage (u : Uint16Cast) : TalkerAdvertise where
  streamId := app.streamID
  sourceAddress := app.srcAddress
  destinationAddress := app.destAddress
  vlanIdentifier := app.vid
  maxFrameSize := .ofNat app.payload
  maxIntervalFrames := u.cast (1000 * app.seconds)

/-- The byte length of the frame of `sendMessage`, after the padding. -/
def frameBytes : ℕ :=
  let byteLength := qTagFrameBytes + app.payload
  if byteLength < minEthernetFrameBytes then minEthernetFrameBytes else byteLength

/-- The bits per microsecond that go out, one frame every `sendInterval`. -/
def wireRate : ℚ := 8 * app.frameBytes / (app.seconds * 1000000)

/-- The rate `OPCE2::requestPathforTalker` computes from the advertisement is defined and
covers what goes out. -/
def Covered (u : Uint16Cast) : Prop :=
  (app.sendTAMessage u).maxIntervalFrames ≠ 0 ∧
    ∀ c memory st, app.wireRate ≤ ((app.sendTAMessage u).request c memory st).rate

/-- `sendInterval` in milliseconds. -/
def milliseconds : ℚ := 1000 * app.seconds

/-- The bytes of a frame besides its payload: header and tag, or more if it is padded. -/
def overhead : ℕ := max 22 (64 - app.payload)

/-! ## When the advertised rate is enough -/

theorem frameBytes_eq : app.frameBytes = app.payload + app.overhead := by
  simp only [frameBytes, overhead]
  by_cases hpad : qTagFrameBytes + app.payload < minEthernetFrameBytes
  · rw [if_pos hpad]
    unfold qTagFrameBytes minEthernetFrameBytes at *
    omega
  · rw [if_neg hpad]
    unfold qTagFrameBytes minEthernetFrameBytes at *
    omega

theorem maxFrameSize_toNat (u : Uint16Cast) :
    (app.sendTAMessage u).maxFrameSize.toNat = app.payload := by
  have hle := app.payload_le
  unfold maxEthernetDataBytes at hle
  exact Nat.mod_eq_of_lt (by omega)

variable {app} (hpos : 0 < app.sendInterval)
include hpos

theorem milliseconds_pos : 0 < app.milliseconds := by
  have hticks : (0 : ℚ) < ticksPerSecond := by norm_num [ticksPerSecond]
  have hinterval : (0 : ℚ) < app.sendInterval := by exact_mod_cast hpos
  exact mul_pos (by norm_num) (div_pos hinterval hticks)

theorem maxIntervalFrames_toNat (u : Uint16Cast) (hlt : app.milliseconds < 2 ^ 16) :
    (app.sendTAMessage u).maxIntervalFrames.toNat = ⌊app.milliseconds⌋₊ :=
  u.truncates _ (milliseconds_pos hpos).le hlt

/-- Where the interval fits into 16 bits the period is short by the fraction of a
millisecond, and the payload in this time has to make up for the overhead in the rest. -/
theorem wireRate_le_iff (u : Uint16Cast) (hle : 1 ≤ app.milliseconds)
    (hlt : app.milliseconds < 2 ^ 16) (c memory st) :
    app.wireRate ≤ ((app.sendTAMessage u).request c memory st).rate ↔
      (app.overhead : ℚ) * ⌊app.milliseconds⌋₊ ≤
        app.payload * (app.milliseconds - ⌊app.milliseconds⌋₊) := by
  have hms := milliseconds_pos hpos
  have hm : (0 : ℚ) < ⌊app.milliseconds⌋₊ := by
    exact_mod_cast Nat.floor_pos.mpr hle
  have hwire : app.wireRate =
      8 * (app.payload + app.overhead) / (app.milliseconds * 1000) := by
    rw [wireRate, frameBytes_eq, milliseconds]
    push_cast
    ring_nf
  have hrate : ((app.sendTAMessage u).request c memory st).rate =
      8 * app.payload / (⌊app.milliseconds⌋₊ * 1000) := by
    rw [← maxIntervalFrames_toNat hpos u hlt, ← maxFrameSize_toNat app u]
    rfl
  rw [hwire, hrate, div_le_div_iff₀ (by positivity) (by positivity)]
  constructor
  · intro h
    linarith
  · intro h
    linarith

theorem of_covered (h : ∀ u, app.Covered u) :
    1 ≤ app.milliseconds ∧ app.milliseconds < 2 ^ 16 ∧
      (app.overhead : ℚ) * ⌊app.milliseconds⌋₊ ≤
        app.payload * (app.milliseconds - ⌊app.milliseconds⌋₊) := by
  have hlt : app.milliseconds < 2 ^ 16 := by
    by_contra hlarge
    exact (h .saturate).1 (if_neg hlarge)
  have hle : 1 ≤ app.milliseconds := by
    by_contra hsmall
    have hzero : ⌊app.milliseconds⌋₊ = 0 := Nat.floor_eq_zero.mpr (not_le.mp hsmall)
    have hframes := maxIntervalFrames_toNat hpos .wrap hlt
    rw [hzero] at hframes
    exact (h .wrap).1 (UInt16.toNat_inj.mp hframes)
  have hrate := (h .wrap).2 ⟨[], [], []⟩ 0 ⟨0, 0, ⟨0⟩, 0, 0⟩
  exact ⟨hle, hlt, (wireRate_le_iff hpos .wrap hle hlt _ _ _).mp hrate⟩

/-- The advertised rate is sure to cover the traffic just when the interval is at least one
millisecond, less than 65536, and has a large enough fraction of a millisecond. -/
theorem covered_iff : (∀ u, app.Covered u) ↔
    1 ≤ app.milliseconds ∧ app.milliseconds < 2 ^ 16 ∧
      (app.overhead : ℚ) * ⌊app.milliseconds⌋₊ ≤
        app.payload * (app.milliseconds - ⌊app.milliseconds⌋₊) := by
  refine ⟨of_covered hpos, ?_⟩
  rintro ⟨hle, hlt, hpayload⟩ u
  refine ⟨?_, fun c memory st => (wireRate_le_iff hpos u hle hlt c memory st).mpr hpayload⟩
  intro hzero
  have hframes := maxIntervalFrames_toNat hpos u hlt
  rw [hzero] at hframes
  exact (Nat.floor_pos.mpr hle).ne hframes

omit hpos

/-- 1500 bytes every 1.5 ms: the half millisecond carries 750 bytes, the overhead is 22. -/
def frequent : SRPLikeTrafficSourceApp where
  payload := 1500
  sendInterval := 1500000000
  streamID := 1
  vid := 1
  srcAddress := 1
  destAddress := 2
  payload_le := by decide
  sendInterval_nonneg := by decide
  sendInterval_le := by decide

theorem frequent_milliseconds : frequent.milliseconds = 3 / 2 := by
  norm_num [milliseconds, seconds, frequent, ticksPerSecond]

theorem covered_iff_sample : 0 < frequent.sendInterval ∧ ∀ u, frequent.Covered u := by
  have hpos : 0 < frequent.sendInterval := by decide
  have hfloor : ⌊(3 / 2 : ℚ)⌋₊ = 1 := by
    rw [Nat.floor_eq_iff (by norm_num)]
    norm_num
  refine ⟨hpos, (covered_iff hpos).mpr ?_⟩
  rw [frequent_milliseconds, hfloor]
  norm_num [overhead, frequent]

/-- The default payload every millisecond. -/
def everyMillisecond : SRPLikeTrafficSourceApp where
  payload := 46
  sendInterval := 1000000000
  streamID := 1
  vid := 1
  srcAddress := 1
  destAddress := 2
  payload_le := by decide
  sendInterval_nonneg := by decide
  sendInterval_le := by decide

/-- The application sends 68 bytes a millisecond and advertises 46. -/
theorem everyMillisecond_not_covered :
    0 < everyMillisecond.sendInterval ∧ ∀ u, ¬ everyMillisecond.Covered u := by
  have hpos : 0 < everyMillisecond.sendInterval := by decide
  refine ⟨hpos, ?_⟩
  intro u h
  have hms : everyMillisecond.milliseconds = 1 := by
    norm_num [milliseconds, seconds, everyMillisecond, ticksPerSecond]
  have hrate := h.2 ⟨[], [], []⟩ 0 ⟨0, 0, ⟨0⟩, 0, 0⟩
  rw [wireRate_le_iff hpos u hms.ge (by norm_num [hms]), hms] at hrate
  norm_num [overhead, everyMillisecond] at hrate

/-- An interval of whole milliseconds is never covered. -/
theorem not_covered_of_whole (hpos : 0 < app.sendInterval) {n : ℕ} (hwhole : app.milliseconds = n) :
    ¬ ∀ u, app.Covered u := by
  intro h
  obtain ⟨hle, -, hpayload⟩ := of_covered hpos h
  rw [hwhole, Nat.floor_natCast, sub_self, mul_zero] at hpayload
  have hn : (0 : ℚ) < n := by
    rw [← hwhole]
    exact milliseconds_pos hpos
  have hoverhead : (0 : ℚ) < app.overhead := by
    have h22 : 0 < app.overhead := lt_of_lt_of_le (by norm_num) (le_max_left 22 _)
    exact_mod_cast h22
  exact absurd hpayload (not_le.mpr (mul_pos hoverhead hn))

end SRPLikeTrafficSourceApp

end TsnReconfig.Network
