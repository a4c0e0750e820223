import TsnReconfig.Avb.Bandwidth
import TsnReconfig.Lib.Bucket
import TsnReconfig.Lib.System

/-!
# The credit based meter

`CreditBasedMeter`, which drops frames while its credit is negative. Times are rational numbers of
seconds. The credit is what it is in the source, rounded up to an integer at every update, so that
an update may add up to one bit more than the reservation gives.
-/

namespace TsnReconfig.Filtering

open Lib Avb

/-- A meter with the reservations of its streams, one for each VLAN of a stream, and the datarate of
its port. They do not change here. -/
structure CreditBasedMeter where
  datarate : ℚ
  streamBandwidths : List ℕ
  srClass : SRClass := .A
  maxBurst : ℕ := 4
  datarate_pos : 0 < datarate
  reserved_le : ((streamBandwidths.sum : ℕ) : ℚ) ≤ datarate
  maxBurst_pos : 0 < maxBurst

inductive MeterStateName
  | receivingAllowed
  | receivingForbidden
  deriving DecidableEq, Repr

structure MeterState where
  credit : ℤ := 0
  state : MeterStateName := .receivingAllowed
  lastCalcTime : ℚ := 0
  isSendSlopeActive : Bool := false
  deriving DecidableEq

/-- `static_cast<int>`, which is undefined for a number that does not fit. -/
def toInt (n : ℤ) : Option ℤ :=
  if -2147483648 ≤ n ∧ n < 2147483648 then some n else none

namespace CreditBasedMeter
variable (p : CreditBasedMeter)

/-! `refreshReservedBandwidthAndMaxCredit` -/

def reservedBandwidth : ℕ := p.streamBandwidths.sum

def maxSingleStreamBandwidth : ℕ :=
  p.streamBandwidths.foldl (fun maxBandwidth bandwidth =>
    if maxBandwidth < bandwidth then bandwidth else maxBandwidth) 0

def maxDuration : ℚ :=
  match p.srClass with
  | .A => 125 / 1000000
  | .B => 250 / 1000000

def maxCredit : Option ℤ :=
  let duration := p.maxSingleStreamBandwidth / p.datarate * p.maxDuration
  toInt ⌈(p.datarate - p.reservedBandwidth) * duration * (p.maxBurst - 1)⌉

/-- `calculateTransmissionDuration` for the bytes of a frame. -/
def transmissionDuration (byteLength : ℕ) : ℚ :=
  ((byteLength + preambleBytes + sfdBytes + interframeGapBits / 8) * 8 : ℕ) / p.datarate

/-- `idleSlope`, after the reserved bandwidth was refreshed. -/
def idleSlope (now delta : ℚ) (s : MeterState) : Option MeterState :=
  p.maxCredit.bind fun maxCredit =>
  let calcTime := now - delta
  let idleDuration := calcTime - s.lastCalcTime
  if 0 < idleDuration then
    (toInt ⌈p.reservedBandwidth * idleDuration⌉).bind fun idle =>
    (toInt (s.credit + idle)).map fun credit =>
      { s with
        credit := if maxCredit < credit then maxCredit else credit
        lastCalcTime := calcTime }
  else some s

def refreshState (s : MeterState) : MeterState :=
  { s with state := if s.credit < 0 then .receivingForbidden else .receivingAllowed }

/-- `sendSlope`. -/
def sendSlope (now transmissionDuration : ℚ) (s : MeterState) : Option MeterState :=
  (toInt ⌈(p.datarate - p.reservedBandwidth) * transmissionDuration⌉).bind fun send =>
  (toInt (s.credit - send)).map fun credit =>
    { s with
      credit
      lastCalcTime := now + transmissionDuration
      isSendSlopeActive := true }

/-- `meter`, with whether the frame passes. -/
def meter (now : ℚ) (byteLength : ℕ) (s : MeterState) : Option (MeterState × Bool) :=
  match s.state with
  | .receivingAllowed =>
    (p.sendSlope now (p.transmissionDuration byteLength) s).map fun s => (refreshState s, true)
  | .receivingForbidden => some (s, false)

/-- `handleMessage` for a frame. -/
def handleFrame (now : ℚ) (byteLength : ℕ) (s : MeterState) : Option (MeterState × Bool) :=
  (p.idleSlope now 0 s).bind fun s => p.meter now byteLength (refreshState s)

/-- `handleMessage` for an event of the scheduler. -/
def handleScheduler (now : ℚ) (sendSlopeEnd : Bool) (s : MeterState) : Option MeterState :=
  let s := if sendSlopeEnd then { s with isSendSlopeActive := false } else s
  if s.isSendSlopeActive then some s else (p.idleSlope now 0 s).map refreshState

/-- `receiveSignal` for the start of a reception. -/
def receiveSignal (now : ℚ) (s : MeterState) : Option MeterState :=
  (p.idleSlope now 0 s).map refreshState

end CreditBasedMeter

/-! ## Runs -/

/-- A meter in a run, with the last arrival, the times and durations of the frames that passed, and
the times of the updates of the credit. -/
structure MeterRun where
  now : ℚ := 0
  meter : MeterState := {}
  lastArrival : Option ℚ := none
  passed : List (ℚ × ℚ) := []
  updates : List ℚ := []
  deriving DecidableEq

/-- Events of the scheduler may come at any time. -/
inductive MeterEvent
  | advance (t : ℚ)
  | frame (byteLength : ℕ)
  | scheduler (sendSlopeEnd : Bool)
  | receiving
  deriving DecidableEq

namespace MeterRun
variable (p : CreditBasedMeter)

/-- The updates after one at the present time, if the credit is updated. -/
def noteUpdate (s : MeterRun) : List ℚ :=
  if s.meter.lastCalcTime < s.now then s.now :: s.updates else s.updates

/-- A frame comes with its duration between the last arrival and its own. -/
def step (s : MeterRun) : MeterEvent → Option MeterRun
  | .advance t => if s.now ≤ t then some { s with now := t } else none
  | .frame byteLength =>
    if s.lastArrival.all fun last => last + p.transmissionDuration byteLength ≤ s.now then
      (p.handleFrame s.now byteLength s.meter).map fun r =>
        { s with
          meter := r.1
          lastArrival := some s.now
          passed := if r.2 then (s.now, p.transmissionDuration byteLength) :: s.passed else s.passed
          updates := s.noteUpdate }
    else none
  | .scheduler sendSlopeEnd =>
    (p.handleScheduler s.now sendSlopeEnd s.meter).map fun m =>
      { s with
        meter := m
        updates := if s.meter.isSendSlopeActive && !sendSlopeEnd then s.updates else s.noteUpdate }
  | .receiving =>
    (p.receiveSignal s.now s.meter).map fun m => { s with meter := m, updates := s.noteUpdate }

def runs : System MeterRun MeterEvent where
  init s := s = {}
  step := step p

/-- The durations of the frames that pass in a window. -/
def passedIn (s : MeterRun) (t T : ℚ) : List ℚ :=
  (s.passed.filter fun x => t ≤ x.1 ∧ x.1 ≤ t + T).map (·.2)

def updatesIn (s : MeterRun) (t T : ℚ) : ℕ := s.updates.countP fun u => t ≤ u ∧ u ≤ t + T

/-- In every window the frames that pass have at most what is reserved, and the maximum credit, and
the longest of them. -/
def EnforcesReservation (s : MeterRun) : Prop :=
  ∀ maxCredit, p.maxCredit = some maxCredit → ∀ t T D : ℚ, 0 ≤ T → 0 ≤ D →
    (∀ d ∈ s.passedIn t T, d ≤ D) →
      ((s.passedIn t T).map (p.datarate * ·)).sum ≤
        p.reservedBandwidth * T + maxCredit + p.datarate * D

/-- The same with one bit more for every update of the credit in the window. -/
def EnforcesReservationUpToUpdates (s : MeterRun) : Prop :=
  ∀ maxCredit, p.maxCredit = some maxCredit → ∀ t T D : ℚ, 0 ≤ T → 0 ≤ D →
    (∀ d ∈ s.passedIn t T, d ≤ D) →
      ((s.passedIn t T).map (p.datarate * ·)).sum ≤
        p.reservedBandwidth * T + maxCredit + p.datarate * D + s.updatesIn t T

/-- No frame passes before the time up to which the credit was calculated. -/
def clockReached (s : MeterRun) : MeterEvent → Bool
  | .frame _ => s.meter.lastCalcTime ≤ s.now ∨ s.meter.credit < 0
  | _ => true

/-! ## The credit as a bucket -/

variable {p} {s s' : MeterRun} {e : MeterEvent} {maxCredit : ℤ}

open CreditBasedMeter

theorem eq_of_toInt {n m : ℤ} (h : toInt n = some m) : m = n := by
  unfold toInt at h
  split_ifs at h
  exact (Option.some.inj h).symm

/-- The credit is updated up to the present time, unless it was calculated for a later one. -/
theorem idleSlope_cases {now : ℚ} {m m' : MeterState} (hmax : p.maxCredit = some maxCredit)
    (h : p.idleSlope now 0 m = some m') :
    (m.lastCalcTime < now ∧ m'.lastCalcTime = now ∧ m'.credit ≤ maxCredit ∧
      (m'.credit : ℚ) ≤ m.credit + p.reservedBandwidth * (now - m.lastCalcTime) + 1) ∨
    (now ≤ m.lastCalcTime ∧ m' = m) := by
  unfold idleSlope at h
  rw [hmax, Option.bind_some] at h
  dsimp only at h
  rw [sub_zero] at h
  split_ifs at h with hidle
  · left
    obtain ⟨idle, hidleInt, h⟩ := Option.bind_eq_some_iff.mp h
    obtain ⟨credit, hcredit, rfl⟩ := Option.map_eq_some_iff.mp h
    obtain rfl := eq_of_toInt hidleInt
    obtain rfl := eq_of_toInt hcredit
    have hceil := (Int.ceil_lt_add_one
      ((p.reservedBandwidth : ℚ) * (now - m.lastCalcTime))).le
    refine ⟨sub_pos.mp hidle, rfl, ?_, ?_⟩
    · dsimp only
      split_ifs with hlt
      · exact le_refl _
      · exact not_lt.mp hlt
    · have hle : (if maxCredit < m.credit + ⌈(p.reservedBandwidth : ℚ) * (now - m.lastCalcTime)⌉
          then maxCredit else m.credit + ⌈(p.reservedBandwidth : ℚ) * (now - m.lastCalcTime)⌉) ≤
            m.credit + ⌈(p.reservedBandwidth : ℚ) * (now - m.lastCalcTime)⌉ := by
        split_ifs with hlt
        · exact hlt.le
        · exact le_refl _
      have hcast := (Int.cast_le (R := ℚ)).mpr hle
      push_cast at hcast ⊢
      linarith
  · right
    exact ⟨by linarith [not_lt.mp hidle], (Option.some.inj h).symm⟩

/-- The credit with what passed and the updates, as a bucket that is filled with what is reserved. -/
def bucket (p : CreditBasedMeter) (s : MeterRun) : Bucket where
  level := s.meter.credit
  clock := s.meter.lastCalcTime
  taken := s.passed.map fun x => (x.1, p.datarate * x.2)
  fills := s.updates

structure Inv (p : CreditBasedMeter) (maxCredit : ℤ) (s : MeterRun) : Prop where
  accounted : (s.bucket p).Accounted p.reservedBandwidth maxCredit
  updates : ∀ u ∈ s.updates, u ≤ s.meter.lastCalcTime

theorem takenIn_bucket (t T : ℚ) :
    (s.bucket p).takenIn t T = (s.passedIn t T).map (p.datarate * ·) := by
  unfold Bucket.takenIn passedIn bucket
  dsimp only
  rw [List.filter_map, List.map_map, List.map_map]
  rfl

theorem Inv.enforces (h : s.Inv p maxCredit) (hmax : p.maxCredit = some maxCredit) :
    s.EnforcesReservationUpToUpdates p := by
  intro maxCredit' hmax' t T D hT hD hle
  cases hmax.symm.trans hmax'
  have hwindow := h.accounted.window t T (p.datarate * D) hT
    (mul_nonneg p.datarate_pos.le hD)
  rw [takenIn_bucket] at hwindow
  refine hwindow fun amount hamount => ?_
  obtain ⟨d, hd, rfl⟩ := List.mem_map.mp hamount
  exact mul_le_mul_of_nonneg_left (hle d hd) p.datarate_pos.le

theorem maxCredit_nonneg (hmax : p.maxCredit = some maxCredit) : 0 ≤ maxCredit := by
  rw [eq_of_toInt hmax]
  refine Int.ceil_nonneg (mul_nonneg (mul_nonneg ?_ ?_) ?_)
  · exact sub_nonneg.mpr p.reserved_le
  · refine mul_nonneg (div_nonneg (Nat.cast_nonneg _) p.datarate_pos.le) ?_
    unfold maxDuration
    split
    · norm_num
    · norm_num
  · have hone : ((1 : ℕ) : ℚ) ≤ p.maxBurst := Nat.cast_le.mpr p.maxBurst_pos
    rw [Nat.cast_one] at hone
    linarith

theorem inv_init (hmax : p.maxCredit = some maxCredit) : ({} : MeterRun).Inv p maxCredit where
  accounted := Bucket.accounted_empty (Nat.cast_nonneg _) (Int.cast_nonneg (maxCredit_nonneg hmax))
  updates _ hu := absurd hu List.not_mem_nil

/-- An update of the credit. -/
theorem Inv.idleSlope {m : MeterState} (h : s.Inv p maxCredit)
    (hmax : p.maxCredit = some maxCredit) (hm : p.idleSlope s.now 0 s.meter = some m) :
    Inv p maxCredit { s with meter := m, updates := s.noteUpdate } := by
  unfold noteUpdate
  rcases idleSlope_cases hmax hm with ⟨hlt, hclock, hle, hcredit⟩ | ⟨hle, rfl⟩
  · rw [if_pos hlt]
    refine ⟨?_, fun v hv => ?_⟩
    · have hfill := h.accounted.fill (Nat.cast_nonneg _) hlt hcredit (Int.cast_le.mpr hle)
      unfold bucket
      rw [hclock]
      exact hfill
    · rw [hclock]
      rcases List.mem_cons.mp hv with rfl | hv
      · exact le_refl _
      · exact (h.updates v hv).trans hlt.le
  · rw [if_neg (not_lt.mpr hle)]
    exact h

/-- A frame passes when its credit was calculated for the present time. -/
theorem Inv.sendSlope {byteLength : ℕ} {m : MeterState} (h : s.Inv p maxCredit)
    (hnow : s.meter.lastCalcTime = s.now) (hcredit : 0 ≤ s.meter.credit)
    (hm : p.sendSlope s.now (p.transmissionDuration byteLength) s.meter = some m) :
    Inv p maxCredit { s with
      meter := m
      passed := (s.now, p.transmissionDuration byteLength) :: s.passed } := by
  obtain ⟨send, hsend, hm⟩ := Option.bind_eq_some_iff.mp hm
  obtain ⟨credit, hsub, rfl⟩ := Option.map_eq_some_iff.mp hm
  obtain rfl := eq_of_toInt hsend
  obtain rfl := eq_of_toInt hsub
  have hd : 0 ≤ p.transmissionDuration byteLength :=
    div_nonneg (Nat.cast_nonneg _) p.datarate_pos.le
  have hcost : 0 ≤ (p.datarate - p.reservedBandwidth) * p.transmissionDuration byteLength :=
    mul_nonneg (sub_nonneg.mpr p.reserved_le) hd
  have hceil := Int.le_ceil ((p.datarate - p.reservedBandwidth) * p.transmissionDuration byteLength)
  refine ⟨?_, fun u hu => ?_⟩
  · have htake := h.accounted.take (Nat.cast_nonneg _)
      (p.datarate * p.transmissionDuration byteLength)
      ((s.meter.credit -
        ⌈(p.datarate - p.reservedBandwidth) * p.transmissionDuration byteLength⌉ : ℤ) : ℚ)
      (p.transmissionDuration byteLength) (Int.cast_nonneg hcredit) ?_ ?_ hd h.updates
    · unfold bucket at htake ⊢
      rw [hnow] at htake
      exact htake
    · change _ ≤ (s.meter.credit : ℚ) - _ + _
      push_cast
      linarith
    · change _ ≤ (s.meter.credit : ℚ)
      push_cast
      linarith
  · have hle := h.updates u hu
    rw [hnow] at hle
    exact hle.trans (le_add_of_nonneg_right hd)

theorem Inv.step (h : s.Inv p maxCredit) (hmax : p.maxCredit = some maxCredit)
    (hok : clockReached s e = true) (hs : step p s e = some s') : s'.Inv p maxCredit := by
  cases e with
  | advance t =>
    change (if _ then _ else none) = _ at hs
    split_ifs at hs
    cases hs
    exact ⟨h.accounted, h.updates⟩
  | frame byteLength =>
    change (if _ then _ else none) = _ at hs
    split_ifs at hs
    obtain ⟨⟨m, passes⟩, hframe, rfl⟩ := Option.map_eq_some_iff.mp hs
    obtain ⟨m₀, hidle, hmeter⟩ := Option.bind_eq_some_iff.mp hframe
    have hinv := h.idleSlope hmax hidle
    unfold CreditBasedMeter.meter refreshState at hmeter
    dsimp only at hmeter
    by_cases hcredit : m₀.credit < 0
    · -- the frame is dropped
      rw [if_pos hcredit] at hmeter
      cases hmeter
      exact ⟨hinv.accounted, hinv.updates⟩
    · rw [if_neg hcredit] at hmeter
      obtain ⟨m₁, hsend, heq⟩ := Option.map_eq_some_iff.mp hmeter
      cases heq
      have hclock : m₀.lastCalcTime = s.now := by
        rcases idleSlope_cases hmax hidle with ⟨-, hclock, -⟩ | ⟨hle, rfl⟩
        · exact hclock
        · exact le_antisymm ((of_decide_eq_true hok).resolve_right hcredit) hle
      have hready : Inv p maxCredit { s with
          meter := { m₀ with state := .receivingAllowed }, updates := s.noteUpdate } :=
        ⟨hinv.accounted, hinv.updates⟩
      have hpassed := hready.sendSlope hclock (not_lt.mp hcredit) hsend
      exact ⟨hpassed.accounted, hpassed.updates⟩
  | scheduler sendSlopeEnd =>
    obtain ⟨m, hm, rfl⟩ := Option.map_eq_some_iff.mp hs
    cases sendSlopeEnd with
    | true =>
      have hready : Inv p maxCredit { s with meter := { s.meter with isSendSlopeActive := false } } :=
        ⟨h.accounted, h.updates⟩
      obtain ⟨m₀, hidle, rfl⟩ := Option.map_eq_some_iff.mp hm
      have hinv := hready.idleSlope hmax hidle
      rw [Bool.not_true, Bool.and_false]
      exact ⟨hinv.accounted, hinv.updates⟩
    | false =>
      rw [Bool.not_false, Bool.and_true]
      change (if s.meter.isSendSlopeActive then some s.meter else _) = _ at hm
      by_cases hactive : s.meter.isSendSlopeActive
      · rw [if_pos hactive] at hm ⊢
        cases hm
        exact h
      · rw [if_neg hactive] at hm ⊢
        obtain ⟨m₀, hidle, rfl⟩ := Option.map_eq_some_iff.mp hm
        have hinv := h.idleSlope hmax hidle
        exact ⟨hinv.accounted, hinv.updates⟩
  | receiving =>
    obtain ⟨m, hm, rfl⟩ := Option.map_eq_some_iff.mp hs
    obtain ⟨m₀, hidle, rfl⟩ := Option.map_eq_some_iff.mp hm
    have hinv := h.idleSlope hmax hidle
    exact ⟨hinv.accounted, hinv.updates⟩

/-- The reservation is enforced, up to one bit for every update, in every run in which no frame
passes before the time up to which the credit was calculated. -/
theorem enforcesReservation_upToUpdates
    (h : (runs p).ReachableUnder (clockReached · ·) s) : s.EnforcesReservationUpToUpdates p := by
  intro maxCredit hmax
  have hinv : s.Inv p maxCredit :=
    h.invariant (fun _ hs => hs ▸ inv_init hmax) fun _ _ _ _ hs hok hstep =>
      hs.step hmax hok hstep
  exact hinv.enforces hmax maxCredit hmax

/-- Half of 100 Mbit/s is reserved, without a burst. -/
def halfReserved : CreditBasedMeter where
  datarate := 100000000
  streamBandwidths := [50000000]
  maxBurst := 1
  datarate_pos := by norm_num
  reserved_le := by norm_num
  maxBurst_pos := by decide

/-- Two short frames. The second comes half a bit too early for its reservation. -/
def twoFrames : List MeterEvent := [.frame 64, .advance (1343 / 100000000), .frame 64]

theorem enforcesReservation_twoFrames : ∃ s : MeterRun,
    s.passed.length = 2 ∧ s.EnforcesReservationUpToUpdates halfReserved := by
  have hrun : (((runs halfReserved).runUnder (clockReached · ·) {} twoFrames).any
      (·.passed.length = 2)) = true := by
    decide +kernel
  obtain ⟨s, hs, hpassed⟩ := (Option.any_eq_true _ _).mp hrun
  exact ⟨s, of_decide_eq_true hpassed,
    enforcesReservation_upToUpdates (System.ReachableUnder.run (.init rfl) hs)⟩

/-- The credit for 335.5 bits is rounded up to 336, with which the second frame passes. -/
theorem not_enforcesReservation : ¬∀ (p : CreditBasedMeter) (s : MeterRun),
    (runs p).ReachableUnder (clockReached · ·) s → s.EnforcesReservation p := by
  intro h
  have hrun : (((runs halfReserved).runUnder (clockReached · ·) {} twoFrames).any fun s =>
      s.passedIn 0 (1343 / 100000000) = [84 / 12500000, 84 / 12500000]) = true := by
    decide +kernel
  obtain ⟨s, hs, hpassed⟩ := (Option.any_eq_true _ _).mp hrun
  have hpassed := of_decide_eq_true hpassed
  have hmax : halfReserved.maxCredit = some 0 := by decide +kernel
  have hle := h halfReserved s (System.ReachableUnder.run (.init rfl) hs) 0 hmax 0
    (1343 / 100000000) (84 / 12500000) (by norm_num) (by norm_num)
  rw [hpassed] at hle
  have hbound := hle fun d hd => by
    simp only [List.mem_cons, List.not_mem_nil, or_false, or_self] at hd
    exact hd.le
  change ([(100000000 : ℚ) * (84 / 12500000), 100000000 * (84 / 12500000)]).sum ≤
    ((50000000 : ℕ) : ℚ) * (1343 / 100000000) + ((0 : ℤ) : ℚ) + 100000000 * (84 / 12500000) at hbound
  norm_num at hbound

/-- Three quarters of 100 Mbit/s are reserved, with bursts of four frames. -/
def threeQuartersReserved : CreditBasedMeter where
  datarate := 100000000
  streamBandwidths := [75000000]
  datarate_pos := by norm_num
  reserved_le := by norm_num
  maxBurst_pos := by decide

/-- Long and short frames back to back, with their times in bits. -/
def longAndShort (n : ℕ) : List MeterEvent :=
  (List.range n).flatMap fun i =>
    [.advance (1 + 13008 * i / 100000000), .frame 1522,
      .advance (1 + (13008 * i + 672) / 100000000), .frame 64]

/-- A short frame sets the time up to which the credit is calculated back, so that the next long
one gets credit for time that was used. All frames pass. -/
theorem not_enforcesReservation_longAndShort : ¬∀ (p : CreditBasedMeter) (s : MeterRun),
    (runs p).Reachable s → s.EnforcesReservationUpToUpdates p := by
  intro h
  have hrun : (((runs threeQuartersReserved).runFrom {} (longAndShort 4)).any fun s =>
      s.passedIn 1 (39696 / 100000000) = [84 / 12500000, 771 / 6250000, 84 / 12500000,
        771 / 6250000, 84 / 12500000, 771 / 6250000, 84 / 12500000, 771 / 6250000] ∧
          s.updatesIn 1 (39696 / 100000000) = 4) = true := by
    decide +kernel
  obtain ⟨s, hs, hstate⟩ := (Option.any_eq_true _ _).mp hrun
  obtain ⟨hpassed, hupdates⟩ := of_decide_eq_true hstate
  have hmax : threeQuartersReserved.maxCredit = some 7032 := by decide +kernel
  have hle := h threeQuartersReserved s (System.reachable_of_runFrom rfl hs) 7032 hmax 1
    (39696 / 100000000) (771 / 6250000) (by norm_num) (by norm_num)
  rw [hpassed, hupdates] at hle
  have hbound := hle fun d hd => by
    simp only [List.mem_cons, List.not_mem_nil, or_false] at hd
    rcases hd with rfl | rfl | rfl | rfl | rfl | rfl | rfl | rfl <;> norm_num
  change ([(100000000 : ℚ) * (84 / 12500000), 100000000 * (771 / 6250000),
    100000000 * (84 / 12500000), 100000000 * (771 / 6250000), 100000000 * (84 / 12500000),
    100000000 * (771 / 6250000), 100000000 * (84 / 12500000), 100000000 * (771 / 6250000)]).sum ≤
      ((75000000 : ℕ) : ℚ) * (39696 / 100000000) + ((7032 : ℤ) : ℚ) +
        100000000 * (771 / 6250000) + ((4 : ℕ) : ℚ) at hbound
  norm_num at hbound

end MeterRun

end TsnReconfig.Filtering
