import Mathlib.Algebra.Order.Floor.Ring
import Mathlib.Data.Rat.Floor
import Mathlib.Tactic.FieldSimp
import Mathlib.Tactic.Linarith
import Mathlib.Tactic.Positivity
import Mathlib.Tactic.Ring
import TsnReconfig.NetConf.DataStores

/-!
# The commit timestamp of a transaction

`TimeSynchronousTransactionApp::determineTimestamp` over the rationals, and the check before
the commits are released.
-/

namespace TsnReconfig.NetConf

/-! ## The application -/

/-- `static_cast<uint32_t>` of a floating point number: it truncates a number that fits. -/
structure Uint32Cast where
  cast : ℚ → UInt32
  truncates : ∀ q, 0 ≤ q → q < 4294967296 → (cast q).toNat = ⌊q⌋₊

/-- The low 32 bits of the integral part. -/
def Uint32Cast.wrap : Uint32Cast where
  cast q := .ofNat ⌊q⌋₊
  truncates q h hlt := by
    have hfloor : ⌊q⌋₊ < 4294967296 := (Nat.floor_lt h).mpr (by exact_mod_cast hlt)
    exact Nat.mod_eq_of_lt hfloor

/-- The bits of the messages that carry a timestamp, confirm it and release the commit:
`SEND_TIMESTAMP_MSG_SIZE`, `ACK_TIMESTAMP_MSG_SIZE` and `SEND_COMMIT_MSG_SIZE`. -/
def ethernetFrameSizes : List ℕ := [226 * 8, 112 * 8, 108 * 8]

/-- `MAX_ETHERNET_FRAME_SIZE`. -/
def maxEthernetFrameSize : ℕ := 1530 * 8

/-- The parameters of the application besides `distanceAndHopsToSwitches`. -/
structure LatencyParameters where
  signalDelay : ℚ
  bitRate : ℚ
  switchDelay : ℚ
  switchProcessingTime : ℚ
  controllerProcessingTime : ℚ
  syncPeriod : ℕ
  executeAtStartOfPeriod : Bool
  signalDelay_pos : 0 < signalDelay
  bitRate_pos : 0 < bitRate

/-- What the scheduler of the controller tells: the cycles of the period so far, the length
of one and the time. -/
structure SchedulerClock where
  cycles : UInt32
  periodLength : ℚ
  totalSimTime : ℚ
  periodLength_pos : 0 < periodLength

/-- An entry `length,hops` of `distanceAndHopsToSwitches`. -/
structure DistanceAndHops where
  wireLength : ℤ
  hops : ℤ
  deriving DecidableEq, Repr

/-- The members `_sumOfLastLatencies` and `_timestamp`. -/
structure TimestampState where
  sumOfLastLatencies : ℚ := 0
  timestamp : CommitTimestamp := .zero

namespace LatencyParameters
variable (p : LatencyParameters)

/-- The latency of a message of `size` bits. -/
def latency (entry : DistanceAndHops) (size : ℕ) : ℚ :=
  let wireDelay := 1 / p.signalDelay
  let bitTransferTime := 1 / p.bitRate
  let queuingDelay := maxEthernetFrameSize * bitTransferTime
  wireDelay * entry.wireLength + (entry.hops + 1) * size * bitTransferTime +
    entry.hops * p.switchDelay + (entry.hops + 1) * queuingDelay

/-- The loop over the three messages: the sum for the last ones and that for all. -/
def addLatencies (sums : ℚ × ℚ) (entry : DistanceAndHops) : ℚ × ℚ :=
  ethernetFrameSizes.zipIdx.foldl (fun (last, sum) (size, k) =>
    (if k = 2 then last + p.latency entry size else last, sum + p.latency entry size)) sums

/-- `determineTimestamp`, with `connections` for the number of connections. The loop of its
first branch runs over the entries of the parameter, of which there is one. -/
def determineTimestamp (u : Uint32Cast) (connections : ℕ) (entries : List DistanceAndHops)
    (clock : SchedulerClock) (s : TimestampState) : Option TimestampState := do
  let (last, sumOfLatencies) ←
    match entries with
    | [entry] => some ((List.replicate entries.length entry).foldl p.addLatencies
        (s.sumOfLastLatencies, 0))
    | _ =>
      if entries.length = connections then
        some (entries.foldl p.addLatencies (s.sumOfLastLatencies, 0))
      else none
  let buffer := sumOfLatencies + 2 * p.switchProcessingTime + 2 * p.controllerProcessingTime
  let cycle := clock.cycles + u.cast ⌈buffer / clock.periodLength⌉
  let timestamp : CommitTimestamp := {
    cycle := cycle.toNat
    time := buffer + clock.totalSimTime
    period := p.syncPeriod
    executeAtStartOfPeriod := p.executeAtStartOfPeriod }
  return ⟨last, timestamp⟩

/-- The time `checkCommitrelease` allows for the release. -/
def releaseBuffer (s : TimestampState) : ℚ := s.sumOfLastLatencies + p.switchProcessingTime

def checkCommitrelease (u : Uint32Cast) (clock : SchedulerClock) (s : TimestampState) : Bool :=
  let calculatedExecutionCycle :=
    clock.cycles + u.cast ⌈p.releaseBuffer s / clock.periodLength⌉
  decide (calculatedExecutionCycle.toNat < s.timestamp.cycle)

/-- The timestamps of one transaction after the other, at these times. -/
def timestamps (u : Uint32Cast) (connections : ℕ) (entries : List DistanceAndHops)
    (clocks : List SchedulerClock) : Option TimestampState :=
  clocks.foldlM (fun s clock => p.determineTimestamp u connections entries clock s) {}

/-! ## What is expected of it -/

/-- The latencies of the three messages of a connection. -/
def messageLatencies (entry : DistanceAndHops) : ℚ :=
  (ethernetFrameSizes.map (p.latency entry)).sum

/-- The latency of the message that releases the commit. -/
def commitLatency (entry : DistanceAndHops) : ℚ := p.latency entry (108 * 8)

/-- The single entry stands for as many as there are connections, each of them is allowed
for, and the release of the last transaction looks at the latencies of that one only. -/
structure CoversConnections (u : Uint32Cast) (connections : ℕ) (entry : DistanceAndHops)
    (clocks : List SchedulerClock) : Prop where
  same : ∀ clock s,
    (p.determineTimestamp u connections [entry] clock s).map TimestampState.timestamp =
      (p.determineTimestamp u connections (.replicate connections entry) clock s).map
        TimestampState.timestamp
  covered : ∀ entries ∈ [[entry], .replicate connections entry], ∀ clock s s',
    p.determineTimestamp u connections entries clock s = some s' →
      clock.totalSimTime + connections * p.messageLatencies entry +
        2 * p.switchProcessingTime + 2 * p.controllerProcessingTime ≤ s'.timestamp.time
  release : ∀ entries ∈ [[entry], .replicate connections entry], ∀ s, clocks ≠ [] →
    p.timestamps u connections entries clocks = some s →
      p.releaseBuffer s = (entries.map p.commitLatency).sum + p.switchProcessingTime

/-! ## The sums -/

variable {p} {u : Uint32Cast} {connections : ℕ} {entries : List DistanceAndHops}
  {entry : DistanceAndHops} {clock : SchedulerClock} {s s' : TimestampState}

theorem addLatencies_eq (sums : ℚ × ℚ) (entry : DistanceAndHops) :
    p.addLatencies sums entry =
      (sums.1 + p.commitLatency entry, sums.2 + p.messageLatencies entry) := by
  simp [addLatencies, messageLatencies, commitLatency, ethernetFrameSizes]
  ring

theorem foldl_addLatencies (entries : List DistanceAndHops) (sums : ℚ × ℚ) :
    entries.foldl p.addLatencies sums = (sums.1 + (entries.map p.commitLatency).sum,
      sums.2 + (entries.map p.messageLatencies).sum) := by
  induction entries generalizing sums with
  | nil => simp
  | cons entry rest ih =>
    rw [List.foldl_cons, ih, addLatencies_eq, List.map_cons, List.map_cons, List.sum_cons,
      List.sum_cons, add_assoc, add_assoc]

/-- The timestamp for a sum of latencies. -/
def timestampFor (p : LatencyParameters) (u : Uint32Cast) (clock : SchedulerClock)
    (sumOfLatencies : ℚ) : CommitTimestamp :=
  let buffer := sumOfLatencies + 2 * p.switchProcessingTime + 2 * p.controllerProcessingTime
  { cycle := (clock.cycles + u.cast ⌈buffer / clock.periodLength⌉).toNat
    time := buffer + clock.totalSimTime
    period := p.syncPeriod
    executeAtStartOfPeriod := p.executeAtStartOfPeriod }

/-- One entry or as many as there are connections: the sums are over the entries. -/
theorem determineTimestamp_eq (h : entries.length = 1 ∨ entries.length = connections) :
    p.determineTimestamp u connections entries clock s = some
      ⟨s.sumOfLastLatencies + (entries.map p.commitLatency).sum,
        p.timestampFor u clock (entries.map p.messageLatencies).sum⟩ := by
  unfold determineTimestamp
  split
  · rename_i entry
    simp only [List.length_singleton, List.replicate_one, foldl_addLatencies, zero_add]
    rfl
  · rename_i hne
    have hlength : entries.length = connections := by
      refine h.resolve_left fun hone => ?_
      obtain ⟨entry, rfl⟩ := List.length_eq_one_iff.mp hone
      exact hne entry rfl
    rw [if_pos hlength]
    simp only [foldl_addLatencies, zero_add]
    rfl

theorem timestamps_sumOfLastLatencies {clocks : List SchedulerClock}
    (h : entries.length = 1 ∨ entries.length = connections) :
    ∃ s, p.timestamps u connections entries clocks = some s ∧
      s.sumOfLastLatencies = clocks.length * (entries.map p.commitLatency).sum := by
  have hfrom : ∀ s₀ : TimestampState, ∃ s,
      clocks.foldlM (fun s clock => p.determineTimestamp u connections entries clock s) s₀ =
        some s ∧ s.sumOfLastLatencies =
          s₀.sumOfLastLatencies + clocks.length * (entries.map p.commitLatency).sum := by
    induction clocks with
    | nil => exact fun s₀ => ⟨s₀, rfl, by simp⟩
    | cons clock rest ih =>
      intro s₀
      obtain ⟨s, hs, hsum⟩ := ih ⟨s₀.sumOfLastLatencies + (entries.map p.commitLatency).sum,
        p.timestampFor u clock (entries.map p.messageLatencies).sum⟩
      refine ⟨s, ?_, ?_⟩
      · rw [List.foldlM_cons, determineTimestamp_eq h]
        exact hs
      · rw [hsum, List.length_cons]
        push_cast
        ring
  obtain ⟨s, hs, hsum⟩ := hfrom {}
  exact ⟨s, hs, by simpa using hsum⟩

theorem length_entries (connections : ℕ) (entry : DistanceAndHops)
    (h : entries ∈ [[entry], .replicate connections entry]) :
    entries.length = 1 ∨ entries.length = connections := by
  rcases List.mem_pair.mp h with rfl | rfl
  · exact .inl rfl
  · exact .inr List.length_replicate

/-- The timestamps agree just when there is one connection or nothing to add up. -/
theorem same_iff (hn : connections ≠ 0) (clock : SchedulerClock) (s : TimestampState) :
    ((p.determineTimestamp u connections [entry] clock s).map TimestampState.timestamp =
      (p.determineTimestamp u connections (.replicate connections entry) clock s).map
        TimestampState.timestamp) ↔ connections = 1 ∨ p.messageLatencies entry = 0 := by
  rw [determineTimestamp_eq (.inl rfl), determineTimestamp_eq (.inr List.length_replicate)]
  simp only [Option.map_some, Option.some.injEq, List.map_replicate, List.sum_replicate,
    List.map_singleton, List.sum_singleton, nsmul_eq_mul]
  constructor
  · intro h
    have htime := congrArg CommitTimestamp.time h
    simp only [timestampFor] at htime
    have hzero : ((connections : ℚ) - 1) * p.messageLatencies entry = 0 := by linarith
    rcases mul_eq_zero.mp hzero with hone | hlatencies
    · left
      exact_mod_cast sub_eq_zero.mp hone
    · exact .inr hlatencies
  · rintro (rfl | hzero)
    · rw [Nat.cast_one, one_mul]
    · rw [hzero, mul_zero]

/-- Then the time allows for all connections. -/
theorem covered_of (hok : connections = 1 ∨ p.messageLatencies entry = 0)
    (hentries : entries ∈ [[entry], .replicate connections entry])
    (h : p.determineTimestamp u connections entries clock s = some s') :
    clock.totalSimTime + connections * p.messageLatencies entry +
      2 * p.switchProcessingTime + 2 * p.controllerProcessingTime ≤ s'.timestamp.time := by
  rw [determineTimestamp_eq (length_entries connections entry hentries)] at h
  obtain rfl := Option.some.inj h
  have hsum : (entries.map p.messageLatencies).sum = connections * p.messageLatencies entry := by
    rcases List.mem_pair.mp hentries with rfl | rfl
    · rcases hok with rfl | hzero
      · simp
      · simp [hzero]
    · simp
  simp only [timestampFor, hsum]
  linarith

/-- The latencies of earlier transactions do not count just when there are none, or when the
commit takes no time. -/
theorem release_iff (hn : connections ≠ 0) {clocks : List SchedulerClock}
    (hentries : entries ∈ [[entry], .replicate connections entry]) :
    (∀ s, clocks ≠ [] → p.timestamps u connections entries clocks = some s →
      p.releaseBuffer s = (entries.map p.commitLatency).sum + p.switchProcessingTime) ↔
    clocks.length ≤ 1 ∨ p.commitLatency entry = 0 := by
  obtain ⟨s, hs, hsum⟩ : ∃ s, p.timestamps u connections entries clocks = some s ∧
      s.sumOfLastLatencies = clocks.length * (entries.map p.commitLatency).sum :=
    timestamps_sumOfLastLatencies (length_entries connections entry hentries)
  have hcount : ∃ n : ℕ, n ≠ 0 ∧
      (entries.map p.commitLatency).sum = n * p.commitLatency entry := by
    rcases List.mem_pair.mp hentries with rfl | rfl
    · exact ⟨1, one_ne_zero, by simp⟩
    · exact ⟨connections, hn, by simp⟩
  obtain ⟨n, hn, hcount⟩ := hcount
  have hn : (n : ℚ) ≠ 0 := by exact_mod_cast hn
  rw [hcount] at hsum ⊢
  constructor
  · intro h
    rcases Nat.lt_or_ge 1 clocks.length with hlong | hshort
    · right
      have hne : clocks ≠ [] := List.ne_nil_of_length_pos (by omega)
      have hbuffer := h s hne hs
      rw [releaseBuffer, hsum] at hbuffer
      have hzero : ((clocks.length : ℚ) - 1) * (n * p.commitLatency entry) = 0 := by linarith
      have hlength : ((clocks.length : ℚ) - 1) ≠ 0 := by
        rw [sub_ne_zero]
        exact_mod_cast hlong.ne'
      exact ((mul_eq_zero.mp hzero).resolve_left hlength |> mul_eq_zero.mp).resolve_left hn
    · exact .inl hshort
  · intro h s' hne hs'
    obtain rfl := Option.some.inj (hs.symm.trans hs')
    rw [releaseBuffer, hsum]
    rcases h with hshort | hzero
    · have hone : clocks.length = 1 := by
        have := List.length_pos_iff.mpr hne
        omega
      rw [hone, Nat.cast_one, one_mul]
    · rw [hzero]
      simp

/-- For distances and hops that are not negative every message takes time. -/
theorem latency_pos (hlength : 0 ≤ entry.wireLength) (hhops : 0 ≤ entry.hops)
    (hdelay : 0 ≤ p.switchDelay) (size : ℕ) : 0 < p.latency entry size := by
  have hsignal := p.signalDelay_pos
  have hbit := p.bitRate_pos
  have hlength : (0 : ℚ) ≤ entry.wireLength := by exact_mod_cast hlength
  have hhops : (0 : ℚ) ≤ entry.hops := by exact_mod_cast hhops
  have hwire : 0 ≤ 1 / p.signalDelay * entry.wireLength := by positivity
  have htransfer : 0 ≤ (entry.hops + 1) * (size : ℚ) * (1 / p.bitRate) := by positivity
  have hswitch : 0 ≤ entry.hops * p.switchDelay := by positivity
  have hqueue : 0 < (entry.hops + 1) * ((maxEthernetFrameSize : ℚ) * (1 / p.bitRate)) := by
    have : (0 : ℚ) < maxEthernetFrameSize := by norm_num [maxEthernetFrameSize]
    positivity
  simp only [latency]
  linarith

/-- So nothing is left out just for one connection, in the first transaction. -/
theorem condition_iff_of_nonneg {clocks : List SchedulerClock} (hlength : 0 ≤ entry.wireLength)
    (hhops : 0 ≤ entry.hops) (hdelay : 0 ≤ p.switchDelay) :
    ((connections = 1 ∨ p.messageLatencies entry = 0) ∧
      (clocks.length ≤ 1 ∨ p.commitLatency entry = 0)) ↔
    connections = 1 ∧ clocks.length ≤ 1 := by
  have hpos := latency_pos (p := p) hlength hhops hdelay
  have hmessages : p.messageLatencies entry ≠ 0 := by
    have h₁ := hpos (226 * 8)
    have h₂ := hpos (112 * 8)
    have h₃ := hpos (108 * 8)
    simp only [messageLatencies, ethernetFrameSizes, List.map_cons, List.map_nil, List.sum_cons,
      List.sum_nil]
    linarith
  have hcommit : p.commitLatency entry ≠ 0 := (hpos _).ne'
  simp [hmessages, hcommit]

/-- Every connection is covered in every one of the transactions just when there is one
connection or its latencies add up to zero, and there is one transaction or the commit takes
no time. -/
theorem coversConnections_iff (hn : 1 ≤ connections) (clocks : List SchedulerClock) :
    p.CoversConnections u connections entry clocks ↔
      (connections = 1 ∨ p.messageLatencies entry = 0) ∧
        (clocks.length ≤ 1 ∨ p.commitLatency entry = 0) := by
  have hne : connections ≠ 0 := by omega
  constructor
  · intro h
    have hrelease := (release_iff hne (List.mem_pair.mpr (.inl rfl))).mp
      (h.release [entry] (List.mem_pair.mpr (.inl rfl)))
    exact ⟨(same_iff hne ⟨0, 1, 0, by norm_num⟩ {}).mp (h.same _ _), hrelease⟩
  · rintro ⟨hone, hrelease⟩
    exact ⟨fun clock s => (same_iff hne clock s).mpr hone,
      fun entries hentries clock s s' h => covered_of hone hentries h,
      fun entries hentries => (release_iff hne hentries).mpr hrelease⟩

/-- The default parameters, with the processing time of the controller zero. -/
def defaults : LatencyParameters where
  signalDelay := 200000000
  bitRate := 1000000000
  switchDelay := 8 / 1000000
  switchProcessingTime := 0
  controllerProcessingTime := 0
  syncPeriod := 0
  executeAtStartOfPeriod := true
  signalDelay_pos := by norm_num
  bitRate_pos := by norm_num

/-- A cycle of half a millisecond. -/
def sampleClock : SchedulerClock := ⟨0, 1 / 2000, 0, by norm_num⟩

theorem coversConnections_iff_sample :
    1 ≤ 1 ∧ defaults.CoversConnections .wrap 1 ⟨2, 1⟩ [sampleClock] := by
  refine ⟨le_refl 1, (coversConnections_iff (le_refl 1) _).mpr ⟨.inl rfl, .inl ?_⟩⟩
  exact le_refl 1

/-- With the default entry two connections are not covered. -/
theorem defaults_not_coversConnections :
    1 ≤ 2 ∧ ∀ u clocks, ¬ defaults.CoversConnections u 2 ⟨2, 1⟩ clocks := by
  refine ⟨by norm_num, fun u clocks h => ?_⟩
  rcases (same_iff two_ne_zero sampleClock {}).mp (h.same sampleClock {}) with htwo | hzero
  · cases htwo
  · have hpos : ∀ size, 0 < defaults.latency ⟨2, 1⟩ size :=
      latency_pos (by norm_num) (by norm_num) (by norm_num [defaults])
    have h₁ := hpos (226 * 8)
    have h₂ := hpos (112 * 8)
    have h₃ := hpos (108 * 8)
    simp only [messageLatencies, ethernetFrameSizes, List.map_cons, List.map_nil, List.sum_cons,
      List.sum_nil] at hzero
    linarith

/-- Nor is the release of a second transaction right. -/
theorem defaults_second_transaction (u : Uint32Cast) :
    ¬ defaults.CoversConnections u 1 ⟨2, 1⟩ [sampleClock, sampleClock] := by
  intro h
  have hpos : 0 < defaults.commitLatency ⟨2, 1⟩ :=
    latency_pos (by norm_num) (by norm_num) (by norm_num [defaults]) _
  rcases (release_iff one_ne_zero (List.mem_pair.mpr (.inl rfl))).mp
    (h.release [⟨2, 1⟩] (List.mem_pair.mpr (.inl rfl))) with hlength | hzero
  · norm_num at hlength
  · exact hpos.ne' hzero

end LatencyParameters

end TsnReconfig.NetConf
