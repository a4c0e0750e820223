import Mathlib.Data.List.Pairwise
import TsnReconfig.AS6802.Windows

/-!
# Send windows

With a feasible schedule no frame is on the channel when a send window starts, each frame of a
time-triggered buffer is sent at the start of its window, and the shaper never throws.
-/

namespace TsnReconfig.AS6802

open Gates Lib Shaper

/-! ## The invariant -/

/-- A time-triggered frame with its buffer and a time. -/
def Outgoing.ttFrame (time : ℕ) : Outgoing → Option (ℕ × ℕ × EtherFrame)
  | tt b frame => some (time, b, frame)
  | _ => none

namespace TTPort
variable {c : TTConfig} {n n' : TTPort} {b k : ℕ} {r : TTShaper × Option Outgoing}
  {buffer : FrameBuffer} {msg : Option EtherFrame} {period : Period}

/-- When the MAC may send the next frame. -/
def freeAt (c : TTConfig) (n : TTPort) : ℕ :=
  match n.transmitState with
  | .txIdle => n.now
  | .transmitting endTx => endTx + interframeGapBits * c.bitTime
  | .waitIfg endIFG => endIFG

/-- The time-triggered frames between their buffers and the MAC. -/
def inFlight (n : TTPort) : List (ℕ × ℕ × EtherFrame) :=
  n.fromBuffers.filterMap (fun m => m.2.map fun frame => (n.now, m.1, frame)) ++
    n.toMac.filterMap (Outgoing.ttFrame n.now)

/-- A buffer has reached the start of its window and the shaper does not know yet, or all buffers
wait for the windows that the shaper knows. -/
def Pending (c : TTConfig) (n : TTPort) : Prop :=
  (n.fromBuffers = [] ∧ ∀ x ∈ n.shaper.ttBuffers, n.nextAction x.2 = x.1) ∨
    ∃ s b msg rest, n.fromBuffers = [(b, msg)] ∧ n.shaper.ttBuffers = (s, b) :: rest ∧
      n.now = s * c.tick ∧ n.nextAction b = s + (c.ttBuffer b).period.cycleTicks ∧
      (∀ x ∈ rest, n.nextAction x.2 = x.1) ∧
      ∀ frame ∈ msg, minEthernetFrameBytes ≤ frame.byteLength ∧
        frame.byteLength ≤ (c.ttBuffer b).maxMessageSize

/-- The MAC, the shaper and the messages between them share one request, and the MAC is free again
before the next window. -/
structure Inv (c : TTConfig) (n : TTPort) : Prop where
  thrown : n.thrown = none
  fits : ∀ b ∈ c.ttBuffers, (n.buffers b).Fits (c.ttBuffer b)
  queued : ∀ m ∈ n.shaper.toPCFShaper.queued, TTShaper.Lower m
  ttQueue : n.shaper.ttQueue = []
  windows : Windows c n.now n.shaper.ttBuffers
  pending : n.Pending c
  requests : n.shaper.framesRequested + n.toMac.length +
    (if n.transmitState = .txIdle then 0 else 1) = 1
  selfMessage : ∀ m ∈ n.transmitState.selfMessage, n.now ≤ m
  busy : n.transmitState ≠ .txIdle → ∀ x ∈ n.shaper.ttBuffers, n.freeAt c < x.1 * c.tick
  toMac : ∀ m ∈ n.toMac, minEthernetFrameBytes ≤ m.frame.byteLength ∧
    ∀ x ∈ n.shaper.ttBuffers, n.now + c.sendTime m.frame.byteLength < x.1 * c.tick
  disjoint : n.transmissions.Pairwise fun later earlier => earlier.finish ≤ later.start
  finished : ∀ x ∈ n.transmissions, x.finish ≤ n.freeAt c
  apart : ∀ x ∈ n.transmissions, ∀ b ∈ c.ttBuffers, ∀ s, (c.ttBuffer b).Opens s →
    s * c.tick ≤ x.start ∨ x.finish < s * c.tick
  handedOver : n.handedOver =
    n.inFlight ++ n.transmissions.filterMap fun x => x.msg.ttFrame x.start
  onTime : ∀ y ∈ n.handedOver, y.2.1 ∈ c.ttBuffers ∧
    ∃ s, (c.ttBuffer y.2.1).Opens s ∧ y.1 = s * c.tick

/-- Frames of the classes below leave the shaper. -/
theorem Inv.setShaper (h : n.Inv c) (hr : TTShaper.Released c (n.totalTicks c) n.shaper r) :
    (n.setShaper r).Inv c := by
  have hkeys := hr.ttBuffers
  have hsent : r.2.toList.filterMap (Outgoing.ttFrame n.now) = [] := by
    refine List.filterMap_eq_nil_iff.mpr fun m hm => ?_
    have hlower := (hr.sent m (Option.mem_toList.mp hm)).1.1
    cases m with
    | tt => cases hlower
    | pcf => rfl
    | rc => rfl
    | be => rfl
  refine { h with
    queued := hr.queued
    ttQueue := hr.ttQueue.trans h.ttQueue
    windows := ?_
    pending := ?_
    requests := ?_
    busy := ?_
    toMac := ?_
    handedOver := ?_ }
  · change Windows c n.now r.1.ttBuffers
    rw [hkeys]
    exact h.windows
  · unfold Pending TTPort.setShaper
    rw [hkeys]
    exact h.pending
  · have hrequests := h.requests
    have hframes := hr.framesRequested
    change r.1.framesRequested + (n.toMac ++ r.2.toList).length +
      (if n.transmitState = .txIdle then 0 else 1) = 1
    rw [List.length_append]
    omega
  · change _ → ∀ x ∈ r.1.ttBuffers, n.freeAt c < x.1 * c.tick
    rw [hkeys]
    exact h.busy
  · intro m hm
    change _ ∧ ∀ x ∈ r.1.ttBuffers, _
    rw [hkeys]
    rcases List.mem_append.mp hm with hm | hm
    · exact h.toMac m hm
    · obtain ⟨hlower, hallowed⟩ := hr.sent m (Option.mem_toList.mp hm)
      exact ⟨hlower.2, TTShaper.lt_of_isTransmissionAllowed hallowed h.windows.sorted⟩
  · have hflight : (n.setShaper r).inFlight = n.inFlight := by
      unfold inFlight TTPort.setShaper
      rw [List.filterMap_append, hsent, List.append_nil]
    rw [hflight]
    exact h.handedOver

/-- At the start of a window the MAC is idle and waits for a frame. -/
theorem Inv.idle_of_start (h : n.Inv c) {x : ℕ × ℕ} (hx : x ∈ n.shaper.ttBuffers)
    (hnow : n.now = x.1 * c.tick) :
    n.transmitState = .txIdle ∧ n.toMac = [] ∧ n.shaper.framesRequested = 1 := by
  have hmac : n.toMac = [] := by
    refine List.eq_nil_iff_forall_not_mem.mpr fun m hm => ?_
    have hlt := (h.toMac m hm).2 x hx
    omega
  have hidle : n.transmitState = .txIdle := by
    by_contra hbusy
    have hlt := h.busy hbusy x hx
    have hself := h.selfMessage
    unfold freeAt at hlt
    cases hstate : n.transmitState with
    | txIdle => exact hbusy hstate
    | transmitting endTx =>
      rw [hstate] at hlt hself
      have hle := hself endTx rfl
      dsimp only at hlt
      omega
    | waitIfg endIFG =>
      rw [hstate] at hlt hself
      have hle := hself endIFG rfl
      dsimp only at hlt
      omega
  have hrequests := h.requests
  rw [hmac, if_pos hidle] at hrequests
  exact ⟨hidle, hmac, hrequests⟩

theorem Inv.putFrame {frame : EtherFrame} (h : n.Inv c)
    (hs : (n.buffers b).handleMessage frame = some buffer) :
    ({ n with buffers := Function.update n.buffers b buffer } : TTPort).Inv c := by
  refine { h with fits := fun b' hb' => ?_ }
  dsimp only
  by_cases hb : b' = b
  · subst hb
    rw [Function.update_self]
    exact (h.fits b' hb').handleMessage hs
  · rw [Function.update_of_ne hb]
    exact h.fits b' hb'

theorem nextFrame_spec {buffer : TTBuffer} (h : (n.buffers b).Fits buffer) :
    (n.nextFrame b).2.Fits buffer ∧ ∀ frame ∈ (n.nextFrame b).1,
      minEthernetFrameBytes ≤ frame.byteLength ∧ frame.byteLength ≤ buffer.maxMessageSize := by
  unfold nextFrame
  cases hget : (n.buffers b).getFrame with
  | none => exact ⟨h, fun frame hframe => by cases hframe⟩
  | some p =>
    obtain ⟨hfits, hframe⟩ := h.getFrame hget
    refine ⟨hfits, fun frame hmem => ?_⟩
    cases hmem
    exact hframe

/-- A buffer whose action time has come is the first one, and no other has sent anything. -/
theorem Inv.first_of_action (h : n.Inv c) (hb : b ∈ c.ttBuffers)
    (hnow : n.now = n.nextAction b * c.tick) :
    n.fromBuffers = [] ∧ (∀ x ∈ n.shaper.ttBuffers, n.nextAction x.2 = x.1) ∧
      ∃ rest, n.shaper.ttBuffers = (n.nextAction b, b) :: rest := by
  obtain ⟨k, hk⟩ := h.windows.exists_mem hb
  rcases h.pending with ⟨hfrom, hnext⟩ | ⟨s, b', msg, rest, -, hbuffers, hstart, hown, hnext, -⟩
  · obtain rfl : n.nextAction b = k := hnext (k, b) hk
    exact ⟨hfrom, hnext, h.windows.eq_cons hk hnow⟩
  · exfalso
    have htick := c.tick_pos
    have hcycle := (c.ttBuffer b').start_lt
    rw [hstart] at hnow
    have heq := Nat.eq_of_mul_eq_mul_right htick hnow
    rw [hbuffers] at hk
    rcases List.mem_cons.mp hk with hfirst | hrest
    · -- the buffer that has sent is already registered for the next cycle
      obtain ⟨-, rfl⟩ := Prod.mk.inj hfirst
      rw [hown] at heq
      omega
    · have hsorted := h.windows.sorted
      rw [hbuffers] at hsorted
      have hlt := (List.pairwise_cons.mp hsorted).1 _ hrest
      have hkey := hnext _ hrest
      dsimp only at hlt hkey
      omega

theorem Inv.actionTime (h : n.Inv c) (hb : b ∈ c.ttBuffers)
    (hnow : n.now = n.nextAction b * c.tick) : (n.actionTime c b).Inv c := by
  obtain ⟨hfrom, hnext, rest, hbuffers⟩ := h.first_of_action hb hnow
  have hmem : (n.nextAction b, b) ∈ n.shaper.ttBuffers := hbuffers ▸ List.mem_cons_self
  obtain ⟨-, hmac, -⟩ := h.idle_of_start hmem hnow
  have hopens := h.windows.opens _ hmem
  obtain ⟨hfits, hframe⟩ := nextFrame_spec (h.fits b hb)
  have hticks : n.totalTicks c = n.nextAction b := by
    rw [totalTicks, hnow]
    exact Nat.mul_div_cancel _ c.tick_pos
  have hregister : (c.ttBuffer b).registerEvent (n.totalTicks c) =
      n.nextAction b + (c.ttBuffer b).period.cycleTicks := by
    rw [hticks]
    exact hopens.registerEvent
  refine { h with
    fits := fun b' hb' => ?_
    pending := .inr ⟨n.nextAction b, b, (n.nextFrame b).1, rest, ?_, hbuffers, hnow, ?_,
      fun x hx => ?_, hframe⟩
    handedOver := ?_
    onTime := fun y hy => ?_ }
  · change (Function.update n.buffers b _ b').Fits _
    by_cases heq : b' = b
    · rw [heq, Function.update_self]
      exact hfits
    · rw [Function.update_of_ne heq]
      exact h.fits b' hb'
  · change (if (n.buffers b).enabled then _ else _) = _
    rw [if_pos (h.fits b hb).enabled, hfrom, List.nil_append]
  · change Function.update n.nextAction b _ b = _
    rw [Function.update_self, hregister]
  · -- the other buffers wait for later windows
    have hsorted := h.windows.sorted
    rw [hbuffers] at hsorted
    have hlt := (List.pairwise_cons.mp hsorted).1 x hx
    have hkey := hnext x (hbuffers ▸ List.mem_cons_of_mem _ hx)
    have hne : x.2 ≠ b := by
      intro heq
      rw [heq] at hkey
      dsimp only at hlt
      omega
    change Function.update n.nextAction b _ x.2 = _
    rw [Function.update_of_ne hne]
    exact hkey
  · have hold := h.handedOver
    have hflight : n.inFlight = [] := by
      rw [inFlight, hfrom, hmac]
      rfl
    have hflight' : (n.actionTime c b).inFlight =
        (n.nextFrame b).1.toList.map fun frame => (n.now, b, frame) := by
      unfold inFlight TTPort.actionTime
      dsimp only
      rw [if_pos (h.fits b hb).enabled, hfrom, hmac]
      cases (n.nextFrame b).1 <;> rfl
    rw [hflight, List.nil_append] at hold
    rw [hflight']
    change _ ++ n.handedOver = _
    rw [hold]
    rfl
  · change y ∈ (n.nextFrame b).1.toList.map _ ++ n.handedOver at hy
    rcases List.mem_append.mp hy with hy | hy
    · obtain ⟨frame, -, rfl⟩ := List.mem_map.mp hy
      exact ⟨hb, n.nextAction b, hopens, hnow⟩
    · exact h.onTime y hy

/-- The shaper knows the next window of the buffer whose window has started. -/
theorem Inv.registered {l : List (ℕ × ℕ)} (h : n.Inv c) (framesRequested : ℕ)
    (toMac : List Outgoing) (hfrom : n.fromBuffers = [(b, msg)]) (hidle : n.transmitState = .txIdle)
    (hmac : n.toMac = []) (hwindows : Windows c n.now l)
    (hnext : ∀ x ∈ l, n.nextAction x.2 = x.1) (hrequests : framesRequested + toMac.length = 1)
    (htoMac : ∀ m ∈ toMac, minEthernetFrameBytes ≤ m.frame.byteLength ∧
      ∀ x ∈ l, n.now + c.sendTime m.frame.byteLength < x.1 * c.tick)
    (hflight : toMac.filterMap (Outgoing.ttFrame n.now) =
      (msg.map fun frame => (n.now, b, frame)).toList) :
    ({ n with
        fromBuffers := []
        toMac
        shaper := { n.shaper with ttBuffers := l, framesRequested } } : TTPort).Inv c := by
  refine { h with
    windows := hwindows
    pending := .inl ⟨rfl, hnext⟩
    requests := ?_
    busy := fun hbusy => absurd hidle hbusy
    toMac := htoMac
    handedOver := ?_ }
  · dsimp only
    rw [if_pos hidle]
    exact hrequests
  · have hold := h.handedOver
    unfold inFlight at hold ⊢
    rw [hfrom, hmac] at hold
    dsimp only
    rw [hflight, hold]
    cases msg <;> rfl

theorem Inv.fromBuffer {m : ℕ × Option EtherFrame} (h : n.Inv c) (hf : c.Feasible)
    (hc : c.Accepted) (hm : n.fromBuffers[k]? = some m) :
    ({ n with fromBuffers := n.fromBuffers.eraseIdx k }.fromBuffer c m).Inv c := by
  rcases h.pending with ⟨hnil, -⟩ | ⟨s, b, msg, rest, hfrom, hbuffers, hnow, hown, hnext, hframe⟩
  · rw [hnil] at hm
    cases hm
  have hmem : (s, b) ∈ n.shaper.ttBuffers := hbuffers ▸ List.mem_cons_self
  obtain ⟨hidle, hmac, hrequested⟩ := h.idle_of_start hmem hnow
  have hwindows := h.windows
  have hopens := h.windows.opens _ hmem
  rw [hbuffers] at hwindows
  have hb : b ∈ c.ttBuffers := hwindows.mem_ttBuffers (x := (s, b)) List.mem_cons_self
  obtain ⟨hwindows', hok⟩ := hwindows.next hf hc hnow
  obtain ⟨l, hl⟩ : ∃ l, l = rest.orderedInsert (fun x y => x.1 ≤ y.1)
      (s + (c.ttBuffer b).period.cycleTicks, b) := ⟨_, rfl⟩
  rw [← hl] at hwindows'
  have hmeml : ∀ x ∈ l, x = (s + (c.ttBuffer b).period.cycleTicks, b) ∨ x ∈ rest := by
    intro x hx
    rw [hl] at hx
    exact List.mem_cons.mp ((List.perm_orderedInsert _ _ _).mem_iff.mp hx)
  have hnext' : ∀ x ∈ l, n.nextAction x.2 = x.1 := by
    intro x hx
    rcases hmeml x hx with rfl | hx
    · exact hown
    · exact hnext x hx
  have hregister : { n.shaper with ttBuffers := rest }.registerTTBuffer c b (n.nextAction b) =
      .ok { n.shaper with ttBuffers := l } := by
    rw [hown]
    refine TTShaper.registerTTBuffer_eq_ok.mpr ⟨hok, ?_⟩
    rw [hl]
  -- the message is the only one
  obtain ⟨rfl, rfl⟩ : k = 0 ∧ m = (b, msg) := by
    rw [hfrom] at hm
    cases k with
    | zero => exact ⟨rfl, (Option.some.inj hm).symm⟩
    | succ k => cases hm
  unfold TTPort.fromBuffer
  dsimp only
  have hpos : 0 < n.shaper.framesRequested := by omega
  rw [hfrom, TTShaper.handleTT_eq hbuffers hregister hpos]
  cases msg with
  | none =>
    have hbase := h.registered n.shaper.framesRequested [] hfrom hidle hmac hwindows' hnext'
      hrequested (fun m hm => by cases hm) rfl
    unfold TTPort.setShaper
    dsimp only
    rw [hmac]
    exact hbase.setShaper (TTShaper.sendPopped_released hpos h.ttQueue h.queued)
  | some frame =>
    obtain ⟨hmin, hmax⟩ := hframe frame rfl
    have hafter : ∀ x ∈ l, (b, s) ≠ (x.2, x.1) := by
      intro x hx heq
      have hcycle := (c.ttBuffer b).start_lt
      obtain ⟨-, hstart⟩ := Prod.mk.inj heq
      rcases hmeml x hx with rfl | hx
      · dsimp only at hstart
        omega
      · have hlt := (List.pairwise_cons.mp hwindows.sorted).1 x hx
        dsimp only at hlt
        omega
    have hlt := hwindows'.lt_of_feasible hf hb hopens hnow hafter hmax
    have hbase := h.registered (n.shaper.framesRequested - 1) [.tt b frame] hfrom hidle hmac
      hwindows' hnext' (by rw [hrequested]; rfl) (fun m hm => by
        rw [List.mem_singleton.mp hm]
        exact ⟨hmin, hlt⟩) rfl
    unfold TTPort.setShaper
    dsimp only
    rw [hmac]
    exact hbase

/-- The MAC is idle when a frame comes, and is free again before the next window starts. -/
theorem Inv.startTransmission {m : Outgoing} (h : n.Inv c) (hm : n.toMac[k]? = some m) :
    ({ n with toMac := n.toMac.eraseIdx k }.startTransmission c m).Inv c := by
  have hrequests := h.requests
  have hlength : 0 < n.toMac.length := List.length_pos_of_mem (List.mem_of_getElem? hm)
  have hidle : n.transmitState = .txIdle := by
    by_contra hbusy
    rw [if_neg hbusy] at hrequests
    omega
  have hone : n.toMac = [m] := by
    obtain ⟨m', hm'⟩ := List.length_eq_one_iff.mp (show n.toMac.length = 1 by omega)
    rw [hm'] at hm ⊢
    cases k with
    | zero => rw [← Option.some.inj hm]
    | succ k => cases hm
  have hk : n.toMac.eraseIdx k = [] := by
    refine List.eq_nil_of_length_eq_zero ?_
    have hlt := (List.getElem?_eq_some_iff.mp hm).1
    rw [List.length_eraseIdx_of_lt hlt, hone, List.length_singleton]
  obtain ⟨hmin, hnext⟩ := h.toMac m (List.mem_of_getElem? hm)
  have hfree : n.freeAt c = n.now := by
    rw [freeAt, hidle]
  have htime : n.now + (m.frame.byteLength * 8 + preambleBytes * 8) * c.bitTime +
      interframeGapBits * c.bitTime = n.now + c.sendTime m.frame.byteLength := by
    rw [TTConfig.sendTime, Nat.add_assoc, ← Nat.add_mul]
    congr 2
  have hfinished : ∀ x ∈ n.transmissions, x.finish ≤ n.now := fun x hx =>
    (h.finished x hx).trans_eq hfree
  unfold TTPort.startTransmission
  dsimp only
  rw [if_pos hidle, max_eq_right hmin, hk]
  refine { h with
    requests := ?_
    selfMessage := fun t ht => ?_
    busy := fun _ x hx => ?_
    toMac := fun m hm => by cases hm
    disjoint := List.pairwise_cons.mpr ⟨hfinished, h.disjoint⟩
    finished := fun x hx => ?_
    apart := fun x hx => ?_
    handedOver := ?_ }
  · rw [hone, if_pos hidle] at hrequests
    exact hrequests
  · cases ht
    exact Nat.le_add_right _ _
  · exact htime.trans_lt (hnext x hx)
  · refine le_trans ?_ htime.ge
    rcases List.mem_cons.mp hx with rfl | hx
    · exact le_rfl
    · exact (hfinished x hx).trans (Nat.le_add_right _ _)
  · rcases List.mem_cons.mp hx with rfl | hx
    · exact fun b hb s hs => h.windows.apart hnext hb hs
    · exact h.apart x hx
  · have hold := h.handedOver
    unfold inFlight at hold ⊢
    rw [hone] at hold
    rw [hold, List.filterMap_cons]
    cases m <;> simp [Outgoing.ttFrame]

theorem Inv.endTx {endTx : ℕ} (h : n.Inv c) (hstate : n.transmitState = .transmitting endTx)
    (hnow : n.now = endTx) :
    ({ n with transmitState := .waitIfg (n.now + interframeGapBits * c.bitTime) } : TTPort).Inv
      c := by
  have hfree : n.freeAt c = n.now + interframeGapBits * c.bitTime := by
    rw [freeAt, hstate, hnow]
  have hbusy : n.transmitState ≠ .txIdle := by
    rw [hstate]
    exact fun heq => by cases heq
  have hkeys := h.busy hbusy
  have hfinished := h.finished
  rw [hfree] at hkeys hfinished
  refine { h with
    requests := ?_
    selfMessage := fun t ht => ?_
    busy := fun _ => hkeys
    finished := hfinished }
  · have hrequests := h.requests
    rw [if_neg hbusy] at hrequests
    exact hrequests
  · cases ht
    exact Nat.le_add_right _ _

theorem Inv.endIFG {endIFG : ℕ} (h : n.Inv c) (hstate : n.transmitState = .waitIfg endIFG)
    (hnow : n.now = endIFG) : (n.endIFG c).Inv c := by
  have hbusy : n.transmitState ≠ .txIdle := by
    rw [hstate]
    exact fun heq => by cases heq
  have hrequests := h.requests
  rw [if_neg hbusy] at hrequests
  have hmac : n.toMac = [] := List.eq_nil_of_length_eq_zero (by omega)
  have hnone : n.shaper.framesRequested = 0 := by omega
  have hfinished := h.finished
  unfold freeAt at hfinished
  rw [hstate, ← hnow] at hfinished
  have hbase : ({ n with
      transmitState := .txIdle
      shaper := { n.shaper with framesRequested := n.shaper.framesRequested + 1 } } : TTPort).Inv
        c :=
    { h with
      requests := by
        dsimp only
        rw [if_pos rfl, hmac, hnone]
        rfl
      selfMessage := fun t ht => by cases ht
      busy := fun hidle => absurd rfl hidle
      finished := hfinished }
  unfold TTPort.endIFG
  dsimp only
  rw [if_pos hnone]
  exact hbase.setShaper (TTShaper.sendPopped_released (Nat.succ_pos _) h.ttQueue h.queued)

theorem Inv.advance {t : ℕ} (h : n.Inv c) (hlt : n.now < t) (hfrom : n.fromBuffers = [])
    (hmac : n.toMac = []) (hself : ∀ m ∈ n.transmitState.selfMessage, t ≤ m)
    (hactions : ∀ b ∈ c.ttBuffers, t ≤ n.nextAction b * c.tick) :
    ({ n with now := t } : TTPort).Inv c := by
  have hnext : ∀ x ∈ n.shaper.ttBuffers, n.nextAction x.2 = x.1 := by
    rcases h.pending with ⟨-, hnext⟩ | ⟨s, b, msg, rest, hsome, -⟩
    · exact hnext
    · rw [hfrom] at hsome
      cases hsome
  have hfree : n.freeAt c ≤ ({ n with now := t } : TTPort).freeAt c := by
    unfold freeAt
    dsimp only
    split
    · exact hlt.le
    · exact le_rfl
    · exact le_rfl
  have hwindows : Windows c t n.shaper.ttBuffers :=
    { h.windows with
      future := fun x hx => by
        rw [← hnext x hx]
        exact hactions x.2 (h.windows.mem_ttBuffers hx)
      past := fun x hx s hs hbefore => (h.windows.past x hx s hs hbefore).trans hlt.le }
  refine { h with
    windows := hwindows
    pending := .inl ⟨hfrom, hnext⟩
    selfMessage := hself
    busy := fun hbusy x hx => ?_
    toMac := fun m hm => ?_
    finished := fun x hx => (h.finished x hx).trans hfree
    handedOver := ?_ }
  · have hold := h.busy hbusy x hx
    unfold freeAt at hold ⊢
    dsimp only at hbusy hold ⊢
    split at hold
    · exact absurd ‹_› hbusy
    · exact hold
    · exact hold
  · rw [hmac] at hm
    cases hm
  · have hold := h.handedOver
    unfold inFlight at hold ⊢
    rw [hfrom, hmac] at hold ⊢
    exact hold

theorem Inv.step {e : TTEvent} (h : n.Inv c) (hf : c.Feasible) (hc : c.Accepted)
    (hs : n.step c e = some n') : n'.Inv c := by
  unfold TTPort.step at hs
  rw [if_neg (by rw [h.thrown]; decide)] at hs
  cases e with
  | putFrame b frame =>
    obtain ⟨buffer, hbuffer, rfl⟩ := Option.map_eq_some_iff.mp hs
    exact h.putFrame hbuffer
  | actionTime b =>
    dsimp only at hs
    split_ifs at hs with hb
    cases hs
    exact h.actionTime hb.1 hb.2
  | fromBuffer k =>
    obtain ⟨m, hm, hs⟩ := Option.bind_eq_some_iff.mp hs
    cases hs
    exact h.fromBuffer hf hc hm
  | lower priority m =>
    dsimp only at hs
    split_ifs at hs with hm
    cases hs
    exact h.setShaper (TTShaper.handleMessage_released _ ⟨by simpa using hm.1, hm.2⟩ h.queued)
  | toMac k =>
    obtain ⟨m, hm, hs⟩ := Option.bind_eq_some_iff.mp hs
    cases hs
    exact h.startTransmission hm
  | endTx =>
    dsimp only at hs
    cases hstate : n.transmitState with
    | transmitting endTx =>
      rw [hstate] at hs
      dsimp only at hs
      split_ifs at hs with hnow
      cases hs
      exact h.endTx hstate hnow
    | txIdle =>
      rw [hstate] at hs
      cases hs
    | waitIfg =>
      rw [hstate] at hs
      cases hs
  | endIFG =>
    dsimp only at hs
    cases hstate : n.transmitState with
    | waitIfg endIFG =>
      rw [hstate] at hs
      dsimp only at hs
      split_ifs at hs with hnow
      cases hs
      exact h.endIFG hstate hnow
    | txIdle =>
      rw [hstate] at hs
      cases hs
    | transmitting =>
      rw [hstate] at hs
      cases hs
  | advance t =>
    dsimp only at hs
    split_ifs at hs with hadvance
    cases hs
    obtain ⟨hlt, hfrom, hmac, hself, hactions⟩ := hadvance
    exact h.advance hlt hfrom hmac hself hactions

/-- The buffers that are registered at first wait for their first windows. -/
theorem Initial.inv (h : n.Initial c) : n.Inv c ∧ c.Accepted := by
  obtain ⟨numRcPriority, hregistered⟩ := h.registered
  obtain ⟨hbelow, hqueue, hperm, hsorted, -, hpairs⟩ := TTShaper.registerAll_spec hregistered .nil
  rw [List.append_nil] at hperm
  have hmem : ∀ x ∈ n.shaper.ttBuffers, x.2 ∈ c.ttBuffers ∧ n.nextAction x.2 = x.1 := by
    intro x hx
    obtain ⟨b, hb, rfl⟩ := List.mem_map.mp (hperm.mem_iff.mp hx)
    exact ⟨hb, rfl⟩
  have hrequested : n.shaper.framesRequested = 1 := by rw [hbelow]
  have hnodup : c.ttBuffers.Nodup := hpairs.imp fun hpair => hpair.1
  have hapart : ∀ b ∈ c.ttBuffers, ∀ b' ∈ c.ttBuffers, b ≠ b' →
      TTConfig.overlapping (c.ttBuffer b) (c.ttBuffer b') = false := by
    intro b hb b' hb' hne
    have hsymm : Std.Symm fun b b' =>
        TTConfig.overlapping (c.ttBuffer b) (c.ttBuffer b') = false :=
      ⟨fun b b' heq => (TTShaper.overlapping_comm _ _).trans heq⟩
    exact (hpairs.imp fun hpair => hpair.2).forall hb hb' hne
  refine ⟨?_, hnodup, hapart⟩
  exact {
    thrown := h.thrown
    fits := h.fits
    queued := fun m hm => by
      rw [hbelow] at hm
      simp [PCFShaper.queued, RCShaper.queued] at hm
    ttQueue := hqueue
    windows := {
      registered := by
        have hmap := hperm.map (·.2)
        rw [List.map_map] at hmap
        exact hmap.trans (.of_eq (List.map_id _))
      sorted := hsorted
      opens := fun x hx => (hmem x hx).2 ▸ h.opens x.2 (hmem x hx).1
      future := fun x hx => h.now.trans_le (Nat.zero_le _)
      past := fun x hx s hs hlt => by
        have hle := h.first x.2 (hmem x hx).1 s hs
        rw [(hmem x hx).2] at hle
        omega }
    pending := .inl ⟨h.fromBuffers, fun x hx => (hmem x hx).2⟩
    requests := by rw [hrequested, h.toMac, if_pos h.transmitState]; rfl
    selfMessage := fun t ht => by
      rw [h.transmitState] at ht
      cases ht
    busy := fun hbusy => absurd h.transmitState hbusy
    toMac := fun m hm => by
      rw [h.toMac] at hm
      cases hm
    disjoint := by
      rw [h.transmissions]
      exact .nil
    finished := fun x hx => by
      rw [h.transmissions] at hx
      cases hx
    apart := fun x hx => by
      rw [h.transmissions] at hx
      cases hx
    handedOver := by
      rw [inFlight, h.handedOver, h.fromBuffers, h.toMac, h.transmissions]
      rfl
    onTime := fun y hy => by
      rw [h.handedOver] at hy
      cases hy }

theorem inv_of_reachable (hf : c.Feasible) (h : (system c).Reachable n) :
    n.Inv c ∧ c.Accepted := by
  refine h.invariant (fun _ hinit => Initial.inv hinit) fun _ _ _ hinv hs => ?_
  exact ⟨hinv.1.step hf hinv.2 hs, hinv.2⟩

/-! ## Results -/

end TTPort

end TsnReconfig.AS6802
