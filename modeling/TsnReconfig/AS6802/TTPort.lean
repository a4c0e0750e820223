import Mathlib.Logic.Function.Basic
import TsnReconfig.AS6802.TTShaper
import TsnReconfig.Lib.System

/-!
# A port with time-triggered traffic

The buffers, the shaper and the MAC of a port. Frames may come to the buffers and to the shaper at
any time, and what happens at the same time may happen in any order. PAUSE frames are left out.
-/

namespace TsnReconfig.AS6802

open Gates Lib Shaper

/-! ## The port -/

namespace FrameBuffer

def enabled : FrameBuffer → Bool
  | queue buffer => buffer.enabled
  | double buffer => buffer.enabled

def frames : FrameBuffer → List EtherFrame
  | queue buffer => buffer.frames
  | double buffer => buffer.frame.toList

def maxMessageSize : FrameBuffer → ℕ
  | queue buffer => buffer.maxMessageSize
  | double buffer => buffer.maxMessageSize

end FrameBuffer

/-- The states of `EtherMACFullDuplex`, with the time of its self message. -/
inductive TransmitState
  | txIdle
  | transmitting (endTx : ℕ)
  | waitIfg (endIFG : ℕ)
  deriving DecidableEq

def TransmitState.selfMessage : TransmitState → Option ℕ
  | txIdle => none
  | transmitting endTx => some endTx
  | waitIfg endIFG => some endIFG

/-- A frame that the MAC has started to send, until it may send the next one. -/
structure Transmission where
  start : ℕ
  finish : ℕ
  msg : Outgoing
  deriving DecidableEq

/-- A port. `fromBuffers` is what the buffers have sent to the shaper at the present time, and
`toMac` what the shaper has sent to the MAC. -/
structure TTPort where
  now : ℕ := 0
  buffers : ℕ → FrameBuffer
  nextAction : ℕ → ℕ
  shaper : TTShaper
  transmitState : TransmitState := .txIdle
  fromBuffers : List (ℕ × Option EtherFrame) := []
  toMac : List Outgoing := []
  handedOver : List (ℕ × ℕ × EtherFrame) := []
  transmissions : List Transmission := []
  thrown : Option TTError := none

inductive TTEvent
  | putFrame (b : ℕ) (frame : EtherFrame)
  | actionTime (b : ℕ)
  | fromBuffer (k : ℕ)
  | lower (priority : ℤ) (msg : Outgoing)
  | toMac (k : ℕ)
  | endTx
  | endIFG
  | advance (t : ℕ)

namespace TTPort
variable (c : TTConfig) (n : TTPort)

def totalTicks : ℕ := n.now / c.tick

/-- The shaper after an operation, and the frame that it sends to the MAC. -/
def setShaper (r : TTShaper × Option Outgoing) : TTPort :=
  { n with shaper := r.1, toMac := n.toMac ++ r.2.toList }

/-- The frame that a buffer sends at an action time, and the buffer after it. -/
def nextFrame (b : ℕ) : Option EtherFrame × FrameBuffer :=
  match (n.buffers b).getFrame with
  | some (frame, buffer) => (some frame, buffer)
  | none => (none, n.buffers b)

/-- `TTBuffer::handleMessage` for its action time. -/
def actionTime (b : ℕ) : TTPort :=
  let r := n.nextFrame b
  { n with
    buffers := Function.update n.buffers b r.2
    nextAction := Function.update n.nextAction b ((c.ttBuffer b).registerEvent (n.totalTicks c))
    fromBuffers := if (n.buffers b).enabled then n.fromBuffers ++ [(b, r.1)] else n.fromBuffers
    handedOver := r.1.toList.map (fun frame => (n.now, b, frame)) ++ n.handedOver }

/-- A message of a buffer comes to the shaper. -/
def fromBuffer (m : ℕ × Option EtherFrame) : TTPort :=
  match n.shaper.handleTT c (n.totalTicks c) m.1 (n.nextAction m.1) m.2 with
  | .ok r => n.setShaper r
  | .error e => { n with thrown := some e }

/-- `processFrameFromUpperLayer` and `startFrameTransmission`. -/
def startTransmission (msg : Outgoing) : TTPort :=
  let byteLength := max minEthernetFrameBytes msg.frame.byteLength
  if n.transmitState = .txIdle then
    { n with
      transmitState := .transmitting (n.now + (byteLength * 8 + preambleBytes * 8) * c.bitTime)
      transmissions := ⟨n.now, n.now + c.sendTime byteLength, msg⟩ :: n.transmissions }
  else { n with thrown := some .macBusy }

/-- `handleEndIFGPeriod`. -/
def endIFG : TTPort :=
  let n := { n with transmitState := .txIdle }
  if n.shaper.framesRequested = 0 then n.setShaper (n.shaper.requestPacket c (n.totalTicks c))
  else n

/-- What happens at the port as long as nothing is thrown. Nothing is left behind when the time
advances. -/
def step (n : TTPort) (e : TTEvent) : Option TTPort :=
  if n.thrown.isSome then none
  else match e with
    | .putFrame b frame => ((n.buffers b).handleMessage frame).map fun buffer =>
      { n with buffers := Function.update n.buffers b buffer }
    | .actionTime b =>
      if b ∈ c.ttBuffers ∧ n.now = n.nextAction b * c.tick then some (n.actionTime c b) else none
    | .fromBuffer k => do
      let m ← n.fromBuffers[k]?
      return { n with fromBuffers := n.fromBuffers.eraseIdx k }.fromBuffer c m
    | .lower priority msg =>
      if ¬msg.isTT ∧ minEthernetFrameBytes ≤ msg.frame.byteLength then
        some (n.setShaper (n.shaper.handleMessage c (n.totalTicks c) priority msg))
      else none
    | .toMac k => do
      let msg ← n.toMac[k]?
      return { n with toMac := n.toMac.eraseIdx k }.startTransmission c msg
    | .endTx =>
      match n.transmitState with
      | .transmitting endTx =>
        if n.now = endTx then
          some { n with transmitState := .waitIfg (n.now + interframeGapBits * c.bitTime) }
        else none
      | _ => none
    | .endIFG =>
      match n.transmitState with
      | .waitIfg endIFG => if n.now = endIFG then some (n.endIFG c) else none
      | _ => none
    | .advance t =>
      if n.now < t ∧ n.fromBuffers = [] ∧ n.toMac = [] ∧
          (∀ m ∈ n.transmitState.selfMessage, t ≤ m) ∧
          ∀ b ∈ c.ttBuffers, t ≤ n.nextAction b * c.tick then
        some { n with now := t }
      else none

end TTPort

/-! ## Schedules -/

/-- A send window of a buffer starts. -/
def TTBuffer.Opens (b : TTBuffer) (t : ℕ) : Prop := b.period.getTicks t = b.sendWindowStart

/-- The frames of a buffer are those that it accepts. -/
structure FrameBuffer.Fits (buffer : FrameBuffer) (b : TTBuffer) : Prop where
  enabled : buffer.enabled = true
  size : buffer.maxMessageSize = b.maxMessageSize
  frames : ∀ frame ∈ buffer.frames,
    minEthernetFrameBytes ≤ frame.byteLength ∧ frame.byteLength ≤ b.maxMessageSize

/-- The schedule leaves enough time for the longest frame of each send window before the next window
of any buffer. -/
def TTConfig.Feasible (c : TTConfig) : Prop :=
  ∀ b ∈ c.ttBuffers, ∀ b' ∈ c.ttBuffers, ∀ t t', (c.ttBuffer b).Opens t → (c.ttBuffer b').Opens t' →
    t ≤ t' → (b, t) ≠ (b', t') →
      t * c.tick + c.sendTime (max minEthernetFrameBytes (c.ttBuffer b).maxMessageSize) <
        t' * c.tick

namespace TTBuffer
variable {b : TTBuffer} {t t' : ℕ}

theorem Opens.add_cycleTicks (h : b.Opens t) : b.Opens (t + b.period.cycleTicks) := by
  rw [Opens, Period.getTicks_add, Nat.add_mod_right, h]
  exact Nat.mod_eq_of_lt b.start_lt

/-- A cycle lies between the windows of a buffer. -/
theorem Opens.add_le (h : b.Opens t) (h' : b.Opens t') (hlt : t < t') :
    t + b.period.cycleTicks ≤ t' := by
  obtain ⟨d, rfl⟩ := Nat.exists_eq_add_of_lt hlt
  rw [Opens, Nat.add_assoc, Period.getTicks_add, h] at h'
  have hstart := b.start_lt
  by_contra hd
  by_cases hwrap : b.sendWindowStart + (d + 1) < b.period.cycleTicks
  · rw [Nat.mod_eq_of_lt hwrap] at h'
    omega
  · rw [Nat.mod_eq_sub_mod (by omega), Nat.mod_eq_of_lt (by omega)] at h'
    omega

/-- At the start of its window a buffer is registered for the next one. -/
theorem Opens.registerEvent (h : b.Opens t) : b.registerEvent t = t + b.period.cycleTicks := by
  have hdistance : toInt32 ((b.sendWindowStart : ℤ) - b.period.getTicks t) = 0 := by
    rw [h, sub_self]
    rfl
  unfold TTBuffer.registerEvent Timer.actionpoint
  dsimp only
  rw [hdistance, if_pos (by simp)]
  omega

end TTBuffer

namespace FrameBuffer
variable {buffer buffer' : FrameBuffer} {b : TTBuffer} {frame : EtherFrame}

theorem Fits.enqueue {q q' : QbvQueue} {size : Option ℕ} (h : (queue q).Fits b)
    (hframe : minEthernetFrameBytes ≤ frame.byteLength ∧ frame.byteLength ≤ b.maxMessageSize)
    (hs : q.enqueue frame = some (q', size)) : (queue q').Fits b := by
  have hinsert : ∀ frames queueSize, (∀ f ∈ frames, f ∈ q.frames) →
      (queue ({ q with frames, queueSize }.insert frame).1).Fits b := by
    intro frames queueSize hframes
    refine ⟨h.enabled, h.size, fun f hf => ?_⟩
    rcases List.mem_append.mp hf with hf | hf
    · exact h.frames f (hframes f hf)
    · rw [List.mem_singleton.mp hf]
      exact hframe
  unfold QbvQueue.enqueue at hs
  split_ifs at hs
  · cases hs
    exact h
  · cases hq : q.frames with
    | nil =>
      rw [hq] at hs
      cases hs
    | cons popFrame frames =>
      rw [hq] at hs
      cases hs
      exact hinsert _ _ fun f hf => hq ▸ List.mem_cons_of_mem _ hf
  · cases hs
    exact hinsert _ _ fun f hf => hf

theorem Fits.handleMessage (h : buffer.Fits b)
    (hs : buffer.handleMessage frame = some buffer') : buffer'.Fits b := by
  cases buffer with
  | queue q =>
    obtain ⟨⟨q', size⟩, hq, rfl⟩ := Option.map_eq_some_iff.mp hs
    unfold QbvQueue.handleMessage at hq
    dsimp only at hq
    split_ifs at hq with hsize
    · exact h.enqueue ⟨le_max_left _ _, hsize.trans_eq h.size⟩ hq
    · cases hq
      exact h
  | double d =>
    unfold FrameBuffer.handleMessage at hs
    dsimp only at hs
    split_ifs at hs with hsize
    · cases hs
      refine ⟨h.enabled, h.size, fun f hf => ?_⟩
      rw [List.mem_singleton.mp hf]
      exact ⟨le_max_left _ _, hsize.trans_eq h.size⟩
    · cases hs
      exact h

/-- A buffer sends a frame that it has accepted. -/
theorem Fits.getFrame (h : buffer.Fits b) (hs : buffer.getFrame = some (frame, buffer')) :
    buffer'.Fits b ∧ minEthernetFrameBytes ≤ frame.byteLength ∧
      frame.byteLength ≤ b.maxMessageSize := by
  cases buffer with
  | queue q =>
    unfold FrameBuffer.getFrame at hs
    dsimp only at hs
    split_ifs at hs
    obtain ⟨⟨frame', q'⟩, hq, heq⟩ := Option.map_eq_some_iff.mp hs
    cases heq
    unfold QbvQueue.dequeue at hq
    have hfits : ∀ f ∈ q.frames, minEthernetFrameBytes ≤ f.byteLength ∧
      f.byteLength ≤ b.maxMessageSize := h.frames
    cases hframes : q.frames with
    | nil =>
      rw [hframes] at hq
      cases hq
    | cons f frames =>
      rw [hframes] at hq hfits
      cases hq
      exact ⟨⟨h.enabled, h.size, fun f' hf' => hfits f' (List.mem_cons_of_mem _ hf')⟩,
        hfits _ List.mem_cons_self⟩
  | double d =>
    unfold FrameBuffer.getFrame at hs
    dsimp only at hs
    split_ifs at hs
    obtain ⟨frame', hd, heq⟩ := Option.map_eq_some_iff.mp hs
    cases heq
    exact ⟨h, h.frames frame (Option.mem_toList.mpr hd)⟩

end FrameBuffer

namespace TTPort
variable (c : TTConfig)

/-- The port when the MAC has made its first request and the buffers of the parameter are
registered. -/
structure Initial (n : TTPort) : Prop where
  now : n.now = 0
  fits : ∀ b ∈ c.ttBuffers, (n.buffers b).Fits (c.ttBuffer b)
  opens : ∀ b ∈ c.ttBuffers, (c.ttBuffer b).Opens (n.nextAction b)
  first : ∀ b ∈ c.ttBuffers, ∀ t, (c.ttBuffer b).Opens t → n.nextAction b ≤ t
  registered : ∃ numRcPriority, TTShaper.registerAll c n.nextAction c.ttBuffers
    { framesRequested := 1, rcQueue := List.replicate numRcPriority [] } = .ok n.shaper
  transmitState : n.transmitState = .txIdle
  fromBuffers : n.fromBuffers = []
  toMac : n.toMac = []
  handedOver : n.handedOver = []
  transmissions : n.transmissions = []
  thrown : n.thrown = none

def system : System TTPort TTEvent where
  init := Initial c
  step := step c

end TTPort

end TsnReconfig.AS6802
