import TsnReconfig.Shaper.Selection

/-!
# Rate-constrained traffic

`RCBuffer` releases its frames with gaps of at least a bandwidth allocation gap (bag), less a
jitter, and `RCShaper` over `BEShaper` sends them before the best-effort frames of its port. The
markers of critical traffic are left out.
-/

namespace TsnReconfig.AS6802

open Shaper

/-! ## Buffers -/

/-- `DoubleBuffer`: the last frame stays when it is read. -/
structure DoubleBuffer where
  maxMessageSize : ℕ := 1522
  enabled : Bool := true
  frame : Option EtherFrame := none
  deriving DecidableEq

/-- The two kinds of buffers for critical traffic. -/
inductive FrameBuffer
  | queue (buffer : QbvQueue)
  | double (buffer : DoubleBuffer)
  deriving DecidableEq

namespace FrameBuffer

/-- `Buffer::handleMessage`, `none` where the source throws. -/
def handleMessage (frame : EtherFrame) : FrameBuffer → Option FrameBuffer
  | queue buffer => (buffer.handleMessage frame).map fun b => queue b.1
  | double buffer =>
    let frame := { frame with byteLength := max minEthernetFrameBytes frame.byteLength }
    if frame.byteLength ≤ buffer.maxMessageSize then
      some (double { buffer with frame := some frame })
    else some (double buffer)

/-- `Buffer::getFrame`. -/
def getFrame : FrameBuffer → Option (EtherFrame × FrameBuffer)
  | queue buffer =>
    if buffer.enabled then buffer.dequeue.map fun b => (b.1, queue b.2) else none
  | double buffer =>
    if buffer.enabled then buffer.frame.map fun frame => (frame, double buffer) else none

end FrameBuffer

/-- `RCBuffer`, with its parameters first. The destination gates are ports. -/
structure RCBuffer where
  bag : ℕ
  jitter : ℕ
  priority : ℤ := -1
  destinationGates : List ℕ
  buffer : FrameBuffer
  bagExpired : Bool := true
  lastSent : ℕ := 0
  numReset : ℕ := 0
  deriving DecidableEq

namespace RCBuffer
variable (b : RCBuffer)

/-- `handleMessage` for a frame, with the frame that it sends. -/
def handleFrame (frame : EtherFrame) : Option (RCBuffer × Option EtherFrame) := do
  let buffer ← b.buffer.handleMessage frame
  let b := { b with buffer }
  if 0 < b.destinationGates.length ∧ b.bagExpired then
    match b.buffer.getFrame with
    | some (outgoingMessage, buffer) =>
      return ({ b with buffer, bagExpired := false, numReset := 0 }, some outgoingMessage)
    | none => return (b, none)
  else return (b, none)

/-- `handleMessage` for a timer event. -/
def handleTimer (totalTicks : ℕ) : RCBuffer × Option EtherFrame :=
  if 0 < b.destinationGates.length then
    match b.buffer.getFrame with
    | some (outgoingMessage, buffer) =>
      ({ b with buffer, bagExpired := false, numReset := 0, lastSent := totalTicks },
        some outgoingMessage)
    | none => ({ b with bagExpired := true }, none)
  else (b, none)

/-- `resetBag`, with the timer that it sets. -/
def resetBag (totalTicks : ℕ) : RCBuffer × Option ℕ :=
  let b := { b with numReset := b.numReset + 1 }
  if b.numReset = b.destinationGates.length then
    let delay := totalTicks - b.lastSent
    let delay := if b.jitter < delay then b.jitter else delay
    (b, some (if b.bag < delay then 0 else b.bag - delay))
  else (b, none)

end RCBuffer

/-! ## Shapers -/

/-- A frame with the buffer that has sent it. -/
structure RCMessage where
  sender : ℕ
  frame : EtherFrame
  deriving DecidableEq

/-- `RCShaper<BEShaper<BaseShaper>>`. The queues are in the order of their priorities. -/
structure RCShaper where
  framesRequested : ℕ := 0
  rcQueue : List (List RCMessage)
  beQueue : List EtherFrame := []
  deriving DecidableEq

/-- A frame that leaves a shaper, with its class. -/
inductive Outgoing
  | tt (sender : ℕ) (frame : EtherFrame)
  | pcf (frame : EtherFrame)
  | rc (message : RCMessage)
  | be (frame : EtherFrame)
  deriving DecidableEq

namespace RCShaper
variable (t : RCShaper)

/-- `enqueueMessage` of a rate-constrained frame. A priority that is missing or out of range is
zero. -/
def enqueueRC (priority : ℤ) (message : RCMessage) : RCShaper :=
  let i := if 0 ≤ priority ∧ priority < t.rcQueue.length then priority.toNat else 0
  { t with rcQueue := t.rcQueue.modify i (· ++ [message]) }

/-- The first frame of the first queue that has one. -/
def popQueues : List (List RCMessage) → Option (RCMessage × List (List RCMessage))
  | [] => none
  | [] :: queues => (popQueues queues).map fun p => (p.1, [] :: p.2)
  | (message :: queue) :: queues => some (message, queue :: queues)

def pop : Option (Outgoing × RCShaper) :=
  match popQueues t.rcQueue with
  | some (message, rcQueue) => some (.rc message, { t with rcQueue })
  | none =>
    match t.beQueue with
    | frame :: beQueue => some (.be frame, { t with beQueue })
    | [] => none

/-- `handleMessage` for a rate-constrained frame, with the frame that it sends. -/
def handleRC (priority : ℤ) (message : RCMessage) : RCShaper × Option Outgoing :=
  if 0 < t.framesRequested then
    ({ t with framesRequested := t.framesRequested - 1 }, some (.rc message))
  else (t.enqueueRC priority message, none)

/-- `handleMessage` for a best-effort frame. -/
def handleBE (frame : EtherFrame) : RCShaper × Option Outgoing :=
  if 0 < t.framesRequested then
    ({ t with framesRequested := t.framesRequested - 1 }, some (.be frame))
  else ({ t with beQueue := t.beQueue ++ [frame] }, none)

def requestPacket : RCShaper × Option Outgoing :=
  let t := { t with framesRequested := t.framesRequested + 1 }
  match t.pop with
  | some (msg, t) => ({ t with framesRequested := t.framesRequested - 1 }, some msg)
  | none => (t, none)

end RCShaper

end TsnReconfig.AS6802
