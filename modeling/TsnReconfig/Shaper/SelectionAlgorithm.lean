import TsnReconfig.Avb.Bandwidth
import TsnReconfig.Gates.ControlList

/-!
# Transmission selection algorithms

`IEEE8021QbvSelectionAlgorithm` and `CreditBasedShaper`. An operation returns the algorithm after
it, with the states that it signals meanwhile.
-/

namespace TsnReconfig.Shaper

open Avb Gates

/-- The number of a state, as the signals carry it. -/
def stateValue : GateState → ℕ
  | .closed => 0
  | .opened => 1

/-- What the shapers of a port read from other modules: the clock and the tick of the oscillator,
and the bandwidth that the SRP table has for the port. -/
structure Readings where
  currentTime : ℚ
  preciseTick : ℚ
  getBandwidthForModuleAndSRClass : SRClass → ℕ

/-- The members of `CreditBasedShaper`. `timer` has the ticks of the timer event while it is
scheduled. -/
structure CreditBasedShaper where
  credit : ℤ := 0
  timer : Option ℕ := none
  queueSize : ℕ := 0
  previousQueueSize : ℕ := 0
  newTime : ℚ := 0
  oldTime : ℚ := 0
  srClass : SRClass
  nominalDatarate : ℚ
  deriving DecidableEq

namespace CreditBasedShaper
variable (c : CreditBasedShaper)

def portBandwidth : ℤ := ⌈c.nominalDatarate⌉

/-- Registers a timer event, unless one is scheduled already. -/
def registerEvent (ticks : ℕ) : CreditBasedShaper :=
  if c.timer = none then { c with timer := some ticks } else c

/-- The credit that is gained while the queue waits. -/
def gain (reservedBandwidth : ℕ) (currentTime : ℚ) (maxCreditZero : Bool) : CreditBasedShaper :=
  let credit := c.credit + ⌈reservedBandwidth * (currentTime - c.oldTime)⌉
  { c with
    credit := if maxCreditZero ∧ 0 < credit then 0 else credit
    oldTime := currentTime }

/-- The timer event for the time at which the credit will be zero. -/
def scheduleZero (reservedBandwidth : ℕ) (preciseTick : ℚ) : CreditBasedShaper :=
  if c.credit < 0 then c.registerEvent ⌈(-c.credit : ℚ) / reservedBandwidth / preciseTick⌉₊ else c

end CreditBasedShaper

/-- `IEEE8021QbvSelectionAlgorithm`; `shaper` is there if it is a `CreditBasedShaper`. -/
structure SelectionAlgorithm where
  state : GateState
  shaper : Option CreditBasedShaper := none
  deriving DecidableEq

namespace SelectionAlgorithm
variable (a : SelectionAlgorithm) (r : Readings)

def changeState (newState : GateState) : SelectionAlgorithm × List GateState :=
  ({ a with state := newState }, if newState ≠ a.state then [newState] else [])

/-- `refreshState` of a credit based shaper with the members `c`. -/
def refreshState (c : CreditBasedShaper) : SelectionAlgorithm × List GateState :=
  { a with shaper := some c }.changeState (if c.credit < 0 then .closed else .opened)

/-- `idleSlope`. The timer event does not depend on the state. -/
def idleSlope (c : CreditBasedShaper) (maxCreditZero : Bool) :
    SelectionAlgorithm × List GateState :=
  let reservedBandwidth := r.getBandwidthForModuleAndSRClass c.srClass
  let duration := r.currentTime - c.oldTime
  let c := { c with newTime := r.currentTime }
  if reservedBandwidth = 0 then ({ a with shaper := some c }, [])
  else if 0 < duration then
    a.refreshState ((c.gain reservedBandwidth r.currentTime maxCreditZero).scheduleZero
      reservedBandwidth r.preciseTick)
  else ({ a with shaper := some (c.scheduleZero reservedBandwidth r.preciseTick) }, [])

/-- `sendSlope`. -/
def sendSlope (c : CreditBasedShaper) (duration : ℚ) : SelectionAlgorithm × List GateState :=
  if 0 < duration then
    let reservedBandwidth := r.getBandwidthForModuleAndSRClass c.srClass
    a.refreshState ({ c with
      credit := c.credit - ⌈(c.portBandwidth - reservedBandwidth) * duration⌉
      oldTime := r.currentTime + duration }.registerEvent ⌈duration / r.preciseTick⌉₊)
  else ({ a with shaper := some c }, [])

/-- `isOpen`: the answer is the state afterwards. -/
def isOpen : SelectionAlgorithm × List GateState :=
  match a.shaper with
  | none => (a, [])
  | some c => a.idleSlope r c (c.queueSize = 0)

/-- `handleMessage` of a credit based shaper, for its timer event. -/
def handleMessage : SelectionAlgorithm × List GateState :=
  match a.shaper with
  | none => (a, [])
  | some c => a.idleSlope r { c with timer := none } (c.queueSize = 0)

/-- `receiveSignal` for the MAC having become idle. -/
def macIdle : SelectionAlgorithm × List GateState :=
  match a.shaper with
  | none => (a, [])
  | some c => a.idleSlope r c (c.queueSize = 0)

/-- `receiveSignal` for the size of the queue. -/
def receiveSize (size : ℕ) : SelectionAlgorithm × List GateState :=
  match a.shaper with
  | none => (a, [])
  | some c =>
    let c := { c with previousQueueSize := c.queueSize, queueSize := size }
    if c.previousQueueSize < c.queueSize then a.idleSlope r c (c.previousQueueSize = 0)
    else if c.queueSize < c.previousQueueSize then
      let byteLength := c.previousQueueSize - c.queueSize + preambleBytes + sfdBytes +
        interframeGapBits / 8
      a.sendSlope r c ((byteLength * 8 : ℕ) / c.nominalDatarate)
    else ({ a with shaper := some c }, [])

/-- Whatever opens the algorithm is signalled. -/
def Announced (b : SelectionAlgorithm × List GateState) : Prop :=
  b.1.state = .opened → a.state = .opened ∨ .opened ∈ b.2

variable {a r}

theorem announced_of_state {b : SelectionAlgorithm} {signals : List GateState}
    (h : b.state = a.state) : a.Announced (b, signals) :=
  fun hb => .inl (h ▸ hb)

theorem announced_changeState (newState : GateState) : a.Announced (a.changeState newState) := by
  intro h
  change newState = .opened at h
  subst h
  by_cases ha : a.state = .opened
  · exact .inl ha
  · refine .inr ?_
    simp only [changeState, if_pos (Ne.symm ha)]
    exact List.mem_singleton_self _

theorem announced_refreshState (c : CreditBasedShaper) : a.Announced (a.refreshState c) :=
  announced_changeState (a := { a with shaper := some c }) _

theorem announced_idleSlope (c : CreditBasedShaper) (maxCreditZero : Bool) :
    a.Announced (a.idleSlope r c maxCreditZero) := by
  unfold idleSlope
  dsimp only
  split_ifs
  · exact announced_of_state rfl
  · exact announced_refreshState _
  · exact announced_of_state rfl

theorem announced_sendSlope (c : CreditBasedShaper) (duration : ℚ) :
    a.Announced (a.sendSlope r c duration) := by
  unfold sendSlope
  dsimp only
  split_ifs
  · exact announced_refreshState _
  · exact announced_of_state rfl

theorem announced_isOpen : a.Announced (a.isOpen r) := by
  unfold isOpen
  split
  · exact announced_of_state rfl
  · exact announced_idleSlope _ _

theorem announced_handleMessage : a.Announced (a.handleMessage r) := by
  unfold handleMessage
  split
  · exact announced_of_state rfl
  · exact announced_idleSlope _ _

theorem announced_macIdle : a.Announced (a.macIdle r) := by
  unfold macIdle
  split
  · exact announced_of_state rfl
  · exact announced_idleSlope _ _

theorem announced_receiveSize (size : ℕ) : a.Announced (a.receiveSize r size) := by
  unfold receiveSize
  split
  · exact announced_of_state rfl
  · dsimp only
    split_ifs
    · exact announced_idleSlope _ _
    · exact announced_sendSlope _ _
    · exact announced_of_state rfl

end SelectionAlgorithm

end TsnReconfig.Shaper
