import TsnReconfig.Gates.ControlList
import TsnReconfig.Lib.System

/-!
# The gate control list of a port

`IEEE8021QbvGateControlList` with its period and the timer, and the messages on their way. A
function returns `none` where the source throws or dereferences the iterator of a removed row.
-/

namespace TsnReconfig.Gates

open Lib

/-- An action-time event: of the control list, with the name it was given and the number of the
list it was registered for, or of another module. -/
inductive Event
  | gateControl (name : Option UInt32) (list : ℕ)
  | other
  deriving DecidableEq, Repr

def Event.hasName (name : Option UInt32) : Event → Bool
  | .gateControl name' _ => name' == name
  | .other => false

/-- A control list as its tokens: the letters for the gates and the time of each row. -/
abbrev ControlListTokens := List (List String × ℚ)

/-- `NetConfConfigIEEE8021Qbv`: the control lists for the ports of a device. -/
abbrev QbvConfig := List (ℤ × ControlListTokens)

/-- `IEEE8021QbvGateControlList` with its surroundings. `ports` are those of the device that have a
control list, as its configurator knows them. An iterator is the place of its row, and
the names of the events are their numbers. `inFlight` has the messages that were sent at the
present time, and `lists` counts the lists that were read so far. -/
structure GatedPort where
  now : ℕ := 0
  timer : Timer Event
  period : Period
  numGates : ℕ
  gates : List GateState
  gateControlList : List Row := []
  gateControlElement : ℕ := 0
  configNo : UInt32 := 0
  timerEventName : Option UInt32 := none
  inFlight : List Event := []
  lists : ℕ := 0
  port : ℤ := 0
  ports : List ℤ := [0]

namespace GatedPort
variable (s : GatedPort)

/-! ## The module -/

def propagateGateControlElement (gateStates : List GateState) : GatedPort :=
  { s with gates := gateStates }

/-- The current tick of the period. -/
def periodTicks : ℕ :=
  s.period.getTicks (s.timer.recalculate s.now).ticks

/-- `getPeriod()->registerEvent` for an event of the module. -/
def registerEvent (actionTime : ℕ) (nextCycle : Bool) : Option GatedPort :=
  (s.timer.registerEvent s.now s.period actionTime nextCycle
    (.gateControl s.timerEventName s.lists)).map fun r =>
      { s with timer := r.1, inFlight := s.inFlight ++ r.2 }

def scheduleCurrentGateControlElementTime (nextCycle : Bool) : Option GatedPort := do
  let row ← s.gateControlList[s.gateControlElement]?
  let actionTime := row.startTick s.timer.currentTick
  if s.period.cycleTicks ≤ actionTime then none
  s.registerEvent actionTime nextCycle

def switchToFirstGateControlElement : Option GatedPort := do
  let currentTimeInPeriod : ℚ := s.periodTicks * s.timer.currentTick
  let s := { s with gateControlElement := firstElement s.gateControlList currentTimeInPeriod }
  let row ← s.gateControlList[s.gateControlElement]?
  let preGateControlElement ← before s.gateControlList s.gateControlElement
  if row.start ≠ currentTimeInPeriod then
    return s.propagateGateControlElement preGateControlElement.gates
  else return s

def switchToNextGateControlElement : GatedPort :=
  let next := s.gateControlElement + 1
  { s with gateControlElement := if next = s.gateControlList.length then 0 else next }

/-- The checks for a row. -/
def readRow (numGates : ℕ) (tokens : List String × ℚ) : Option Row := do
  if tokens.1.length ≠ numGates then none
  let gates ← tokens.1.mapM GateState.ofString
  return ⟨gates, tokens.2⟩

/-- `handleParameterChange` for the control list. -/
def handleParameterChange (controlList : ControlListTokens) : Option GatedPort := do
  let rows ← controlList.mapM (readRow s.numGates)
  let s := { s with gateControlList := rows, lists := s.lists + 1 }
  if rows = [] then return s
  let s ← s.switchToFirstGateControlElement
  let configNo := s.configNo + 1
  { s with configNo, timerEventName := some configNo }.scheduleCurrentGateControlElementTime false

/-- `setGateControlList`: the kernel calls the handler for the changed parameter, and so does the
function itself. -/
def setGateControlList (gcl : ControlListTokens) : Option GatedPort := do
  let s ← s.handleParameterChange gcl
  s.handleParameterChange gcl

/-- `handleMessage`. The messages of other modules are handled by these. -/
def handleMessage (msg : Event) : Option GatedPort :=
  if msg.hasName s.timerEventName then do
    let row ← s.gateControlList[s.gateControlElement]?
    let s := s.propagateGateControlElement row.gates
    if 1 < s.gateControlList.length then
      s.switchToNextGateControlElement.scheduleCurrentGateControlElementTime false
    else return s
  else some s

/-! ## The configurator -/

def getGateConfigurationForPort (config : QbvConfig) (port : ℤ) : Option ControlListTokens :=
  (config.find? (·.1 = port)).map (·.2)

/-- `validateConfig`, for a configuration of this kind or of another one. -/
def validateConfig (config : Option QbvConfig) : Bool :=
  match config with
  | none => false
  | some config => config.all (·.1 ∈ s.ports)

/-- The list that `editConfig` sets at the port. -/
def configuredList (config : Option QbvConfig) : Option ControlListTokens :=
  if s.validateConfig config then config.bind (getGateConfigurationForPort · s.port) else none

/-- `NetConfDataConfiguratorIEEE8021Qbv::editConfig`, at the port. -/
def editConfig (config : Option QbvConfig) : Option GatedPort :=
  match s.configuredList config with
  | none => some s
  | some gcl => s.setGateControlList gcl

end GatedPort

/-! ## Runs -/

/-- What happens at a port. `registerOther` is an action-time event of another module, the period
for example. -/
inductive PortEvent
  | editConfig (config : Option QbvConfig)
  | setGateControlList (gcl : ControlListTokens)
  | parameterChange (gcl : ControlListTokens)
  | registerOther (actionpoint : ℕ)
  | timerMessage
  | deliver
  deriving DecidableEq, Repr

namespace GatedPort
variable (s : GatedPort)

/-- `Timer::handleMessage` for its self message. -/
def timerMessage : Option GatedPort :=
  if s.timer.selfMessage = some s.now then
    (s.timer.sendOutEvents s.now).map fun r =>
      { s with timer := r.1, inFlight := s.inFlight ++ r.2 }
  else none

/-- The first message on its way is delivered. -/
def deliver : Option GatedPort :=
  match s.inFlight with
  | [] => none
  | msg :: inFlight => { s with inFlight }.handleMessage msg

def registerOther (actionpoint : ℕ) : Option GatedPort :=
  if (s.timer.recalculate s.now).ticks < actionpoint then
    (s.timer.registerAt s.now actionpoint .other).map fun timer => { s with timer }
  else none

def react : PortEvent → Option GatedPort
  | .editConfig config => s.editConfig config
  | .setGateControlList gcl => s.setGateControlList gcl
  | .parameterChange gcl => s.handleParameterChange gcl
  | .registerOther actionpoint => s.registerOther actionpoint
  | .timerMessage => s.timerMessage
  | .deliver => s.deliver

/-- An event at a time. Messages do not wait, and the timer's own message is not passed over. -/
def step (s : GatedPort) (e : ℕ × PortEvent) : Option GatedPort :=
  if s.now ≤ e.1 ∧ (s.now < e.1 → s.inFlight = []) ∧ ∀ m ∈ s.timer.selfMessage, e.1 ≤ m then
    { s with now := e.1 }.react e.2
  else none

/-- The runs of a new module. -/
def runs : System GatedPort (ℕ × PortEvent) where
  init s := ∃ currentTick period numGates gates port ports, 0 < currentTick ∧
    s = { timer := { currentTick }, period, numGates, gates, port, ports }
  step := step

end GatedPort

end TsnReconfig.Gates
