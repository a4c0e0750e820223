import Mathlib.Logic.Function.Basic
import TsnReconfig.Lib.ServiceQueue
import TsnReconfig.Lib.System
import TsnReconfig.OpenFlow.FlowTable

/-!
# HyperFlow

`HyperFlowSynchronizer` and the `HyperFlowAgent`s of the controllers, each behind its queue of
messages, with a connection in both directions between the synchronizer and every agent.
-/

namespace TsnReconfig.HyperFlow
open Lib OpenFlow

/-! ## Messages -/

/-- `DataChannelEntry`; the payload is a pointer. -/
structure DataChannelEntry where
  srcController : String
  trgSwitch : String
  eventId : Int32
  payload : ℕ
  deriving DecidableEq, Repr

/-- `ControlChannelEntry`. -/
structure ControlChannelEntry where
  controllerId : String
  time : SimTime
  deriving DecidableEq, Repr

/-- `HF_ReportIn`, `HF_SyncRequest` and `HF_ChangeNotification`. -/
inductive ToSynchronizer
  | reportIn (controllerId : String)
  | syncRequest (lastSyncCounter : Int32)
  | changeNotification (entry : DataChannelEntry)
  deriving DecidableEq, Repr

/-- `HF_SyncReply`. -/
structure SyncReply where
  controlChannel : List ControlChannelEntry
  dataChannel : List DataChannelEntry
  deriving DecidableEq, Repr

/-! ## The synchronizer -/

/-- `HyperFlowSynchronizer`: its channels have the newest entry first. A message comes with the
agent of its connection. -/
structure HyperFlowSynchronizer (A : Type*) where
  controlChannel : List ControlChannelEntry
  dataChannel : List DataChannelEntry
  dataChannelSizeCache : Int64
  queue : ServiceQueue (A × ToSynchronizer)

/-- The loop of `handleSyncRequest` over the data channel, until `counter` is zero. -/
def copyNewest : Int32 → List DataChannelEntry → List DataChannelEntry
  | _, [] => []
  | counter, entry :: entries =>
    if counter ≠ 0 then entry :: copyNewest (counter - 1) entries else []

namespace HyperFlowSynchronizer
variable {A : Type*} (s : HyperFlowSynchronizer A)

/-- `initialize`. -/
def start : HyperFlowSynchronizer A := ⟨[], [], 0, .empty⟩

def handleChangeNotification (entry : DataChannelEntry) : HyperFlowSynchronizer A :=
  { s with
    dataChannel := entry :: s.dataChannel
    dataChannelSizeCache := s.dataChannelSizeCache + 1 }

/-- The entries of the control channel that are too old are dropped. The difference of the sizes
is a `long`, which goes into an `int`. -/
def handleSyncRequest (aliveInterval now : SimTime) (lastSyncCounter : Int32) :
    HyperFlowSynchronizer A × SyncReply :=
  let lastValidTime := now - aliveInterval
  let controlChannel := s.controlChannel.filter fun entry => lastValidTime ≤ entry.time
  let counter := (s.dataChannelSizeCache - lastSyncCounter.toInt64).toInt32
  ({ s with controlChannel := controlChannel },
    ⟨controlChannel, copyNewest counter s.dataChannel⟩)

def handleReportIn (now : SimTime) (controllerId : String) : HyperFlowSynchronizer A :=
  { s with controlChannel := ⟨controllerId, now⟩ :: s.controlChannel }

/-- `processQueuedMsg`, with the reply it sends. -/
def processQueuedMsg (aliveInterval now : SimTime) :
    ToSynchronizer → HyperFlowSynchronizer A × Option SyncReply
  | .reportIn controllerId => (s.handleReportIn now controllerId, none)
  | .syncRequest lastSyncCounter =>
    let r := s.handleSyncRequest aliveInterval now lastSyncCounter
    (r.1, some r.2)
  | .changeNotification entry => (s.handleChangeNotification entry, none)

end HyperFlowSynchronizer

/-! ## The agents -/

/-- `HyperFlowAgent`; its channels have the newest entry first. -/
structure HyperFlowAgent where
  waitingForSyncResponse : Bool
  lastSyncCounter : Int32
  controlChannel : List ControlChannelEntry
  dataChannel : List DataChannelEntry
  knownControllers : List String
  queue : ServiceQueue SyncReply

namespace HyperFlowAgent
variable (a : HyperFlowAgent)

/-- `initialize`. -/
def start : HyperFlowAgent := ⟨false, 0, [], [], [], .empty⟩

/-- `sendSyncRequest`, with the request if one is sent. -/
def sendSyncRequest : HyperFlowAgent × Option ToSynchronizer :=
  if a.waitingForSyncResponse then (a, none)
  else ({ a with waitingForSyncResponse := true }, some (.syncRequest a.lastSyncCounter))

/-- The loop of `handleSyncReply` over the control channel. No controller ever is among the failed
ones, and to recover one is not implemented. -/
def learnControllers (known : List String) (controlChannel : List ControlChannelEntry) :
    List String :=
  controlChannel.foldl (fun known entry =>
    if entry.controllerId ∈ known then known else entry.controllerId :: known) known

/-- A pass of the loop of `handleSyncReply` over the data channel, with the entries re-fired so
far. -/
def takeEntry (fullPath : String) (r : HyperFlowAgent × List DataChannelEntry)
    (entry : DataChannelEntry) : HyperFlowAgent × List DataChannelEntry :=
  ({ r.1 with
      dataChannel := entry :: r.1.dataChannel
      lastSyncCounter := r.1.lastSyncCounter + 1 },
    if entry.srcController ≠ fullPath then r.2 ++ [entry] else r.2)

/-- `handleSyncReply`, with the entries it re-fires. -/
def handleSyncReply (fullPath : String) (reply : SyncReply) :
    HyperFlowAgent × List DataChannelEntry :=
  let a := { a with
    waitingForSyncResponse := false
    controlChannel := reply.controlChannel
    knownControllers := learnControllers a.knownControllers reply.controlChannel }
  reply.dataChannel.reverse.foldl (takeEntry fullPath) (a, [])

end HyperFlowAgent

/-! ## The network -/

/-- The parties, the messages under way on every connection, oldest first, and what every agent
has re-fired so far. -/
structure State (A : Type*) where
  agents : A → HyperFlowAgent
  synchronizer : HyperFlowSynchronizer A
  toSynchronizer : A → List ToSynchronizer
  toAgent : A → List SyncReply
  refired : A → List DataChannelEntry

/-- `change` is a call of `synchronizeDataChannelEntry` by an application of the controller;
`reportIn`, `sync` and `checkAlive` are the timers of an agent. -/
inductive Event (A : Type*)
  | change (a : A) (trgSwitch : String) (eventId : Int32) (payload : ℕ)
  | reportIn (a : A)
  | sync (a : A)
  | checkAlive (a : A)
  | arriveSynchronizer (a : A)
  | finishSynchronizer (now : SimTime)
  | arriveAgent (a : A)
  | finishAgent (a : A)

section
variable {A : Type*} [DecidableEq A] (aliveInterval : SimTime) (fullPath : A → String)

namespace State
variable (s : State A)

/-- The message goes on the connection of the agent. -/
def send (a : A) (m : ToSynchronizer) : State A :=
  { s with toSynchronizer := Function.update s.toSynchronizer a (s.toSynchronizer a ++ [m]) }

def setAgent (a : A) (agent : HyperFlowAgent) : State A :=
  { s with agents := Function.update s.agents a agent }

end State

/-- The agents are connected to the synchronizer, and nothing has happened yet. -/
def start : State A := ⟨fun _ => .start, .start, fun _ => [], fun _ => [], fun _ => []⟩

/-- One event. An alive check only reads: what follows a failure is not implemented. -/
def step (s : State A) : Event A → Option (State A)
  | .change a trgSwitch eventId payload =>
    some (s.send a (.changeNotification ⟨fullPath a, trgSwitch, eventId, payload⟩))
  | .reportIn a => some (s.send a (.reportIn (fullPath a)))
  | .sync a =>
    let r := (s.agents a).sendSyncRequest
    some (r.2.elim (s.setAgent a r.1) ((s.setAgent a r.1).send a))
  | .checkAlive _ => some s
  | .arriveSynchronizer a =>
    match s.toSynchronizer a with
    | [] => none
    | m :: rest => some { s with
        toSynchronizer := Function.update s.toSynchronizer a rest
        synchronizer := { s.synchronizer with queue := s.synchronizer.queue.arrive (a, m) } }
  | .finishSynchronizer now =>
    s.synchronizer.queue.finish.map fun r =>
      let processed :=
        { s.synchronizer with queue := r.2 }.processQueuedMsg aliveInterval now r.1.2
      { s with
        synchronizer := processed.1
        toAgent := Function.update s.toAgent r.1.1 (s.toAgent r.1.1 ++ processed.2.toList) }
  | .arriveAgent a =>
    match s.toAgent a with
    | [] => none
    | reply :: rest => some { s with
        toAgent := Function.update s.toAgent a rest
        agents := Function.update s.agents a
          { s.agents a with queue := (s.agents a).queue.arrive reply } }
  | .finishAgent a =>
    (s.agents a).queue.finish.map fun r =>
      let handled := { s.agents a with queue := r.2 }.handleSyncReply (fullPath a) r.1
      { s.setAgent a handled.1 with
        refired := Function.update s.refired a (s.refired a ++ handled.2) }

/-- The runs of any number of agents and the synchronizer. -/
def hyperFlow : System (State A) (Event A) where
  init s := s = start
  step := step aliveInterval fullPath

end

/-! ## What is expected -/

section
variable {A : Type*} [DecidableEq A] (fullPath : A → String) (s : State A)

def ToSynchronizer.request : ToSynchronizer → Option Int32
  | .syncRequest lastSyncCounter => some lastSyncCounter
  | _ => none

/-- The entries in the order in which the synchronizer got them. -/
def State.log : List DataChannelEntry := s.synchronizer.dataChannel.reverse

/-- The requests of an agent that the synchronizer has not answered. -/
def State.requests (a : A) : List Int32 :=
  (s.synchronizer.queue.contents.filterMap fun m => if m.1 = a then m.2.request else none) ++
    (s.toSynchronizer a).filterMap ToSynchronizer.request

/-- The replies that the agent has not processed. -/
def State.replies (a : A) : List SyncReply := (s.agents a).queue.contents ++ s.toAgent a

/-- Every agent has a prefix of the log and its length, one request at most is under way or
waits for its answer, and the entries of other controllers in the prefix were re-fired once and in
order, and no others. -/
structure State.Replicated : Prop where
  isPrefix : ∀ a, (s.agents a).dataChannel.reverse <+: s.log
  counter : ∀ a, (s.agents a).lastSyncCounter.toInt = (s.agents a).dataChannel.length
  single : ∀ a, (s.requests a).length + (s.replies a).length ≤ 1
  refired : ∀ a, s.refired a =
    (s.agents a).dataChannel.reverse.filter (·.srcController ≠ fullPath a)

end

end TsnReconfig.HyperFlow
