import TsnReconfig.Avb.SRProtocol

/-!
# Nodes with stream reservation

A switch or an end station: `SRProtocol`, its SRP table with the signals that the table emits, and
the talkers and listeners among its applications, `AVBTrafficSourceApp` and `AVBTrafficSinkApp`.
-/

namespace TsnReconfig.Avb

open Lib OpenFlow SRPTable

/-- What an SRP table has for a module: a port of the node, or an application. -/
inductive SRPModule
  | phy (index : ℕ)
  | source (k : ℕ)
  | sink (k : ℕ)
  deriving DecidableEq, Repr

def SRPModule.portIndex : SRPModule → Option ℕ
  | .phy i => some i
  | _ => none

/-- `AVBTrafficSourceApp`, not static. Its range check for `intervalFrames` comes before the
conversion to 16 bits, and so does not exclude the multiples of 65536. -/
structure AVBTrafficSourceApp where
  payload : ℕ
  streamID : UInt64
  srClass : SRClass
  intervalFrames : UInt16
  vlanId : UInt16
  pcp : UInt8
  multicastMAC : MACAddress
  payload_le : payload ≤ 1500
  intervalFrames_ne : intervalFrames ≠ 0

/-- `AVBTrafficSinkApp`, not static. -/
structure AVBTrafficSinkApp where
  streamID : UInt64
  vlanId : UInt16
  updateInterval : SimTime := 6
  retryInterval : SimTime := 1

def AVBTrafficSourceApp.isFor (app : AVBTrafficSourceApp) (vid : UInt16) (streamId : UInt64) :
    Bool :=
  app.vlanId = vid ∧ app.streamID = streamId

def AVBTrafficSinkApp.isFor (app : AVBTrafficSinkApp) (vid : UInt16) (streamId : UInt64) : Bool :=
  app.vlanId = vid ∧ app.streamID = streamId

/-- The size of a frame with its header and Q tag. -/
def AVBTrafficSourceApp.frameSize (app : AVBTrafficSourceApp) : ℕ :=
  if app.payload ≤ 64 - 18 - 4 then 64 else app.payload + 18 + 4

/-- The messages of `SRProtocol`. -/
inductive SRPMessage
  | talkerAdvertise (m : TalkerAdvertise)
  | listenerReady (m : ListenerReady)
  | listenerReadyFailed (m : ListenerReady)
  | listenerAskingFailed (m : ListenerReady)
  deriving DecidableEq, Repr

/-- A message that leaves `SRProtocol`, for one port or for all but one. -/
structure Dispatch where
  message : SRPMessage
  switchPort : Option ℕ
  notSwitchPort : Option ℕ
  deriving DecidableEq, Repr

/-- The modules of a node with their parameters. -/
structure SRPNode where
  protocol : SRProtocol SRPModule
  sources : List AVBTrafficSourceApp
  sinks : List AVBTrafficSinkApp
  portIndex_eq : protocol.portIndex = SRPModule.portIndex
  agingTime_nonneg : 0 ≤ protocol.agingTime

/-- The state of a node: its table, the sources that have started, those that stream, the
self-messages of sinks with their times, and what is on its way out. -/
structure SRPNodeState where
  table : SRPTable SRPModule := {}
  started : List ℕ := []
  isStreaming : ℕ → Bool := fun _ => false
  selfMessages : List (ℕ × SimTime) := []
  out : List Dispatch := []

namespace SRProtocol
variable {M : Type*} [DecidableEq M] (p : SRProtocol M)

/-- What `handleMessage` computes for a `ListenerReady`: whether the listener is registered. -/
def admits (t : SRPTable M) (now : SimTime) (port : M) (m : ListenerReady) :
    Option (Bool × SRPTable M) :=
  let (listeners, t) := t.getListenersForStreamId p.agingTime now m.streamID m.vlanIdentifier
  let update : Bool := port ∈ listeners
  (t.getBandwidthForModule p.windows p.agingTime now port).bind fun (utilized, t) =>
  let utilizedBandwidth := utilized + p.higherPriorityBandwidth port
  (t.getBandwidthForStream p.windows p.agingTime now m.streamID m.vlanIdentifier).map
    fun (requiredBandwidth, t) =>
  (decide (update ∨
    ((utilizedBandwidth + requiredBandwidth : ℕ) : ℚ) ≤ p.reservable port), t)

def priorityAndRankOf : SRClass → UInt8
  | .A => p.priortyAndRankSRClassA
  | .B => p.priortyAndRankSRClassB

/-- The message that `receiveSignal` makes of a talker. -/
def advertisement (vid : UInt16) (streamId : UInt64) (e : TalkerEntry M) : TalkerAdvertise where
  streamID := streamId
  destinationAddress := e.address
  vlanIdentifier := vid
  maxFrameSize := .ofNat e.framesize.toNat
  maxIntervalFrames := e.intervalFrames
  priorityAndRank := p.priorityAndRankOf e.srClass

end SRProtocol

namespace SRPNodeState
variable (c : SRPNode) (now : SimTime) (s : SRPNodeState)

/-! ## The signals of a table -/

/-- The self-message of a sink that tries again after its listener has timed out. -/
def retries (key : UInt16 × UInt64 × SRPModule) : List (ℕ × SimTime) :=
  match key.2.2 with
  | .sink k => (c.sinks[k]?.filter fun (app : AVBTrafficSinkApp) =>
      app.isFor key.1 key.2.1 && app.retryInterval ≠ 0).toList.map fun app =>
        (k, now + app.retryInterval)
  | _ => []

/-- `NF_AVB_LISTENER_REGISTRATION_TIMEOUT` at the applications. A source stops if no listener is
left. -/
def listenerTimeout (s : SRPNodeState) (key : UInt16 × UInt64 × SRPModule) : SRPNodeState :=
  let isEmpty := ((s.table.listenerTables.get key.1).get key.2.1).entries.isEmpty
  { s with
    isStreaming := fun k =>
      s.isStreaming k && !(isEmpty && c.sources[k]?.any (·.isFor key.1 key.2.1))
    selfMessages := s.selfMessages ++ retries c now key }

/-- `removeAgedEntriesIfNeeded` with the signals for the listeners that it removes. -/
def removeAgedEntriesIfNeeded : SRPNodeState :=
  let table := s.table.removeAgedEntriesIfNeeded c.protocol.agingTime now
  ((listenerKeys s.table.listenerTables).filter fun key =>
    (table.listener key.1 key.2.1 key.2.2).isNone).foldl (listenerTimeout c now) { s with table }

/-- A message to the talker of a stream, if it is at a port. -/
def sendToTalker (message : SRPMessage) (vid : UInt16) (streamId : UInt64) : SRPNodeState :=
  let s := s.removeAgedEntriesIfNeeded c now
  let (talker, table) := s.table.getTalkerForStreamId c.protocol.agingTime now streamId vid
  { s with
    table
    out := s.out ++
      (talker.bind c.protocol.portIndex).toList.map fun port => ⟨message, some port, none⟩ }

/-- `NF_AVB_LISTENER_REGISTERED` at the sources. -/
def listenerRegistered (vid : UInt16) (streamId : UInt64) : SRPNodeState :=
  { s with isStreaming := fun k =>
      s.isStreaming k || (k ∈ s.started && c.sources[k]?.any (·.isFor vid streamId)) }

/-- `updateListenerWithStreamId` with its signals, after which the next ageing is set. -/
def updateListener (vid : UInt16) (streamId : UInt64) (module : SRPModule) :
    Option SRPNodeState :=
  (s.table.updateListenerWithStreamId c.protocol.agingTime now streamId module vid false).map
    fun (updated, table) =>
  let s := { s with table := { table with nextAging := s.table.nextAging } }
  let s := s.sendToTalker c now (.listenerReady ⟨streamId, vid⟩) vid streamId
  let s := if updated then s else s.listenerRegistered c vid streamId
  { s with table := { s.table with
      nextAging := if s.table.nextAging = 0 then now + c.protocol.agingTime
        else s.table.nextAging } }

/-- `NF_AVB_TALKER_REGISTERED` at `SRProtocol`. -/
def advertise (vid : UInt16) (streamId : UInt64) (e : TalkerEntry SRPModule) : SRPNodeState :=
  { s with out := s.out ++
      [⟨.talkerAdvertise (c.protocol.advertisement vid streamId e), none, e.module.portIndex⟩] }

/-- `NF_AVB_TALKER_REGISTERED` at a sink. -/
def talkerRegistered (vid : UInt16) (streamId : UInt64) (s : SRPNodeState)
    (sink : AVBTrafficSinkApp × ℕ) : Option SRPNodeState :=
  if sink.1.isFor vid streamId then
    (s.updateListener c now vid streamId (.sink sink.2)).map fun s =>
      if sink.1.updateInterval ≠ 0 then
        { s with selfMessages := s.selfMessages ++ [(sink.2, now + sink.1.updateInterval)] }
      else s
  else some s

/-- `updateTalkerWithStreamId` with its signals. Nothing but the display listens to an update. -/
def updateTalker (vid : UInt16) (streamId : UInt64) (module : SRPModule) (address : MACAddress)
    (srClass : SRClass) (framesize : UInt64) (intervalFrames : UInt16) (pcp : UInt8) :
    Option SRPNodeState :=
  (s.table.updateTalkerWithStreamId now streamId module address srClass framesize intervalFrames
    vid pcp false).bind fun (updated, table) =>
  let s := { s with table }
  if updated then some s
  else (table.talker vid streamId).bind fun e =>
    c.sinks.zipIdx.foldlM (talkerRegistered c now vid streamId) (s.advertise c vid streamId e)

/-! ## The messages of a node -/

/-- `SRProtocol::handleMessage` for a message that comes in at a port. `ListenerReadyFailed` is a
`ListenerReady`. -/
def handleMessage (port : ℕ) : SRPMessage → Option SRPNodeState
  | .talkerAdvertise m =>
    s.updateTalker c now m.vlanIdentifier m.streamID (.phy port) m.destinationAddress
      (c.protocol.srClassOf m.priorityAndRank) (.ofNat m.maxFrameSize.toNat) m.maxIntervalFrames
      ((m.priorityAndRank &&& 0xE0) >>> 5)
  | .listenerReady m | .listenerReadyFailed m =>
    let s := s.removeAgedEntriesIfNeeded c now
    (c.protocol.admits s.table now (.phy port) m).bind fun (admitted, table) =>
    let s := { s with table }
    if admitted then s.updateListener c now m.vlanIdentifier m.streamID (.phy port)
    else
      let (listeners, table) :=
        s.table.getListenersForStreamId c.protocol.agingTime now m.streamID m.vlanIdentifier
      let reply : SRPMessage :=
        if 0 < listeners.length then .listenerReadyFailed m else .listenerAskingFailed m
      some ({ s with table }.sendToTalker c now reply m.vlanIdentifier m.streamID)
  | .listenerAskingFailed m =>
    some (s.sendToTalker c now (.listenerAskingFailed m) m.vlanIdentifier m.streamID)

/-- The start message of a source. -/
def start (k : ℕ) : Option SRPNodeState :=
  if k ∈ s.started then none
  else c.sources[k]?.bind fun app =>
    { s with started := k :: s.started }.updateTalker c now app.vlanId app.streamID (.source k)
      app.multicastMAC app.srClass (.ofNat app.frameSize) app.intervalFrames app.pcp

/-- A self-message of a sink, to update its listener or to retry. -/
def handleSelfMessage (i : ℕ) : Option SRPNodeState :=
  (s.selfMessages[i]?.filter (·.2 ≤ now)).bind fun (k, _) =>
  c.sinks[k]?.bind fun app =>
  let s := { s with selfMessages := s.selfMessages.eraseIdx i }
  (s.updateListener c now app.vlanId app.streamID (.sink k)).map fun s =>
    if 0 < app.updateInterval then
      { s with selfMessages := s.selfMessages ++ [(k, now + app.updateInterval)] }
    else s

end SRPNodeState

end TsnReconfig.Avb
