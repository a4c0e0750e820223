import Mathlib.Data.Rat.Defs
import Std.Data.TreeMap
import Std.Data.TreeMap.Lemmas
import TsnReconfig.OpenFlow.Messages

/-!
# The configuration engine

`ConfigurationEngine`: it turns the assignments of the optimiser into flow rules and keeps
the version numbers of the streams. A function returns `none` where the source throws or
reads what was never set.
-/

namespace TsnReconfig.Controller
open OpenFlow

/-! ## What the controller knows about the network -/

/-- A link of a `cTopology` node; `cPlane` tells whether the name of its local gate
contains `gateCPlane`. -/
structure Link where
  cPlane : Bool
  remoteModuleId : Int
  deriving DecidableEq, Repr

/-- `cTopology::Node`. -/
structure Node where
  moduleId : Int
  linksOut : List Link
  linksIn : List Link
  deriving DecidableEq, Repr

/-- `Switch_Info`. Its socket leads to the switch with this topology index. -/
structure SwitchInfo where
  topoIndex : ℕ
  deriving DecidableEq, Repr

/-- `Host_Profile`. -/
structure HostProfile where
  macAddress : MACAddress
  connectedSwTopoIndex : ℕ
  topoIndex : ℕ
  deriving DecidableEq, Repr

/-- The tables of `OF_Controller` the engine points to. -/
structure ControllerTables where
  topology : List Node
  switchInfoTable : List (Int × SwitchInfo)
  hostProfileTable : List HostProfile
  deriving DecidableEq, Repr

namespace ControllerTables

/-- `findRelatedSwitchSocket`. -/
def findRelatedSwitchSocket (c : ControllerTables) (moduleId : Int) : Option SwitchInfo :=
  c.switchInfoTable.lookup moduleId

/-- The switch table leads from the module id of a node to the switch of that node. -/
def Addressed (c : ControllerTables) : Prop :=
  ∀ i node info, c.topology[i]? = some node →
    c.findRelatedSwitchSocket node.moduleId = some info → info.topoIndex = i

end ControllerTables

/-- The first link to `node` that is not of the control plane, zero if there is none:
`getOutPort` and `getInPort`. -/
def portTo (links : List Link) (node : Node) : ℕ :=
  (links.findIdx? fun l => !l.cPlane && l.remoteModuleId == node.moduleId).getD 0

def getOutPort (current next : Node) : ℕ := portTo current.linksOut next

def getInPort (current prev : Node) : ℕ := portTo current.linksIn prev

/-! ## The state of the engine -/

/-- `Stream`, the members the engine reads; `talkerSwInfo` is the topology index of the
switch that sent the advertisement. -/
structure Stream where
  sid : UInt64
  vlanid : UInt16
  talkerSwInfo : SwitchInfo
  talker : MACAddress
  listener : MACAddress
  deriving DecidableEq, Repr

/-- `Assignment`. -/
structure Assignment where
  demandIndex : ℕ
  data : ℚ
  path : List ℕ
  pathIndex : ℕ
  deriving DecidableEq, Repr

/-- `versionInfo`. -/
structure VersionInfo where
  next : UInt16
  current : UInt16
  deriving DecidableEq, Repr

/-- The members of the engine for the versioning of OpenFlow rules. -/
structure VersionTables where
  isTaggingEnabled : Bool
  ofMatchVersionNumber : UInt16
  streamFlowVersionTable : Std.TreeMap UInt64 VersionInfo
  ackWaitingPaths : Std.TreeMap UInt16 (List ℕ)
  ingressSwTable : Std.TreeMap UInt16 Int

/-- The other members of the engine. `registeredStreams` is the global map behind
`StreamStore`; the timeouts and the priority are never set by the engine. -/
structure ConfigurationEngine where
  versions : VersionTables
  registeredStreams : Std.TreeMap UInt64 Stream
  prevAssignments : List Assignment
  numOfPathReconfigurations : ℕ
  demandtoStreamIdMap : Std.TreeMap Int UInt64
  idleTimeout : Int
  hardTimeout : Int
  priority : Int

/-- `ConfigurationEngine::initialize`. -/
def VersionTables.start (isTaggingEnabled : Bool) : VersionTables :=
  ⟨isTaggingEnabled, 1, ∅, ∅, ∅⟩

def ConfigurationEngine.start (isTaggingEnabled : Bool) (idleTimeout hardTimeout priority : Int) :
    ConfigurationEngine :=
  ⟨.start isTaggingEnabled, ∅, [], 0, ∅, idleTimeout, hardTimeout, priority⟩

/-! ## Version numbers -/

namespace VersionTables

/-- The version `match_version` an installation uses: the counter, or zero without tags. -/
def matchVersion (v : VersionTables) : UInt16 :=
  if v.isTaggingEnabled then v.ofMatchVersionNumber else 0

/-- `addMatchVersiontoStream`. -/
def addMatchVersiontoStream (v : VersionTables) (sid : UInt64) : VersionTables :=
  if v.isTaggingEnabled = false then v
  else
    let take := fun info : VersionInfo =>
      { v with
        ofMatchVersionNumber := v.ofMatchVersionNumber + 1
        streamFlowVersionTable := v.streamFlowVersionTable.insert sid
          { info with next := v.ofMatchVersionNumber } }
    match v.streamFlowVersionTable[sid]? with
    | none => take ⟨0, 0⟩
    | some info => if info.next = 0 then take info else v

/-- `activateMatchVersion`, with the switch and the message the `ActivationMessage` goes
out in. `memory` is what its variable `streamID` holds when no stream waits for the
version: nothing sets it then. -/
def activateMatchVersion (v : VersionTables) (c : ControllerTables) (memory : UInt64)
    (activeVersion : UInt16) : Option (VersionTables × SwitchInfo × ToSwitch) := do
  let waiting := v.streamFlowVersionTable.toList.find? fun i => i.2.next == activeVersion
  let (table, streamId) := match waiting with
    | some (s, info) => (v.streamFlowVersionTable.insert s ⟨0, info.next⟩, s)
    | none => (v.streamFlowVersionTable, memory)
  let targetSwId := v.ingressSwTable.getD activeVersion 0
  let info ← c.findRelatedSwitchSocket targetSwId
  let v := { v with
    streamFlowVersionTable := table
    ingressSwTable := v.ingressSwTable.insertIfNew activeVersion 0 }
  return (v, info, .packetOut (.activationMessage activeVersion streamId))

/-- `receiveSignal` for an `ACKforFlowMod` from the switch with topology index `sw`. -/
def receiveAck (v : VersionTables) (c : ControllerTables) (memory : UInt64)
    (matchVersion : UInt16) (sw : ℕ) : Option (VersionTables × List (SwitchInfo × ToSwitch)) := do
  let path := (v.ackWaitingPaths.getD matchVersion []).filter (· != sw)
  if path.isEmpty then
    let (v, info, message) ← v.activateMatchVersion c memory matchVersion
    return ({ v with ackWaitingPaths := v.ackWaitingPaths.erase matchVersion }, [(info, message)])
  else
    return ({ v with ackWaitingPaths := v.ackWaitingPaths.insert matchVersion path }, [])

end VersionTables

/-! ## Installing a path -/

/-- The wildcards `createDesiredMatch` puts over those of the builder. -/
def desiredWildcards : UInt32 :=
  0 ||| ofpfwDlType ||| ofpfwDlVlanPcp ||| ofpfwNwProto ||| ofpfwNwSrcAll ||| ofpfwNwDstAll |||
    ofpfwTpSrc ||| ofpfwTpDst

/-- `createDesiredMatch`; `memory` is what the match of a new builder holds. -/
def createDesiredMatch (memory : OxmBasicMatch) (inport : UInt16) (dst src : MACAddress)
    (vlan matchTag : UInt16) : Option OxmBasicMatch := do
  let m ← setFields (newMatchBuilder memory)
    [.ethDst dst, .ethSrc src, .inPort inport, .vlanVid vlan, .tag matchTag]
  return { m with wildcards := desiredWildcards }

theorem createDesiredMatch_eq (memory : OxmBasicMatch) (inport : UInt16) (dst src : MACAddress)
    (vlan matchTag : UInt16) :
    createDesiredMatch memory inport dst src vlan matchTag = some { memory with
      ofbEthDst := dst
      ofbEthSrc := src
      ofbInPort := inport
      ofbVlanVid := vlan
      ofbTag := matchTag
      wildcards := desiredWildcards } := rfl

/-- `AbstractControllerApp::createFlowMod` with one output action. -/
def createFlowMod (command : FlowModCommand) (oxmMatch : OxmBasicMatch) (outport : UInt32)
    (priority idleTimeOut hardTimeOut : Int) : FlowMod where
  cookie := 0
  tableId := 0
  command := command
  idleTimeout := .ofInt idleTimeOut
  hardTimeout := .ofInt hardTimeOut
  priority := .ofInt priority
  flags := 0
  oxmMatch := oxmMatch
  actions := [outport]

/-- The rule of one switch of a path, and the switch it is sent to. -/
structure Rule where
  switch : SwitchInfo
  flowMod : FlowMod
  deriving DecidableEq, Repr

/-- One call of `insertAssignedPath`: its arguments, the stream it is for, the tables at
the time its version number was read, and the rules it sent. -/
structure Install where
  before : VersionTables
  streamId : UInt64
  path : List ℕ
  dlVlan : UInt16
  dstHost : MACAddress
  srcHost : MACAddress
  matchVersion : UInt16
  recordedNext : UInt16
  rules : List Rule

/-- The neighbours of the switch at position `ix` on the way from the source host to the
destination host. The first branch reads behind the list when there is only one switch. -/
def neighbours (switchesOnPath : List Node) (srcHost dstHost : Node) (ix : ℕ) :
    Option (Node × Node) := do
  if ix = 0 then
    return (srcHost, ← switchesOnPath[ix + 1]?)
  else if ix < switchesOnPath.length - 1 then
    return (← switchesOnPath[ix - 1]?, ← switchesOnPath[ix + 1]?)
  else
    return (← switchesOnPath[ix - 1]?, dstHost)

/-- The loop of `insertAssignedPath` over the host profiles: `dsthost_topo_ix` and
`srchost_topo_ix`, `none` where nothing was assigned. -/
def hostTopoIndices (c : ControllerTables) (dstHost srcHost : MACAddress) :
    Option ℕ × Option ℕ :=
  c.hostProfileTable.foldl (fun (dsthost, srchost) x =>
    if x.macAddress = dstHost then (some x.topoIndex, srchost)
    else if x.macAddress = srcHost then (dsthost, some x.topoIndex)
    else (dsthost, srchost)) (none, none)

section
variable (c : ControllerTables) (memory : OxmBasicMatch)

/-- The rule `insertAssignedPath` sends to the switch at position `ix`. -/
def pathRule (e : ConfigurationEngine) (switchesOnPath : List Node) (srcHost dstHost : Node)
    (dlVlan : UInt16) (dst src : MACAddress) (matchVersion : UInt16) (current : Node) (ix : ℕ) :
    Option Rule := do
  let info ← c.findRelatedSwitchSocket current.moduleId
  let (prev, next) ← neighbours switchesOnPath srcHost dstHost ix
  let m ← createDesiredMatch memory (.ofNat (getInPort current prev)) dst src dlVlan matchVersion
  return ⟨info, createFlowMod .add m (.ofNat (getOutPort current next)) e.priority e.idleTimeout
    e.hardTimeout⟩

/-- `insertAssignedPath`: the new `IngressSwTable` and the rules sent. -/
def insertAssignedPath (e : ConfigurationEngine) (path : List ℕ) (dlVlan : UInt16)
    (dstHost srcHost : MACAddress) (matchVersion : UInt16) :
    Option (Std.TreeMap UInt16 Int × List Rule) := do
  let switchesOnPath ← path.mapM (c.topology[·]?)
  let srcSw ← switchesOnPath.head?
  let (dsthostTopoIx, srchostTopoIx) := hostTopoIndices c dstHost srcHost
  let dsthost ← c.topology[← dsthostTopoIx]?
  let srchost ← c.topology[← srchostTopoIx]?
  let rules ← switchesOnPath.zipIdx.mapM fun (current, ix) =>
    pathRule c memory e switchesOnPath srchost dsthost dlVlan dstHost srcHost matchVersion
      current ix
  return (e.versions.ingressSwTable.insert matchVersion srcSw.moduleId, rules)

namespace ConfigurationEngine

/-- The statements both branches of `configureDataPlane` share: take the version number,
wait for the acknowledgements of the path under it, record it for the stream and send the
rules. -/
def assignPath (e : ConfigurationEngine) (st : Stream) (sid : UInt64) (path : List ℕ) :
    Option (ConfigurationEngine × Install) := do
  let matchVersion := e.versions.matchVersion
  let v := { e.versions with
    ackWaitingPaths := e.versions.ackWaitingPaths.insert matchVersion path }
  let v := v.addMatchVersiontoStream sid
  let (ingressSwTable, rules) ←
    insertAssignedPath c memory { e with versions := v } path st.vlanid st.listener st.talker
      matchVersion
  let install : Install := {
    before := e.versions
    streamId := sid
    path := path
    dlVlan := st.vlanid
    dstHost := st.listener
    srcHost := st.talker
    matchVersion := matchVersion
    recordedNext := ((v.streamFlowVersionTable[sid]?).map VersionInfo.next).getD 0
    rules := rules }
  return ({ e with versions := { v with ingressSwTable := ingressSwTable } }, install)

/-- The reconfiguration branch, for a demand whose path changed. -/
def reconfigure (e : ConfigurationEngine) (demandIndex : ℕ) (path : List ℕ) :
    Option (ConfigurationEngine × Install) := do
  let e := { e with numOfPathReconfigurations := e.numOfPathReconfigurations + 1 }
  let sid := e.demandtoStreamIdMap.getD demandIndex 0
  let e := { e with demandtoStreamIdMap := e.demandtoStreamIdMap.insertIfNew demandIndex 0 }
  let targetStream ← e.registeredStreams[sid]?
  e.assignPath c memory targetStream targetStream.sid path

/-- The loop of `configureDataPlane` over `prevAssignments` for the new assignment `it`:
the engine, the updated records, the installations made, and `previouslySeen`. -/
def updatePrevious (it : Assignment) : List Assignment → ConfigurationEngine →
    Option (ConfigurationEngine × List Assignment × List Install × Bool)
  | [], e => some (e, [], [], false)
  | it1 :: prev, e => do
    if it1.demandIndex = it.demandIndex then
      if it1.path ≠ it.path then
        let (e, install) ← e.reconfigure c memory it1.demandIndex it.path
        let (e, prev, installs, _) ← updatePrevious it prev e
        return (e, { it1 with path := it.path } :: prev, install :: installs, true)
      else
        let (e, prev, installs, _) ← updatePrevious it prev e
        return (e, it1 :: prev, installs, true)
    else
      let (e, prev, installs, seen) ← updatePrevious it prev e
      return (e, it1 :: prev, installs, seen)

/-- One round of the loop of `configureDataPlane` over the new assignments; `new` is the
stream of a new demand, `none` for a redistribution. -/
def applyAssignment (new : Option (UInt64 × Stream)) (e : ConfigurationEngine)
    (it : Assignment) : Option (ConfigurationEngine × List Install) := do
  let (e, prev, installs, previouslySeen) ← updatePrevious c memory it e.prevAssignments e
  match previouslySeen, new with
  | false, some (sid, st) =>
    let (e, install) ← e.assignPath c memory st sid it.path
    return ({ e with prevAssignments := prev ++ [it] }, installs ++ [install])
  | _, _ => return ({ e with prevAssignments := prev }, installs)

def applyAssignments (new : Option (UInt64 × Stream)) : ConfigurationEngine →
    List Assignment → Option (ConfigurationEngine × List Install)
  | e, [] => some (e, [])
  | e, it :: rest => do
    let (e, installs) ← e.applyAssignment c memory new it
    let (e, later) ← applyAssignments new e rest
    return (e, installs ++ later)

end ConfigurationEngine

/-- What a call of `configureDataPlane` leaves and sends: first the rules of its
installations, in order, and last the `ListenerReady` for the talker of a new demand. -/
structure Configured where
  engine : ConfigurationEngine
  installs : List Install
  listenerReady : Option (SwitchInfo × ToSwitch)

/-- `sendListenerReady` with `RequestHandlerControllerApp::sendListenerReadyToTalker`. -/
def sendListenerReady (e : ConfigurationEngine) (sid : UInt64) (vlan : UInt16) :
    Option (SwitchInfo × ToSwitch) := do
  let st ← e.registeredStreams[sid]?
  return (st.talkerSwInfo, .vendor (.listenerReady sid vlan))

/-- `configureDataPlane`; the demand id -1 stands for a redistribution. -/
def configureDataPlane (e : ConfigurationEngine) (demandid : Int) (sid : UInt64)
    (newAssignments : List Assignment) : Option Configured := do
  if demandid ≠ -1 then
    let e := { e with demandtoStreamIdMap := e.demandtoStreamIdMap.insert demandid sid }
    let st ← e.registeredStreams[sid]?
    let (e, installs) ← e.applyAssignments c memory (some (sid, st)) newAssignments
    return ⟨e, installs, some (← sendListenerReady e sid st.vlanid)⟩
  else
    let (e, installs) ← e.applyAssignments c memory none newAssignments
    return ⟨e, installs, none⟩

end

end TsnReconfig.Controller
