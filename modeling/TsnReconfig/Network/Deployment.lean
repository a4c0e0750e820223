import TsnReconfig.Controller.VersionBookkeeping
import TsnReconfig.Switch.EdgeSwitch

/-!
# Controller and edge switches

The configuration engine and the edge switches, which exchange flow rules, acknowledgements,
activations and `ListenerReady` messages over one channel in each direction for each switch.
The channels keep the order. A switch is known by its topology index.
-/

namespace TsnReconfig.Network
open OpenFlow Switch Controller Lib

structure NetworkState where
  engine : ConfigurationEngine
  history : List Occurrence
  switches : ℕ → EdgeSwitch
  toSwitch : ℕ → List ToSwitch
  toController : ℕ → List EncapsulatedPacket

inductive NetworkEvent
  | talkerAdvertise (k port : ℕ) (sid : UInt64) (vlan : UInt16) (source destination : MACAddress)
  | frame (k : ℕ) (now : SimTime) (f : Frame)
  | aging (k : ℕ) (now : SimTime)
  | configureDataPlane (memory : OxmBasicMatch) (demandid : Int) (sid : UInt64)
      (newAssignments : List Assignment)
  | deliverToSwitch (k : ℕ) (now : SimTime) (addr : ℕ)
  | deliverToController (k : ℕ) (memory : UInt64)

/-- The channels to the switches after the controller has written the messages. -/
def send (channels : ℕ → List ToSwitch) (messages : List (SwitchInfo × ToSwitch)) :
    ℕ → List ToSwitch :=
  fun k => channels k ++ (messages.filter fun p => p.1.topoIndex = k).map Prod.snd

def Rule.message (r : Rule) : SwitchInfo × ToSwitch := (r.switch, .flowMod r.flowMod)

/-- The flow rules of the installations, in the order they are sent. -/
def flowMods (installs : List Install) : List (SwitchInfo × ToSwitch) :=
  installs.flatMap fun i => i.rules.map Rule.message

/-- The messages of a call of `configureDataPlane`, in the order they are sent. -/
def Configured.messages (r : Configured) : List (SwitchInfo × ToSwitch) :=
  flowMods r.installs ++ r.listenerReady.toList

namespace NetworkState

/-- What the switch `k` becomes and emits. -/
def setSwitch (s : NetworkState) (k : ℕ) (sw : EdgeSwitch) (out : List EdgeOutput) :
    NetworkState :=
  { s with
    switches := Function.update s.switches k sw
    toController :=
      Function.update s.toController k (s.toController k ++ out.filterMap EdgeOutput.packetIn) }

/-- The controller receives a packet-in of the switch `k`: an acknowledgement goes to the
configuration engine, an advertisement to `saveTalker`. -/
def receivePacketIn (c : ControllerTables) (s : NetworkState) (k : ℕ) (memory : UInt64) :
    EncapsulatedPacket → Option NetworkState
  | .ackForFlowMod matchVersion => do
    let (v, messages) ← s.engine.versions.receiveAck c memory matchVersion k
    return { s with
      engine := { s.engine with versions := v }
      history := .acked matchVersion k :: s.history
      toSwitch := send s.toSwitch messages }
  | .talkerAdvertise sid vlan source destination =>
    let st : Stream := ⟨sid, vlan, ⟨k⟩, source, destination⟩
    some { s with engine := { s.engine with
      registeredStreams := s.engine.registeredStreams.insert sid st } }
  | _ => some s

/-- One event. A new entry is allocated where no entry of the table is. -/
def step (c : ControllerTables) (s : NetworkState) : NetworkEvent → Option NetworkState
  | .talkerAdvertise k port sid vlan source destination =>
    let (sw, out) := (s.switches k).processTalkerAdvertise port sid vlan source destination
    some (s.setSwitch k sw out)
  | .frame k now f => do
    let (_, sw) ← (s.switches k).processDataPlanePacket now f
    return s.setSwitch k sw []
  | .aging k now =>
    let sw := s.switches k
    some (s.setSwitch k { sw with table := sw.table.handleAging now } [])
  | .configureDataPlane memory demandid sid newAssignments => do
    let r ← configureDataPlane c memory s.engine demandid sid newAssignments
    return { s with
      engine := r.engine
      history := installedOf r.installs ++ s.history
      toSwitch := send s.toSwitch (Configured.messages r) }
  | .deliverToSwitch k now addr =>
    match s.toSwitch k with
    | [] => none
    | m :: rest =>
      if (s.switches k).table.entries.any (·.addr == addr) then none
      else do
        let (sw, out) ← (s.switches k).processControlPlanePacket now addr m
        return { s with toSwitch := Function.update s.toSwitch k rest }.setSwitch k sw out
  | .deliverToController k memory =>
    match s.toController k with
    | [] => none
    | p :: rest =>
      receivePacketIn c { s with toController := Function.update s.toController k rest } k memory p

end NetworkState

/-- The network with tagging enabled, from its initialisation on: the connections are up and
no stream is known. -/
def network (c : ControllerTables) : System NetworkState NetworkEvent where
  init s :=
    (∃ idleTimeout hardTimeout priority, s.engine = .start true idleTimeout hardTimeout priority) ∧
    s.history = [] ∧
    (∀ k, ∃ now maxEntries agingInterval,
      s.switches k = .start true (.initTable now maxEntries agingInterval)) ∧
    (∀ k, s.toSwitch k = []) ∧ ∀ k, s.toController k = []
  step := NetworkState.step c

/-! ## What a delivery can do -/

section Deliveries
variable {c : ControllerTables} {s s' : NetworkState} {k : ℕ}

/-- A switch processes the first message of its channel, with a free address. -/
theorem deliverToSwitch_eq_some {now : SimTime} {addr : ℕ}
    (hs : s.step c (.deliverToSwitch k now addr) = some s') :
    ∃ m rest sw out, s.toSwitch k = m :: rest ∧
      (∀ e ∈ (s.switches k).table.entries, e.addr ≠ addr) ∧
      (s.switches k).processControlPlanePacket now addr m = some (sw, out) ∧
      s' = { s with toSwitch := Function.update s.toSwitch k rest }.setSwitch k sw out := by
  simp only [NetworkState.step] at hs
  cases hk : s.toSwitch k with
  | nil => simp [hk] at hs
  | cons m rest =>
    simp only [hk] at hs
    split_ifs at hs with haddr
    obtain ⟨⟨sw, out⟩, hsw, hs⟩ := Option.bind_eq_some_iff.mp hs
    refine ⟨m, rest, sw, out, rfl, fun e he heq => haddr ?_, hsw, (Option.some.inj hs).symm⟩
    exact List.any_eq_true.mpr ⟨e, he, by simpa using heq⟩

/-- The controller receives the first packet of a channel. -/
theorem deliverToController_eq_some {memory : UInt64}
    (hs : s.step c (.deliverToController k memory) = some s') :
    ∃ p rest, s.toController k = p :: rest ∧
      NetworkState.receivePacketIn c
        { s with toController := Function.update s.toController k rest } k memory p = some s' := by
  simp only [NetworkState.step] at hs
  cases hk : s.toController k with
  | nil => simp [hk] at hs
  | cons p rest =>
    simp only [hk] at hs
    exact ⟨p, rest, rfl, hs⟩

end Deliveries

end TsnReconfig.Network
