import Std.Data.TreeMap
import Std.Data.TreeMap.Lemmas
import TsnReconfig.Lib.Maps
import TsnReconfig.OpenFlow.Messages
import TsnReconfig.Switch.RelayUnit

/-!
# The edge switch

`Edge_OF_SwitchAgent` with its relay `Edge_OF_RelayUnit`: the switch acknowledges flow
rules, learns which version of a stream is active, and tags the frames of the talkers that
are connected to it.
-/

namespace TsnReconfig.Switch
open OpenFlow

/-- The members of the agent and of the relay, with the flow table 0. -/
structure EdgeSwitch where
  isTaggingEnabled : Bool
  table : FlowTable
  streamPortMap : Std.TreeMap UInt64 ℕ
  seenStreams : List UInt64
  streamActiveMatchVersionMap : Std.TreeMap UInt64 UInt16

inductive EdgeOutput
  | toController (packet : EncapsulatedPacket)
  | dataPlaneOut (port : ℕ) (packet : EncapsulatedPacket)
  deriving DecidableEq, Repr

def EdgeOutput.packetIn : EdgeOutput → Option EncapsulatedPacket
  | .toController packet => some packet
  | .dataPlaneOut _ _ => none

namespace EdgeSwitch

def start (isTaggingEnabled : Bool) (table : FlowTable) : EdgeSwitch :=
  ⟨isTaggingEnabled, table, ∅, [], ∅⟩

/-! ## The control plane -/

/-- `handleFlowModMessagewithACK`; there is no other flow table than the one of index 0. -/
def handleFlowModMessagewithACK (s : EdgeSwitch) (now : SimTime) (addr : ℕ) (m : FlowMod) :
    Option (EdgeSwitch × List EdgeOutput) :=
  if m.tableId = 0 then
    some ({ s with table := s.table.handleFlowMod now addr m },
      [.toController (.ackForFlowMod m.oxmMatch.ofbTag)])
  else none

/-- `Edge_OF_RelayUnit::handleMatchVersionMessage`. -/
def handleMatchVersionMessage (s : EdgeSwitch) (activeVersion : UInt16) (streamId : UInt64) :
    EdgeSwitch :=
  { s with
    streamActiveMatchVersionMap := s.streamActiveMatchVersionMap.insert streamId activeVersion }

/-- `handlePacketOutMessage`. -/
def handlePacketOutMessage (s : EdgeSwitch) : EncapsulatedPacket → EdgeSwitch
  | .activationMessage activeVersion streamId => s.handleMatchVersionMessage activeVersion streamId
  | _ => s

/-- `Edge_OF_RelayUnit::handleSRPMsgFromController` for a `ListenerReady`: the talker gets it
at the port its advertisement came from. -/
def handleSRPMsgFromController (s : EdgeSwitch) (streamId : UInt64) (vlanIdentifier : UInt16) :
    EdgeSwitch × List EdgeOutput :=
  ({ s with streamPortMap := s.streamPortMap.insertIfNew streamId 0 },
    [.dataPlaneOut (s.streamPortMap.getD streamId 0) (.listenerReady streamId vlanIdentifier)])

/-- `handleSRPFromController`. -/
def handleSRPFromController (s : EdgeSwitch) : EncapsulatedPacket → EdgeSwitch × List EdgeOutput
  | .listenerReady streamId vlanIdentifier => s.handleSRPMsgFromController streamId vlanIdentifier
  | _ => (s, [])

/-- `processControlPlanePacket`. -/
def processControlPlanePacket (s : EdgeSwitch) (now : SimTime) (addr : ℕ) :
    ToSwitch → Option (EdgeSwitch × List EdgeOutput)
  | .vendor packet => some (s.handleSRPFromController packet)
  | .flowMod m =>
    if s.isTaggingEnabled then s.handleFlowModMessagewithACK now addr m else some (s, [])
  | .packetOut packet => some (s.handlePacketOutMessage packet, [])

/-! ## The data plane -/

/-- `Edge_OF_RelayUnit::processDataPlanePacket` for a `TalkerAdvertise` and
`forwardSRPtoController`. -/
def processTalkerAdvertise (s : EdgeSwitch) (port : ℕ) (streamId : UInt64)
    (vlanIdentifier : UInt16) (source destination : MACAddress) : EdgeSwitch × List EdgeOutput :=
  ({ s with
    streamPortMap := s.streamPortMap.insert streamId port
    seenStreams := s.seenStreams ++ [streamId] },
    [.toController (.talkerAdvertise streamId vlanIdentifier source destination)])

/-- The branch of `processDataPlanePacket` for the frames of the data plane: frames of a
stream whose talker is connected here get the active version. -/
def tagFrame (s : EdgeSwitch) (f : Frame) : EdgeSwitch × Frame :=
  match f.qTag with
  | some q =>
    if s.isTaggingEnabled ∧ q.streamId ∈ s.seenStreams then
      let version := s.streamActiveMatchVersionMap.getD q.streamId 0
      ({ s with
        streamActiveMatchVersionMap :=
          s.streamActiveMatchVersionMap.insertIfNew q.streamId 0 },
        { f with qTag := some { q with matchVersion := version } })
    else (s, f)
  | none => (s, f)

/-- `processDataPlanePacket` for a frame of the data plane. -/
def processDataPlanePacket (s : EdgeSwitch) (now : SimTime) (f : Frame) :
    Option (List RelayOutput × EdgeSwitch) := do
  let (s, f) := s.tagFrame f
  let (_, out, table) ← processFrame s.table now f
  return (out, { s with table := table })

/-! ## What a message of the controller changes -/

section ControlPlane
variable (s : EdgeSwitch) (packet : EncapsulatedPacket)

@[simp] theorem handlePacketOutMessage_table :
    (s.handlePacketOutMessage packet).table = s.table := by
  cases packet <;> rfl

@[simp] theorem handlePacketOutMessage_isTaggingEnabled :
    (s.handlePacketOutMessage packet).isTaggingEnabled = s.isTaggingEnabled := by
  cases packet <;> rfl

/-- Only an activation message for the stream gives it a new version. -/
theorem handlePacketOutMessage_active {sid : UInt64} {w : UInt16}
    (h : (s.handlePacketOutMessage packet).streamActiveMatchVersionMap[sid]? = some w) :
    s.streamActiveMatchVersionMap[sid]? = some w ∨ packet = .activationMessage w sid := by
  cases packet with
  | activationMessage w' sid' =>
    simp only [handlePacketOutMessage, handleMatchVersionMessage, Lib.getElem?_insert] at h
    split_ifs at h with hsid
    · obtain rfl := Option.some.inj h
      exact .inr (by rw [hsid])
    · exact .inl h
  | ackForFlowMod _ => exact .inl h
  | listenerReady _ _ => exact .inl h
  | talkerAdvertise _ _ _ _ => exact .inl h

/-- A frame for the talker changes neither the rules nor the versions. -/
theorem handleSRPFromController_eq :
    ∃ ports, (s.handleSRPFromController packet).1 = { s with streamPortMap := ports } := by
  cases packet <;> exact ⟨_, rfl⟩

theorem handleSRPFromController_packetIn :
    (s.handleSRPFromController packet).2.filterMap EdgeOutput.packetIn = [] := by
  cases packet <;> rfl

end ControlPlane

/-! ## What a frame changes -/

/-- A tagged frame may leave the version zero for its stream behind, and nothing else. -/
theorem tagFrame_eq (s : EdgeSwitch) (f : Frame) :
    (s.tagFrame f).1 = s ∨
      ∃ sid, (s.tagFrame f).1 = { s with
        streamActiveMatchVersionMap := s.streamActiveMatchVersionMap.insertIfNew sid 0 } := by
  unfold tagFrame
  split
  · split_ifs
    · exact .inr ⟨_, rfl⟩
    · exact .inl rfl
  · exact .inl rfl

/-- A frame leaves the flow table as a lookup does. -/
theorem processDataPlanePacket_eq_some {s s' : EdgeSwitch} {now : SimTime} {f : Frame}
    {out : List RelayOutput} (h : s.processDataPlanePacket now f = some (out, s')) :
    ∃ m, s' = { (s.tagFrame f).1 with table := (s.table.lookup now m).2 } := by
  obtain ⟨⟨found, out', table⟩, hp, h⟩ := Option.bind_eq_some_iff.mp h
  obtain ⟨-, rfl⟩ := Prod.mk.inj (Option.some.inj h)
  obtain ⟨m, -, hl⟩ := processFrame_eq_some hp
  have htable : (s.tagFrame f).1.table = s.table := by
    rcases tagFrame_eq s f with heq | ⟨sid, heq⟩ <;> rw [heq]
  have hlookup : (s.table.lookup now m).2 = table := by
    rw [← htable]
    exact congrArg Prod.snd hl
  exact ⟨m, by rw [hlookup]; rfl⟩

end EdgeSwitch

end TsnReconfig.Switch
