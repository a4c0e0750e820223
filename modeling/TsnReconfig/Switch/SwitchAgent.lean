import Mathlib.Data.List.Induction
import TsnReconfig.Lib.Lists
import TsnReconfig.Switch.EdgeSwitch

/-!
# The agents of the switches

`OF_SwitchAgent` and `Edge_OF_SwitchAgent`, which overrides its dispatch of the messages of the
controller. A function returns `none` where the source throws or reads behind a list.
-/

namespace TsnReconfig.Switch
open OpenFlow

/-! ## Messages -/

/-- `OFP_NO_BUFFER`. -/
def ofpNoBuffer : UInt32 := 0xffffffff

/-- `OFPP_ANY`. -/
def ofppAny : UInt32 := 0xffffffff

/-- `OFPP_FLOOD`. -/
def ofppFlood : UInt32 := 0xfffffffb

/-- `OFP_Packet_Out`. `frame` is the Ethernet frame it encapsulates with its display string,
`none` if it encapsulates nothing or something else. -/
structure PacketOut where
  bufferId : UInt32
  inPort : UInt32
  actions : List UInt32
  frame : Option (String × Frame)
  deriving DecidableEq, Repr

/-- A frame with a tag and the display string `ActivationMessage`: its version and stream. -/
def PacketOut.activation (p : PacketOut) : Option (UInt16 × UInt64) := do
  let (displayString, f) ← p.frame
  let q ← f.qTag
  if displayString = "ActivationMessage" then some (q.matchVersion, q.streamId) else none

/-- An `Open_Flow_Message` of the controller; `other` are the types no agent handles. -/
inductive OpenFlowMessage
  | hello
  | featuresRequest
  | flowMod (m : FlowMod)
  | packetOut (p : PacketOut)
  | vendor (packet : EncapsulatedPacket)
  | other
  deriving DecidableEq, Repr

/-- The messages of the controller applications. Their packet-outs have no actions. -/
def OpenFlowMessage.ofToSwitch : ToSwitch → OpenFlowMessage
  | .flowMod m => .flowMod m
  | .packetOut (.activationMessage activeVersion streamId) =>
    .packetOut ⟨ofpNoBuffer, 0, [], some ("ActivationMessage",
      ⟨0, 0, 0x8100, 0, some ⟨0, false, 0, activeVersion, streamId⟩, .other⟩)⟩
  | .packetOut _ => .packetOut ⟨ofpNoBuffer, 0, [], none⟩
  | .vendor packet => .vendor packet

/-- A message, the time at which it is processed and the address a new entry would get. -/
structure Delivered where
  now : SimTime
  addr : ℕ
  message : OpenFlowMessage
  deriving DecidableEq, Repr

/-- What an agent and its relay emit: besides the outputs of an edge switch, features replies
and frames at ports of the data plane. -/
inductive AgentOutput
  | edge (o : EdgeOutput)
  | featuresReply (datapathId : MACAddress) (nBuffers nTables capabilities nPorts : ℕ)
  | send (f : Frame) (dataPlaneOut : ℕ)
  deriving DecidableEq, Repr

/-! ## The base agent -/

/-- `OF_SwitchAgent` with the ports of its relay, `true` for a blocked one. The buffer is the map
from the ids of the pending frames to the frames. -/
structure SwitchAgent where
  macAddress : MACAddress
  flowTables : List FlowTable
  hasController : Bool
  bufferCapacity : ℕ
  pendingMsgs : List (UInt32 × Frame)
  blockedPorts : List Bool
  deriving DecidableEq, Repr

namespace SwitchAgent

/-- `handleFeaturesRequestMessage`. -/
def handleFeaturesRequestMessage (s : SwitchAgent) : AgentOutput :=
  .featuresReply s.macAddress s.bufferCapacity 1 0 s.blockedPorts.length

/-- `_flowTables[table_id]->handleFlowMod`. -/
def applyFlowMod (tables : List FlowTable) (now : SimTime) (addr : ℕ) (m : FlowMod) :
    Option (List FlowTable) := do
  let t ← tables[m.tableId.toNat]?
  return tables.set m.tableId.toNat (t.handleFlowMod now addr m)

/-- `handleFlowModMessage`. -/
def handleFlowModMessage (s : SwitchAgent) (now : SimTime) (addr : ℕ) (m : FlowMod) :
    Option SwitchAgent := do
  return { s with flowTables := ← applyFlowMod s.flowTables now addr m }

/-- `OF_RelayUnit::executePacketOutAction`. -/
def executePacketOutAction (s : SwitchAgent) (outport : UInt32) (f : Frame) (inPort : UInt32) :
    Option (List AgentOutput) :=
  if outport = ofppAny then some []
  else if outport = ofppFlood then
    let open_ := s.blockedPorts.zipIdx.filter fun p => p.2 ≠ inPort.toNat ∧ !p.1
    some (open_.map fun p => .send f p.2)
  else if outport.toNat < s.blockedPorts.length then some [.send f outport.toNat]
  else none

/-- `handlePacketOutMessage`. Every action takes the frame, and there has to be one. -/
def handlePacketOutMessage (s : SwitchAgent) (p : PacketOut) :
    Option (SwitchAgent × List AgentOutput) := do
  let (frame, pendingMsgs) :=
    if p.bufferId ≠ ofpNoBuffer then
      (s.pendingMsgs.lookup p.bufferId, s.pendingMsgs.filter (·.1 ≠ p.bufferId))
    else (p.frame.map Prod.snd, s.pendingMsgs)
  let out ← p.actions.mapM fun outport => do
    s.executePacketOutAction outport (← frame) p.inPort
  return ({ s with pendingMsgs := pendingMsgs }, out.flatten)

/-- `OF_SwitchAgent::processControlPlanePacket`. -/
def processControlPlanePacket (s : SwitchAgent) (d : Delivered) :
    Option (SwitchAgent × List AgentOutput) :=
  match d.message with
  | .hello => some ({ s with hasController := true }, [])
  | .featuresRequest => some (s, [s.handleFeaturesRequestMessage])
  | .flowMod m => (s.handleFlowModMessage d.now d.addr m).map (·, [])
  | .packetOut p => s.handlePacketOutMessage p
  | .vendor _ | .other => some (s, [])

/-- A packet-out that takes no pending frame and whose actions put no frame on a port. -/
def NothingToSend (s : SwitchAgent) (p : PacketOut) : Prop :=
  (p.bufferId ≠ ofpNoBuffer → ∀ q ∈ s.pendingMsgs, q.1 ≠ p.bufferId) ∧
    (p.actions = [] ∨ p.bufferId = ofpNoBuffer ∧ p.frame ≠ none ∧
      ∀ outport ∈ p.actions, outport = ofppAny ∨
        outport = ofppFlood ∧ ∀ q ∈ s.blockedPorts.zipIdx, q.2 ≠ p.inPort.toNat → q.1 = true)

section
variable {s : SwitchAgent} {p : PacketOut}

theorem executePacketOutAction_eq_nil_iff {outport inPort : UInt32} {f : Frame} :
    s.executePacketOutAction outport f inPort = some [] ↔ outport = ofppAny ∨
      outport = ofppFlood ∧ ∀ q ∈ s.blockedPorts.zipIdx, q.2 ≠ inPort.toNat → q.1 = true := by
  unfold executePacketOutAction
  split_ifs with hany hflood hport
  · simp [hany]
  · subst hflood
    simp [hany]
  · simp [hany, hflood]
  · simp [hany, hflood]

/-- The actions for a frame, which may be missing. -/
theorem mapM_executePacketOutAction {frame : Option Frame} :
    (p.actions.mapM fun outport => do s.executePacketOutAction outport (← frame) p.inPort).map
        List.flatten = some [] ↔
      p.actions = [] ∨ frame ≠ none ∧ ∀ outport ∈ p.actions, outport = ofppAny ∨
        outport = ofppFlood ∧ ∀ q ∈ s.blockedPorts.zipIdx, q.2 ≠ p.inPort.toNat → q.1 = true := by
  rw [Lib.mapM_flatten_eq_nil_iff]
  cases frame with
  | none => simp [List.eq_nil_iff_forall_not_mem]
  | some f =>
    simp only [Option.bind_eq_bind, Option.bind_some, executePacketOutAction_eq_nil_iff]
    constructor
    · exact fun h => .inr ⟨by simp, h⟩
    · rintro (h | ⟨-, h⟩)
      · simp [h]
      · exact h

theorem handlePacketOutMessage_eq_self_iff :
    s.handlePacketOutMessage p = some (s, []) ↔ s.NothingToSend p := by
  have hresult : ∀ (t : SwitchAgent) (x : Option (List (List AgentOutput))),
      (x.bind fun out => some (t, out.flatten)) = some (s, []) ↔
        t = s ∧ x.map List.flatten = some [] := by
    intro t x
    cases x <;> simp
  unfold handlePacketOutMessage NothingToSend
  by_cases hid : p.bufferId = ofpNoBuffer
  · simp only [hid, ne_eq, not_true, if_false, false_implies, true_and]
    refine (hresult _ _).trans ?_
    rw [mapM_executePacketOutAction]
    simp
  · simp only [hid, ne_eq, not_false_eq_true, if_true, true_implies, false_and, or_false]
    refine (hresult _ _).trans ?_
    rw [mapM_executePacketOutAction]
    -- the agent stays as it is when no frame is pending under the id
    have hself : ({ s with pendingMsgs := s.pendingMsgs.filter (·.1 ≠ p.bufferId) } = s) ↔
        ∀ q ∈ s.pendingMsgs, q.1 ≠ p.bufferId := by
      obtain ⟨mac, tables, hasController, capacity, pending, ports⟩ := s
      simp [List.filter_eq_self]
    rw [hself]
    apply and_congr_right
    intro hnone
    have hlookup : s.pendingMsgs.lookup p.bufferId = none := by
      rw [List.lookup_eq_none_iff]
      intro q hq
      simpa using fun h => hnone q hq h.symm
    simp [hlookup]

end

end SwitchAgent

/-! ## The edge agent -/

/-- `Edge_OF_SwitchAgent` with the members of `Edge_OF_RelayUnit`. -/
structure EdgeAgent where
  agent : SwitchAgent
  isTaggingEnabled : Bool
  streamPortMap : Std.TreeMap UInt64 ℕ
  seenStreams : List UInt64
  streamActiveMatchVersionMap : Std.TreeMap UInt64 UInt16

namespace EdgeAgent

/-- `handleFlowModMessagewithACK`. -/
def handleFlowModMessagewithACK (s : EdgeAgent) (now : SimTime) (addr : ℕ) (m : FlowMod) :
    Option (EdgeAgent × List AgentOutput) := do
  let agent ← s.agent.handleFlowModMessage now addr m
  return ({ s with agent := agent }, [.edge (.toController (.ackForFlowMod m.oxmMatch.ofbTag))])

/-- `handlePacketOutMessage`. -/
def handlePacketOutMessage (s : EdgeAgent) (p : PacketOut) : EdgeAgent :=
  match p.activation with
  | some (activeVersion, streamId) =>
    { s with
      streamActiveMatchVersionMap := s.streamActiveMatchVersionMap.insert streamId activeVersion }
  | none => s

/-- `handleSRPFromController`. -/
def handleSRPFromController (s : EdgeAgent) : EncapsulatedPacket → EdgeAgent × List AgentOutput
  | .listenerReady streamId vlanIdentifier =>
    ({ s with streamPortMap := s.streamPortMap.insertIfNew streamId 0 },
      [.edge (.dataPlaneOut (s.streamPortMap.getD streamId 0)
        (.listenerReady streamId vlanIdentifier))])
  | _ => (s, [])

/-- `Edge_OF_SwitchAgent::processControlPlanePacket`. -/
def processControlPlanePacket (s : EdgeAgent) (d : Delivered) :
    Option (EdgeAgent × List AgentOutput) :=
  match d.message with
  | .vendor packet => some (s.handleSRPFromController packet)
  | .flowMod m =>
    if s.isTaggingEnabled then s.handleFlowModMessagewithACK d.now d.addr m else some (s, [])
  | .packetOut p => some (s.handlePacketOutMessage p, [])
  | .hello | .featuresRequest | .other => do
    let (agent, out) ← s.agent.processControlPlanePacket d
    return ({ s with agent := agent }, out)

/-- The agent after a sequence of messages. -/
def run (s : EdgeAgent) : List Delivered → Option EdgeAgent
  | [] => some s
  | d :: ds => do run (← s.processControlPlanePacket d).1 ds

/-! ## The edge agent beside the base agent -/

/-- Every flow rule among the messages, applied once and in order. -/
def applyFlowMods (tables : List FlowTable) : List Delivered → Option (List FlowTable)
  | [] => some tables
  | d :: ds =>
    match d.message with
    | .flowMod m => do applyFlowMods (← SwitchAgent.applyFlowMod tables d.now d.addr m) ds
    | _ => applyFlowMods tables ds

/-- A message of the sequence that finds the agent in the state `s'`. -/
def Finds (s : EdgeAgent) (ds : List Delivered) (s' : EdgeAgent) (d : Delivered) : Prop :=
  ∃ pre rest, ds = pre ++ d :: rest ∧ s.run pre = some s'

/-- After any part of the messages the tables have every flow rule, and a packet-out that is no
activation does what it does in the base agent. -/
structure AppliesAll (s : EdgeAgent) (ds : List Delivered) : Prop where
  flowTables : ∀ pre rest s', ds = pre ++ rest → s.run pre = some s' →
    applyFlowMods s.agent.flowTables pre = some s'.agent.flowTables
  packetOuts : ∀ s' d p, s.Finds ds s' d → d.message = .packetOut p → p.activation = none →
    (s'.processControlPlanePacket d).map (fun r => (r.1.agent, r.2)) =
      s'.agent.processControlPlanePacket d

/-- Flow rules meet an agent that tags or change nothing, and packet-outs activate a version
or have nothing to send. -/
def Handled (s : EdgeAgent) (d : Delivered) : Prop :=
  match d.message with
  | .flowMod m => s.isTaggingEnabled = true ∨
    SwitchAgent.applyFlowMod s.agent.flowTables d.now d.addr m = some s.agent.flowTables
  | .packetOut p => p.activation ≠ none ∨ s.agent.NothingToSend p
  | _ => True

section
variable {s s' : EdgeAgent} {d : Delivered} {out : List AgentOutput}

theorem handlePacketOutMessage_agent (p : PacketOut) :
    (s.handlePacketOutMessage p).agent = s.agent := by
  unfold handlePacketOutMessage
  split <;> rfl

theorem handleSRPFromController_agent (packet : EncapsulatedPacket) :
    (s.handleSRPFromController packet).1.agent = s.agent := by
  cases packet <;> rfl

/-- With tags a flow rule does what it does in the base agent, and is acknowledged. -/
theorem processControlPlanePacket_flowMod {m : FlowMod} (hm : d.message = .flowMod m)
    (htag : s.isTaggingEnabled = true) :
    s.processControlPlanePacket d = (s.agent.processControlPlanePacket d).map fun r =>
      ({ s with agent := r.1 }, [.edge (.toController (.ackForFlowMod m.oxmMatch.ofbTag))]) := by
  simp only [processControlPlanePacket, SwitchAgent.processControlPlanePacket, hm, htag, if_true,
    handleFlowModMessagewithACK, Option.map_map]
  cases s.agent.handleFlowModMessage d.now d.addr m <;> rfl

/-- What a message does to the tables of the agent. -/
theorem flowTables_processControlPlanePacket
    (h : s.processControlPlanePacket d = some (s', out)) :
    (∃ m, d.message = .flowMod m ∧ s.isTaggingEnabled = true ∧
      SwitchAgent.applyFlowMod s.agent.flowTables d.now d.addr m = some s'.agent.flowTables) ∨
    ((∀ m, d.message = .flowMod m → s.isTaggingEnabled = false) ∧
      s'.agent.flowTables = s.agent.flowTables) := by
  obtain ⟨now, addr, message⟩ := d
  cases message with
  | flowMod m =>
    by_cases htag : s.isTaggingEnabled = true
    · left
      rw [processControlPlanePacket_flowMod rfl htag] at h
      obtain ⟨r, hr, heq⟩ := Option.map_eq_some_iff.mp h
      obtain ⟨rfl, -⟩ := Prod.mk.inj heq
      obtain ⟨agent, hagent, rfl⟩ := Option.map_eq_some_iff.mp hr
      obtain ⟨tables, htables, hagent⟩ := Option.bind_eq_some_iff.mp hagent
      obtain rfl := Option.some.inj hagent
      exact ⟨m, rfl, htag, htables⟩
    · right
      rw [Bool.not_eq_true] at htag
      simp only [processControlPlanePacket, htag, Bool.false_eq_true, if_false,
        Option.some.injEq, Prod.mk.injEq] at h
      exact ⟨fun _ _ => htag, by rw [h.1]⟩
  | packetOut p =>
    obtain ⟨rfl, -⟩ := Prod.mk.inj (Option.some.inj h)
    exact .inr ⟨fun _ => nofun, by rw [handlePacketOutMessage_agent]⟩
  | vendor packet =>
    have heq := congrArg Prod.fst (Option.some.inj h)
    refine .inr ⟨fun _ => nofun, ?_⟩
    rw [← show (s.handleSRPFromController packet).1 = s' from heq, handleSRPFromController_agent]
  | hello =>
    cases h
    exact .inr ⟨fun _ => nofun, rfl⟩
  | featuresRequest =>
    cases h
    exact .inr ⟨fun _ => nofun, rfl⟩
  | other =>
    cases h
    exact .inr ⟨fun _ => nofun, rfl⟩

theorem applyFlowMods_append (tables : List FlowTable) (pre : List Delivered) (d : Delivered) :
    applyFlowMods tables (pre ++ [d]) =
      (applyFlowMods tables pre).bind fun t => applyFlowMods t [d] := by
  induction pre generalizing tables with
  | nil => rfl
  | cons e pre ih =>
    rw [List.cons_append, applyFlowMods, applyFlowMods]
    split
    · rename_i m _
      cases SwitchAgent.applyFlowMod tables e.now e.addr m with
      | none => rfl
      | some t => exact ih t
    · exact ih tables

theorem run_append (pre : List Delivered) (d : Delivered) :
    s.run (pre ++ [d]) =
      (s.run pre).bind fun s₁ => (s₁.processControlPlanePacket d).map Prod.fst := by
  induction pre generalizing s with
  | nil =>
    simp only [List.nil_append, run, Option.bind_eq_bind, Option.bind_some]
    cases s.processControlPlanePacket d <;> rfl
  | cons e pre ih =>
    rw [List.cons_append, run, run]
    cases s.processControlPlanePacket e with
    | none => rfl
    | some r => exact ih

/-- A packet-out that is no activation leaves an edge agent as it is. -/
theorem processControlPlanePacket_packetOut {p : PacketOut} (hm : d.message = .packetOut p)
    (hp : p.activation = none) : s.processControlPlanePacket d = some (s, []) := by
  simp only [processControlPlanePacket, hm, handlePacketOutMessage, hp]

theorem applyFlowMods_of_handled {ds pre rest : List Delivered} (hds : ds = pre ++ rest)
    (h : ∀ s' d, s.Finds ds s' d → s'.Handled d) (hrun : s.run pre = some s') :
    applyFlowMods s.agent.flowTables pre = some s'.agent.flowTables := by
  induction pre using List.reverseRecOn generalizing rest s' with
  | nil =>
    obtain rfl := Option.some.inj hrun
    rfl
  | append_singleton pre d ih =>
    rw [run_append] at hrun
    obtain ⟨s₁, hpre, hrun⟩ := Option.bind_eq_some_iff.mp hrun
    obtain ⟨⟨s₂, out⟩, hd, rfl⟩ := Option.map_eq_some_iff.mp hrun
    have hds' : ds = pre ++ d :: rest := by simpa using hds
    have htables := ih hds' hpre
    have hhandled := h s₁ d ⟨pre, rest, hds', hpre⟩
    rw [applyFlowMods_append, htables, Option.bind_some]
    rcases flowTables_processControlPlanePacket hd with ⟨m, hm, -, happly⟩ | ⟨htag, hsame⟩
    · simp [applyFlowMods, hm, happly]
    · rw [hsame]
      cases hm : d.message with
      | flowMod m =>
        simp only [Handled, hm, htag m hm, Bool.false_eq_true, false_or] at hhandled
        simp [applyFlowMods, hm, hhandled]
      | _ => simp [applyFlowMods, hm]

/-- The edge agent applies all that the base agent does just when every flow rule finds it
tagging or changes nothing, and every packet-out is an activation or changes nothing. -/
theorem appliesAll_iff (s : EdgeAgent) (ds : List Delivered) :
    s.AppliesAll ds ↔ ∀ s' d, s.Finds ds s' d → s'.Handled d := by
  constructor
  · intro h s₁ d hfinds
    obtain ⟨pre, rest, hds, hpre⟩ := hfinds
    have htables := h.flowTables pre _ s₁ hds hpre
    cases hm : d.message with
    | flowMod m =>
      simp only [Handled, hm]
      by_cases htag : s₁.isTaggingEnabled = true
      · exact .inl htag
      · right
        have hd : s₁.processControlPlanePacket d = some (s₁, []) := by
          simp [processControlPlanePacket, hm, htag]
        have hrun : s.run (pre ++ [d]) = some s₁ := by
          rw [run_append, hpre, Option.bind_some, hd, Option.map_some]
        have hafter := h.flowTables (pre ++ [d]) rest s₁ (by simpa using hds) hrun
        rw [applyFlowMods_append, htables, Option.bind_some] at hafter
        simpa [applyFlowMods, hm] using hafter
    | packetOut p =>
      simp only [Handled, hm]
      by_cases hp : p.activation = none
      · right
        have hsame := h.packetOuts s₁ d p ⟨pre, rest, hds, hpre⟩ hm hp
        rw [processControlPlanePacket_packetOut hm hp, Option.map_some,
          SwitchAgent.processControlPlanePacket, hm] at hsame
        exact SwitchAgent.handlePacketOutMessage_eq_self_iff.mp hsame.symm
      · exact .inl hp
    | _ => simp [Handled, hm]
  · intro h
    refine ⟨fun pre rest s' hds hrun => applyFlowMods_of_handled hds h hrun, ?_⟩
    intro s₁ d p hfinds hm hp
    have hhandled := h s₁ d hfinds
    simp only [Handled, hm, hp, ne_eq, not_true, false_or] at hhandled
    rw [processControlPlanePacket_packetOut hm hp, Option.map_some,
      SwitchAgent.processControlPlanePacket, hm]
    exact (SwitchAgent.handlePacketOutMessage_eq_self_iff.mpr hhandled).symm

end

/-- An agent at the start, with one empty flow table and two ports. -/
def start (isTaggingEnabled : Bool) : EdgeAgent :=
  ⟨⟨1, [.initTable 0 0 0], false, 4, [], [false, false]⟩, isTaggingEnabled, ∅, [], ∅⟩

/-- A rule that outputs at port 1. -/
def sampleRule : Delivered :=
  ⟨0, 1, .flowMod ⟨0, 0, .add, 0, 0, 0, 0, .zero, [1]⟩⟩

/-- A frame the controller wants out at port 1. -/
def samplePacketOut : PacketOut :=
  ⟨ofpNoBuffer, 0, [1], some ("data", ⟨1, 2, 0x0800, 0, none, .other⟩)⟩

/-- Without tags a flow rule is lost, and with or without them a frame for a port. -/
theorem start_not_appliesAll :
    ¬ (start false).AppliesAll [sampleRule] ∧
      ∀ isTaggingEnabled,
        ¬ (start isTaggingEnabled).AppliesAll [⟨0, 1, .packetOut samplePacketOut⟩] := by
  constructor
  · intro h
    have htables := h.flowTables [sampleRule] [] (start false) rfl rfl
    revert htables
    decide
  · intro isTaggingEnabled h
    have hsame := h.packetOuts (start isTaggingEnabled) _ samplePacketOut ⟨[], [], rfl, rfl⟩ rfl rfl
    revert hsame
    cases isTaggingEnabled <;> decide

/-! ## The edge switch of the network -/

/-- The agent has one flow table, and is in the state of an edge switch. -/
structure Simulates (s : EdgeAgent) (w : EdgeSwitch) : Prop where
  flowTables : s.agent.flowTables = [w.table]
  isTaggingEnabled : s.isTaggingEnabled = w.isTaggingEnabled
  streamPortMap : s.streamPortMap = w.streamPortMap
  seenStreams : s.seenStreams = w.seenStreams
  versions : s.streamActiveMatchVersionMap = w.streamActiveMatchVersionMap

/-- On the messages of the applications the agent does what `EdgeSwitch` does. -/
theorem Simulates.processControlPlanePacket {s : EdgeAgent} {w w' : EdgeSwitch} {now : SimTime}
    {addr : ℕ} {m : ToSwitch} {out : List EdgeOutput} (h : s.Simulates w)
    (hw : w.processControlPlanePacket now addr m = some (w', out)) :
    ∃ s', s.processControlPlanePacket ⟨now, addr, .ofToSwitch m⟩ = some (s', out.map .edge) ∧
      s'.Simulates w' := by
  obtain ⟨htables, htag, hports, hseen, hversions⟩ := h
  cases m with
  | flowMod m =>
    simp only [EdgeSwitch.processControlPlanePacket] at hw
    -- without tagging neither of them answers
    by_cases htagging : w.isTaggingEnabled = true
    · rw [if_pos htagging] at hw
      unfold EdgeSwitch.handleFlowModMessagewithACK at hw
      split_ifs at hw with hid
      cases hw
      refine ⟨{ s with agent := { s.agent with flowTables := [w.table.handleFlowMod now addr m] } },
        ?_, rfl, htag, hports, hseen, hversions⟩
      simp [EdgeAgent.processControlPlanePacket, OpenFlowMessage.ofToSwitch, htag, htagging,
        handleFlowModMessagewithACK, SwitchAgent.handleFlowModMessage, SwitchAgent.applyFlowMod,
        htables, hid]
    · rw [if_neg htagging] at hw
      cases hw
      refine ⟨s, ?_, htables, htag, hports, hseen, hversions⟩
      simp [EdgeAgent.processControlPlanePacket, OpenFlowMessage.ofToSwitch, htag, htagging]
  | packetOut packet =>
    cases hw
    cases packet with
    | activationMessage activeVersion streamId =>
      refine ⟨_, rfl, htables, htag, hports, hseen, ?_⟩
      change s.streamActiveMatchVersionMap.insert streamId activeVersion =
        w.streamActiveMatchVersionMap.insert streamId activeVersion
      rw [hversions]
    | _ => exact ⟨s, rfl, htables, htag, hports, hseen, hversions⟩
  | vendor packet =>
    cases packet with
    | listenerReady streamId vlanIdentifier =>
      cases hw
      refine ⟨{ s with streamPortMap := s.streamPortMap.insertIfNew streamId 0 }, ?_, htables, htag,
        ?_, hseen, hversions⟩
      · rw [← hports]
        rfl
      · change s.streamPortMap.insertIfNew streamId 0 = w.streamPortMap.insertIfNew streamId 0
        rw [hports]
    | _ =>
      cases hw
      exact ⟨s, rfl, htables, htag, hports, hseen, hversions⟩

end EdgeAgent

end TsnReconfig.Switch
