import TsnReconfig.Avb.SRPTableManagement

/-!
# The learning controller for AVB

`AVBLearningControllerApp` on the frames of the reservation protocol. It sends a flow rule for
every `ListenerReady`.
-/

namespace TsnReconfig.Avb

open Lib OpenFlow

/-- The frames that `doSRP` tells apart from others. -/
inductive SRPFrame
  | talkerAdvertise (m : TalkerAdvertise)
  | listenerReady (m : ListenerReady)
  deriving DecidableEq, Repr

/-- `OF100MessageFactory::createFlowModMessage`. -/
def createFlowModMessage (command : FlowModCommand) (oxmMatch : OxmBasicMatch) (priority : Int)
    (outports : List UInt32) (idleTimeOut hardTimeOut : Int) : FlowMod where
  cookie := 42
  tableId := 0
  command := command
  idleTimeout := .ofInt idleTimeOut
  hardTimeout := .ofInt hardTimeOut
  priority := .ofInt priority
  flags := 0
  oxmMatch := oxmMatch
  actions := outports

def qTagEtherType : UInt16 := 0x8100

/-- The match that `doSRP` builds; `memory` is what the memory of the builder held. -/
def SRPForwardingInfo.oxmMatch (memory : OxmBasicMatch) (fwd : SRPForwardingInfo) :
    Option OxmBasicMatch :=
  setFields (newMatchBuilder memory) [.inPort fwd.inPort, .ethDst fwd.dest, .ethType qTagEtherType,
    .vlanVid fwd.vlanID, .vlanPcp fwd.pcp]

/-- `AVBLearningControllerApp`. The lookup table is the one of its `MACTableManagement`. -/
structure AVBLearningControllerApp (S : Type*) where
  srpManager : SRPTableManagement S
  lookupTable : Table S (Table MACAddress UInt32) := ∅
  idleTimeout : Int := 10
  hardTimeout : Int := 0

namespace AVBLearningControllerApp
variable {S : Type*} [DecidableEq S] (app : AVBLearningControllerApp S)

/-- `sendSRPFlowModMessage`. -/
def srpFlowModMessage (oxmMatch : OxmBasicMatch) (outports : List Port) : FlowMod :=
  createFlowModMessage .add oxmMatch 5000 (outports.map (·.toUInt32)) app.idleTimeout
    app.hardTimeout

/-- `doSRP`, with the flow rule for the switch, if there is one. -/
def doSRP (now : SimTime) (memory : OxmBasicMatch) (swInfo : S) (arrivalPort : Port) :
    SRPFrame → Option (AVBLearningControllerApp S × Option FlowMod)
  | .talkerAdvertise m =>
    (app.srpManager.registerTalker now swInfo arrivalPort m).map fun manager =>
      ({ app with srpManager := manager }, none)
  | .listenerReady m =>
    (app.srpManager.registerListener now swInfo arrivalPort m).bind fun (updated, manager) =>
    if updated then
      (manager.getForwardingInfoForStreamID now swInfo m.streamID m.vlanIdentifier).bind
        fun (fwd, manager) =>
      (fwd.oxmMatch memory).map fun oxmMatch =>
        ({ app with srpManager := manager }, some (app.srpFlowModMessage oxmMatch fwd.outports))
    else some ({ app with srpManager := manager }, none)

end AVBLearningControllerApp

/-- Ports that are the ones of the registered listeners of a stream, each once. -/
structure SRPTable.ToListeners (t : SRPTable Port) (streamID : UInt64) (vlanID : UInt16)
    (ports : List UInt32) : Prop where
  nodup : ports.Nodup
  mem : ∀ port, port ∈ ports ↔
    ∃ p : Port, p.toUInt32 = port ∧ (t.listener vlanID streamID p).isSome

/-! ## The match of a stream -/

/-- The fields in which the match of a stream differs from those of other streams. -/
structure StreamMatch where
  inPort : Port
  dest : MACAddress
  vlanID : UInt16
  pcp : UInt8
  deriving DecidableEq

def streamOf (m : OxmBasicMatch) : StreamMatch := ⟨m.ofbInPort, m.ofbEthDst, m.ofbVlanVid, m.ofbVlanPcp⟩

def TalkerEntry.stream (vid : UInt16) (e : TalkerEntry Port) : StreamMatch :=
  ⟨e.module, e.address, vid, e.pcp⟩

/-- All but the fields that `doSRP` sets. -/
def streamWildcards : UInt32 :=
  ofpfwAll &&& ~~~ofpfwInPort &&& ~~~ofpfwDlDst &&& ~~~ofpfwDlType &&& ~~~ofpfwDlVlan &&&
    ~~~ofpfwDlVlanPcp

/-- A match that `doSRP` builds. -/
structure IsStreamMatch (m : OxmBasicMatch) : Prop where
  etherType : m.ofbEthType = qTagEtherType
  wildcards : m.wildcards = streamWildcards

theorem oxmMatch_eq {memory m : OxmBasicMatch} {fwd : SRPForwardingInfo}
    (h : fwd.oxmMatch memory = some m) :
    IsStreamMatch m ∧ streamOf m = ⟨fwd.inPort, fwd.dest, fwd.vlanID, fwd.pcp⟩ := by
  cases h
  exact ⟨⟨rfl, rfl⟩, rfl⟩

/-- An entry for a stream matches the frames of this stream with a tag. -/
theorem tryMatch_iff_streamOf {e : FlowTableEntry} (h : IsStreamMatch e.oxmMatch)
    {m : OxmBasicMatch} (hm : m.ofbEthType = qTagEtherType) :
    e.tryMatch m ↔ streamOf e.oxmMatch = streamOf m := by
  have hwild : ∀ bits, wildcarded e.oxmMatch.wildcards bits = wildcarded streamWildcards bits := by
    intro bits
    rw [h.wildcards]
  have hset : wildcarded streamWildcards ofpfwInPort = false ∧
      wildcarded streamWildcards ofpfwDlType = false ∧
      wildcarded streamWildcards ofpfwDlDst = false ∧
      wildcarded streamWildcards ofpfwDlVlan = false ∧
      wildcarded streamWildcards ofpfwDlVlanPcp = false := by
    decide
  have hany : wildcarded streamWildcards ofpfwDlSrc = true ∧
      wildcarded streamWildcards ofpfwNwProto = true ∧
      wildcarded streamWildcards ofpfwNwSrcAll = true ∧
      wildcarded streamWildcards ofpfwNwDstAll = true ∧
      wildcarded streamWildcards ofpfwTpSrc = true ∧
      wildcarded streamWildcards ofpfwTpDst = true := by
    decide
  simp only [FlowTableEntry.tryMatch, FlowTableEntry.tryMatchWith, hwild, hset, hany,
    Bool.false_or, Bool.true_or, Bool.and_true, Bool.and_eq_true, beq_iff_eq,
    MACAddress.compareTo_eq_zero, h.etherType, hm, streamOf, StreamMatch.mk.injEq]
  tauto

/-! ## What a frame does -/

namespace AVBLearningControllerApp
variable {S : Type*} [DecidableEq S] {app app' : AVBLearningControllerApp S} {now : SimTime}
  {memory : OxmBasicMatch} {swInfo : S} {arrivalPort : Port} {rule : Option FlowMod}

/-- A rule for the listeners of a stream. -/
structure RuleFor (t : SRPTable Port) (streamID : UInt64) (vlanID : UInt16) (rule : FlowMod) :
    Prop where
  add : rule.command = .add
  isMatch : IsStreamMatch rule.oxmMatch
  stream : ∃ e, t.talker vlanID streamID = some e ∧ streamOf rule.oxmMatch = e.stream vlanID
  actions : t.ToListeners streamID vlanID rule.actions

omit [DecidableEq S] in
theorem ruleFor_srpFlowModMessage {t : SRPTable Port} {streamID : UInt64} {vlanID : UInt16}
    {fwd : SRPForwardingInfo} {m : OxmBasicMatch}
    (h : SRPTableManagement.ForwardingInfoOf t streamID vlanID fwd)
    (hm : fwd.oxmMatch memory = some m) :
    RuleFor t streamID vlanID (app.srpFlowModMessage m fwd.outports) := by
  obtain ⟨hmatch, hstream⟩ := oxmMatch_eq hm
  obtain ⟨e, he, hport, hdest, hpcp⟩ := h.talker
  refine ⟨rfl, hmatch, ⟨e, he, ?_⟩, ?_, fun a => ?_⟩
  · change streamOf m = _
    rw [hstream, hport, hdest, hpcp, h.vlan]
    rfl
  · exact h.nodup.map fun p q hpq => UInt16.toUInt32_inj.mp hpq
  · change a ∈ fwd.outports.map _ ↔ _
    rw [List.mem_map]
    constructor
    · rintro ⟨p, hp, rfl⟩
      exact ⟨p, rfl, (h.outports p).mp hp⟩
    · rintro ⟨p, rfl, hp⟩
      exact ⟨p, (h.outports p).mpr hp, rfl⟩

/-- A `ListenerReady` at a switch without a table changes nothing. Otherwise there is a rule, and
the listeners of other streams are the same. -/
theorem doSRP_listenerReady {m : ListenerReady}
    (h : app.doSRP now memory swInfo arrivalPort (.listenerReady m) = some (app', rule)) :
    (rule = none ∧ app' = app) ∨
      ∃ f, rule = some f ∧
        app'.srpManager.agingTime = app.srpManager.agingTime ∧
        (∀ other ≠ swInfo, app'.srpManager.srpTable other = app.srpManager.srpTable other) ∧
        RuleFor (app'.srpManager.srpTable swInfo) m.streamID m.vlanIdentifier f ∧
        (∀ v sid, (app'.srpManager.srpTable swInfo).talker v sid =
          (app.srpManager.srpTable swInfo).talker v sid) ∧
        ∀ v sid, ¬(v = m.vlanIdentifier ∧ sid = m.streamID) →
          SRPTableManagement.KeptBySweeps app.srpManager.agingTime now v sid
            (app.srpManager.srpTable swInfo) →
          ∀ p, (app'.srpManager.srpTable swInfo).listener v sid p =
            (app.srpManager.srpTable swInfo).listener v sid p := by
  obtain ⟨⟨updated, manager⟩, hregister, h⟩ := Option.bind_eq_some_iff.mp h
  have hspec := SRPTableManagement.registerListener_spec hregister
  cases updated with
  | false =>
    cases h
    rw [if_neg Bool.false_ne_true] at hspec
    exact .inl ⟨rfl, by rw [hspec]⟩
  | true =>
    obtain ⟨t, rfl, htalker, hlistener⟩ := hspec
    obtain ⟨⟨fwd, manager'⟩, hfwd, h⟩ := Option.bind_eq_some_iff.mp h
    obtain ⟨oxmMatch, hmatch, h⟩ := Option.map_eq_some_iff.mp h
    cases h
    obtain ⟨t', rfl, hleaves, hinfo⟩ := SRPTableManagement.getForwardingInfo_spec hfwd
    rw [SRPTableManagement.srpTable_setTable] at hleaves
    refine .inr ⟨_, rfl, rfl, fun other hother => ?_, ?_, fun v sid => ?_,
      fun v sid hstream hkept p => ?_⟩
    · dsimp only
      rw [SRPTableManagement.srpTable_setTable_of_ne hother,
        SRPTableManagement.srpTable_setTable_of_ne hother]
    · dsimp only
      rw [SRPTableManagement.srpTable_setTable]
      exact ruleFor_srpFlowModMessage hinfo hmatch
    · dsimp only
      rw [SRPTableManagement.srpTable_setTable, hleaves.talker, htalker]
    · dsimp only
      obtain ⟨hkept', hsame⟩ := hlistener v sid hstream hkept
      rw [SRPTableManagement.srpTable_setTable, (hleaves.listener v sid hkept').2, hsame]

end AVBLearningControllerApp

end TsnReconfig.Avb
