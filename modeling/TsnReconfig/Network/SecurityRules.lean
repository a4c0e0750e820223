import TsnReconfig.Network.PacketIns

/-!
# The rules of the security controller

The match that `AVBSecurityControllerApp` builds from a frame that a switch has sent in full,
against the match that the switch extracts. For a packet with IP addresses the builder is told to
set the source address twice and never the destination.
-/

namespace TsnReconfig.Network

open OpenFlow Switch

/-- A frame that the controller may take for an `AVBFrame`, which has a tag. -/
structure ClassifiedFrame where
  frame : Frame
  isAvb : Bool
  tagged : isAvb → frame.qTag.isSome

/-- The calls of `setField` in `createMatchFromPacketIn`. -/
def packetInFields (frame : Frame) (isAvb : Bool) : List OxmField :=
  [.inPort (.ofNat frame.arrivalGate), .ethSrc frame.src, .ethDst frame.dest] ++
  (match isAvb, frame.qTag with
    | true, some q => [.ethType 0x8100, .vlanVid q.vid, .vlanPcp q.pcp]
    | _, _ => [.ethType frame.etherType]) ++
  match frame.payload with
  -- the second call is for the destination address
  | .arp opcode srcIp destIp => [.ipProto (.ofInt opcode), .ipv4Src srcIp, .ipv4Src destIp]
  -- here it has the source address once more
  | .ipv4 protocol src _ transport =>
    [.ipProto (.ofInt protocol), .ipv4Src src, .ipv4Src src] ++
      match transport with
      | some (srcPort, destPort) => [.tcpSrc srcPort, .tcpDst destPort]
      | none => []
  | .other => []

/-- `createMatchFromPacketIn`; `memory` is what the memory of the builder held. -/
def createMatchFromPacketIn (memory : OxmBasicMatch) (isAvb : Bool) (packetIn : PacketInMessage) :
    Option OxmBasicMatch :=
  if packetIn.bufferId = ofpNoBuffer then
    packetIn.encapsulatedPacket.bind fun frame =>
      setFields (newMatchBuilder memory) (packetInFields frame isAvb)
  else some packetIn.oxmMatch

/-- The match for a frame that misses and is sent in full. -/
def securityMatch (memory : OxmBasicMatch) (f : ClassifiedFrame) : Option OxmBasicMatch :=
  (createPacketIn f.frame ofpNoBuffer true).bind (createMatchFromPacketIn memory f.isAvb)

/-! ## What a rule should cover -/

/-- The kinds of headers above Ethernet. -/
inductive PayloadKind
  | arp
  | ipv4 (transport : Bool)
  | other
  deriving DecidableEq, Repr

def payloadKind : Payload → PayloadKind
  | .arp .. => .arp
  | .ipv4 _ _ _ transport => .ipv4 transport.isSome
  | .other => .other

/-- The protocol and the addresses, as ARP and IP have them, with those of ARP in the place that the
switch gives them. -/
def ipFields : Payload → Option (UInt8 × IPv4Address × IPv4Address)
  | .arp opcode srcIp destIp => some (.ofInt opcode, srcIp, destIp)
  | .ipv4 protocol src dest _ => some (.ofInt protocol, src, dest)
  | .other => none

def transportPorts : Payload → Option (UInt16 × UInt16)
  | .ipv4 _ _ _ transport => transport
  | _ => none

structure SameKinds (f g : ClassifiedFrame) : Prop where
  isAvb : g.isAvb = f.isAvb
  qTag : g.frame.qTag.isSome = f.frame.qTag.isSome
  payload : payloadKind g.frame.payload = payloadKind f.frame.payload

/-- The frames have the same port, of 16 bits, and the same header fields apart from the tag. -/
structure SameFlow (f g : Frame) : Prop where
  inPort : UInt16.ofNat g.arrivalGate = .ofNat f.arrivalGate
  src : g.src = f.src
  dest : g.dest = f.dest
  etherType : g.etherType = f.etherType
  ip : ipFields g.payload = ipFields f.payload
  ports : transportPorts g.payload = transportPorts f.payload

/-- An entry matches the match that the switch extracts. -/
def Covers (e : FlowTableEntry) (f : Frame) : Prop := ∃ m, extractMatch f = some m ∧ e.tryMatch m

/-- The rule for a frame covers it, and of the frames with the same kinds of headers only those of
its flow. -/
structure CoversExactly (e : FlowTableEntry) (f : ClassifiedFrame) : Prop where
  own : Covers e f.frame
  others : ∀ g : ClassifiedFrame, SameKinds f g → Covers e g.frame → SameFlow f.frame g.frame

/-! ## What it covers -/

variable {memory m p : OxmBasicMatch} {f : ClassifiedFrame} {e : FlowTableEntry}

/-- The wildcards of the rule for a frame: the destination address stays wildcarded. -/
def ruleWildcards (isAvb hasIp hasTransport : Bool) : UInt32 :=
  let w := ofpfwAll &&& ~~~ofpfwInPort &&& ~~~ofpfwDlSrc &&& ~~~ofpfwDlDst &&& ~~~ofpfwDlType
  let w := if isAvb then w &&& ~~~ofpfwDlVlan &&& ~~~ofpfwDlVlanPcp else w
  let w := if hasIp then w &&& ~~~ofpfwNwProto &&& ~~~ofpfwNwSrcAll &&& ~~~ofpfwNwSrcAll else w
  if hasTransport then w &&& ~~~ofpfwTpSrc &&& ~~~ofpfwTpDst else w

theorem wildcarded_ruleWildcards (isAvb hasIp hasTransport : Bool) :
    let w := ruleWildcards isAvb hasIp hasTransport
    wildcarded w ofpfwInPort = false ∧ wildcarded w ofpfwDlType = false ∧
    wildcarded w ofpfwDlSrc = false ∧ wildcarded w ofpfwDlDst = false ∧
    wildcarded w ofpfwDlVlan = !isAvb ∧ wildcarded w ofpfwDlVlanPcp = !isAvb ∧
    wildcarded w ofpfwNwProto = !hasIp ∧ wildcarded w ofpfwNwSrcAll = !hasIp ∧
    wildcarded w ofpfwNwDstAll = true ∧ wildcarded w ofpfwTpSrc = !hasTransport ∧
    wildcarded w ofpfwTpDst = !hasTransport := by
  cases isAvb <;> cases hasIp <;> cases hasTransport <;> decide

/-- What is compared under such wildcards: not the destination address, nor the destination port. -/
structure RuleMatches (isAvb hasIp hasTransport : Bool) (m p : OxmBasicMatch) : Prop where
  inPort : m.ofbInPort = p.ofbInPort
  ethType : m.ofbEthType = p.ofbEthType
  ethSrc : m.ofbEthSrc = p.ofbEthSrc
  ethDst : m.ofbEthDst = p.ofbEthDst
  vlan : isAvb → m.ofbVlanVid = p.ofbVlanVid ∧ m.ofbVlanPcp = p.ofbVlanPcp
  ip : hasIp → m.ofbIpProto = p.ofbIpProto ∧ m.ofbIpv4Src = p.ofbIpv4Src
  ports : hasTransport → m.ofbTpSrc = p.ofbTpSrc

theorem tryMatch_iff_ruleMatches {isAvb hasIp hasTransport : Bool}
    (h : e.oxmMatch.wildcards = ruleWildcards isAvb hasIp hasTransport) :
    e.tryMatch p ↔ RuleMatches isAvb hasIp hasTransport e.oxmMatch p := by
  obtain ⟨h₁, h₂, h₃, h₄, h₅, h₆, h₇, h₈, h₉, h₁₀, h₁₁⟩ :=
    wildcarded_ruleWildcards isAvb hasIp hasTransport
  simp only [FlowTableEntry.tryMatch, FlowTableEntry.tryMatchWith, h, h₁, h₂, h₃, h₄, h₅, h₆, h₇,
    h₈, h₉, h₁₀, h₁₁, Bool.false_or, Bool.true_or, Bool.and_true, Bool.and_eq_true,
    Bool.or_eq_true, Bool.not_eq_true', beq_iff_eq, MACAddress.compareTo_eq_zero]
  constructor
  · rintro ⟨⟨⟨⟨⟨⟨⟨⟨⟨hport, htype⟩, hsrc⟩, hdst⟩, hvid⟩, hpcp⟩, hproto⟩, hip⟩, htpSrc⟩, -⟩
    exact ⟨hport, htype, hsrc, hdst,
      fun h => ⟨hvid.resolve_left (by simp [h]), hpcp.resolve_left (by simp [h])⟩,
      fun h => ⟨hproto.resolve_left (by simp [h]), hip.resolve_left (by simp [h])⟩,
      fun h => htpSrc.resolve_left (by simp [h])⟩
  · intro hm
    have hvlan := hm.vlan
    have hip := hm.ip
    have hports := hm.ports
    refine ⟨⟨⟨⟨⟨⟨⟨⟨⟨hm.inPort, hm.ethType⟩, hm.ethSrc⟩, hm.ethDst⟩, ?_⟩, ?_⟩, ?_⟩, ?_⟩, ?_⟩, ?_⟩
    all_goals
      cases isAvb <;> cases hasIp <;> cases hasTransport <;> simp_all

/-! ## The rule of a frame -/

/-- The type that the rule compares. -/
def ruleType (f : ClassifiedFrame) : UInt16 := if f.isAvb then 0x8100 else f.frame.etherType

/-- The address that the rule has for the source. -/
def ruleAddress : Payload → IPv4Address
  | .arp _ _ destIp => destIp
  | .ipv4 _ src _ _ => src
  | .other => 0

/-- What the rule of a frame compares with. -/
structure RuleOf (f : ClassifiedFrame) (r : OxmBasicMatch) : Prop where
  wildcards : r.wildcards = ruleWildcards f.isAvb (ipFields f.frame.payload).isSome
    (transportPorts f.frame.payload).isSome
  inPort : r.ofbInPort = .ofNat f.frame.arrivalGate
  ethSrc : r.ofbEthSrc = f.frame.src
  ethDst : r.ofbEthDst = f.frame.dest
  ethType : r.ofbEthType = ruleType f
  vlan : f.isAvb → r.ofbVlanVid = f.frame.vid ∧ some r.ofbVlanPcp = f.frame.qTag.map QTag.pcp
  ip : ∀ x, ipFields f.frame.payload = some x →
    r.ofbIpProto = x.1 ∧ r.ofbIpv4Src = ruleAddress f.frame.payload
  ports : ∀ x, transportPorts f.frame.payload = some x → r.ofbTpSrc = x.1

theorem exists_securityMatch (memory : OxmBasicMatch) (f : ClassifiedFrame) :
    ∃ r, securityMatch memory f = some r ∧ RuleOf f r := by
  obtain ⟨⟨src, dest, etherType, gate, qTag, payload⟩, isAvb, tagged⟩ := f
  -- a frame that is taken for an `AVBFrame` has a tag, and the tag of another is not read
  rcases isAvb with _ | _
  · rcases qTag with _ | q
    all_goals
      rcases payload with ⟨opcode, srcIp, destIp⟩ | ⟨protocol, ipSrc, ipDest, _ | ports⟩ | _
    all_goals
      refine ⟨_, rfl, rfl, rfl, rfl, rfl, rfl, fun h => absurd h Bool.false_ne_true, ?_, ?_⟩
    all_goals
      intro x hx
      cases hx
    all_goals first | rfl | exact ⟨rfl, rfl⟩
  · obtain ⟨q, rfl⟩ := Option.isSome_iff_exists.mp (tagged rfl)
    rcases payload with ⟨opcode, srcIp, destIp⟩ | ⟨protocol, ipSrc, ipDest, _ | ports⟩ | _
    all_goals
      refine ⟨_, rfl, rfl, rfl, rfl, rfl, rfl, fun _ => ⟨rfl, rfl⟩, ?_, ?_⟩
    all_goals
      intro x hx
      cases hx
    all_goals first | rfl | exact ⟨rfl, rfl⟩

/-! ## The extracted match -/

/-- The frame with another destination address. -/
def withDestIp (d : IPv4Address) : Payload → Payload
  | .arp opcode srcIp _ => .arp opcode srcIp d
  | .ipv4 protocol src _ transport => .ipv4 protocol src d transport
  | .other => .other

/-- In the match that the switch extracts only the destination address changes with it. -/
theorem extractMatch_withDestIp {frame : Frame} (h : extractMatch frame = some p)
    (d : IPv4Address) : ∃ x,
      extractMatch { frame with payload := withDestIp d frame.payload } =
        some { p with ofbIpv4Dst := x } := by
  obtain ⟨src, dest, etherType, gate, qTag, payload⟩ := frame
  unfold extractMatch extractUpperLayers at h ⊢
  rcases payload with ⟨opcode, srcIp, destIp⟩ | ⟨protocol, ipSrc, ipDest, transport⟩ | _
  · by_cases harp : etherType = ethertypeArp
    · simp only [harp, if_pos, Option.some.injEq] at h
      subst h
      exact ⟨d, by simp only [withDestIp, harp, if_pos]⟩
    · simp only [if_neg harp, Option.some.injEq] at h
      subst h
      refine ⟨0, ?_⟩
      simp only [withDestIp, if_neg harp]
      rcases qTag with _ | q
      · rfl
      · rfl
  · by_cases harp : etherType = ethertypeArp
    · simp [harp] at h
    · simp only [if_neg harp, Option.some.injEq] at h
      subst h
      refine ⟨d, ?_⟩
      simp only [withDestIp, if_neg harp]
      rcases transport with _ | _
      · rfl
      · rfl
  · exact ⟨p.ofbIpv4Dst, h⟩

/-- The type and the PCP of the extracted match, which is zero for every frame. -/
theorem extractMatch_type {frame : Frame} (h : extractMatch frame = some p) :
    p.ofbEthType = frame.etherType ∧ p.ofbVlanPcp = 0 := by
  obtain ⟨src, dest, etherType, gate, qTag, payload⟩ := frame
  unfold extractMatch extractUpperLayers at h
  rcases qTag with _ | q
  all_goals
    rcases payload with ⟨opcode, srcIp, destIp⟩ | ⟨protocol, ipSrc, ipDest, _ | ports⟩ | _
  all_goals
    simp only at h
    split_ifs at h
  all_goals
    cases h
    exact ⟨rfl, rfl⟩

/-! ## When the rule is exact -/

/-- The frame with another destination address, classified as before. -/
def ClassifiedFrame.withDestIp (f : ClassifiedFrame) (d : IPv4Address) : ClassifiedFrame where
  frame := { f.frame with payload := Network.withDestIp d f.frame.payload }
  isAvb := f.isAvb
  tagged := f.tagged

theorem sameKinds_withDestIp (f : ClassifiedFrame) (d : IPv4Address) :
    SameKinds f (f.withDestIp d) := by
  refine ⟨rfl, rfl, ?_⟩
  change payloadKind (withDestIp d f.frame.payload) = _
  cases f.frame.payload <;> rfl

/-- The rule covers a frame with any destination address if it covers the frame itself. -/
theorem RuleOf.covers_withDestIp {f g : ClassifiedFrame} (h : RuleOf f e.oxmMatch)
    (hg : Covers e g.frame) (d : IPv4Address) : Covers e (g.withDestIp d).frame := by
  obtain ⟨p, hp, hmatch⟩ := hg
  obtain ⟨x, hx⟩ := extractMatch_withDestIp hp d
  refine ⟨_, hx, ?_⟩
  rw [tryMatch_iff_ruleMatches h.wildcards] at hmatch ⊢
  exact ⟨hmatch.inPort, hmatch.ethType, hmatch.ethSrc, hmatch.ethDst, hmatch.vlan, hmatch.ip,
    hmatch.ports⟩

/-- No rule is exact for a packet with addresses. -/
theorem RuleOf.payload_eq_other (h : RuleOf f e.oxmMatch) (hexact : CoversExactly e f) :
    f.frame.payload = .other := by
  have hflow (d : IPv4Address) :=
    (hexact.others _ (sameKinds_withDestIp f d) (h.covers_withDestIp hexact.own d)).ip
  have hdest (d : IPv4Address) : ipFields (withDestIp d f.frame.payload) =
      ipFields f.frame.payload := hflow d
  have hne : (0 : IPv4Address) ≠ 1 := by decide
  -- two destination addresses cannot both be the one of the frame
  cases hpayload : f.frame.payload with
  | arp opcode srcIp destIp =>
    have hzero := hdest 0
    have hone := hdest 1
    rw [hpayload] at hzero hone
    have heq := hzero.trans hone.symm
    injection heq with heq
    exact absurd (congrArg (·.2.2) heq) hne
  | ipv4 protocol src dest transport =>
    have hzero := hdest 0
    have hone := hdest 1
    rw [hpayload] at hzero hone
    have heq := hzero.trans hone.symm
    injection heq with heq
    exact absurd (congrArg (·.2.2) heq) hne
  | other => rfl

/-- The rule for a frame without addresses compares what the switch extracts, with the type and the
PCP of the rule for an `AVBFrame`. -/
theorem RuleOf.covers_iff {g : ClassifiedFrame} (h : RuleOf f e.oxmMatch)
    (hother : f.frame.payload = .other) (hp : extractMatch g.frame = some p) :
    Covers e g.frame ↔ UInt16.ofNat g.frame.arrivalGate = .ofNat f.frame.arrivalGate ∧
      g.frame.src = f.frame.src ∧ g.frame.dest = f.frame.dest ∧ g.frame.etherType = ruleType f ∧
      (f.isAvb → g.frame.vid = f.frame.vid ∧ f.frame.qTag.map QTag.pcp = some 0) := by
  obtain ⟨hport, hsrc, hdst, hvid, -⟩ := extractMatch_frame hp
  obtain ⟨htype, hpcp⟩ := extractMatch_type hp
  -- the wildcards of the rule leave the fields of its kind of frame
  have hcovers : Covers e g.frame ↔ RuleMatches f.isAvb (ipFields f.frame.payload).isSome
      (transportPorts f.frame.payload).isSome e.oxmMatch p := by
    rw [← tryMatch_iff_ruleMatches h.wildcards]
    constructor
    · rintro ⟨p', hp', hmatch⟩
      rwa [Option.some.inj (hp.symm.trans hp')]
    · exact fun hmatch => ⟨p, hp, hmatch⟩
  rw [hcovers]
  constructor
  · intro hm
    refine ⟨?_, ?_, ?_, ?_, fun havb => ?_⟩
    · rw [← hport, ← hm.inPort, h.inPort]
    · rw [← hsrc, ← hm.ethSrc, h.ethSrc]
    · rw [← hdst, ← hm.ethDst, h.ethDst]
    · rw [← htype, ← hm.ethType, h.ethType]
    · obtain ⟨hvlan, hprio⟩ := hm.vlan havb
      obtain ⟨hruleVid, hrulePcp⟩ := h.vlan havb
      exact ⟨by rw [← hvid, ← hvlan, hruleVid], by rw [← hrulePcp, hprio, hpcp]⟩
  · rintro ⟨hp₁, hp₂, hp₃, hp₄, hp₅⟩
    refine ⟨?_, ?_, ?_, ?_, fun havb => ?_, fun hip => ?_, fun hports => ?_⟩
    · rw [h.inPort, hport, hp₁]
    · rw [h.ethType, htype, hp₄]
    · rw [h.ethSrc, hsrc, hp₂]
    · rw [h.ethDst, hdst, hp₃]
    · obtain ⟨hruleVid, hrulePcp⟩ := h.vlan havb
      obtain ⟨hvlan, hprio⟩ := hp₅ havb
      refine ⟨by rw [hruleVid, hvid, hvlan], ?_⟩
      rw [hpcp]
      exact Option.some.inj (hrulePcp.trans hprio)
    · rw [hother] at hip
      cases hip
    · rw [hother] at hports
      cases hports

/-- The rule is exact for the frames without addresses, and for those that are taken for an
`AVBFrame` if their type is that of the rule and their PCP is zero. -/
theorem coversExactly_iff (memory : OxmBasicMatch) (f : ClassifiedFrame) (e : FlowTableEntry)
    (hextract : (extractMatch f.frame).isSome)
    (hrule : securityMatch memory f = some e.oxmMatch) :
    CoversExactly e f ↔ f.frame.payload = .other ∧
      (f.isAvb → f.frame.etherType = 0x8100 ∧ f.frame.qTag.map QTag.pcp = some 0) := by
  obtain ⟨r, hr, hof⟩ := exists_securityMatch memory f
  obtain rfl := Option.some.inj (hr.symm.trans hrule)
  obtain ⟨p, hp⟩ := Option.isSome_iff_exists.mp hextract
  constructor
  · intro hexact
    have hother := hof.payload_eq_other hexact
    obtain ⟨-, -, -, htype, hvlan⟩ := (hof.covers_iff hother hp).mp hexact.own
    refine ⟨hother, fun havb => ⟨?_, (hvlan havb).2⟩⟩
    rw [htype, ruleType, if_pos havb]
  · rintro ⟨hother, havb⟩
    have htype : f.frame.etherType = ruleType f := by
      unfold ruleType
      split_ifs with h
      · exact (havb h).1
      · rfl
    refine ⟨(hof.covers_iff hother hp).mpr ⟨rfl, rfl, rfl, htype, fun h => ⟨rfl, (havb h).2⟩⟩, ?_⟩
    intro g hkinds hcovers
    obtain ⟨q, hq, -⟩ := id hcovers
    obtain ⟨hport, hsrc, hdst, hgtype, -⟩ := (hof.covers_iff hother hq).mp hcovers
    have hgother : g.frame.payload = .other := by
      have hkind := hkinds.payload
      rw [hother] at hkind
      cases hpayload : g.frame.payload with
      | arp _ _ _ => rw [hpayload] at hkind; cases hkind
      | ipv4 _ _ _ _ => rw [hpayload] at hkind; cases hkind
      | other => rfl
    exact ⟨hport, hsrc, hdst, hgtype.trans htype.symm, by rw [hgother, hother],
      by rw [hgother, hother]⟩

/-- A frame with neither ARP nor IP inside. -/
def plainFrame : ClassifiedFrame where
  frame := ⟨1, 2, 0x88a4, 3, none, .other⟩
  isAvb := false
  tagged := fun h => absurd h Bool.false_ne_true

def plainRule : FlowTableEntry :=
  ⟨1, 0, 0, 0, 0, 0, 0, 0, (securityMatch .zero plainFrame).getD .zero, []⟩

theorem coversExactly_iff_plain : CoversExactly plainRule plainFrame ↔
    plainFrame.frame.payload = .other ∧ (plainFrame.isAvb →
      plainFrame.frame.etherType = 0x8100 ∧ plainFrame.frame.qTag.map QTag.pcp = some 0) :=
  coversExactly_iff .zero plainFrame plainRule rfl rfl

/-- A UDP packet from 10.0.0.1 to 10.0.0.2. -/
def udpFrame : ClassifiedFrame where
  frame := ⟨1, 2, 0x0800, 3, none, .ipv4 17 0x0a000001 0x0a000002 (some (1000, 2000))⟩
  isAvb := false
  tagged := fun h => absurd h Bool.false_ne_true

/-- Its rule covers the packets of the same ports to other addresses. -/
theorem not_coversExactly : ¬∀ (memory : OxmBasicMatch) (f : ClassifiedFrame)
    (e : FlowTableEntry), (extractMatch f.frame).isSome →
      securityMatch memory f = some e.oxmMatch → CoversExactly e f := by
  intro h
  obtain ⟨r, hr, hof⟩ := exists_securityMatch .zero udpFrame
  have hexact := h .zero udpFrame ⟨1, 0, 0, 0, 0, 0, 0, 0, r, []⟩ rfl hr
  have hother : udpFrame.frame.payload = .other :=
    RuleOf.payload_eq_other (e := ⟨1, 0, 0, 0, 0, 0, 0, 0, r, []⟩) hof hexact
  cases hother

end TsnReconfig.Network
