import TsnReconfig.Switch.Buffer

/-!
# Packet-ins of table misses

What `OF100MessageFactory::createPacketIn` puts into the packet-in of a table miss, what
`AbstractControllerApp` reads from it, and the decision of `ARPResponder`. A function returns
`none` where the source throws.
-/

namespace TsnReconfig.Network

open OpenFlow Switch

/-- The ARP packet of a frame: its opcode and its source and destination address. -/
def arpPacket (frame : Frame) : Option (Int × IPv4Address × IPv4Address) :=
  match frame.payload with
  | .arp opcode srcIp destIp => some (opcode, srcIp, destIp)
  | _ => none

/-- `OFP_Packet_In`. -/
structure PacketInMessage where
  bufferId : UInt32
  oxmMatch : OxmBasicMatch
  encapsulatedPacket : Option Frame
  deriving DecidableEq, Repr

/-- `createPacketIn`. The header fields of an ARP packet go to those of IP. -/
def createPacketIn (frame : Frame) (bufferId : UInt32) (sendFullFrame : Bool) :
    Option PacketInMessage :=
  if sendFullFrame then some ⟨bufferId, .zero, some frame⟩
  else
    let m := { OxmBasicMatch.zero with
      ofbInPort := .ofNat frame.arrivalGate
      ofbEthSrc := frame.src
      ofbEthDst := frame.dest
      ofbEthType := frame.etherType }
    if frame.etherType = ethertypeArp then
      (arpPacket frame).map fun arp => ⟨bufferId,
        { m with ofbIpProto := .ofInt arp.1, ofbIpv4Src := arp.2.1, ofbIpv4Dst := arp.2.2 }, none⟩
    else some ⟨bufferId, m, none⟩

/-- The packet-in that `handleMissMatchedPacket` sends. -/
def missPacketIn (s : BufferedAgent) (frame : Frame) : Option PacketInMessage :=
  if s.sendCompletePacket ∨ s.buffer.isfull then createPacketIn frame ofpNoBuffer true
  else createPacketIn frame (s.buffer.storeMessage frame).1 false

theorem bufferId_createPacketIn {frame : Frame} {bufferId : UInt32} {p : PacketInMessage}
    (h : createPacketIn frame bufferId false = some p) :
    p.bufferId = bufferId ∧ p.encapsulatedPacket = none := by
  unfold createPacketIn at h
  rw [if_neg Bool.false_ne_true] at h
  dsimp only at h
  split_ifs at h
  · obtain ⟨arp, -, rfl⟩ := Option.map_eq_some_iff.mp h
    exact ⟨rfl, rfl⟩
  · cases h
    exact ⟨rfl, rfl⟩

/-- Apart from the match, it is what the agent sends. -/
theorem handleMissMatchedPacket_of_missPacketIn {s : BufferedAgent} {frame : Frame}
    {p : PacketInMessage} (h : missPacketIn s frame = some p) :
    (s.handleMissMatchedPacket frame).2 = ⟨p.bufferId, p.encapsulatedPacket⟩ := by
  unfold missPacketIn at h
  unfold BufferedAgent.handleMissMatchedPacket
  by_cases hfull : s.sendCompletePacket ∨ s.buffer.isfull
  · rw [if_pos hfull] at h ⊢
    cases h
    rfl
  · rw [if_neg hfull] at h ⊢
    obtain ⟨hid, hframe⟩ := bufferId_createPacketIn h
    rw [hid, hframe]

/-! ## The header fields -/

/-- `CommonHeaderFields`. The switch is the one the packet-in is from. -/
structure CommonHeaderFields where
  bufferId : UInt32
  swInfo : ℕ
  inport : UInt32
  srcMac : MACAddress
  dstMac : MACAddress
  ethType : Int
  arpSrcAdr : IPv4Address := 0
  arpDstAdr : IPv4Address := 0
  arpOp : Int := 0
  deriving DecidableEq, Repr

/-- `extractCommonHeaderFields`. -/
def extractCommonHeaderFields (swInfo : ℕ) (p : PacketInMessage) : Option CommonHeaderFields :=
  if p.bufferId = ofpNoBuffer then do
    let frame ← p.encapsulatedPacket
    let headerFields : CommonHeaderFields :=
      { bufferId := p.bufferId, swInfo
        inport := .ofNat frame.arrivalGate
        srcMac := frame.src
        dstMac := frame.dest
        ethType := frame.etherType.toNat }
    if frame.etherType = ethertypeArp then
      (arpPacket frame).map fun arp =>
        { headerFields with arpOp := arp.1, arpSrcAdr := arp.2.1, arpDstAdr := arp.2.2 }
    else some headerFields
  else some
    { bufferId := p.bufferId, swInfo
      inport := .ofNat p.oxmMatch.ofbInPort.toNat
      srcMac := p.oxmMatch.ofbEthSrc
      dstMac := p.oxmMatch.ofbEthDst
      ethType := p.oxmMatch.ofbEthType.toNat
      arpSrcAdr := p.oxmMatch.ofbArpSpa
      arpDstAdr := p.oxmMatch.ofbArpTpa
      arpOp := p.oxmMatch.ofbArpOp }

/-- The header fields that the controller gets for a table miss. -/
def missHeaderFields (s : BufferedAgent) (swInfo : ℕ) (frame : Frame) :
    Option CommonHeaderFields :=
  (missPacketIn s frame).bind (extractCommonHeaderFields swInfo)

/-- The fields apart from the id of the buffer. -/
def CommonHeaderFields.withoutBufferId (f : CommonHeaderFields) : CommonHeaderFields :=
  { f with bufferId := 0 }

/-! ## Buffered and unbuffered table misses -/

theorem storeMessage_ne_noBuffer {F : Type*} (b : Buffer F) (msg : F) :
    (b.storeMessage msg).1 ≠ ofpNoBuffer := by
  have hzero : (0 : UInt32) ≠ ofpNoBuffer := by decide
  unfold Buffer.storeMessage
  by_cases h : b.nextBufferId ≠ ofpNoBuffer
  · simp only [if_pos h]
    exact h
  · simp only [if_neg h]
    exact hzero

section
variable {s s' : BufferedAgent} {swInfo : ℕ} {frame : Frame}

/-- The fields of a full frame. -/
def fullFields (swInfo : ℕ) (frame : Frame) : Option CommonHeaderFields :=
  let headerFields : CommonHeaderFields :=
    { bufferId := 0, swInfo, inport := .ofNat frame.arrivalGate, srcMac := frame.src
      dstMac := frame.dest, ethType := frame.etherType.toNat }
  if frame.etherType = ethertypeArp then
    (arpPacket frame).map fun arp =>
      { headerFields with arpOp := arp.1, arpSrcAdr := arp.2.1, arpDstAdr := arp.2.2 }
  else some headerFields

/-- The fields of a buffered frame: without those of an ARP packet, though it has to be one. -/
def bufferedFields (swInfo : ℕ) (frame : Frame) : Option CommonHeaderFields :=
  let headerFields : CommonHeaderFields :=
    { bufferId := 0, swInfo, inport := .ofNat (UInt16.ofNat frame.arrivalGate).toNat
      srcMac := frame.src, dstMac := frame.dest, ethType := frame.etherType.toNat }
  if frame.etherType = ethertypeArp then (arpPacket frame).map fun _ => headerFields
  else some headerFields

theorem missHeaderFields_full (h : s.sendCompletePacket ∨ s.buffer.isfull) :
    (missHeaderFields s swInfo frame).map (·.withoutBufferId) = fullFields swInfo frame := by
  unfold missHeaderFields missPacketIn fullFields
  rw [if_pos h]
  change (Option.bind (some (PacketInMessage.mk ofpNoBuffer .zero (some frame))) _).map _ = _
  rw [Option.bind_some]
  unfold extractCommonHeaderFields
  rw [if_pos rfl]
  dsimp only [Option.bind_eq_bind, Option.bind_some]
  split_ifs
  · rw [Option.map_map]
    rfl
  · rfl

theorem missHeaderFields_buffered (h : ¬(s.sendCompletePacket ∨ s.buffer.isfull)) :
    (missHeaderFields s swInfo frame).map (·.withoutBufferId) = bufferedFields swInfo frame := by
  unfold missHeaderFields missPacketIn bufferedFields createPacketIn
  rw [if_neg h, if_neg Bool.false_ne_true]
  dsimp only
  split_ifs
  · cases arpPacket frame with
    | none => rfl
    | some arp =>
      simp only [Option.map_some, Option.bind_some]
      unfold extractCommonHeaderFields
      rw [if_neg (storeMessage_ne_noBuffer _ _)]
      rfl
  · rw [Option.bind_some]
    unfold extractCommonHeaderFields
    rw [if_neg (storeMessage_ne_noBuffer _ _)]
    rfl

/-- The header fields are those of the full frame or those of the buffered one. -/
theorem missHeaderFields_eq (s : BufferedAgent) (swInfo : ℕ) (frame : Frame) :
    (missHeaderFields s swInfo frame).map (·.withoutBufferId) =
      if s.sendCompletePacket ∨ s.buffer.isfull then fullFields swInfo frame
      else bufferedFields swInfo frame := by
  split_ifs with h
  · exact missHeaderFields_full h
  · exact missHeaderFields_buffered h

theorem inport_eq_iff (port : ℕ) :
    UInt32.ofNat (UInt16.ofNat port).toNat = UInt32.ofNat port ↔
      (UInt32.ofNat port).toNat < 65536 := by
  rw [← UInt32.toNat_inj, UInt32.toNat_ofNat', UInt32.toNat_ofNat', UInt16.toNat_ofNat']
  omega

theorem bufferedFields_eq_iff :
    bufferedFields swInfo frame = fullFields swInfo frame ↔
      frame.etherType = ethertypeArp ∧ arpPacket frame = none ∨
        (UInt32.ofNat frame.arrivalGate).toNat < 65536 ∧
          (frame.etherType = ethertypeArp → arpPacket frame = some (0, 0, 0)) := by
  rw [← inport_eq_iff]
  unfold bufferedFields fullFields
  by_cases harp : frame.etherType = ethertypeArp
  · simp only [if_pos harp]
    obtain hnone | ⟨⟨op, src, dst⟩, hsome⟩ := Option.eq_none_or_eq_some (arpPacket frame)
    · simp [hnone, harp]
    · simp only [hsome, Option.map_some, Option.some.injEq, CommonHeaderFields.mk.injEq,
        Prod.mk.injEq, reduceCtorEq, and_false, false_or, true_and, harp, forall_const]
      constructor
      · rintro ⟨hport, hsrc, hdst, hop⟩
        exact ⟨hport, hop.symm, hsrc.symm, hdst.symm⟩
      · rintro ⟨hport, rfl, rfl, rfl⟩
        exact ⟨hport, rfl, rfl, rfl⟩
  · simp [harp]

/-- An agent with a buffer for one frame. -/
def emptyAgent (sendCompletePacket : Bool) : BufferedAgent where
  agent := ⟨0, [], true, 1, [], []⟩
  sendCompletePacket := sendCompletePacket

/-- The fields do not depend on the buffer if and only if the port has 16 bits and an ARP packet
has nothing but zeros. -/
theorem missHeaderFields_same_iff (swInfo : ℕ) (frame : Frame) :
    (∀ s s' : BufferedAgent, (missHeaderFields s swInfo frame).map (·.withoutBufferId) =
      (missHeaderFields s' swInfo frame).map (·.withoutBufferId)) ↔
    frame.etherType = ethertypeArp ∧ arpPacket frame = none ∨
      (UInt32.ofNat frame.arrivalGate).toNat < 65536 ∧
        (frame.etherType = ethertypeArp → arpPacket frame = some (0, 0, 0)) := by
  have hiff : bufferedFields swInfo frame = fullFields swInfo frame ↔ _ := bufferedFields_eq_iff
  rw [← hiff]
  constructor
  · intro h
    have hbuffered := h (emptyAgent false) (emptyAgent true)
    rwa [missHeaderFields_eq, missHeaderFields_eq, if_neg (by decide), if_pos (by decide)]
      at hbuffered
  · intro h s s'
    rw [missHeaderFields_eq, missHeaderFields_eq, h, ite_self, ite_self]

end

/-- An ARP request of 10.0.0.1 for 10.0.0.2. -/
def arpRequest : Frame :=
  ⟨1, 0xffffffffffff, ethertypeArp, 1, none, .arp 1 0x0a000001 0x0a000002⟩

theorem not_missHeaderFields_same : ¬∀ (swInfo : ℕ) (frame : Frame) (s s' : BufferedAgent),
    (missHeaderFields s swInfo frame).map (·.withoutBufferId) =
      (missHeaderFields s' swInfo frame).map (·.withoutBufferId) := by
  intro h
  have hrequest := h 0 arpRequest (emptyAgent false) (emptyAgent true)
  revert hrequest
  decide

/-! ## The ARP responder -/

structure ARPResponder where
  macToIp : List (MACAddress × IPv4Address) := []
  ipToMac : List (IPv4Address × MACAddress) := []
  deriving DecidableEq, Repr

/-- What the responder does about a packet-in. A reply goes to the port of the request. -/
inductive ArpDecision
  | nothing
  | reply (srcIp dstIp : IPv4Address) (srcMac dstMac : MACAddress) (outport : UInt32)
  | flood
  deriving DecidableEq, Repr

namespace ARPResponder

def arpRequestOp : Int := 1

/-- `addEntry`. -/
def addEntry (a : ARPResponder) (srcIp : IPv4Address) (srcMac : MACAddress) : ARPResponder :=
  if (a.macToIp.lookup srcMac).isNone then
    ⟨(srcMac, srcIp) :: a.macToIp, (srcIp, srcMac) :: a.ipToMac⟩
  else a

/-- `handlePacketIn`. -/
def handlePacketIn (a : ARPResponder) (f : CommonHeaderFields) : ARPResponder × ArpDecision :=
  if f.ethType = ethertypeArp.toNat then
    let a := a.addEntry f.arpSrcAdr f.srcMac
    if f.arpOp = arpRequestOp then
      match a.ipToMac.lookup f.arpDstAdr with
      | some mac => (a, .reply f.arpDstAdr f.arpSrcAdr mac f.srcMac f.inport)
      | none => (a, .flood)
    else (a, .nothing)
  else (a, .nothing)

/-- The responder takes no buffered frame for a request. -/
theorem nothing_of_buffered {s : BufferedAgent} {swInfo : ℕ} {frame : Frame}
    {f : CommonHeaderFields} (a : ARPResponder)
    (hbuffered : ¬(s.sendCompletePacket ∨ s.buffer.isfull))
    (hf : missHeaderFields s swInfo frame = some f) : (a.handlePacketIn f).2 = .nothing := by
  have hfields : (missHeaderFields s swInfo frame).map (·.withoutBufferId) = _ :=
    missHeaderFields_buffered hbuffered
  rw [hf, Option.map_some] at hfields
  have hop : f.arpOp = 0 := by
    unfold bufferedFields at hfields
    dsimp only at hfields
    split_ifs at hfields
    · obtain ⟨_, -, heq⟩ := Option.map_eq_some_iff.mp hfields.symm
      exact (congrArg CommonHeaderFields.arpOp heq).symm
    · exact congrArg CommonHeaderFields.arpOp (Option.some.inj hfields)
  have hne : f.arpOp ≠ arpRequestOp := by
    rw [hop]
    decide
  unfold handlePacketIn
  dsimp only
  split_ifs
  · rfl
  · rfl

end ARPResponder

end TsnReconfig.Network
