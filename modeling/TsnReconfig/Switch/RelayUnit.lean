import TsnReconfig.OpenFlow.FlowTable

/-!
# The relay unit

`OF_RelayUnit`: what a switch does with a frame of the data plane.
-/

namespace TsnReconfig.Switch
open OpenFlow

/-- The members `EthernetIIFrameWithQTag` adds to an Ethernet frame. -/
structure QTag where
  pcp : UInt8
  de : Bool
  vid : UInt16
  matchVersion : UInt16
  streamId : UInt64
  deriving DecidableEq, Repr

/-- What a frame encapsulates, as far as `extractMatch` looks into it. -/
inductive Payload
  | arp (opcode : Int) (srcIp destIp : IPv4Address)
  | ipv4 (transportProtocol : Int) (src dest : IPv4Address)
      (transport : Option (UInt16 × UInt16))
  | other
  deriving DecidableEq, Repr

/-- An `EthernetIIFrame` that arrived at gate `arrivalGate`; `qTag` is there for an
`EthernetIIFrameWithQTag`. -/
structure Frame where
  src : MACAddress
  dest : MACAddress
  etherType : UInt16
  arrivalGate : ℕ
  qTag : Option QTag
  payload : Payload
  deriving DecidableEq, Repr

/-- `getmatchVersion()`, zero for a frame without a tag. -/
def Frame.matchVersion (f : Frame) : UInt16 := (f.qTag.map QTag.matchVersion).getD 0

/-- `getVID()`, zero for a frame without a tag. -/
def Frame.vid (f : Frame) : UInt16 := (f.qTag.map QTag.vid).getD 0

def ethertypeArp : UInt16 := 0x0806

/-- `OFPP_CONTROLLER`. -/
def ofppController : UInt32 := 0xfffffffd

/-- The IP and transport fields of `extractMatch`. `none` is the exception of its
`check_and_cast` for a frame of type ARP that carries something else. -/
def extractUpperLayers (m : OxmBasicMatch) (f : Frame) : Option OxmBasicMatch :=
  match f.payload with
  | .arp opcode srcIp destIp =>
    some <| if f.etherType = ethertypeArp then
      { m with ofbIpProto := .ofInt opcode, ofbIpv4Src := srcIp, ofbIpv4Dst := destIp }
    else m
  | .ipv4 protocol src dest transport =>
    if f.etherType = ethertypeArp then none
    else
      let m := { m with ofbIpProto := .ofInt protocol, ofbIpv4Src := src, ofbIpv4Dst := dest }
      some <| match transport with
        | some (srcPort, destPort) => { m with ofbTpSrc := srcPort, ofbTpDst := destPort }
        | none => m
  | .other => if f.etherType = ethertypeArp then none else some m

/-- `extractMatch`. -/
def extractMatch (f : Frame) : Option OxmBasicMatch :=
  let m := { OxmBasicMatch.zero with
    ofbInPort := .ofNat f.arrivalGate
    ofbEthSrc := f.src
    ofbEthDst := f.dest
    ofbEthType := f.etherType }
  let m := match f.qTag with
    | some q => { m with ofbVlanVid := q.vid, ofbTag := q.matchVersion }
    | none => { m with ofbTag := 0 }
  extractUpperLayers m f

/-- What the relay unit emits for a frame. -/
inductive RelayOutput
  | forwardToController (f : Frame)
  | send (f : Frame) (dataPlaneOut : UInt32)
  | tableMiss (f : Frame)
  deriving DecidableEq, Repr

/-- `processFrame` on the flow table 0: the entry the lookup found, the outputs and the
table afterwards. -/
def processFrame (t : FlowTable) (now : SimTime) (f : Frame) :
    Option (Option FlowTableEntry × List RelayOutput × FlowTable) := do
  let m ← extractMatch f
  let (lookup, t) := t.lookup now m
  match lookup with
  | some e =>
    let output := fun port =>
      if port = ofppController then RelayOutput.forwardToController f else .send f port
    return (some e, e.instructions.map output, t)
  | none => return (none, [.tableMiss f], t)

theorem processFrame_eq_some {t t' : FlowTable} {now : SimTime} {f : Frame}
    {found : Option FlowTableEntry} {out : List RelayOutput}
    (h : processFrame t now f = some (found, out, t')) :
    ∃ m, extractMatch f = some m ∧ t.lookup now m = (found, t') := by
  obtain ⟨m, hm, h⟩ := Option.bind_eq_some_iff.mp h
  refine ⟨m, hm, ?_⟩
  generalize t.lookup now m = r at h
  obtain ⟨_ | e, t''⟩ := r <;> cases h <;> rfl

theorem extractUpperLayers_frame {m m' : OxmBasicMatch} {f : Frame}
    (h : extractUpperLayers m f = some m') :
    m'.ofbInPort = m.ofbInPort ∧ m'.ofbEthSrc = m.ofbEthSrc ∧ m'.ofbEthDst = m.ofbEthDst ∧
      m'.ofbVlanVid = m.ofbVlanVid ∧ m'.ofbTag = m.ofbTag := by
  unfold extractUpperLayers at h
  split at h
  · split_ifs at h <;> cases h <;> simp
  · split_ifs at h
    cases h
    split <;> simp
  · split_ifs at h
    cases h
    simp

/-- The fields of the extracted match that a rule of the configuration engine compares,
and the tag. -/
theorem extractMatch_frame {m : OxmBasicMatch} {f : Frame} (h : extractMatch f = some m) :
    m.ofbInPort = .ofNat f.arrivalGate ∧ m.ofbEthSrc = f.src ∧ m.ofbEthDst = f.dest ∧
      m.ofbVlanVid = f.vid ∧ m.ofbTag = f.matchVersion := by
  have hm := extractUpperLayers_frame h
  cases hq : f.qTag <;> simpa [hq, Frame.vid, Frame.matchVersion, OxmBasicMatch.zero] using hm

end TsnReconfig.Switch
