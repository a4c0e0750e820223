import Mathlib.Data.List.Sort

/-!
# OpenFlow 1.0 matches

`oxm_basic_match` of `openflow_100.h` with the version tag `OFB_TAG` this project adds to
it, the wildcard bits, and the match builder.
-/

namespace TsnReconfig.OpenFlow

/-- The 48 address bits of `inet::MACAddress`. -/
abbrev MACAddress := BitVec 48

/-- `MACAddress::compareTo`. -/
def MACAddress.compareTo (a b : MACAddress) : Int :=
  if a < b then -1 else if a = b then 0 else 1

theorem MACAddress.compareTo_eq_zero (a b : MACAddress) : compareTo a b = 0 ↔ a = b := by
  unfold compareTo
  split_ifs with hlt heq
  · simpa using BitVec.ne_of_lt hlt
  · simp [heq]
  · simp [heq]

abbrev IPv4Address := UInt32

/-- `oxm_basic_match`. -/
structure OxmBasicMatch where
  ofbInPort : UInt16
  ofbEthSrc : MACAddress
  ofbEthDst : MACAddress
  ofbVlanVid : UInt16
  ofbVlanPcp : UInt8
  ofbEthType : UInt16
  ofbIpDscp : UInt8
  ofbIpProto : UInt8
  ofbIpv4Src : IPv4Address
  ofbIpv4Dst : IPv4Address
  ofbTpSrc : UInt16
  ofbTpDst : UInt16
  ofbArpOp : Int
  ofbArpSpa : IPv4Address
  ofbArpTpa : IPv4Address
  ofbArpSha : MACAddress
  ofbArpTha : MACAddress
  ofbTag : UInt16
  wildcards : UInt32
  deriving DecidableEq, Repr

/-- `oxm_basic_match()`: every member zero. -/
def OxmBasicMatch.zero : OxmBasicMatch :=
  ⟨0, 0, 0, 0, 0, 0, 0, 0, 0, 0, 0, 0, 0, 0, 0, 0, 0, 0, 0⟩

/-! ## `ofp_flow_wildcards` -/

def ofpfwInPort : UInt32 := .ofNat (1 <<< 0)
def ofpfwDlVlan : UInt32 := .ofNat (1 <<< 1)
def ofpfwDlSrc : UInt32 := .ofNat (1 <<< 2)
def ofpfwDlDst : UInt32 := .ofNat (1 <<< 3)
def ofpfwDlType : UInt32 := .ofNat (1 <<< 4)
def ofpfwNwProto : UInt32 := .ofNat (1 <<< 5)
def ofpfwTpSrc : UInt32 := .ofNat (1 <<< 6)
def ofpfwTpDst : UInt32 := .ofNat (1 <<< 7)
def ofpfwNwSrcAll : UInt32 := .ofNat (32 <<< 8)
def ofpfwNwDstAll : UInt32 := .ofNat (32 <<< 14)
def ofpfwDlVlanPcp : UInt32 := .ofNat (1 <<< 20)
def ofpfwNwTos : UInt32 := .ofNat (1 <<< 21)
def ofpfwAll : UInt32 := .ofNat ((1 <<< 22) - 1)

/-- The number of `OFPXMT_OFB_TAG` among the match fields, not a wildcard bit. -/
def ofpxmtOfbTag : UInt32 := 36

/-- `wildcards & bits` as a C++ condition. -/
def wildcarded (wildcards bits : UInt32) : Bool := wildcards &&& bits != 0

/-! ## `OF100MatchBuilder` -/

/-- The fields `OF100MatchBuilder::setField` knows, each with the value its `void *`
argument is cast to, and those it throws on. -/
inductive OxmField
  | inPort (v : UInt16)
  | ethSrc (v : MACAddress)
  | ethDst (v : MACAddress)
  | vlanVid (v : UInt16)
  | vlanPcp (v : UInt8)
  | ethType (v : UInt16)
  | ipDscp (v : UInt8)
  | ipProto (v : UInt8)
  | ipv4Src (v : IPv4Address)
  | ipv4Dst (v : IPv4Address)
  | tcpSrc (v : UInt16)
  | tcpDst (v : UInt16)
  | udpSrc (v : UInt16)
  | udpDst (v : UInt16)
  | arpOp (v : Int)
  | arpSpa (v : IPv4Address)
  | arpTpa (v : IPv4Address)
  | arpSha (v : MACAddress)
  | arpTha (v : MACAddress)
  | tag (v : UInt16)
  | unsupported (field : UInt32)
  deriving DecidableEq, Repr

/-- `OFMatchBuilder()`: only the wildcards are set, the rest of the match is whatever the
memory held. -/
def newMatchBuilder (memory : OxmBasicMatch) : OxmBasicMatch :=
  { memory with wildcards := ofpfwAll }

/-- `OF100MatchBuilder::setField`; `none` is the exception of its default case. -/
def setField (m : OxmBasicMatch) : OxmField → Option OxmBasicMatch
  | .inPort v => some { m with ofbInPort := v, wildcards := m.wildcards &&& ~~~ofpfwInPort }
  | .ethSrc v => some { m with ofbEthSrc := v, wildcards := m.wildcards &&& ~~~ofpfwDlSrc }
  | .ethDst v => some { m with ofbEthDst := v, wildcards := m.wildcards &&& ~~~ofpfwDlDst }
  | .vlanVid v => some { m with ofbVlanVid := v, wildcards := m.wildcards &&& ~~~ofpfwDlVlan }
  | .vlanPcp v => some { m with ofbVlanPcp := v, wildcards := m.wildcards &&& ~~~ofpfwDlVlanPcp }
  | .ethType v => some { m with ofbEthType := v, wildcards := m.wildcards &&& ~~~ofpfwDlType }
  | .ipDscp v => some { m with ofbIpDscp := v, wildcards := m.wildcards &&& ~~~ofpfwNwTos }
  | .ipProto v => some { m with ofbIpProto := v, wildcards := m.wildcards &&& ~~~ofpfwNwProto }
  | .ipv4Src v => some { m with ofbIpv4Src := v, wildcards := m.wildcards &&& ~~~ofpfwNwSrcAll }
  | .ipv4Dst v => some { m with ofbIpv4Dst := v, wildcards := m.wildcards &&& ~~~ofpfwNwDstAll }
  | .tcpSrc v => some { m with ofbTpSrc := v, wildcards := m.wildcards &&& ~~~ofpfwTpSrc }
  | .tcpDst v => some { m with ofbTpDst := v, wildcards := m.wildcards &&& ~~~ofpfwTpDst }
  | .udpSrc v => some { m with ofbTpSrc := v, wildcards := m.wildcards &&& ~~~ofpfwTpSrc }
  | .udpDst v => some { m with ofbTpDst := v, wildcards := m.wildcards &&& ~~~ofpfwTpDst }
  | .arpOp v => some { m with ofbArpOp := v }
  | .arpSpa v => some { m with ofbArpSpa := v }
  | .arpTpa v => some { m with ofbArpTpa := v }
  | .arpSha v => some { m with ofbArpSha := v }
  | .arpTha v => some { m with ofbArpTha := v }
  -- the source clears the bits of the field number 36 here, not the bit `OFPFW_TAG`
  | .tag v => some { m with ofbTag := v, wildcards := m.wildcards &&& ~~~ofpxmtOfbTag }
  | .unsupported _ => none

def setFields (m : OxmBasicMatch) (fields : List OxmField) : Option OxmBasicMatch :=
  fields.foldlM setField m

end TsnReconfig.OpenFlow
