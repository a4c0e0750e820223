import TsnReconfig.OpenFlow.Addresses
import TsnReconfig.OpenFlow.FlowTable

/-!
# Flow tables as XML

`exportToXML` and `importFromXML` of `OF_FlowTable` and its entries. The text is kept as the
element that the parser makes of it, with the texts of the attributes.
-/

namespace TsnReconfig.OpenFlow

open Lib

/-- `cXMLElement`. -/
inductive XMLElement
  | mk (tagName : String) (attributes : List (String × String)) (children : List XMLElement)
  deriving Repr

namespace XMLElement

def tagName : XMLElement → String
  | mk tagName _ _ => tagName

def getAttribute (name : String) : XMLElement → Option String
  | mk _ attributes _ => attributes.lookup name

def getChildrenByTagName (name : String) : XMLElement → List XMLElement
  | mk _ _ children => children.filter (·.tagName = name)

def getFirstChildWithTag (name : String) (xml : XMLElement) : Option XMLElement :=
  (xml.getChildrenByTagName name).head?

def getFirstChildWithAttribute (tagName name value : String) (xml : XMLElement) :
    Option XMLElement :=
  (xml.getChildrenByTagName tagName).find? (·.getAttribute name == some value)

end XMLElement

/-- An attribute that is written under a condition. -/
def attributeIf (condition : Bool) (name value : String) : List (String × String) :=
  if condition then [(name, value)] else []

namespace OxmBasicMatch

/-- The `match` element of `OF100_FlowTableEntry::exportToXML`. -/
def exportToXML (m : OxmBasicMatch) : XMLElement :=
  let w := m.wildcards
  .mk "match"
    (attributeIf (!wildcarded w ofpfwInPort) "in_port" (toString (m.ofbInPort.toNat : ℤ)) ++
    attributeIf (m.ofbEthDst ≠ 0 && !wildcarded w ofpfwDlDst) "dl_dst"
      (MACAddress.str m.ofbEthDst) ++
    attributeIf (m.ofbEthSrc ≠ 0 && !wildcarded w ofpfwDlSrc) "dl_src"
      (MACAddress.str m.ofbEthSrc) ++
    attributeIf (!wildcarded w ofpfwDlVlan) "dl_vlan" (toString (m.ofbVlanVid.toNat : ℤ)) ++
    attributeIf (!wildcarded w ofpfwDlVlanPcp) "dl_vlan_pcp"
      (toString (m.ofbVlanPcp.toNat : ℤ)) ++
    attributeIf (!wildcarded w ofpfwDlType) "dl_type" (toString (m.ofbEthType.toNat : ℤ)) ++
    attributeIf (!wildcarded w ofpfwNwProto) "nw_proto" (toString (m.ofbIpProto.toNat : ℤ)) ++
    attributeIf (m.ofbIpv4Src ≠ 0 && !wildcarded w ofpfwNwSrcAll) "nw_src"
      (IPv4Address.str m.ofbIpv4Src) ++
    attributeIf (m.ofbIpv4Dst ≠ 0 && !wildcarded w ofpfwNwDstAll) "nw_dst"
      (IPv4Address.str m.ofbIpv4Dst) ++
    attributeIf (!wildcarded w ofpfwTpSrc) "tp_src" (toString (m.ofbTpSrc.toNat : ℤ)) ++
    attributeIf (!wildcarded w ofpfwTpDst) "tp_dst" (toString (m.ofbTpDst.toNat : ℤ)) ++
    [("wildcards", toString (w.toNat : ℤ))]) []

/-- The match of a new entry: its addresses are unspecified and the numbers whatever the memory
held. -/
def uninitialized (memory : OxmBasicMatch) : OxmBasicMatch :=
  { memory with
    ofbEthSrc := 0
    ofbEthDst := 0
    ofbIpv4Src := 0
    ofbIpv4Dst := 0
    ofbArpSpa := 0
    ofbArpTpa := 0
    ofbArpSha := 0
    ofbArpTha := 0 }

/-- The part of `OF100_FlowTableEntry(cXMLElement *)` for the match, which throws for an address
that cannot be read. -/
def importFromXML (m : OxmBasicMatch) (xmlMatch : XMLElement) : Option OxmBasicMatch := do
  let ethSrc ← (xmlMatch.getAttribute "dl_src").elim (some m.ofbEthSrc) MACAddress.tryParse
  let ethDst ← (xmlMatch.getAttribute "dl_dst").elim (some m.ofbEthDst) MACAddress.tryParse
  let ipv4Src ← (xmlMatch.getAttribute "nw_src").elim (some m.ofbIpv4Src) IPv4Address.parseIPAddress
  let ipv4Dst ← (xmlMatch.getAttribute "nw_dst").elim (some m.ofbIpv4Dst) IPv4Address.parseIPAddress
  return { m with
    ofbInPort := (xmlMatch.getAttribute "in_port").elim m.ofbInPort fun v => .ofInt (atoi v)
    ofbEthSrc := ethSrc
    ofbEthDst := ethDst
    ofbVlanVid := (xmlMatch.getAttribute "dl_vlan").elim m.ofbVlanVid fun v => .ofInt (atoi v)
    ofbVlanPcp := (xmlMatch.getAttribute "dl_vlan_pcp").elim m.ofbVlanPcp fun v => .ofInt (atoi v)
    ofbEthType := (xmlMatch.getAttribute "dl_type").elim m.ofbEthType fun v => .ofInt (atoi v)
    ofbIpProto := (xmlMatch.getAttribute "nw_proto").elim m.ofbIpProto fun v => .ofInt (atoi v)
    ofbIpv4Src := ipv4Src
    ofbIpv4Dst := ipv4Dst
    ofbTpSrc := (xmlMatch.getAttribute "tp_src").elim m.ofbTpSrc fun v => .ofInt (atoi v)
    ofbTpDst := (xmlMatch.getAttribute "tp_dst").elim m.ofbTpDst fun v => .ofInt (atoi v)
    wildcards := (xmlMatch.getAttribute "wildcards").elim m.wildcards fun v => .ofInt (atoi v) }

end OxmBasicMatch

namespace FlowTableEntry

/-- An action of `exportToXML`: the port is written as an `int`. -/
def exportAction (port : UInt32) : XMLElement :=
  .mk "action_output" [("port", toString ((port.toNat : ℤ).bmod 4294967296))] []

/-- `OF100_FlowTableEntry::exportToXML`. -/
def exportToXML (e : FlowTableEntry) : XMLElement :=
  .mk "flowEntry"
    [("hardTimeout", toString e.hardTimeout), ("idleTimeout", toString e.idleTimeout),
      ("cookie", toString (e.cookie.toNat : ℤ)), ("priority", toString e.priority),
      ("flags", toString (e.flags.toNat : ℤ))]
    (e.oxmMatch.exportToXML ::
      if e.instructions.isEmpty then []
      else [.mk "instructions" [] (e.instructions.map exportAction)])

/-- `OF100_FlowTableEntry(cXMLElement *)` for a new object; `memory` is what its memory held. An
entry without instructions dereferences a null pointer. -/
def ofXML (now : SimTime) (memory : FlowTableEntry) (xmlDoc : XMLElement) :
    Option FlowTableEntry := do
  let oxmMatch ← (xmlDoc.getFirstChildWithTag "match").elim
    (some memory.oxmMatch.uninitialized) memory.oxmMatch.uninitialized.importFromXML
  let xmlInstructions ← xmlDoc.getFirstChildWithTag "instructions"
  let instructions ← (xmlInstructions.getChildrenByTagName "action_output").mapM fun xml =>
    (xml.getAttribute "port").map fun v => UInt32.ofInt (atoi v)
  return {
    addr := memory.addr
    creationTime := now
    lastMatched := now
    hardTimeout := (xmlDoc.getAttribute "hardTimeout").elim memory.hardTimeout atoi
    idleTimeout := (xmlDoc.getAttribute "idleTimeout").elim memory.idleTimeout atoi
    cookie := (xmlDoc.getAttribute "cookie").elim memory.cookie fun v => .ofInt (atoi v)
    priority := (xmlDoc.getAttribute "priority").elim memory.priority atoi
    flags := (xmlDoc.getAttribute "flags").elim memory.flags fun v => .ofInt (atoi v)
    oxmMatch := oxmMatch
    instructions := instructions }

end FlowTableEntry

/-- The objects that `new` returns one after the other, with what their memory held. They are at
different addresses, as none of them is deleted. -/
structure Heap where
  object : ℕ → FlowTableEntry
  distinct : ∀ i j, (object i).addr = (object j).addr → i = j

namespace FlowTable

/-- `exportToXML`. -/
def exportToXML (t : FlowTable) (tableIndex : Int32) : XMLElement :=
  .mk "flowTable" [("index", toString tableIndex.toInt)] (t.entries.map (·.exportToXML))

/-- The loop of `importFromXML`, with its counter. -/
def importEntries (now : SimTime) (heap : Heap) : ℕ → List XMLElement → FlowTable → Option FlowTable
  | _, [], t => some t
  | i, xml :: xmlFlows, t => do
    let entry ← FlowTableEntry.ofXML now (heap.object i) xml
    importEntries now heap (i + 1) xmlFlows (t.addEntry now entry).2

/-- `importFromXML`. -/
def importFromXML (t : FlowTable) (tableIndex : Int32) (now : SimTime) (heap : Heap)
    (xmlDoc : XMLElement) : Option FlowTable :=
  match xmlDoc.getAttribute "index" with
  | some value =>
    if atoi value ≠ tableIndex.toInt then some t
    else importEntries now heap 0 (xmlDoc.getChildrenByTagName "flowEntry") t
  | none => some t

end FlowTable

end TsnReconfig.OpenFlow
