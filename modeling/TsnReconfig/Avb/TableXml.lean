import TsnReconfig.Avb.SRPTable
import TsnReconfig.OpenFlow.TableXml

/-!
# SRP tables as XML

`exportToXML` and `importFromXML` of `SRPTable`, for modules with a path. The text is kept as the
element that the parser makes of it.
-/

namespace TsnReconfig.Avb

open Lib OpenFlow

/-- `SR_CLASStoString`. -/
def SRClass.str : SRClass → String
  | .A => "A"
  | .B => "B"

/-- The class of an imported talker, compared with `strcmp`. -/
def SRClass.parse (value : String) : Option SRClass :=
  if value = "A" then some .A else if value = "B" then some .B else none

variable {M : Type*}

/-- A `talkerEntry` of `exportToXML`. -/
def TalkerEntry.exportToXML (getFullPath : M → String) (streamId : UInt64) (e : TalkerEntry M) :
    XMLElement :=
  .mk "talkerEntry"
    [("stream_id", toString (streamId.toNat : ℤ)), ("srClass", e.srClass.str),
      ("address", MACAddress.str e.address), ("module", getFullPath e.module),
      ("framesize", toString (e.framesize.toNat : ℤ)),
      ("intervalFrames", toString (e.intervalFrames.toNat : ℤ)),
      ("pcp", toString (e.pcp.toNat : ℤ))] []

namespace SRPTable

/-- A `talkerTable` of `exportToXML`. -/
def exportTalkerTable (getFullPath : M → String) (vid : UInt16)
    (table : Table UInt64 (TalkerEntry M)) : XMLElement :=
  .mk "talkerTable" [("vlan_id", toString (vid.toNat : ℤ))]
    (table.entries.map fun e => e.2.exportToXML getFullPath e.1)

/-- The `listeners` of a stream in `exportToXML`. -/
def exportListeners (getFullPath : M → String) (streamId : UInt64) (list : Table M ListenerEntry) :
    XMLElement :=
  .mk "listeners" [("stream_id", toString (streamId.toNat : ℤ))]
    (list.entries.map fun e => .mk "listenerEntry" [("module", getFullPath e.1)] [])

/-- A `listenerTable` of `exportToXML`. -/
def exportListenerTable (getFullPath : M → String) (vid : UInt16)
    (table : Table UInt64 (Table M ListenerEntry)) : XMLElement :=
  .mk "listenerTable" [("vlan_id", toString (vid.toNat : ℤ))]
    (table.entries.map fun list => exportListeners getFullPath list.1 list.2)

/-- `exportToXML`. -/
def exportToXML (getFullPath : M → String) (t : SRPTable M) : XMLElement :=
  .mk "srpTable" []
    ((t.talkerTables.entries.map fun table => exportTalkerTable getFullPath table.1 table.2) ++
      t.listenerTables.entries.map fun table => exportListenerTable getFullPath table.1 table.2)

/-! ## Import -/

variable [DecidableEq M] (getModuleByPath : String → Option M) (modulePrefix : String)

/-- A pass of the loop over the talkers of a VLAN, with whether the table was updated. Its second
value tells whether it leaves the loop. -/
def importTalkerEntry (now : SimTime) (vid : UInt16) (s : Bool × SRPTable M) (xml : XMLElement) :
    Option ((Bool × SRPTable M) × Bool) :=
  match xml.getAttribute "stream_id", xml.getAttribute "srClass" with
  | some streamId, some srClass =>
    match SRClass.parse srClass with
    | none => some (s, true)
    | some srClass =>
      match xml.getAttribute "address" with
      | none => some (s, false)
      | some address => (MACAddress.tryParse address).bind fun address =>
        if address = 0 then some (s, true)
        else
          match (xml.getAttribute "module").bind (getModuleByPath <| modulePrefix ++ ·),
            xml.getAttribute "framesize", xml.getAttribute "intervalFrames",
            xml.getAttribute "pcp" with
          | some module, some framesize, some intervalFrames, some pcp =>
            (s.2.updateTalkerWithStreamId now (.ofInt (atoi streamId)) module address srClass
              (.ofInt (atoi framesize)) (.ofInt (atoi intervalFrames)) vid (.ofInt (atoi pcp))
              true).map fun r => ((true, r.2), false)
          | _, _, _, _ => some (s, false)
  | _, _ => some (s, false)

/-- The loop over the talkers of a VLAN. -/
def importTalkerEntries (now : SimTime) (vid : UInt16) :
    List XMLElement → Bool × SRPTable M → Option (Bool × SRPTable M)
  | [], s => some s
  | xml :: talkerEntries, s =>
    (importTalkerEntry getModuleByPath modulePrefix now vid s xml).bind fun r =>
      if r.2 then some r.1 else importTalkerEntries now vid talkerEntries r.1

def importTalkerTable (now : SimTime) (s : Bool × SRPTable M) (xml : XMLElement) :
    Option (Bool × SRPTable M) :=
  match xml.getAttribute "vlan_id" with
  | none => some s
  | some vid => importTalkerEntries getModuleByPath modulePrefix now (.ofInt (atoi vid))
    (xml.getChildrenByTagName "talkerEntry") s

def importListenerEntry (agingTime now : SimTime) (vid : UInt16) (streamId : UInt64)
    (s : Bool × SRPTable M) (xml : XMLElement) : Option (Bool × SRPTable M) :=
  match (xml.getAttribute "module").bind (getModuleByPath <| modulePrefix ++ ·) with
  | none => some s
  | some module =>
    (s.2.updateListenerWithStreamId agingTime now streamId module vid true).map fun r =>
      (true, r.2)

def importListeners (agingTime now : SimTime) (vid : UInt16) (s : Bool × SRPTable M)
    (xml : XMLElement) : Option (Bool × SRPTable M) :=
  match xml.getAttribute "stream_id" with
  | none => some s
  | some streamId => (xml.getChildrenByTagName "listenerEntry").foldlM
    (importListenerEntry getModuleByPath modulePrefix agingTime now vid (.ofInt (atoi streamId))) s

def importListenerTable (agingTime now : SimTime) (s : Bool × SRPTable M) (xml : XMLElement) :
    Option (Bool × SRPTable M) :=
  match xml.getAttribute "vlan_id" with
  | none => some s
  | some vid => (xml.getChildrenByTagName "listeners").foldlM
    (importListeners getModuleByPath modulePrefix agingTime now (.ofInt (atoi vid))) s

/-- `importFromXML`, with whether the table was updated. -/
def importFromXML (agingTime now : SimTime) (t : SRPTable M) (xml : XMLElement) :
    Option (Bool × SRPTable M) :=
  let modulePrefix := (xml.getAttribute "modulePrefix").elim "" (· ++ ".")
  ((xml.getChildrenByTagName "talkerTable").foldlM
    (importTalkerTable getModuleByPath modulePrefix now) (false, t)).bind fun s =>
  (xml.getChildrenByTagName "listenerTable").foldlM
    (importListenerTable getModuleByPath modulePrefix agingTime now) s

end SRPTable

end TsnReconfig.Avb
