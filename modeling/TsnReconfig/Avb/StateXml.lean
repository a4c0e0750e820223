import TsnReconfig.Avb.AVBLearningControllerApp
import TsnReconfig.Avb.RoundTrip
import TsnReconfig.Lib.Xml

/-!
# The state of the learning controller as XML

`stateToXML` with the text of every export, and `loadOfflineConfigFromXML`.
-/

namespace TsnReconfig.Avb

open Lib OpenFlow Xml

/-- What the controller knows of a switch: its `getMacAddress`, empty until the switch has told it,
and the paths of the modules for its ports. -/
structure SwitchNames (S : Type*) where
  macAddress : S → Option MACAddress
  getFullPath : S → Port → String
  getModuleByPath : S → String → Option Port

/-- `getMacAddress` of `Switch_Info`. -/
def SwitchNames.getMacAddress {S : Type*} (names : SwitchNames S) (swinfo : S) : String :=
  (names.macAddress swinfo).elim "" MACAddress.str

def tab : String := "    "

/-! ## Export -/

namespace SRPTable
variable (getFullPath : Port → String)

/-- The text of a `talkerEntry`. -/
def talkerEntryText (e : UInt64 × TalkerEntry Port) : String :=
  tab ++ tab ++ "<talkerEntry" ++ " stream_id=\"" ++ toString (e.1.toNat : ℤ) ++ "\"" ++
    " srClass=\"" ++ e.2.srClass.str ++ "\"" ++
    " address=\"" ++ MACAddress.str e.2.address ++ "\"" ++
    " module=\"" ++ getFullPath e.2.module ++ "\"" ++
    " framesize=\"" ++ toString (e.2.framesize.toNat : ℤ) ++ "\"" ++
    " intervalFrames=\"" ++ toString (e.2.intervalFrames.toNat : ℤ) ++ "\"" ++
    " pcp=\"" ++ toString (e.2.pcp.toNat : ℤ) ++ "\"" ++ " />\n"

/-- The text of a `talkerTable`. -/
def talkerTableText (table : UInt16 × Table UInt64 (TalkerEntry Port)) : String :=
  tab ++ "<talkerTable vlan_id=\"" ++ toString (table.1.toNat : ℤ) ++ "\">\n" ++
    concat (table.2.entries.map (talkerEntryText getFullPath)) ++ tab ++ "</talkerTable>\n"

/-- The text of a `listenerEntry`. -/
def listenerEntryText (e : Port × ListenerEntry) : String :=
  tab ++ tab ++ tab ++ "<listenerEntry " ++ " module=\"" ++ getFullPath e.1 ++ "\" " ++ " />\n"

/-- The text of the `listeners` of a stream. -/
def listenersText (list : UInt64 × Table Port ListenerEntry) : String :=
  tab ++ tab ++ "<listeners stream_id=\"" ++ toString (list.1.toNat : ℤ) ++ "\">\n" ++
    concat (list.2.entries.map (listenerEntryText getFullPath)) ++ tab ++ tab ++ "</listeners>\n"

/-- The text of a `listenerTable`. -/
def listenerTableText (table : UInt16 × Table UInt64 (Table Port ListenerEntry)) : String :=
  tab ++ "<listenerTable vlan_id=\"" ++ toString (table.1.toNat : ℤ) ++ "\">\n" ++
    concat (table.2.entries.map (listenersText getFullPath)) ++ tab ++ "</listenerTable>\n"

/-- The text that `exportToXML` returns. -/
def text (t : SRPTable Port) : String :=
  "<srpTable>\n" ++ concat (t.talkerTables.entries.map (talkerTableText getFullPath)) ++
    concat (t.listenerTables.entries.map (listenerTableText getFullPath)) ++ "</srpTable>\n"

end SRPTable

namespace SRPTableManagement
variable {S : Type*} (names : SwitchNames S) (manager : SRPTableManagement S)

/-- The text of the table of a switch. The value of the attribute is not closed. -/
def tableText (x : S × SRPTable Port) : String :=
  "<table switch_id=\"" ++ names.getMacAddress x.1 ++ ">\n" ++
    x.2.text (names.getFullPath x.1) ++ "</table>\n"

/-- `exportToXML`. -/
def exportToXML : String :=
  "<srpManager>\n" ++ concat (manager.srpTables.entries.map (tableText names)) ++ "</srpManager>\n"

end SRPTableManagement

namespace AVBLearningControllerApp
variable {S : Type*} (names : SwitchNames S) (app : AVBLearningControllerApp S)

/-- The text of an entry of a MAC table. -/
def entryText (e : MACAddress × UInt32) : String :=
  tab ++ tab ++ tab ++ tab ++ "<entry mac=\"" ++ MACAddress.str e.1 ++ "\" port=\"" ++
    toString (e.2.toNat : ℤ) ++ "\" />\n"

/-- The text of the MAC table of a switch. -/
def mactableText (x : S × Table MACAddress UInt32) : String :=
  tab ++ tab ++ tab ++ "<mactable switch_id=\"" ++ names.getMacAddress x.1 ++ "\">\n" ++
    concat (x.2.entries.map entryText) ++ tab ++ tab ++ tab ++ "</mactable>\n"

def stateToXML : String :=
  "<config>\n" ++ tab ++ "<controllerapp type=\"AVBLearningControllerApp\">\n" ++
    tab ++ tab ++ "<macManager>\n" ++ concat (app.lookupTable.entries.map (mactableText names)) ++
    tab ++ tab ++ "</macManager>\n" ++ app.srpManager.exportToXML names ++
    tab ++ "</controllerapp>\n" ++ "</config>\n"

end AVBLearningControllerApp

/-! ## Import -/

namespace SRPTableManagement
variable {S : Type*} [DecidableEq S] (names : SwitchNames S) (now : SimTime) (swinfo : S)

/-- The loop over the tables, which ends at the one of the switch. A table without the attribute is
dereferenced. -/
def importTables (manager : SRPTableManagement S) :
    List XMLElement → Option (Bool × SRPTableManagement S)
  | [] => some (false, manager)
  | table :: tables =>
    (table.getAttribute "switch_id").bind fun switchId =>
    if switchId = names.getMacAddress swinfo then
      match table.getFirstChildWithTag "srpTable" with
      | some srp =>
        ((manager.srpTable swinfo).importFromXML (names.getModuleByPath swinfo) manager.agingTime
          now srp).map fun r => (r.1, manager.setTable swinfo r.2)
      | none => importTables manager tables
    else importTables manager tables

/-- `importFromXML`. -/
def importFromXML (manager : SRPTableManagement S) (xml : XMLElement) :
    Option (Bool × SRPTableManagement S) :=
  if xml.tagName = "srpManager" then
    importTables names now swinfo manager (xml.getChildrenByTagName "table")
  else some (false, manager)

end SRPTableManagement

namespace AVBLearningControllerApp
variable {S : Type*} [DecidableEq S] (names : SwitchNames S) (now : SimTime) (info : S)

/-- A pass of the loop over the entries of a MAC table, with whether one was inserted. An address
that cannot be read throws. -/
def loadEntry (s : Bool × AVBLearningControllerApp S) (xml : XMLElement) :
    Option (Bool × AVBLearningControllerApp S) :=
  ((xml.getAttribute "mac").bind MACAddress.tryParse).bind fun mac =>
  if mac = 0 then some s
  else
    match xml.getAttribute "port" with
    | none => some s
    | some portC =>
      let macTable := s.2.lookupTable.get info
      if (macTable.find mac).isSome then some s
      else
        let macTable := macTable.set mac (.ofInt (atoi portC))
        some (true, { s.2 with lookupTable := s.2.lookupTable.set info macTable })

/-- `loadOfflineConfigFromXML`. -/
def loadOfflineConfigFromXML (xmlDoc : XMLElement) (app : AVBLearningControllerApp S) :
    Option (Bool × AVBLearningControllerApp S) :=
  match xmlDoc.getFirstChildWithAttribute "controllerapp" "type" "AVBLearningControllerApp" with
  | none => some (false, app)
  | some controllerXML =>
    let entries := ((controllerXML.getFirstChildWithTag "macManager").bind
      (·.getFirstChildWithAttribute "mactable" "switch_id" (names.getMacAddress info))).elim []
      (·.getChildrenByTagName "entry")
    (entries.foldlM (loadEntry info) (false, app)).bind fun s =>
    match controllerXML.getFirstChildWithTag "srpManager" with
    | none => some s
    | some srpManagerXML =>
      (s.2.srpManager.importFromXML names now info srpManagerXML).map fun r =>
        (s.1, { s.2 with srpManager := r.2 })

end AVBLearningControllerApp

end TsnReconfig.Avb
