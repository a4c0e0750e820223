import TsnReconfig.Controller.ConfigurationEngine
import TsnReconfig.Lib.Lists
import TsnReconfig.Lib.System

/-!
# The switch table of the controller

`OF_Controller` from the first `OFPT_HELLO` to the tables it builds when the topology is
extracted. A function returns `none` where the source throws or reads behind a list.
-/

namespace TsnReconfig.Controller
open Lib OpenFlow

/-- A node of `_topology`, with what `extractTopology` asks its module for: whether its full
name contains `switch`, and the address of its interface 0. -/
structure TopologyNode extends Node where
  isSwitch : Bool
  macAddress : MACAddress
  deriving DecidableEq, Repr

/-- `Switch_Info` while the tables are built. The socket is the one of connection `connId`;
the address is `""` before the features reply, and nothing sets the topology index before
`extractTopology`. -/
structure SwitchRecord where
  connId : ℕ
  macAddress : Option MACAddress
  topoIndex : Option ℕ
  connectedHostIndexes : List ℕ
  deriving DecidableEq, Repr

/-- `OF_Controller`. An assignment to a table puts the new entry before the older ones. -/
structure OFController where
  switchesList : List SwitchRecord
  switchIndexes : List Int
  hostsList : List HostProfile
  hostIndexes : List Int
  switchInfoTable : List (Int × SwitchRecord)
  hostProfileTable : List (Int × HostProfile)
  deriving DecidableEq, Repr

namespace OFController

def start : OFController := ⟨[], [], [], [], [], []⟩

/-! ## The handshake -/

/-- `registerConnection`. -/
def registerConnection (c : OFController) (connId : ℕ) : OFController :=
  if c.switchesList.any (·.connId == connId) then c
  else { c with switchesList := c.switchesList ++ [⟨connId, none, none, []⟩] }

/-- `handleFeaturesReply`; without a record of the connection it writes to a null pointer. -/
def handleFeaturesReply (c : OFController) (connId : ℕ) (datapathId : MACAddress) :
    Option OFController :=
  if c.switchesList.any (·.connId == connId) then
    some { c with
      switchesList := c.switchesList.map fun s =>
        if s.connId = connId then { s with macAddress := some datapathId } else s }
  else none

/-! ## The topology -/

/-- The loops of `extractTopology` over `switchesList`: they change the first record with the
address. `MACAddress("")` throws. -/
def updateSwitch (mac : MACAddress) (f : SwitchRecord → SwitchRecord) :
    List SwitchRecord → Option (List SwitchRecord)
  | [] => some []
  | s :: rest => do
    let address ← s.macAddress
    if address = mac then return f s :: rest
    else return s :: (← updateSwitch mac f rest)

/-- `getTopoIndex`, for the module id of a node. -/
def getTopoIndex (topology : List TopologyNode) (moduleId : Int) : ℕ :=
  topology.findIdx (·.moduleId == moduleId)

/-- The node behind the first incoming link of a host that comes from a switch. -/
def connectedSwitch (topology : List TopologyNode) (host : TopologyNode) : Option TopologyNode :=
  (host.linksIn.filterMap fun l => topology.find? (·.moduleId == l.remoteModuleId)).find?
    (·.isSwitch)

section
variable (topology : List TopologyNode) (memory : ℕ)

/-- One round of the loop of `extractTopology`; `memory` is what `connectedSw_topo_index`
holds when nothing sets it. -/
def extractNode (c : OFController) (node : TopologyNode) (i : ℕ) : Option OFController :=
  if node.isSwitch then do
    let switchesList ← updateSwitch node.macAddress
      (fun s => { s with topoIndex := some i }) c.switchesList
    return { c with
      switchIndexes := c.switchIndexes ++ [node.moduleId]
      switchesList := switchesList }
  else
    let c := { c with hostIndexes := c.hostIndexes ++ [node.moduleId] }
    match connectedSwitch topology node with
    | some remote => do
      let switchesList ← updateSwitch remote.macAddress
        (fun s => { s with connectedHostIndexes := s.connectedHostIndexes ++ [i] }) c.switchesList
      return { c with
        switchesList := switchesList
        hostsList := c.hostsList ++
          [⟨node.macAddress, getTopoIndex topology remote.moduleId, i⟩] }
    | none => return { c with hostsList := c.hostsList ++ [⟨node.macAddress, memory, i⟩] }

/-- The loop of `extractTopology` over the nodes from index `i` on. -/
def extractNodes (c : OFController) : List TopologyNode → ℕ → Option OFController
  | [], _ => some c
  | node :: rest, i => do extractNodes (← c.extractNode topology memory node i) rest (i + 1)

/-- `extractTopology`. -/
def extractTopology (c : OFController) : Option OFController :=
  c.extractNodes topology memory topology 0

/-- The assignments `table[keys[j]] = values[j]`. -/
def fillTable {α : Type} (keys : List Int) (values : List α) : Option (List (Int × α)) :=
  if values.length ≤ keys.length then some (keys.zip values).reverse else none

/-- `extractSwitchInfoTable`. -/
def extractSwitchInfoTable (c : OFController) : Option OFController := do
  return { c with switchInfoTable := ← fillTable c.switchIndexes c.switchesList }

/-- `extractHostProfileTable`. -/
def extractHostProfileTable (c : OFController) : Option OFController := do
  return { c with hostProfileTable := ← fillTable c.hostIndexes c.hostsList }

/-- `handleMessage` of `MSGKIND_EXTRACT_TOPO`. -/
def handleExtractTopo (c : OFController) : Option OFController := do
  (← (← c.extractTopology topology memory).extractSwitchInfoTable).extractHostProfileTable

end

/-- `ConfigurationEngine::findRelatedSwitchSocket`. -/
def findRelatedSwitchSocket (c : OFController) (moduleId : Int) : Option ℕ :=
  (c.switchInfoTable.lookup moduleId).map SwitchRecord.connId

/-- What the apps see of the tables. -/
def tables (c : OFController) (topology : List TopologyNode) : ControllerTables where
  topology := topology.map TopologyNode.toNode
  switchInfoTable := c.switchInfoTable.map fun p => (p.1, ⟨p.2.topoIndex.getD 0⟩)
  hostProfileTable := c.hostProfileTable.map Prod.snd

end OFController

/-! ## The switches connect -/

/-- The nodes of a network: module ids are distinct, and so are the addresses of switches. -/
structure NetworkNodes where
  nodes : List TopologyNode
  moduleId_distinct : nodes.Pairwise fun a b => a.moduleId ≠ b.moduleId
  macAddress_distinct :
    nodes.Pairwise fun a b => a.isSwitch → b.isSwitch → a.macAddress ≠ b.macAddress

namespace NetworkNodes
variable (net : NetworkNodes)

/-- The switches with their topology indices, in topology order. -/
def switchNodes : List (TopologyNode × ℕ) := net.nodes.zipIdx.filter (·.1.isSwitch)

def switches : List ℕ := net.switchNodes.map Prod.snd

/-- The address of the node with a topology index. -/
def macAddress (i : ℕ) : Option MACAddress := (net.nodes[i]?).map TopologyNode.macAddress

variable {net} {node node' : TopologyNode} {i j : ℕ}

theorem mem_switchNodes :
    (node, i) ∈ net.switchNodes ↔ net.nodes[i]? = some node ∧ node.isSwitch = true := by
  rw [switchNodes, List.mem_filter, List.mem_zipIdx_iff_getElem?]

theorem macAddress_of_getElem? (h : net.nodes[i]? = some node) :
    net.macAddress i = some node.macAddress := by
  rw [macAddress, h, Option.map_some]

theorem exists_of_mem_switches (h : i ∈ net.switches) :
    ∃ node, net.nodes[i]? = some node ∧ node.isSwitch = true ∧
      net.macAddress i = some node.macAddress := by
  obtain ⟨⟨node, _⟩, hmem, rfl⟩ := List.mem_map.mp h
  obtain ⟨hi, hsw⟩ := mem_switchNodes.mp hmem
  exact ⟨node, hi, hsw, macAddress_of_getElem? hi⟩

theorem moduleId_inj (hi : net.nodes[i]? = some node) (hj : net.nodes[j]? = some node')
    (h : node.moduleId = node'.moduleId) : i = j := by
  obtain ⟨hilt, rfl⟩ := List.getElem?_eq_some_iff.mp hi
  obtain ⟨hjlt, rfl⟩ := List.getElem?_eq_some_iff.mp hj
  have hpair := List.pairwise_iff_getElem.mp net.moduleId_distinct
  rcases lt_trichotomy i j with hij | hij | hij
  · exact absurd h (hpair i j hilt hjlt hij)
  · exact hij
  · exact absurd h.symm (hpair j i hjlt hilt hij)

/-- A switch is known by its address. -/
theorem macAddress_inj (hi : i ∈ net.switches) (hj : j ∈ net.switches)
    (h : net.macAddress i = net.macAddress j) : i = j := by
  obtain ⟨a, ha, hsa, hma⟩ := exists_of_mem_switches hi
  obtain ⟨b, hb, hsb, hmb⟩ := exists_of_mem_switches hj
  have hmac : a.macAddress = b.macAddress := by
    rw [hma, hmb] at h
    exact Option.some.inj h
  obtain ⟨hilt, rfl⟩ := List.getElem?_eq_some_iff.mp ha
  obtain ⟨hjlt, rfl⟩ := List.getElem?_eq_some_iff.mp hb
  have hpair := List.pairwise_iff_getElem.mp net.macAddress_distinct
  rcases lt_trichotomy i j with hij | hij | hij
  · exact absurd hmac (hpair i j hilt hjlt hij hsa hsb)
  · exact hij
  · exact absurd hmac.symm (hpair j i hjlt hilt hij hsb hsa)

theorem nodup_switches : net.switches.Nodup := by
  have hall : (net.nodes.zipIdx.map Prod.snd).Nodup := by
    rw [List.zipIdx_map_snd]
    exact List.nodup_range'
  exact hall.sublist (List.filter_sublist.map _)

theorem nodup_moduleIds : (net.switchNodes.map (·.1.moduleId)).Nodup := by
  have hall : (net.nodes.zipIdx.map (·.1.moduleId)).Nodup := by
    have hids : (net.nodes.map (·.moduleId)).Nodup := List.pairwise_map.mpr net.moduleId_distinct
    rwa [← List.zipIdx_map_fst 0 net.nodes, List.map_map] at hids
  exact hall.sublist (List.filter_sublist.map _)

end NetworkNodes

/-- The controller with the connections the switches opened to it, in their order: topology
index and connection id. The switches in `answered` have sent their features reply. -/
structure Boot where
  controller : OFController
  connections : List (ℕ × ℕ)
  answered : List ℕ
  deriving DecidableEq, Repr

inductive BootEvent
  | hello (sw connId : ℕ)
  | featuresReply (sw : ℕ)
  deriving DecidableEq, Repr

namespace Boot

def step (net : NetworkNodes) (s : Boot) : BootEvent → Option Boot
  | .hello sw connId =>
    if sw ∈ net.switches ∧ sw ∉ s.connections.map Prod.fst ∧
        connId ∉ s.connections.map Prod.snd then
      some { s with
        controller := s.controller.registerConnection connId
        connections := s.connections ++ [(sw, connId)] }
    else none
  | .featuresReply sw => do
    let connId ← s.connections.lookup sw
    let mac ← net.macAddress sw
    if sw ∈ s.answered then none
    else
      return { s with
        controller := ← s.controller.handleFeaturesReply connId mac
        answered := s.answered ++ [sw] }

/-- The handshake between the controller and the switches of a network. -/
def sys (net : NetworkNodes) : System Boot BootEvent where
  init s := s = ⟨.start, [], []⟩
  step := step net

/-- The record of a connection before the topology is extracted. -/
def record (net : NetworkNodes) (answered : List ℕ) (connection : ℕ × ℕ) : SwitchRecord :=
  ⟨connection.2, if connection.1 ∈ answered then net.macAddress connection.1 else none, none, []⟩

/-- The controller's list of switches has their records in the order of the connections. -/
structure Registered (net : NetworkNodes) (s : Boot) : Prop where
  switches : ∀ p ∈ s.connections, p.1 ∈ net.switches
  sw_nodup : (s.connections.map Prod.fst).Nodup
  connId_nodup : (s.connections.map Prod.snd).Nodup
  switchesList : s.controller.switchesList = s.connections.map (record net s.answered)
  answered : ∀ i ∈ s.answered, i ∈ s.connections.map Prod.fst
  tables : s.controller = { OFController.start with switchesList := s.controller.switchesList }

theorem registered_hello {net : NetworkNodes} {s : Boot} (h : Registered net s) {sw connId : ℕ}
    (hsw : sw ∈ net.switches) (hnew : sw ∉ s.connections.map Prod.fst)
    (hconn : connId ∉ s.connections.map Prod.snd) :
    Registered net { s with
      controller := s.controller.registerConnection connId
      connections := s.connections ++ [(sw, connId)] } := by
  have hfresh : s.controller.switchesList.any (·.connId == connId) = false := by
    rw [h.switchesList, List.any_eq_false]
    intro r hr hk
    obtain ⟨p, hp, rfl⟩ := List.mem_map.mp hr
    exact hconn (List.mem_map.mpr ⟨p, hp, by simpa [record] using hk⟩)
  have hunanswered : sw ∉ s.answered := fun hmem => hnew (h.answered sw hmem)
  have hc : s.controller.registerConnection connId = { s.controller with
      switchesList := s.controller.switchesList ++ [⟨connId, none, none, []⟩] } := by
    simp only [OFController.registerConnection, hfresh, Bool.false_eq_true, if_false]
  rw [hc]
  constructor
  · intro p hp
    rcases List.mem_append.mp hp with hp | hp
    · exact h.switches p hp
    · obtain rfl := List.mem_singleton.mp hp
      exact hsw
  · simp only [List.map_append, List.map_cons, List.map_nil]
    exact h.sw_nodup.append (List.nodup_singleton _) (by simpa using hnew)
  · simp only [List.map_append, List.map_cons, List.map_nil]
    exact h.connId_nodup.append (List.nodup_singleton _) (by simpa using hconn)
  · simp [h.switchesList, record, hunanswered]
  · intro i hi
    simp [h.answered i hi]
  · rw [h.tables]

theorem registered_featuresReply {net : NetworkNodes} {s : Boot} (h : Registered net s)
    {sw connId : ℕ} {mac : MACAddress} {c : OFController} (hp : (sw, connId) ∈ s.connections)
    (hmac : net.macAddress sw = some mac)
    (hc : s.controller.handleFeaturesReply connId mac = some c) :
    Registered net { s with controller := c, answered := s.answered ++ [sw] } := by
  simp only [OFController.handleFeaturesReply] at hc
  split_ifs at hc
  obtain rfl := Option.some.inj hc
  refine ⟨h.switches, h.sw_nodup, h.connId_nodup, ?_, ?_, ?_⟩
  · simp only [h.switchesList, List.map_map]
    apply List.map_congr_left
    intro p hp'
    -- the switch and the connection determine each other
    have hiff : p.2 = connId ↔ p.1 = sw := by
      constructor
      · intro hk
        exact congrArg Prod.fst (List.inj_on_of_nodup_map h.connId_nodup hp' hp hk)
      · intro hk
        exact congrArg Prod.snd (List.inj_on_of_nodup_map h.sw_nodup hp' hp hk)
    by_cases hk : p.1 = sw
    · simp [record, hiff.mpr hk, hk, hmac]
    · have hne : p.2 ≠ connId := fun hc => hk (hiff.mp hc)
      simp [record, hk, hne]
  · intro i hi
    rcases List.mem_append.mp hi with hi | hi
    · exact h.answered i hi
    · obtain rfl := List.mem_singleton.mp hi
      exact List.mem_map_of_mem hp
  · rw [h.tables]

theorem registered_of_reachable {net : NetworkNodes} {s : Boot} (h : (sys net).Reachable s) :
    Registered net s := by
  refine h.invariant ?_ ?_
  · rintro s rfl
    constructor <;> simp [OFController.start]
  · intro s e s' hs hstep
    cases e with
    | hello sw connId =>
      simp only [sys, step] at hstep
      split_ifs at hstep with hg
      obtain rfl := Option.some.inj hstep
      exact registered_hello hs hg.1 hg.2.1 hg.2.2
    | featuresReply sw =>
      obtain ⟨connId, hlookup, hstep⟩ := Option.bind_eq_some_iff.mp hstep
      obtain ⟨mac, hmac, hstep⟩ := Option.bind_eq_some_iff.mp hstep
      split_ifs at hstep
      obtain ⟨c, hc, hstep⟩ := Option.bind_eq_some_iff.mp hstep
      obtain rfl := Option.some.inj hstep
      exact registered_featuresReply hs ((lookup_eq_some_iff_mem hs.sw_nodup).mp hlookup) hmac hc

end Boot

/-! ## The tables -/

/-- The record of a connection when the nodes with an index below `n` are extracted. -/
structure Extracted (net : NetworkNodes) (n : ℕ) (p : ℕ × ℕ) (r : SwitchRecord) : Prop where
  connId : r.connId = p.2
  macAddress : r.macAddress = net.macAddress p.1
  topoIndex : r.topoIndex = if p.1 < n then some p.1 else none

namespace OFController

/-- Where all records have their own address, a loop changes the record with the address. -/
theorem updateSwitch_eq {mac : MACAddress} {f : SwitchRecord → SwitchRecord}
    {l : List SwitchRecord} (haddress : ∀ r ∈ l, r.macAddress.isSome)
    (hnodup : (l.map SwitchRecord.macAddress).Nodup) :
    updateSwitch mac f l = some (l.map fun r => if r.macAddress = some mac then f r else r) := by
  induction l with
  | nil => rfl
  | cons r l ih =>
    obtain ⟨hr, hl⟩ := List.nodup_cons.mp hnodup
    obtain ⟨address, ha⟩ := Option.isSome_iff_exists.mp (haddress r List.mem_cons_self)
    by_cases hmac : address = mac
    · have hrest : (l.map fun r => if r.macAddress = some mac then f r else r) = l := by
        conv_rhs => rw [← List.map_id l]
        apply List.map_congr_left
        intro r' hr'
        have hne : r'.macAddress ≠ some mac := by
          intro heq
          exact hr (List.mem_map.mpr ⟨r', hr', by rw [heq, ha, hmac]⟩)
        simp [hne]
      simp [updateSwitch, ha, hmac, hrest]
    · have hrest := ih (fun r' hr' => haddress r' (List.mem_cons_of_mem _ hr')) hl
      simp [updateSwitch, ha, hmac, hrest]

section
variable {net : NetworkNodes} {conns : List (ℕ × ℕ)} {n : ℕ} (memory : ℕ)

/-- The loops over the records of connected switches, for the address of a switch. -/
theorem updateSwitch_extracted {l : List SwitchRecord} {mac : MACAddress}
    {f : SwitchRecord → SwitchRecord} (hl : List.Forall₂ (Extracted net n) conns l)
    (hsw : ∀ p ∈ conns, p.1 ∈ net.switches) (hnodup : (conns.map Prod.fst).Nodup) :
    updateSwitch mac f l = some (l.map fun r => if r.macAddress = some mac then f r else r) := by
  have hmacs : l.map SwitchRecord.macAddress = conns.map fun p => net.macAddress p.1 := by
    clear hsw hnodup
    induction hl with
    | nil => rfl
    | cons hr _ ih => rw [List.map_cons, List.map_cons, hr.macAddress, ih]
  apply updateSwitch_eq
  · intro r hr
    obtain ⟨p, hp, hpr⟩ := exists_of_mem_right hl hr
    obtain ⟨node, -, -, hmac⟩ := NetworkNodes.exists_of_mem_switches (hsw p hp)
    rw [hpr.macAddress, hmac, Option.isSome_some]
  · rw [hmacs]
    have hcomp : (conns.map fun p => net.macAddress p.1) =
        (conns.map Prod.fst).map net.macAddress := by
      rw [List.map_map]
      rfl
    rw [hcomp]
    apply hnodup.map_on
    intro i hi j hj heq
    obtain ⟨p, hp, rfl⟩ := List.mem_map.mp hi
    obtain ⟨q, hq, rfl⟩ := List.mem_map.mp hj
    exact NetworkNodes.macAddress_inj (hsw p hp) (hsw q hq) heq

/-- A loop that leaves the records of all other switches alone. -/
theorem forall₂_update {l : List SwitchRecord} {mac : MACAddress}
    {f : SwitchRecord → SwitchRecord} {n' : ℕ}
    (hl : List.Forall₂ (Extracted net n) conns l)
    (hf : ∀ p ∈ conns, ∀ r, Extracted net n p r →
      Extracted net n' p (if net.macAddress p.1 = some mac then f r else r)) :
    List.Forall₂ (Extracted net n') conns
      (l.map fun r => if r.macAddress = some mac then f r else r) := by
  rw [List.forall₂_map_right_iff]
  apply forall₂_imp_of_mem hl
  intro p hp r hr
  rw [hr.macAddress]
  exact hf p hp r hr

/-- What the loop of `extractTopology` has done after the nodes below `n`. -/
structure UpTo (net : NetworkNodes) (conns : List (ℕ × ℕ)) (n : ℕ) (c : OFController) : Prop where
  switchesList : List.Forall₂ (Extracted net n) conns c.switchesList
  switchIndexes : c.switchIndexes =
    ((net.nodes.take n).filter (·.isSwitch)).map (·.moduleId)
  hosts : c.hostsList.length = c.hostIndexes.length

theorem extractNode_upTo {c : OFController} {node : TopologyNode} (h : UpTo net conns n c)
    (hnode : net.nodes[n]? = some node) (hsw : ∀ p ∈ conns, p.1 ∈ net.switches)
    (hnodup : (conns.map Prod.fst).Nodup) :
    ∃ c', c.extractNode net.nodes memory node n = some c' ∧ UpTo net conns (n + 1) c' := by
  have htake : net.nodes.take (n + 1) = net.nodes.take n ++ [node] := by
    rw [List.take_add_one, hnode, Option.toList_some]
  by_cases hs : node.isSwitch = true
  · simp only [extractNode, hs, if_true, updateSwitch_extracted h.switchesList hsw hnodup]
    refine ⟨_, rfl, ?_, ?_, h.hosts⟩
    · apply forall₂_update h.switchesList
      intro p hp r hr
      have hn : n ∈ net.switches :=
        List.mem_map.mpr ⟨(node, n), NetworkNodes.mem_switchNodes.mpr ⟨hnode, hs⟩, rfl⟩
      have hiff : net.macAddress p.1 = some node.macAddress ↔ p.1 = n := by
        rw [← NetworkNodes.macAddress_of_getElem? hnode]
        exact ⟨NetworkNodes.macAddress_inj (hsw p hp) hn, fun heq => by rw [heq]⟩
      by_cases hp : p.1 = n
      · rw [if_pos (hiff.mpr hp)]
        exact ⟨hr.connId, hr.macAddress, by simp [hp]⟩
      · rw [if_neg fun hmac => hp (hiff.mp hmac)]
        refine ⟨hr.connId, hr.macAddress, ?_⟩
        rw [hr.topoIndex]
        have hlt : p.1 < n + 1 ↔ p.1 < n := by omega
        simp only [hlt]
    · simp [htake, h.switchIndexes, hs]
  · -- a host changes no address and no index
    have hsame : ∀ p ∈ conns, ∀ r, Extracted net n p r → Extracted net (n + 1) p r := by
      intro p hp r hr
      refine ⟨hr.connId, hr.macAddress, ?_⟩
      obtain ⟨node', hnode', hs', -⟩ := NetworkNodes.exists_of_mem_switches (hsw p hp)
      have hne : p.1 ≠ n := by
        intro heq
        rw [heq, hnode] at hnode'
        obtain rfl := Option.some.inj hnode'
        exact hs hs'
      rw [hr.topoIndex]
      have hlt : p.1 < n + 1 ↔ p.1 < n := by omega
      simp only [hlt]
    have hindexes : c.switchIndexes =
        ((net.nodes.take (n + 1)).filter (·.isSwitch)).map (·.moduleId) := by
      simp [htake, h.switchIndexes, hs]
    cases hconn : connectedSwitch net.nodes node with
    | none =>
      simp only [extractNode, hs, hconn]
      exact ⟨_, rfl, forall₂_imp_of_mem h.switchesList hsame, hindexes, by simp [h.hosts]⟩
    | some remote =>
      simp only [extractNode, hs, hconn, updateSwitch_extracted h.switchesList hsw hnodup]
      refine ⟨_, rfl, ?_, hindexes, by simp [h.hosts]⟩
      apply forall₂_update h.switchesList
      intro p hp r hr
      obtain ⟨hconnId, hmac, htopo⟩ := hsame p hp r hr
      split_ifs <;> exact ⟨hconnId, hmac, htopo⟩

theorem extractNodes_upTo {c : OFController} {rest : List TopologyNode} (h : UpTo net conns n c)
    (hrest : net.nodes.drop n = rest) (hsw : ∀ p ∈ conns, p.1 ∈ net.switches)
    (hnodup : (conns.map Prod.fst).Nodup) :
    ∃ c', c.extractNodes net.nodes memory rest n = some c' ∧
      UpTo net conns (n + rest.length) c' := by
  induction rest generalizing c n with
  | nil => exact ⟨c, rfl, h⟩
  | cons node rest ih =>
    have hnode : net.nodes[n]? = some node := by
      rw [← List.head?_drop, hrest, List.head?_cons]
    obtain ⟨c₁, hc₁, h₁⟩ := extractNode_upTo memory h hnode hsw hnodup
    have hrest₁ : net.nodes.drop (n + 1) = rest := by
      rw [← List.tail_drop, hrest, List.tail_cons]
    obtain ⟨c', hc', h'⟩ := ih h₁ hrest₁
    refine ⟨c', ?_, ?_⟩
    · rw [extractNodes, hc₁]
      exact hc'
    · rw [List.length_cons, Nat.add_comm rest.length, ← Nat.add_assoc]
      exact h'

end

end OFController

namespace Boot

/-- Every switch is in the table under its module id, with its socket, its address and its
topology index. -/
def Addresses (net : NetworkNodes) (s : Boot) (c : OFController) : Prop :=
  ∀ node i, (node, i) ∈ net.switchNodes →
    ∃ info, c.switchInfoTable.lookup node.moduleId = some info ∧
      c.findRelatedSwitchSocket node.moduleId = some info.connId ∧
      (i, info.connId) ∈ s.connections ∧ info.macAddress = some node.macAddress ∧
      info.topoIndex = some i

variable {net : NetworkNodes} {s : Boot} {memory : ℕ}

/-- When all switches have answered, each of them has one connection. -/
theorem length_connections (h : Registered net s) (hall : ∀ i ∈ net.switches, i ∈ s.answered) :
    s.connections.length = net.switchNodes.length := by
  have hsub : s.connections.map Prod.fst ⊆ net.switches := by
    intro i hi
    obtain ⟨p, hp, rfl⟩ := List.mem_map.mp hi
    exact h.switches p hp
  have hsup : net.switches ⊆ s.connections.map Prod.fst :=
    fun i hi => h.answered i (hall i hi)
  have hle := (List.subperm_of_subset h.sw_nodup hsub).length_le
  have hge := (List.subperm_of_subset NetworkNodes.nodup_switches hsup).length_le
  simpa [NetworkNodes.switches] using le_antisymm hle hge

/-- The tables the controller builds: the switches in topology order are paired with the
records in the order of the connections. -/
theorem handleExtractTopo_eq_some (memory : ℕ) (h : Registered net s)
    (hall : ∀ i ∈ net.switches, i ∈ s.answered) :
    ∃ c, s.controller.handleExtractTopo net.nodes memory = some c ∧
      List.Forall₂ (Extracted net net.nodes.length) s.connections c.switchesList ∧
      c.switchInfoTable =
        ((net.switchNodes.map (·.1.moduleId)).zip c.switchesList).reverse := by
  have hstart : OFController.UpTo net s.connections 0 s.controller := by
    refine ⟨?_, by rw [h.tables]; rfl, by rw [h.tables]; rfl⟩
    rw [h.switchesList, List.forall₂_map_right_iff, List.forall₂_same]
    intro p hp
    exact ⟨rfl, by simp [record, hall p.1 (h.switches p hp)], rfl⟩
  obtain ⟨c, hc, hup⟩ := OFController.extractNodes_upTo memory hstart rfl
    h.switches h.sw_nodup
  rw [List.drop_zero] at hc
  rw [List.drop_zero, Nat.zero_add] at hup
  have hindexes : c.switchIndexes = net.switchNodes.map (·.1.moduleId) := by
    have hfst : net.switchNodes.map Prod.fst = net.nodes.filter (·.isSwitch) := by
      rw [NetworkNodes.switchNodes]
      conv_rhs => rw [← List.zipIdx_map_fst 0 net.nodes, List.filter_map]
      rfl
    rw [hup.switchIndexes, List.take_length, ← hfst, List.map_map]
    rfl
  have hlength : c.switchesList.length = c.switchIndexes.length := by
    rw [← hup.switchesList.length_eq, length_connections h hall, hindexes, List.length_map]
  have hswitches : OFController.fillTable c.switchIndexes c.switchesList =
      some (c.switchIndexes.zip c.switchesList).reverse := if_pos hlength.le
  have hhosts : OFController.fillTable c.hostIndexes c.hostsList =
      some (c.hostIndexes.zip c.hostsList).reverse := if_pos hup.hosts.le
  refine ⟨{ c with
      switchInfoTable := (c.switchIndexes.zip c.switchesList).reverse
      hostProfileTable := (c.hostIndexes.zip c.hostsList).reverse }, ?_, hup.switchesList, ?_⟩
  · simp [OFController.handleExtractTopo, OFController.extractTopology, hc,
      OFController.extractSwitchInfoTable, OFController.extractHostProfileTable, hswitches, hhosts]
  · rw [hindexes]

/-- A module id leads to the record at the position of its switch in topology order. -/
theorem lookup_switchInfoTable {c : OFController} {node : TopologyNode} {i j : ℕ}
    {info : SwitchRecord} (hlength : net.switchNodes.length = c.switchesList.length)
    (htable : c.switchInfoTable =
      ((net.switchNodes.map (·.1.moduleId)).zip c.switchesList).reverse)
    (hnode : net.switchNodes[j]? = some (node, i)) :
    c.switchInfoTable.lookup node.moduleId = some info ↔ c.switchesList[j]? = some info := by
  have hid : (net.switchNodes.map (·.1.moduleId))[j]? = some node.moduleId := by
    rw [List.getElem?_map, hnode, Option.map_some]
  have hkeys : (c.switchInfoTable.map Prod.fst).Nodup := by
    rw [htable, List.map_reverse, List.nodup_reverse, List.map_fst_zip (by simp [hlength])]
    exact NetworkNodes.nodup_moduleIds
  rw [lookup_eq_some_iff_mem hkeys, htable, List.mem_reverse, List.mem_iff_getElem?]
  constructor
  · rintro ⟨k, hk⟩
    obtain ⟨hkid, hinfo⟩ := List.getElem?_zip_eq_some.mp hk
    obtain ⟨hklt, hkid⟩ := List.getElem?_eq_some_iff.mp hkid
    obtain ⟨hjlt, hid⟩ := List.getElem?_eq_some_iff.mp hid
    obtain rfl : k = j :=
      (NetworkNodes.nodup_moduleIds.getElem_inj_iff).mp (hkid.trans hid.symm)
    exact hinfo
  · intro hinfo
    exact ⟨j, List.getElem?_zip_eq_some.mpr ⟨hid, hinfo⟩⟩

/-- The record at the position of a switch, when the orders agree. -/
theorem record_of_order {c : OFController} {node : TopologyNode} {i j : ℕ}
    (hlist : List.Forall₂ (Extracted net net.nodes.length) s.connections c.switchesList)
    (horder : s.connections.map Prod.fst = net.switches)
    (hj : net.switchNodes[j]? = some (node, i)) :
    ∃ info, c.switchesList[j]? = some info ∧ (i, info.connId) ∈ s.connections ∧
      info.macAddress = some node.macAddress ∧ info.topoIndex = some i := by
  have hi : (s.connections.map Prod.fst)[j]? = some i := by
    rw [horder, NetworkNodes.switches, List.getElem?_map, hj, Option.map_some]
  rw [List.getElem?_map] at hi
  obtain ⟨q, hq, rfl⟩ := Option.map_eq_some_iff.mp hi
  obtain ⟨info, hinfo, hrec⟩ := exists_getElem?_of_forall₂ hlist hq
  obtain ⟨hnode, -⟩ := NetworkNodes.mem_switchNodes.mp (List.mem_of_getElem? hj)
  have hlt : q.1 < net.nodes.length := (List.getElem?_eq_some_iff.mp hnode).1
  refine ⟨info, hinfo, ?_, ?_, ?_⟩
  · rw [hrec.connId]
    exact List.mem_of_getElem? hq
  · rw [hrec.macAddress, NetworkNodes.macAddress_of_getElem? hnode]
  · rw [hrec.topoIndex, if_pos hlt]

section
variable {c : OFController}
  (hlength : net.switchNodes.length = c.switchesList.length)
  (hlist : List.Forall₂ (Extracted net net.nodes.length) s.connections c.switchesList)
  (htable : c.switchInfoTable = ((net.switchNodes.map (·.1.moduleId)).zip c.switchesList).reverse)
include hlength hlist htable

theorem order_of_addresses (haddr : Addresses net s c) :
    s.connections.map Prod.fst = net.switches := by
  have hconns : s.connections.length = net.switchNodes.length := by
    rw [hlist.length_eq, hlength]
  have hlen : (s.connections.map Prod.fst).length = net.switches.length := by
    simpa [NetworkNodes.switches] using hconns
  apply List.ext_getElem hlen
  intro j hj _
  rw [List.length_map] at hj
  obtain ⟨info, hinfo, hrec⟩ := exists_getElem?_of_forall₂ hlist (List.getElem?_eq_getElem hj)
  have hnode := List.getElem?_eq_getElem (hconns ▸ hj)
  obtain ⟨info', hlookup, -, -, -, htopo⟩ := haddr _ _ (List.getElem_mem (hconns ▸ hj))
  have hinfo' := (lookup_switchInfoTable hlength htable hnode).mp hlookup
  obtain rfl := Option.some.inj (hinfo.symm.trans hinfo')
  rw [hrec.topoIndex] at htopo
  split_ifs at htopo
  simpa [NetworkNodes.switches] using htopo

theorem addresses_of_order (horder : s.connections.map Prod.fst = net.switches) :
    Addresses net s c := by
  intro node i hmem
  obtain ⟨j, hj⟩ := List.mem_iff_getElem?.mp hmem
  obtain ⟨info, hinfo, hconn, hmac, htopo⟩ := record_of_order hlist horder hj
  have hlookup := (lookup_switchInfoTable hlength htable hj).mpr hinfo
  refine ⟨info, hlookup, ?_, hconn, hmac, htopo⟩
  rw [OFController.findRelatedSwitchSocket, hlookup, Option.map_some]

end

/-- The controller addresses the right switches just when they opened their connections in
the order in which the topology lists them. -/
theorem addresses_iff (h : (sys net).Reachable s) (hall : ∀ i ∈ net.switches, i ∈ s.answered) :
    ∃ c, s.controller.handleExtractTopo net.nodes memory = some c ∧
      (Addresses net s c ↔ s.connections.map Prod.fst = net.switches) := by
  have hreg := registered_of_reachable h
  obtain ⟨c, hc, hlist, htable⟩ := handleExtractTopo_eq_some memory hreg hall
  have hlength : net.switchNodes.length = c.switchesList.length := by
    rw [← length_connections hreg hall, hlist.length_eq]
  refine ⟨c, hc, ?_, ?_⟩
  · exact order_of_addresses hlength hlist htable
  · exact addresses_of_order hlength hlist htable

/-- Two switches, and a host that hangs on the first. -/
def twoSwitches : NetworkNodes where
  nodes := [⟨⟨2, [], []⟩, true, 1⟩, ⟨⟨3, [], []⟩, true, 2⟩, ⟨⟨4, [], [⟨false, 2⟩]⟩, false, 3⟩]
  moduleId_distinct := by decide
  macAddress_distinct := by decide

theorem addresses_iff_sample :
    ∃ s c, s.connections = [(0, 10), (1, 11)] ∧
      s.controller.handleExtractTopo twoSwitches.nodes 0 = some c ∧
      (Addresses twoSwitches s c ↔ s.connections.map Prod.fst = twoSwitches.switches) := by
  let es := [BootEvent.hello 0 10, .hello 1 11, .featuresReply 1, .featuresReply 0]
  obtain ⟨s, hs, hconns, hall⟩ : ∃ s, (sys twoSwitches).runFrom ⟨.start, [], []⟩ es = some s ∧
      s.connections = [(0, 10), (1, 11)] ∧ ∀ i ∈ twoSwitches.switches, i ∈ s.answered :=
    ⟨_, rfl, rfl, by decide⟩
  obtain ⟨c, hc, hiff⟩ :=
    @addresses_iff twoSwitches s 0 (System.reachable_of_runFrom rfl hs) hall
  exact ⟨s, c, hconns, hc, hiff⟩

/-- The second switch connects first: the module id of the first leads to its socket. -/
theorem reverseOrder_not_addresses :
    ∃ s c, (sys twoSwitches).Reachable s ∧ (∀ i ∈ twoSwitches.switches, i ∈ s.answered) ∧
      s.controller.handleExtractTopo twoSwitches.nodes 0 = some c ∧
      s.connections = [(1, 10), (0, 11)] ∧ c.findRelatedSwitchSocket 2 = some 10 ∧
      ¬ Addresses twoSwitches s c := by
  let es := [BootEvent.hello 1 10, .hello 0 11, .featuresReply 1, .featuresReply 0]
  obtain ⟨s, c, hs, hall, hc, hconns, hfind⟩ : ∃ s c,
      (sys twoSwitches).runFrom ⟨.start, [], []⟩ es = some s ∧
      (∀ i ∈ twoSwitches.switches, i ∈ s.answered) ∧
      s.controller.handleExtractTopo twoSwitches.nodes 0 = some c ∧
      s.connections = [(1, 10), (0, 11)] ∧ c.findRelatedSwitchSocket 2 = some 10 :=
    ⟨_, _, rfl, by decide, rfl, rfl, rfl⟩
  refine ⟨s, c, System.reachable_of_runFrom rfl hs, hall, hc, hconns, hfind, ?_⟩
  intro haddr
  obtain ⟨info, -, hsocket, hmem, -⟩ := haddr ⟨⟨2, [], []⟩, true, 1⟩ 0 (by decide)
  have hid : 10 = info.connId := Option.some.inj (hfind.symm.trans hsocket)
  rw [hconns, ← hid] at hmem
  revert hmem
  decide

/-! ## The tables of the apps -/

/-- After a boot in the order of the topology, the switch table of the apps leads from the
module id of a node to the switch of that node. -/
theorem addressed_tables (h : (sys net).Reachable s)
    (hall : ∀ i ∈ net.switches, i ∈ s.answered)
    (horder : s.connections.map Prod.fst = net.switches) :
    ∃ c, s.controller.handleExtractTopo net.nodes memory = some c ∧
      (c.tables net.nodes).Addressed := by
  have hreg := registered_of_reachable h
  obtain ⟨c, hc, hlist, htable⟩ := handleExtractTopo_eq_some memory hreg hall
  have hlength : net.switchNodes.length = c.switchesList.length := by
    rw [← length_connections hreg hall, hlist.length_eq]
  refine ⟨c, hc, ?_⟩
  intro i n info hn hfind
  obtain ⟨node, hnode, rfl⟩ := Option.map_eq_some_iff.mp (List.getElem?_map .. ▸ hn)
  obtain ⟨p, hp, hkey, rfl⟩ : ∃ p ∈ c.switchInfoTable, p.1 = node.moduleId ∧
      info = ⟨p.2.topoIndex.getD 0⟩ := by
    obtain ⟨l₁, l₂, heq, -⟩ := List.lookup_eq_some_iff.mp hfind
    have hmem : (node.moduleId, info) ∈ c.switchInfoTable.map
        fun p => (p.1, SwitchInfo.mk (p.2.topoIndex.getD 0)) := by
      rw [show c.switchInfoTable.map _ = _ from heq]
      simp
    obtain ⟨p, hp, heq⟩ := List.mem_map.mp hmem
    exact ⟨p, hp, congrArg Prod.fst heq, (congrArg Prod.snd heq).symm⟩
  rw [htable, List.mem_reverse] at hp
  obtain ⟨j, hj⟩ := List.mem_iff_getElem?.mp hp
  obtain ⟨hid, hrec⟩ := List.getElem?_zip_eq_some.mp hj
  rw [List.getElem?_map] at hid
  obtain ⟨⟨node', i'⟩, hswitch, hid⟩ := Option.map_eq_some_iff.mp hid
  obtain ⟨info, hinfo, -, -, htopo⟩ := record_of_order hlist horder hswitch
  obtain rfl := Option.some.inj (hrec.symm.trans hinfo)
  have hnode' := (NetworkNodes.mem_switchNodes.mp (List.mem_of_getElem? hswitch)).1
  have hii : i' = i := NetworkNodes.moduleId_inj hnode' hnode (hid.trans hkey)
  rw [htopo, Option.getD_some, hii]

end Boot

end TsnReconfig.Controller
