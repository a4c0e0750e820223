import Mathlib.Data.List.Chain
import TsnReconfig.Controller.VersionBookkeeping
import TsnReconfig.Network.RuleVersions

/-!
# The rules of a path

What `insertAssignedPath` sends for a path of switches from the talker to the listener, and
where these rules lead a frame of the stream.
-/

namespace TsnReconfig.Network
open Controller Lib OpenFlow

/-! ## Links and frames -/

/-- Where a frame arrives that leaves a node through a port: at a node, through one of its
ports. The ports are the positions of the links. -/
structure Wiring (t : List Node) where
  arrives : ℕ → ℕ → Option (ℕ × ℕ)
  linked : ∀ a p b q, arrives a p = some (b, q) → ∃ x y l l', t[a]? = some x ∧
    t[b]? = some y ∧ x.linksOut[p]? = some l ∧ l.remoteModuleId = y.moduleId ∧
    y.linksIn[q]? = some l' ∧ l'.remoteModuleId = x.moduleId
  total : ∀ a x p l, t[a]? = some x → x.linksOut[p]? = some l → (arrives a p).isSome

/-- A link of the data plane from `a` to `b` leaves `a` through the port. -/
def FacesOut (t : List Node) (a b port : ℕ) : Prop :=
  ∃ x y l, t[a]? = some x ∧ t[b]? = some y ∧ x.linksOut[port]? = some l ∧ l.cPlane = false ∧
    l.remoteModuleId = y.moduleId

/-- A link of the data plane from `b` to `a` arrives at `a` through the port. -/
def FacesIn (t : List Node) (a b port : ℕ) : Prop :=
  ∃ x y l, t[a]? = some x ∧ t[b]? = some y ∧ x.linksIn[port]? = some l ∧ l.cPlane = false ∧
    l.remoteModuleId = y.moduleId

/-- The data plane has a link from `a` to `b`. -/
def HasLink (t : List Node) (a b : ℕ) : Prop :=
  (∃ port, FacesOut t a b port) ∧ ∃ port, FacesIn t b a port

/-- The module ids tell the nodes apart; the path consists of different switches the controller
reaches; the hosts are in the host table; there are links from each hop to the next; and the
packet has the addresses and the VLAN of the stream. -/
structure PathSetting (c : ControllerTables) (path : List ℕ) (vlan : UInt16)
    (dst src : MACAddress) (talker listener : ℕ) (packet : OxmBasicMatch) : Prop where
  moduleIds : (c.topology.map Node.moduleId).Nodup
  ports : ∀ x ∈ c.topology, x.linksOut.length < 2147483648
  ne_nil : path ≠ []
  nodup : path.Nodup
  switches : ∀ k ∈ path, ∃ x info, c.topology[k]? = some x ∧
    c.findRelatedSwitchSocket x.moduleId = some info ∧ info.topoIndex = k
  talkerHost : (∃ x ∈ c.hostProfileTable, x.macAddress = src) ∧
    ∀ x ∈ c.hostProfileTable, x.macAddress = src → x.topoIndex = talker
  listenerHost : (∃ x ∈ c.hostProfileTable, x.macAddress = dst) ∧
    ∀ x ∈ c.hostProfileTable, x.macAddress = dst → x.topoIndex = listener
  listener_notMem : listener ∉ path
  links : List.IsChain (HasLink c.topology) (talker :: path ++ [listener])
  ethDst : packet.ofbEthDst = dst
  ethSrc : packet.ofbEthSrc = src
  vlanVid : packet.ofbVlanVid = vlan

/-! ## What is expected -/

/-- One element for each switch of the path, in order, with the hops before and after it. -/
def Along {α : Type*} (R : ℕ → ℕ → ℕ → α → Prop) : ℕ → List ℕ → ℕ → List α → Prop
  | _, [], _, [] => True
  | prev, k :: rest, last, r :: rs => R prev k (rest.headD last) r ∧ Along R k rest last rs
  | _, _, _, _ => False

/-- The port is the first one with a link of the data plane to the node. -/
def IsFirstLink (links : List Link) (node : Node) (port : ℕ) : Prop :=
  (∃ l, links[port]? = some l ∧ l.cPlane = false ∧ l.remoteModuleId = node.moduleId) ∧
    ∀ j < port, ∀ l, links[j]? = some l → l.cPlane = false → l.remoteModuleId ≠ node.moduleId

section Ports
variable {t : List Node} {a b : ℕ} {x y : Node}

theorem IsFirstLink.unique {links : List Link} {node : Node} {i j : ℕ}
    (hi : IsFirstLink links node i) (hj : IsFirstLink links node j) : i = j := by
  obtain ⟨⟨l, hl, hplane, hremote⟩, hbefore⟩ := hi
  obtain ⟨⟨l', hl', hplane', hremote'⟩, hbefore'⟩ := hj
  rcases Nat.lt_trichotomy i j with hlt | rfl | hlt
  · exact (hbefore' i hlt l hl hplane hremote).elim
  · rfl
  · exact (hbefore j hlt l' hl' hplane' hremote').elim

end Ports

/-! ## The rules sent -/

section Along
variable {α : Type*} {R S : ℕ → ℕ → ℕ → α → Prop} {prev last : ℕ} {path : List ℕ} {rs : List α}

theorem Along.length_eq (h : Along R prev path last rs) : path.length = rs.length := by
  induction path generalizing prev rs with
  | nil => cases rs with
    | nil => rfl
    | cons r rs => exact h.elim
  | cons k rest ih => cases rs with
    | nil => exact h.elim
    | cons r rs => simpa using ih h.2

end Along

section Rules
variable {c : ControllerTables} {memory : OxmBasicMatch} {e : ConfigurationEngine} {path : List ℕ}
  {vlan : UInt16} {dst src : MACAddress} {matchVersion : UInt16} {talker listener : ℕ}
  {packet : OxmBasicMatch}

/-- The tables have a node for every hop. -/
theorem PathSetting.nodes (h : PathSetting c path vlan dst src talker listener packet) :
    ∃ t l nodes, c.topology[talker]? = some t ∧ c.topology[listener]? = some l ∧
      path.mapM (c.topology[·]?) = some nodes := by
  have hlinks := h.links
  obtain ⟨nodes, hnodes⟩ : ∃ nodes, path.mapM (c.topology[·]?) = some nodes := by
    apply exists_mapM_eq_some
    intro k hk
    obtain ⟨x, -, hx, -⟩ := h.switches k hk
    simp [hx]
  obtain ⟨t, ht⟩ : ∃ t, c.topology[talker]? = some t := by
    obtain ⟨first, rest, rfl⟩ := List.exists_cons_of_ne_nil h.ne_nil
    obtain ⟨⟨⟨_, t, -, -, ht, -⟩, -⟩, -⟩ := List.isChain_cons_cons.mp hlinks
    exact ⟨t, ht⟩
  obtain ⟨l, hl⟩ : ∃ l, c.topology[listener]? = some l := by
    obtain ⟨-, -, hlast⟩ := List.isChain_append.mp hlinks
    obtain ⟨⟨_, -, l, -, -, hl, -⟩, -⟩ :=
      hlast _ (List.getLast?_eq_some_getLast (List.cons_ne_nil talker path)) listener rfl
    exact ⟨l, hl⟩
  exact ⟨t, l, nodes, ht, hl, hnodes⟩

end Rules

/-! ## Examples -/

/-- The first link back is the other end of a link. -/
def firstArrival (t : List Node) (a p : ℕ) : Option (ℕ × ℕ) := do
  let x ← t[a]?
  let l ← x.linksOut[p]?
  let b ← t.findIdx? (·.moduleId == l.remoteModuleId)
  let y ← t[b]?
  let q ← y.linksIn.findIdx? (·.remoteModuleId == x.moduleId)
  return (b, q)

/-- The wiring of a network in which every link has a link back. -/
def Wiring.first (t : List Node)
    (h : ∀ (i : Fin t.length) (p : Fin t[i].linksOut.length), (firstArrival t i p).isSome) :
    Wiring t where
  arrives := firstArrival t
  linked a p b q harrives := by
    obtain ⟨x, hx, h⟩ := Option.bind_eq_some_iff.mp harrives
    obtain ⟨l, hl, h⟩ := Option.bind_eq_some_iff.mp h
    obtain ⟨b', hb, h⟩ := Option.bind_eq_some_iff.mp h
    obtain ⟨y, hy, h⟩ := Option.bind_eq_some_iff.mp h
    obtain ⟨q', hq, h⟩ := Option.bind_eq_some_iff.mp h
    obtain ⟨rfl, rfl⟩ := Prod.mk.inj (Option.some.inj h)
    obtain ⟨hblt, hb, -⟩ := List.findIdx?_eq_some_iff_getElem.mp hb
    obtain ⟨hqlt, hq, -⟩ := List.findIdx?_eq_some_iff_getElem.mp hq
    rw [(List.getElem?_eq_some_iff.mp hy).2, beq_iff_eq] at hb
    exact ⟨x, y, l, _, hx, hy, hl, hb.symm, List.getElem?_eq_getElem hqlt, beq_iff_eq.mp hq⟩
  total a x p l hx hl := by
    obtain ⟨ha, rfl⟩ := List.getElem?_eq_some_iff.mp hx
    exact h ⟨a, ha⟩ ⟨p, (List.getElem?_eq_some_iff.mp hl).1⟩

/-- A switch with two hosts. -/
def oneSwitch : ControllerTables where
  topology :=
    let node := fun (moduleId : Int) (remote : List Int) =>
      Node.mk moduleId (remote.map (Link.mk false)) (remote.map (Link.mk false))
    [node 10 [13, 14], node 13 [10], node 14 [10]]
  switchInfoTable := [(10, ⟨0⟩)]
  hostProfileTable := [⟨1, 0, 1⟩, ⟨2, 0, 2⟩]

end TsnReconfig.Network
