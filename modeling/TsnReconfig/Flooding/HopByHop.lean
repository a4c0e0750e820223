import TsnReconfig.Flooding.ProcessingOrder
import TsnReconfig.Lib.RootedTree

/-!
# Flooding hop by hop

A relay sends a frame that is flooded to all ports but the one that it came from and the blocked
ones. If the open links are a spanning tree, and all others are blocked at both ends, the frame goes
along the tree away from its origin, and comes to every other node once.
-/

namespace TsnReconfig.Flooding
open Lib OpenFlow Switch

variable {T : Topology} {info : ℕ → NodeInfo} {agents : ℕ → SwitchAgent} {f : Frame}
  {i x v inport p : ℕ} {l l' : LinkOut}

/-- Neither port of the link is blocked. -/
def Open (info : ℕ → NodeInfo) (i : ℕ) (l : LinkOut) : Prop :=
  l.localGate ∉ (info i).ports ∧ l.remoteGate ∉ (info l.remoteNode).ports

/-- Two nodes are adjacent if an open link joins them. -/
def openGraph (T : Topology) (info : ℕ → NodeInfo) : SimpleGraph (Fin T.numNodes) :=
  .fromRel fun i x => ∃ l ∈ T.dataLinks i, l.remoteNode = x ∧ Open info i l

/-- The open links are a spanning tree, and all others are blocked at both ends. -/
structure SpanningTree (T : Topology) (info : ℕ → NodeInfo) : Prop where
  isTree : (openGraph T info).IsTree
  single : ∀ i, ∀ l ∈ T.dataLinks i, ∀ l' ∈ T.dataLinks i, Open info i l → Open info i l' →
    l.remoteNode = l'.remoteNode → l = l'
  proper : ∀ i, ∀ l ∈ T.dataLinks i, Open info i l → l.remoteNode ≠ i
  both : ∀ i, ∀ l ∈ T.dataLinks i,
    l.localGate ∈ (info i).ports ↔ l.remoteGate ∈ (info l.remoteNode).ports

/-- The agents of the nodes, with the ports of their relays disabled. -/
def Disabled (T : Topology) (info : ℕ → NodeInfo) (agents : ℕ → SwitchAgent) : Prop :=
  ∀ v < T.numNodes, ∃ s, s.blockedPorts = List.replicate (T.gateSize v) false ∧
    agents v = disablePorts s (info v).ports

/-- A frame that is flooded by a node, and did not come to it through a link, comes to every other
node once and never back. -/
def FloodsOnce (T : Topology) (agents : ℕ → SwitchAgent) : Prop :=
  ∀ (f : Frame) (origin : ℕ) (inport : UInt32), origin < T.numNodes →
    (∀ l ∈ T.dataLinks origin, l.localGate ≠ inport.toNat) →
    ∀ s, (flooding T agents f origin inport.toNat).Reachable s →
      s.received.Nodup ∧ (∀ v ∈ s.received, v < T.numNodes ∧ v ≠ origin) ∧
      (s.inFlight = [] → ∀ v < T.numNodes, v ≠ origin → v ∈ s.received)

/-! ## The copies of one node -/

theorem getElem?_disablePorts {s : SwitchAgent} {ports : List ℕ} :
    (disablePorts s ports).blockedPorts[p]? =
      if p ∈ ports then s.blockedPorts[p]?.map fun _ => true else s.blockedPorts[p]? := by
  rw [disablePorts]
  dsimp only
  induction ports generalizing s with
  | nil => rfl
  | cons port ports ih =>
    rw [List.foldl_cons]
    have hrest := ih (s := { s with blockedPorts := s.blockedPorts.set port true })
    dsimp only at hrest
    rw [hrest]
    by_cases hport : port = p
    · subst hport
      rw [List.getElem?_set_self']
      simp
      cases s.blockedPorts[port]? <;> rfl
    · rw [List.getElem?_set_ne hport, if_congr (List.mem_cons.trans (or_iff_right (Ne.symm hport)))
        rfl rfl]

/-- The ports to which a node sends copies. -/
theorem flood_eq : flood T agents f v inport =
    ((((agents v).blockedPorts.zipIdx.filter fun q =>
        q.2 ≠ (UInt32.ofNat inport).toNat ∧ !q.1).map Prod.snd).flatMap fun port =>
      ((T.dataLinks v).filter (·.localGate = port)).map fun l => (l.remoteNode, l.remoteGate)) := by
  have hany : ¬ofppFlood = ofppAny := by decide
  have hsend : List.filterMap (dataPlaneOut ∘ fun q : Bool × ℕ => .send f q.2) =
    List.map Prod.snd := List.filterMap_eq_map
  rw [flood, SwitchAgent.executePacketOutAction, if_neg hany, if_pos rfl, Option.getD_some,
    List.filterMap_map, hsend]

theorem mem_flood_iff (hT : T.Valid) (hagents : Disabled T info agents) (hv : v < T.numNodes)
    {a : ℕ × ℕ} : a ∈ flood T agents f v inport ↔ ∃ l ∈ T.dataLinks v,
      l.localGate ≠ (UInt32.ofNat inport).toNat ∧ l.localGate ∉ (info v).ports ∧
        a = (l.remoteNode, l.remoteGate) := by
  obtain ⟨s, hs, hagent⟩ := hagents v hv
  -- which ports an agent blocks
  have hport : ∀ l ∈ T.dataLinks v,
      (agents v).blockedPorts[l.localGate]? = some (decide (l.localGate ∈ (info v).ports)) := by
    intro l hl
    rw [hagent, getElem?_disablePorts, hs, List.getElem?_replicate_of_lt (hT.localGate_lt v l hl)]
    split_ifs with hmem <;> simp [hmem]
  rw [flood_eq, List.mem_flatMap]
  constructor
  · rintro ⟨port, hmem, ha⟩
    obtain ⟨⟨blocked, _⟩, hq, rfl⟩ := List.mem_map.mp hmem
    obtain ⟨hget, hopen⟩ := List.mem_filter.mp hq
    obtain ⟨l, hl, rfl⟩ := List.mem_map.mp ha
    obtain ⟨hl, hgate⟩ := List.mem_filter.mp hl
    rw [decide_eq_true_iff] at hgate hopen
    rw [List.mem_zipIdx_iff_getElem?] at hget
    dsimp only at hgate hopen hget
    rw [← hgate, hport l hl] at hget
    refine ⟨l, hl, hgate ▸ hopen.1, ?_, rfl⟩
    rw [← Option.some.inj hget] at hopen
    simpa using hopen.2
  · rintro ⟨l, hl, hne, hnot, rfl⟩
    refine ⟨l.localGate, List.mem_map.mpr ⟨(false, l.localGate), ?_, rfl⟩,
      List.mem_map.mpr ⟨l, List.mem_filter.mpr ⟨hl, by simp⟩, rfl⟩⟩
    refine List.mem_filter.mpr ⟨?_, decide_eq_true ⟨hne, rfl⟩⟩
    rw [List.mem_zipIdx_iff_getElem?, hport l hl]
    simp [hnot]

theorem nodup_flood (hT : T.Valid) : (flood T agents f v inport).Nodup := by
  rw [flood_eq, List.nodup_flatMap]
  -- a link is told by where it leads
  have hremote : ∀ l ∈ T.dataLinks v, ∀ l' ∈ T.dataLinks v,
      (l.remoteNode, l.remoteGate) = (l'.remoteNode, l'.remoteGate) → l = l' := by
    intro l hl l' hl' heq
    obtain ⟨hnode, hgate⟩ := Prod.mk.inj heq
    have hback := hT.back_mem v l' hl'
    rw [← hnode] at hback
    have hsame := hT.eq_of_localGate (hT.back_mem v l hl) hback hgate
    exact hT.eq_of_localGate hl hl' (LinkOut.mk.inj hsame).2.2.2
  have hlinks : (T.dataLinks v).Nodup := (hT.nodup v).of_map _
  constructor
  · intro port _
    refine List.Nodup.map_on ?_ (hlinks.filter _)
    intro l hl l' hl' heq
    exact hremote l (List.mem_of_mem_filter hl) l' (List.mem_of_mem_filter hl') heq
  · have hports : (((agents v).blockedPorts.zipIdx.filter fun q =>
        q.2 ≠ (UInt32.ofNat inport).toNat ∧ !q.1).map Prod.snd).Nodup :=
      (List.zipIdx_map_snd 0 (agents v).blockedPorts ▸ List.nodup_range').sublist
        (List.filter_sublist.map _)
    refine hports.imp fun {port port'} hne => ?_
    intro a ha ha'
    obtain ⟨l, hl, rfl⟩ := List.mem_map.mp ha
    obtain ⟨l', hl', heq⟩ := List.mem_map.mp ha'
    obtain ⟨hl, hgate⟩ := List.mem_filter.mp hl
    obtain ⟨hl', hgate'⟩ := List.mem_filter.mp hl'
    rw [decide_eq_true_iff] at hgate hgate'
    exact hne (by rw [← hgate, ← hgate', hremote l' hl' l hl heq])

/-! ## Along the tree -/

theorem Open.back (h : Open info i l) : Open info l.remoteNode (l.back i) := ⟨h.2, h.1⟩

section
variable (hT : T.Valid) (h : SpanningTree T info)
include hT h

theorem openGraph_adj {u w : Fin T.numNodes} : (openGraph T info).Adj u w ↔
    ∃ l ∈ T.dataLinks w, Open info w l ∧ l.remoteNode = u := by
  rw [openGraph, SimpleGraph.fromRel_adj]
  constructor
  · rintro ⟨-, ⟨l, hl, hw, hopen⟩ | ⟨l, hl, hu, hopen⟩⟩
    · rw [← hw]
      exact ⟨l.back u, hT.back_mem u l hl, hopen.back, rfl⟩
    · exact ⟨l, hl, hopen, hu⟩
  · rintro ⟨l, hl, hopen, hu⟩
    refine ⟨fun heq => h.proper w l hl hopen ?_, .inr ⟨l, hl, hu, hopen⟩⟩
    rw [hu, heq]

/-- Seen from one node, every other one has a link towards it, and its other open links lead away
from it. -/
structure Rooted (T : Topology) (info : ℕ → NodeInfo) (origin : ℕ) (depth : ℕ → ℕ)
    (link : ℕ → LinkOut) : Prop where
  mem : ∀ v < T.numNodes, v ≠ origin → link v ∈ T.dataLinks v
  isOpen : ∀ v < T.numNodes, v ≠ origin → Open info v (link v)
  up : ∀ v < T.numNodes, v ≠ origin → depth v = depth (link v).remoteNode + 1
  down : ∀ v < T.numNodes, ∀ l ∈ T.dataLinks v, Open info v l → (v ≠ origin → l ≠ link v) →
    depth l.remoteNode = depth v + 1

theorem exists_rooted {origin : ℕ} (horigin : origin < T.numNodes) :
    ∃ depth link, Rooted T info origin depth link := by
  let root : Fin T.numNodes := ⟨origin, horigin⟩
  let depth (v : ℕ) : ℕ := if hv : v < T.numNodes then (openGraph T info).dist root ⟨v, hv⟩ else 0
  have hdepth : ∀ v (hv : v < T.numNodes), depth v = (openGraph T info).dist root ⟨v, hv⟩ :=
    fun v hv => dif_pos hv
  -- the link to the parent is the only open one to a node that is closer
  have hclose : ∀ v, v < T.numNodes → v ≠ origin → ∃ l ∈ T.dataLinks v, Open info v l ∧
      depth v = depth l.remoteNode + 1 ∧
      ∀ l' ∈ T.dataLinks v, Open info v l' → depth v = depth l'.remoteNode + 1 → l' = l := by
    intro v hv hne
    have hroot : (⟨v, hv⟩ : Fin T.numNodes) ≠ root := fun heq => hne (Fin.mk.inj heq)
    obtain ⟨u, ⟨hadj, hdist⟩, hunique⟩ := existsUnique_closer h.isTree hroot
    obtain ⟨l, hl, hopen, hu⟩ := (openGraph_adj hT h).mp hadj
    refine ⟨l, hl, hopen, ?_, fun l' hl' hopen' hdepth' => ?_⟩
    · rw [hdepth v hv, hu, hdepth u u.2, hdist]
    · have hlt := hT.remote_lt v l' hl'
      have heq := hunique ⟨l'.remoteNode, hlt⟩
        ⟨(openGraph_adj hT h).mpr ⟨l', hl', hopen', rfl⟩, by rw [← hdepth, ← hdepth, hdepth']⟩
      refine h.single v l' hl' l hl hopen' hopen ?_
      rw [hu, ← heq]
  have : Nonempty LinkOut := ⟨⟨false, 0, 0, 0⟩⟩
  choose! link hlink using hclose
  refine ⟨depth, link, fun v hv hne => (hlink v hv hne).1, fun v hv hne => (hlink v hv hne).2.1,
    fun v hv hne => (hlink v hv hne).2.2.1, fun v hv l hl hopen hother => ?_⟩
  have hlt := hT.remote_lt v l hl
  have hadj := (openGraph_adj hT h (u := ⟨l.remoteNode, hlt⟩) (w := ⟨v, hv⟩)).mpr ⟨l, hl, hopen, rfl⟩
  have hdist := h.isTree.dist_eq_dist_add_one_of_adj root hadj
  rw [← hdepth, ← hdepth] at hdist
  refine hdist.resolve_right fun hup => ?_
  -- a link to a node that is closer is that to the parent
  by_cases hne : v = origin
  · subst hne
    rw [hdepth v hv, SimpleGraph.dist_self] at hup
    omega
  · exact hother hne ((hlink v hv hne).2.2.2 l hl hopen hup)

section
variable {origin : ℕ} {depth : ℕ → ℕ} {link : ℕ → LinkOut}
  (hrooted : Rooted T info origin depth link)
include hrooted

omit h in
/-- A link that leads away from a node is the link of the remote node towards it. -/
theorem link_remoteNode (hl : l ∈ T.dataLinks v) (hopen : Open info v l)
    (hdepth : depth l.remoteNode = depth v + 1) :
    l.remoteNode ≠ origin ∧ link l.remoteNode = l.back v := by
  have hlt := hT.remote_lt v l hl
  -- else the remote node would be nearer to the origin, too
  have hback : ¬(l.remoteNode ≠ origin → l.back v ≠ link l.remoteNode) := by
    intro hother
    have hdown : depth v = depth l.remoteNode + 1 :=
      hrooted.down l.remoteNode hlt (l.back v) (hT.back_mem v l hl) hopen.back hother
    omega
  exact ⟨fun heq => hback fun hne => (hne heq).elim,
    by_contra fun hother => hback fun _ => Ne.symm hother⟩

/-- The links of a node that lead away from it are those to its children. -/
theorem exists_away_iff (hv : v < T.numNodes) {P : LinkOut → Prop}
    (hP : ∀ l ∈ T.dataLinks v, Open info v l → (P l ↔ depth l.remoteNode = depth v + 1))
    {a : ℕ × ℕ} :
    (∃ l ∈ T.dataLinks v, P l ∧ l.localGate ∉ (info v).ports ∧
        a = (l.remoteNode, l.remoteGate)) ↔
      a.1 < T.numNodes ∧ a.1 ≠ origin ∧ (link a.1).remoteNode = v ∧
        a.2 = (link a.1).localGate := by
  constructor
  · rintro ⟨l, hl, hPl, hnot, rfl⟩
    have hopen : Open info v l := ⟨hnot, fun hmem => hnot ((h.both v l hl).mpr hmem)⟩
    obtain ⟨hne, hlink⟩ := link_remoteNode hT hrooted hl hopen ((hP l hl hopen).mp hPl)
    refine ⟨hT.remote_lt v l hl, hne, ?_, ?_⟩
    · rw [hlink, LinkOut.back]
    · rw [hlink, LinkOut.back]
  · obtain ⟨w, gate⟩ := a
    dsimp only
    rintro ⟨hw, hne, rfl, rfl⟩
    have hmem := hrooted.mem w hw hne
    have hopen := (hrooted.isOpen w hw hne).back
    have hback := hT.back_mem w _ hmem
    refine ⟨_, hback, (hP _ hback hopen).mpr (hrooted.up w hw hne), hopen.1, rfl⟩

/-- The relays send the copies along the tree. -/
theorem alongTree (hagents : Disabled T info agents) (horigin : origin < T.numNodes)
    (hinport : ∀ l ∈ T.dataLinks origin, l.localGate ≠ (UInt32.ofNat inport).toNat) :
    Flood.AlongTree (· < T.numNodes) origin (fun v => (link v).remoteNode)
      (fun v => (link v).localGate) depth (flood T agents f origin inport)
      (flood T agents f) where
  rank_lt v hv hne := by
    refine ⟨hT.remote_lt v _ (hrooted.mem v hv hne), ?_⟩
    have hup := hrooted.up v hv hne
    omega
  nodup_first := nodup_flood hT
  mem_first a := by
    rw [mem_flood_iff hT hagents horigin]
    refine exists_away_iff hT h hrooted horigin fun l hl hopen => ?_
    exact iff_of_true (hinport l hl)
      (hrooted.down origin horigin l hl hopen fun hne => (hne rfl).elim)
  nodup_sends v hv hne := nodup_flood hT
  mem_sends v hv hne a := by
    have hmem := hrooted.mem v hv hne
    -- the port of the link to the parent fits in the number of a port
    have hgate : (UInt32.ofNat (link v).localGate).toNat = (link v).localGate := by
      rw [UInt32.toNat_ofNat']
      have hsize := hT.gateSize_le v
      have hlt := hT.localGate_lt v _ hmem
      exact Nat.mod_eq_of_lt (by omega)
    rw [mem_flood_iff hT hagents hv]
    refine exists_away_iff hT h hrooted hv fun l hl hopen => ?_
    rw [hgate]
    constructor
    · intro hother
      refine hrooted.down v hv l hl hopen fun _ heq => hother ?_
      rw [heq]
    · intro hdown heq
      rw [hT.eq_of_localGate hl hmem heq] at hdown
      have hup := hrooted.up v hv hne
      omega

end

/-- **A spanning tree floods**: every other node gets the frame once. -/
theorem SpanningTree.floodsOnce (hagents : Disabled T info agents) : FloodsOnce T agents := by
  intro f origin inport horigin hinport s hs
  obtain ⟨depth, link, hrooted⟩ := exists_rooted hT h horigin
  have hport : (UInt32.ofNat inport.toNat).toNat = inport.toNat := by
    rw [UInt32.ofNat_toNat]
  refine Flood.once_of_reachable (alongTree hT h hrooted hagents horigin ?_) hs
  rw [hport]
  exact hinport

end

end TsnReconfig.Flooding
