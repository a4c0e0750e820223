import TsnReconfig.Flooding.HopByHop
import TsnReconfig.Flooding.Passes

/-!
# When the open links are a spanning tree

The tree neighbours are recorded for a pair of nodes, and only at the child. So the parent blocks
its second link to a child, and the child blocks none of its links to the parent.
-/

namespace TsnReconfig.Flooding
open Lib Switch StaticSpanningTree

variable {T : Topology} {start i x y p : ℕ} {rank : ℕ → ℕ} {l l' : LinkOut} {info : ℕ → NodeInfo}

/-- The open links are a spanning tree, and every frame that is flooded comes to every node once. -/
structure LoopFree (T : Topology) (info : ℕ → NodeInfo) : Prop where
  spanningTree : SpanningTree T info
  floodsOnce : ∀ agents, Disabled T info agents → FloodsOnce T agents

/-- No node but the start has two links to its first neighbour in the order. -/
def TreeLinksSingle (T : Topology) (start : ℕ) : Prop :=
  ∀ x, ∀ l ∈ T.dataLinks x, ∀ l' ∈ T.dataLinks x,
    First T start (T.rank start) x l.remoteNode → l'.remoteNode = l.remoteNode → l' = l

theorem First.ne (hrank : T.Ranking start rank) (h : First T start rank x y) : x ≠ y := by
  rintro rfl
  exact lt_irrefl _ (h.lt hrank)

theorem First.not_symm (hrank : T.Ranking start rank) (h : First T start rank x y) :
    ¬First T start rank y x :=
  fun h' => lt_asymm (h.lt hrank) (h'.lt hrank)

theorem First.unique (hT : T.Valid) (hrank : T.Ranking start rank) (h : First T start rank x y)
    {z : ℕ} (h' : First T start rank x z) : y = z := by
  have heq : rank y = rank z := Nat.le_antisymm (h.le z h'.adj) (h'.le y h.adj)
  rw [← hrank.mod y (hT.adj_symm h.adj).lt, heq, hrank.mod z (hT.adj_symm h'.adj).lt]

theorem exists_first (hrank : T.Ranking start rank) (hx : x < T.numNodes) (hne : x ≠ start) :
    ∃ y, First T start rank x y := by
  classical
  obtain ⟨z, hz, -⟩ := hrank.before x hx hne
  have hsome : ∃ r y, T.Adj x y ∧ rank y = r := ⟨rank z, z, hz, rfl⟩
  obtain ⟨y, hadj, heq⟩ := Nat.find_spec hsome
  refine ⟨y, hne, hadj, fun w hw => ?_⟩
  rw [heq]
  exact Nat.find_min' hsome ⟨w, hw, rfl⟩

/-! ## The blocked ports of a link -/

theorem exists_split (hl : l ∈ T.dataLinks i) : ∃ pre post, T.linksOut i = pre ++ l :: post :=
  List.append_of_mem (Topology.mem_dataLinks.mp hl).1

theorem not_mem_of_split (hT : T.Valid) (hl : l ∈ T.dataLinks i) {pre post : List LinkOut}
    (h : T.linksOut i = pre ++ l :: post) : l ∉ pre := by
  intro hmem
  have hdata : (!l.gateCPlane) = true := by rw [(Topology.mem_dataLinks.mp hl).2, Bool.not_false]
  have hnodup := (hT.nodup i).of_map _
  rw [Topology.dataLinks, h, List.filter_append, List.nodup_append] at hnodup
  exact hnodup.2.2 l (List.mem_filter.mpr ⟨hmem, hdata⟩) l
    (List.mem_filter.mpr ⟨List.mem_cons_self .., hdata⟩) rfl

theorem blocked_iff (hT : T.Valid) (hl : l ∈ T.dataLinks i) :
    Blocked T start rank i l.localGate ↔ ¬First T start rank i l.remoteNode ∧
      (First T start rank l.remoteNode i →
        ∃ pre post, T.linksOut i = pre ++ l :: post ∧ LeadTo pre l.remoteNode) := by
  constructor
  · rintro ⟨pre, l', post, hsplit, hdata, hgate, hor, hnot⟩
    have hl' : l' ∈ T.dataLinks i := Topology.mem_dataLinks.mpr ⟨by simp [hsplit], hdata⟩
    obtain rfl := hT.eq_of_localGate hl' hl hgate
    exact ⟨hnot, fun hfirst => ⟨pre, post, hsplit, hor.resolve_left (not_not.mpr hfirst)⟩⟩
  · rintro ⟨hnot, himp⟩
    have hdata := (Topology.mem_dataLinks.mp hl).2
    by_cases hfirst : First T start rank l.remoteNode i
    · obtain ⟨pre, post, hsplit, hlead⟩ := himp hfirst
      exact ⟨pre, l, post, hsplit, hdata, rfl, .inr hlead, hnot⟩
    · obtain ⟨pre, post, hsplit⟩ := exists_split hl
      exact ⟨pre, l, post, hsplit, hdata, rfl, .inl hfirst, hnot⟩

/-- Where the links to the first neighbours are single, they are the ones that are not blocked. -/
theorem TreeLinksSingle.blocked_iff (h : TreeLinksSingle T start) (hT : T.Valid)
    (hl : l ∈ T.dataLinks i) :
    Blocked T start (T.rank start) i l.localGate ↔ ¬First T start (T.rank start) i l.remoteNode ∧
      ¬First T start (T.rank start) l.remoteNode i := by
  rw [Flooding.blocked_iff hT hl]
  refine and_congr_right fun _ => ⟨fun himp hfirst => ?_, fun hnot hfirst => (hnot hfirst).elim⟩
  obtain ⟨pre, post, hsplit, l', hl', hdata, hremote⟩ := himp hfirst
  have hmem' : l' ∈ T.dataLinks i := Topology.mem_dataLinks.mpr ⟨by simp [hsplit, hl'], hdata⟩
  have hback' := hT.back_mem i l' hmem'
  rw [hremote] at hback'
  -- the remote node has these two links to its first neighbour
  have hsame := h l.remoteNode _ (hT.back_mem i l hl) _ hback' hfirst rfl
  obtain rfl := hT.eq_of_localGate hmem' hl (LinkOut.mk.inj hsame).2.2.2
  exact not_mem_of_split hT hl hsplit hl'

section
variable (hT : T.Connected)
  (hports : ∀ y < T.numNodes, ∀ p, p ∈ (info y).ports ↔ Blocked T start (T.rank start) y p)
include hT hports

theorem TreeLinksSingle.mem_ports_iff (h : TreeLinksSingle T start) (hl : l ∈ T.dataLinks i) :
    l.localGate ∈ (info i).ports ↔ ¬First T start (T.rank start) i l.remoteNode ∧
      ¬First T start (T.rank start) l.remoteNode i := by
  rw [hports i (Topology.lt_of_mem_dataLinks hl), h.blocked_iff hT.toValid hl]

theorem TreeLinksSingle.both (h : TreeLinksSingle T start) (hl : l ∈ T.dataLinks i) :
    l.localGate ∈ (info i).ports ↔ l.remoteGate ∈ (info l.remoteNode).ports := by
  have hback := h.mem_ports_iff hT hports (hT.back_mem i l hl)
  rw [LinkOut.back] at hback
  rw [h.mem_ports_iff hT hports hl, hback, and_comm]

theorem TreeLinksSingle.open_iff (h : TreeLinksSingle T start) (hl : l ∈ T.dataLinks i) :
    Open info i l ↔ First T start (T.rank start) i l.remoteNode ∨
      First T start (T.rank start) l.remoteNode i := by
  rw [Open, ← h.both hT hports hl, and_self, h.mem_ports_iff hT hports hl,
    ← not_or, not_not]

variable (hstart : start < T.numNodes)
include hstart

theorem TreeLinksSingle.isTree (h : TreeLinksSingle T start) : (openGraph T info).IsTree := by
  have hrank := hT.ranking hstart
  have hparent : ∀ v : Fin T.numNodes, ∃ u : Fin T.numNodes, v ≠ ⟨start, hstart⟩ →
      First T start (T.rank start) v u := by
    intro v
    by_cases hv : v = ⟨start, hstart⟩
    · exact ⟨v, fun hne => (hne hv).elim⟩
    · obtain ⟨u, hu⟩ := exists_first hrank v.2 fun heq => hv (Fin.ext heq)
      exact ⟨⟨u, (hT.adj_symm hu.adj).lt⟩, fun _ => hu⟩
  choose parent hparent using hparent
  have hfirst : ∀ u v : Fin T.numNodes, First T start (T.rank start) v u ↔
      v ≠ ⟨start, hstart⟩ ∧ parent v = u := by
    intro u v
    constructor
    · intro hu
      have hne : v ≠ ⟨start, hstart⟩ := fun heq => hu.ne_start (Fin.mk.inj heq)
      exact ⟨hne, Fin.ext ((hparent v hne).unique hT.toValid hrank hu)⟩
    · rintro ⟨hne, rfl⟩
      exact hparent v hne
  -- an open link joins a node and its first neighbour
  have hlink : ∀ u v : Fin T.numNodes, (∃ l ∈ T.dataLinks u, l.remoteNode = v ∧ Open info u l) ↔
      First T start (T.rank start) u v ∨ First T start (T.rank start) v u := by
    intro u v
    constructor
    · rintro ⟨l, hl, hv, hopen⟩
      rw [h.open_iff hT hports hl, hv] at hopen
      exact hopen
    · intro hor
      obtain ⟨l, hl, hv⟩ : T.Adj u v :=
        hor.elim First.adj fun hvu => hT.adj_symm hvu.adj
      refine ⟨l, hl, hv, (h.open_iff hT hports hl).mpr ?_⟩
      rw [hv]
      exact hor
  refine @isTree_of_parent _ _ ⟨start, hstart⟩ parent (fun v => T.rank start v) _
    (fun v hv => (hparent v hv).lt hrank) fun u v => ?_
  rw [openGraph, SimpleGraph.fromRel_adj, hlink, hlink, ← hfirst, ← hfirst]
  constructor
  · rintro ⟨-, (huv | hvu) | (hvu | huv)⟩
    exacts [.inr huv, .inl hvu, .inl hvu, .inr huv]
  · rintro (hvu | huv)
    · exact ⟨fun heq => hvu.ne hrank (congrArg Fin.val heq.symm), .inl (.inr hvu)⟩
    · exact ⟨fun heq => huv.ne hrank (congrArg Fin.val heq), .inl (.inl huv)⟩

theorem TreeLinksSingle.spanningTree (h : TreeLinksSingle T start) : SpanningTree T info where
  isTree := h.isTree hT hports hstart
  single i l hl l' hl' hopen hopen' heq := by
    rw [h.open_iff hT hports hl] at hopen
    rcases hopen with hfirst | hfirst
    · exact (h i l hl l' hl' hfirst heq.symm).symm
    · have hback := hT.back_mem i l' hl'
      rw [← heq] at hback
      have hsame := h l.remoteNode _ (hT.back_mem i l hl) _ hback hfirst rfl
      exact hT.eq_of_localGate hl hl' (LinkOut.mk.inj hsame).2.2.2.symm
  proper i l hl hopen heq := by
    have hrank := hT.ranking hstart
    rw [h.open_iff hT hports hl, heq, or_self] at hopen
    exact hopen.ne hrank rfl
  both i l hl := h.both hT hports hl

/-- The parent blocks the second link to a child, which the child does not. -/
theorem treeLinksSingle_of_both (hboth : ∀ i, ∀ l ∈ T.dataLinks i,
    l.localGate ∈ (info i).ports ↔ l.remoteGate ∈ (info l.remoteNode).ports) :
    TreeLinksSingle T start := by
  have hrank := hT.ranking hstart
  have hlate : ∀ x, ∀ l ∈ T.dataLinks x, First T start (T.rank start) x l.remoteNode →
      ∀ pre post, T.linksOut l.remoteNode = pre ++ l.back x :: post → ¬LeadTo pre x := by
    intro x l hl hfirst pre post hsplit hlead
    have hx := Topology.lt_of_mem_dataLinks hl
    have hblocked : Blocked T start (T.rank start) l.remoteNode l.remoteGate :=
      (Flooding.blocked_iff hT.toValid (hT.back_mem x l hl)).mpr
        ⟨hfirst.not_symm hrank, fun _ => ⟨pre, post, hsplit, hlead⟩⟩
    have hmem := (hboth x l hl).mpr ((hports _ (hT.remote_lt x l hl) _).mpr hblocked)
    rw [hports x hx, Flooding.blocked_iff hT.toValid hl] at hmem
    exact hmem.1 hfirst
  intro x l hl l' hl' hfirst hremote
  by_contra hne
  have hback := hT.back_mem x l hl
  have hback' := hT.back_mem x l' hl'
  rw [hremote] at hback'
  -- one of the two links comes after the other
  obtain ⟨pre, post, hsplit⟩ := exists_split hback
  have hmem' := (Topology.mem_dataLinks.mp hback').1
  rw [hsplit, List.mem_append, List.mem_cons] at hmem'
  rcases hmem' with hpre | heq | hpost
  · exact hlate x l hl hfirst pre post hsplit ⟨_, hpre, rfl, rfl⟩
  · exact hne (hT.eq_of_localGate hl' hl (LinkOut.mk.inj heq).2.2.2)
  · obtain ⟨mid, post, rfl⟩ := List.append_of_mem hpost
    refine hlate x l' hl' (hremote ▸ hfirst) (pre ++ l.back x :: mid) post ?_
      ⟨l.back x, by simp, rfl, rfl⟩
    rw [hremote, hsplit, List.append_assoc, List.cons_append]

end

/-- **Exactly when flooding is loop-free**: in every connected topology the stage ends, and the open
links are a spanning tree, along which frames are flooded, exactly if no node but the start has two
links to its first neighbour. -/
theorem exists_loopFree_iff (hT : T.Connected) (startNode rand : ℕ) :
    (∃ n info, (∀ fuel, n ≤ fuel → initializeStage T startNode rand fuel = some info) ∧
        LoopFree T info) ↔
      TreeLinksSingle T (StaticSpanningTree.start T startNode rand) := by
  have hstart : StaticSpanningTree.start T startNode rand < T.numNodes := by
    unfold StaticSpanningTree.start
    split_ifs with hlt
    · exact hlt
    · exact Nat.mod_lt _ hT.nonempty
  obtain ⟨n, info, hrun, hports⟩ :=
    exists_initializeStage hT.toValid hstart (hT.ranking hstart)
  constructor
  · rintro ⟨n', info', hrun', hfree⟩
    have hsame := hrun' _ (Nat.le_max_right n n')
    rw [hrun _ (Nat.le_max_left n n')] at hsame
    obtain rfl := Option.some.inj hsame
    exact treeLinksSingle_of_both hT hports hstart hfree.spanningTree.both
  · intro hsingle
    have htree := hsingle.spanningTree hT hports hstart
    exact ⟨n, info, hrun, htree, fun agents hagents => htree.floodsOnce hT.toValid hagents⟩

/-! ## Topologies with parallel links -/

theorem valid_of_forall_lt (hremote : ∀ i < T.numNodes, ∀ l ∈ T.dataLinks i,
      l.remoteNode < T.numNodes ∧ l.back i ∈ T.dataLinks l.remoteNode ∧
        l.localGate < T.gateSize i)
    (hnodup : ∀ i < T.numNodes, ((T.dataLinks i).map (·.localGate)).Nodup)
    (hsize : ∀ i < T.numNodes, T.gateSize i ≤ 4294967296) : T.Valid where
  remote_lt i l hl := (hremote i (Topology.lt_of_mem_dataLinks hl) l hl).1
  back_mem i l hl := (hremote i (Topology.lt_of_mem_dataLinks hl) l hl).2.1
  nodup i := by
    by_cases hi : i < T.numNodes
    · exact hnodup i hi
    · rw [List.eq_nil_iff_forall_not_mem.mpr fun l hl => hi (Topology.lt_of_mem_dataLinks hl)]
      exact List.nodup_nil
  localGate_lt i l hl := (hremote i (Topology.lt_of_mem_dataLinks hl) l hl).2.2
  gateSize_le i := by
    by_cases hi : i < T.numNodes
    · exact hsize i hi
    · rw [Topology.gateSize, List.getElem?_eq_none (Nat.le_of_not_lt hi)]
      exact Nat.zero_le _

/-- A node that all others have a link to connects them. -/
theorem Topology.Valid.connected_of_hub (hT : T.Valid) (hx : x < T.numNodes)
    (hhub : ∀ i < T.numNodes, i ≠ x → T.Adj i x) : T.Connected where
  toValid := hT
  nonempty := Nat.zero_lt_of_lt hx
  connected i y hi hy := by
    have hto : Relation.ReflTransGen T.Adj i x := by
      by_cases hne : i = x
      · rw [hne]
      · exact .single (hhub i hi hne)
    by_cases hne : y = x
    · rw [hne]
      exact hto
    · exact hto.tail (hT.adj_symm (hhub y hy hne))

/-- Two links join the nodes 1 and 2, and one joins each of them and the node 0. -/
def ring : Topology where
  nodes := [
    ⟨[⟨true, 0, 2, 0⟩, ⟨false, 0, 1, 0⟩, ⟨false, 1, 2, 0⟩], 3⟩,
    ⟨[⟨false, 0, 0, 0⟩, ⟨false, 1, 2, 1⟩, ⟨false, 2, 2, 2⟩], 4⟩,
    ⟨[⟨true, 0, 0, 0⟩, ⟨false, 0, 0, 1⟩, ⟨false, 1, 1, 1⟩, ⟨false, 2, 1, 2⟩], 3⟩]

/-- Two links join the nodes. -/
def parallelLinks : Topology where
  nodes := [
    ⟨[⟨false, 0, 1, 0⟩, ⟨false, 1, 1, 1⟩], 3⟩,
    ⟨[⟨false, 0, 0, 0⟩, ⟨false, 1, 0, 1⟩], 3⟩]

/-- If the start is the node 0 and all others have a link to it, only these links matter. -/
theorem treeLinksSingle_of_hub (hT : T.Connected)
    (hhub : ∀ i < T.numNodes, i ≠ 0 → T.Adj i 0)
    (hsingle : ∀ i < T.numNodes, ∀ l ∈ T.dataLinks i, ∀ l' ∈ T.dataLinks i, l.remoteNode = 0 →
      l'.remoteNode = 0 → l' = l) : TreeLinksSingle T 0 := by
  intro x l hl l' hl' hfirst heq
  have hrank := hT.ranking hT.nonempty
  have hx := Topology.lt_of_mem_dataLinks hl
  have hle := hfirst.le 0 (hhub x hx hfirst.ne_start)
  have hmod := hrank.mod l.remoteNode (hT.remote_lt x l hl)
  rw [hrank.rank_start] at hle
  rw [Nat.le_zero.mp hle, Nat.zero_mod] at hmod
  exact hsingle x hx l hl l' hl' hmod.symm (heq.trans hmod.symm)

theorem hub_ring : ∀ i < ring.numNodes, i ≠ 0 → ring.Adj i 0 := by
  intro i hi hne
  rcases i with _ | _ | _ | i
  · exact (hne rfl).elim
  · exact ⟨⟨false, 0, 0, 0⟩, by decide, rfl⟩
  · exact ⟨⟨false, 0, 0, 1⟩, by decide, rfl⟩
  · exact absurd hi (by simp [ring, Topology.numNodes])

theorem connected_ring : ring.Connected :=
  (valid_of_forall_lt (by decide) (by decide) (by decide)).connected_of_hub (by decide) hub_ring

/-- The links between the nodes 1 and 2 are both blocked. -/
theorem exists_loopFree_ring : ∃ n info,
    (∀ fuel, n ≤ fuel → initializeStage ring 0 0 fuel = some info) ∧ LoopFree ring info :=
  (exists_loopFree_iff connected_ring 0 0).mpr
    (treeLinksSingle_of_hub connected_ring hub_ring (by decide))

theorem connected_parallelLinks : parallelLinks.Connected := by
  refine (valid_of_forall_lt (by decide) (by decide) (by decide)).connected_of_hub (x := 0)
    (by decide) fun i hi hne => ?_
  rcases i with _ | _ | i
  · exact (hne rfl).elim
  · exact ⟨⟨false, 0, 0, 0⟩, by decide, rfl⟩
  · exact absurd hi (by simp [parallelLinks, Topology.numNodes])

/-- A switch with three ports. -/
def threePorts : SwitchAgent := ⟨0, [], true, 0, [], [false, false, false]⟩

/-- The node 0 floods a frame of the host at its port 2. The node 1 sends it back. -/
theorem not_loopFree_parallelLinks : parallelLinks.Connected ∧ ∃ info,
    (∀ fuel, 3 ≤ fuel → initializeStage parallelLinks 0 0 fuel = some info) ∧
      ¬SpanningTree parallelLinks info ∧
      ∃ agents, Disabled parallelLinks info agents ∧ ¬FloodsOnce parallelLinks agents := by
  have hstage : (initializeStage parallelLinks 0 0 3).any
      (fun info => (info 0).ports = [1] ∧ (info 1).ports = []) = true := by decide +kernel
  obtain ⟨info, hrun, hports⟩ := (Option.any_eq_true _ _).mp hstage
  obtain ⟨hports0, hports1⟩ := of_decide_eq_true hports
  let agents (v : ℕ) : SwitchAgent := disablePorts threePorts (if v = 0 then [1] else [])
  refine ⟨connected_parallelLinks, info, fun fuel hfuel => ?_, fun htree => ?_, agents, ?_, ?_⟩
  · obtain ⟨s, hloop, rfl⟩ := Option.map_eq_some_iff.mp hrun
    rw [initializeStage, whileLoop_mono hloop hfuel, Option.map_some]
  · have hboth := htree.both 0 ⟨false, 1, 1, 1⟩ (by decide)
    dsimp only at hboth
    rw [hports0, hports1] at hboth
    simp at hboth
  · intro v hv
    rcases v with _ | _ | v
    · exact ⟨threePorts, rfl, by rw [hports0]; rfl⟩
    · exact ⟨threePorts, rfl, by rw [hports1]; rfl⟩
    · exact absurd hv (by simp [parallelLinks, Topology.numNodes])
  · intro honce
    have hback : ((flooding parallelLinks agents ⟨0, 0, 0x8100, 0, none, .other⟩ 0 2).runFrom
        { inFlight := flood parallelLinks agents ⟨0, 0, 0x8100, 0, none, .other⟩ 0 2 }
        [0, 0]).any (fun s => 0 ∈ s.received) = true := by decide +kernel
    obtain ⟨s, hs, hmem⟩ := (Option.any_eq_true _ _).mp hback
    have hreach : (flooding parallelLinks agents
        ⟨0, 0, 0x8100, 0, none, .other⟩ 0 2).Reachable s := System.reachable_of_runFrom rfl hs
    have hnot := (honce _ 0 2 (by decide) (by decide) s hreach).2.1 0 (of_decide_eq_true hmem)
    exact hnot.2 rfl

end TsnReconfig.Flooding
