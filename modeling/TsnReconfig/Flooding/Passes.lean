import TsnReconfig.Flooding.ProcessingOrder

/-!
# The passes over the nodes

What is known of the nodes after so many turns follows from the order: those with a smaller place in
it have been processed, and each of these has got its neighbours into the tree. So the passes end,
and the ports of a node that are blocked at the end follow from the order, too.
-/

namespace TsnReconfig.Flooding
open Lib StaticSpanningTree

variable {T : Topology} {start i x y t : ℕ} {rank : ℕ → ℕ} {l : LinkOut}
  {info info' : ℕ → NodeInfo}

/-- Some of the links lead to the node. -/
def LeadTo (links : List LinkOut) (x : ℕ) : Prop :=
  ∃ l ∈ links, l.gateCPlane = false ∧ l.remoteNode = x

theorem leadTo_concat {links : List LinkOut} :
    LeadTo (links ++ [l]) x ↔ LeadTo links x ∨ (l.gateCPlane = false ∧ l.remoteNode = x) := by
  constructor
  · rintro ⟨l', hl', h⟩
    rcases List.mem_append.mp hl' with hl' | hl'
    · exact .inl ⟨l', hl', h⟩
    · obtain rfl := List.mem_singleton.mp hl'
      exact .inr h
  · rintro (⟨l', hl', h⟩ | h)
    · exact ⟨l', List.mem_append_left _ hl', h⟩
    · exact ⟨l, List.mem_append_right _ (List.mem_singleton_self l), h⟩

theorem leadTo_concat_of_ne {links : List LinkOut} (h : x ≠ l.remoteNode) :
    LeadTo (links ++ [l]) x ↔ LeadTo links x := by
  rw [leadTo_concat]
  exact or_iff_left fun hx => h hx.2.symm

section
variable {links : List LinkOut}
  (h : (info l.remoteNode).isInTree = true ∨ LeadTo links l.remoteNode)
include h

/-- A link to a node that is in the tree changes nothing. -/
theorem or_leadTo_concat : (info y).isInTree = true ∨ LeadTo (links ++ [l]) y ↔
    (info y).isInTree = true ∨ LeadTo links y := by
  by_cases hy : y = l.remoteNode
  · subst hy
    exact iff_of_true (h.imp_right fun hlead => leadTo_concat.mpr (.inl hlead)) h
  · rw [leadTo_concat_of_ne hy]

theorem and_leadTo_concat : (info y).isInTree = false ∧ LeadTo (links ++ [l]) y ↔
    (info y).isInTree = false ∧ LeadTo links y := by
  refine and_congr_right fun hnot => ⟨fun hlead => ?_, fun hlead => leadTo_concat.mpr (.inl hlead)⟩
  have hor := (or_leadTo_concat h).mp (.inr hlead)
  rw [hnot] at hor
  exact hor.resolve_left (by simp)

end

/-- Some link meets the condition, which is also about those before it. -/
def Among (links : List LinkOut) (p : List LinkOut → LinkOut → Prop) : Prop :=
  ∃ pre l post, links = pre ++ l :: post ∧ p pre l

theorem among_concat {links : List LinkOut} {p : List LinkOut → LinkOut → Prop} :
    Among (links ++ [l]) p ↔ Among links p ∨ p links l := by
  constructor
  · rintro ⟨pre, l', post, heq, hp⟩
    rcases List.eq_nil_or_concat post with rfl | ⟨post, l'', rfl⟩
    · obtain ⟨rfl, hl⟩ := List.append_inj' heq rfl
      obtain rfl := (List.cons.inj hl).1
      exact .inr hp
    · rw [List.concat_eq_append, ← List.cons_append, ← List.append_assoc] at heq
      exact .inl ⟨pre, l', post, (List.append_inj' heq rfl).1, hp⟩
  · rintro (⟨pre, l', post, rfl, hp⟩ | hp)
    · exact ⟨pre, l', post ++ [l], by rw [List.append_assoc, List.cons_append], hp⟩
    · exact ⟨links, l, [], rfl, hp⟩

theorem among_congr {links : List LinkOut} {p q : List LinkOut → LinkOut → Prop}
    (h : ∀ pre, ∀ l ∈ links, p pre l ↔ q pre l) : Among links p ↔ Among links q := by
  constructor
  · rintro ⟨pre, l, post, rfl, hp⟩
    exact ⟨pre, l, post, rfl, (h pre l (by simp)).mp hp⟩
  · rintro ⟨pre, l, post, rfl, hq⟩
    exact ⟨pre, l, post, rfl, (h pre l (by simp)).mpr hq⟩

/-! ## The links of one node -/

/-- What the loop over the links of node `i` has done. -/
structure Visited (i : ℕ) (info : ℕ → NodeInfo) (links : List LinkOut) (info' : ℕ → NodeInfo) :
    Prop where
  isProcessed : ∀ y, (info' y).isProcessed = (info y).isProcessed
  isInTree : ∀ x, (info' x).isInTree = true ↔ (info x).isInTree = true ∨ LeadTo links x
  treeNeighbors : ∀ x y, (info' x).treeNeighbors y = true ↔ (info x).treeNeighbors y = true ∨
    (y = i ∧ (info x).isInTree = false ∧ LeadTo links x)
  ports : ∀ y p, p ∈ (info' y).ports ↔ p ∈ (info y).ports ∨ (y = i ∧
    Among links fun pre l => l.gateCPlane = false ∧ l.localGate = p ∧
      ((info l.remoteNode).isInTree = true ∨ LeadTo pre l.remoteNode) ∧
      (info i).treeNeighbors l.remoteNode = false)

theorem visited_nil : Visited i info [] info where
  isProcessed _ := rfl
  isInTree x := by simp [LeadTo]
  treeNeighbors x y := by simp [LeadTo]
  ports y p := by simp [Among]

section
variable {links : List LinkOut} (h : Visited i info links info')
include h

theorem Visited.controlLink (hcplane : l.gateCPlane = true) :
    Visited i info (links ++ [l]) info' := by
  refine ⟨h.isProcessed, fun x => ?_, fun x y => ?_, fun y p => ?_⟩
  · rw [h.isInTree, leadTo_concat, hcplane]
    simp
  · rw [h.treeNeighbors, leadTo_concat, hcplane]
    simp
  · rw [h.ports, among_concat, hcplane]
    simp

/-- The remote node gets into the tree, with `i` as its neighbour. -/
theorem Visited.newNode (hdata : l.gateCPlane = false)
    (hnew : (info l.remoteNode).isInTree = false ∧ ¬LeadTo links l.remoteNode) :
    Visited i info (links ++ [l]) (Function.update info' l.remoteNode { info' l.remoteNode with
      isInTree := true
      treeNeighbors := Function.update (info' l.remoteNode).treeNeighbors i true }) := by
  refine ⟨fun y => ?_, fun y => ?_, fun y z => ?_, fun y p => ?_⟩
  · by_cases hy : y = l.remoteNode
    · rw [hy, Function.update_self]
      exact h.isProcessed _
    · rw [Function.update_of_ne hy]
      exact h.isProcessed y
  · by_cases hy : y = l.remoteNode
    · rw [hy, Function.update_self]
      exact iff_of_true rfl (.inr (leadTo_concat.mpr (.inr ⟨hdata, rfl⟩)))
    · rw [Function.update_of_ne hy, h.isInTree, leadTo_concat_of_ne hy]
  · by_cases hy : y = l.remoteNode
    · rw [hy, Function.update_self]
      dsimp only
      by_cases hz : z = i
      · rw [hz, Function.update_self]
        exact iff_of_true rfl (.inr ⟨rfl, hnew.1, leadTo_concat.mpr (.inr ⟨hdata, rfl⟩)⟩)
      · rw [Function.update_of_ne hz, h.treeNeighbors]
        exact or_congr_right (iff_of_false (fun hz' => hz hz'.1) fun hz' => hz hz'.1)
    · rw [Function.update_of_ne hy, h.treeNeighbors, leadTo_concat_of_ne hy]
  · have hports : (Function.update info' l.remoteNode { info' l.remoteNode with
        isInTree := true
        treeNeighbors := Function.update (info' l.remoteNode).treeNeighbors i true } y).ports =
          (info' y).ports := by
      by_cases hy : y = l.remoteNode
      · rw [hy, Function.update_self]
      · rw [Function.update_of_ne hy]
    rw [hports, h.ports, among_concat, hnew.1]
    simp [hnew.2]

variable (hnew : (info l.remoteNode).isInTree = true ∨ LeadTo links l.remoteNode)
include hnew

theorem Visited.treeLink (hneighbor : (info i).treeNeighbors l.remoteNode = true) :
    Visited i info (links ++ [l]) info' := by
  refine ⟨h.isProcessed, fun y => ?_, fun y z => ?_, fun y p => ?_⟩
  · rw [h.isInTree, or_leadTo_concat hnew]
  · rw [h.treeNeighbors, and_leadTo_concat hnew]
  · rw [h.ports, among_concat, hneighbor]
    simp

/-- The port is to be disabled. -/
theorem Visited.otherLink (hdata : l.gateCPlane = false)
    (hneighbor : (info i).treeNeighbors l.remoteNode = false) :
    Visited i info (links ++ [l]) (Function.update info' i { info' i with
      ports := (info' i).ports ++ [l.localGate] }) := by
  have hother : ∀ y, (Function.update info' i { info' i with
      ports := (info' i).ports ++ [l.localGate] } y).isProcessed = (info' y).isProcessed ∧
      (Function.update info' i { info' i with
        ports := (info' i).ports ++ [l.localGate] } y).isInTree = (info' y).isInTree ∧
      (Function.update info' i { info' i with
        ports := (info' i).ports ++ [l.localGate] } y).treeNeighbors =
          (info' y).treeNeighbors := by
    intro y
    by_cases hy : y = i
    · rw [hy, Function.update_self]
      exact ⟨rfl, rfl, rfl⟩
    · rw [Function.update_of_ne hy]
      exact ⟨rfl, rfl, rfl⟩
  refine ⟨fun y => ?_, fun y => ?_, fun y z => ?_, fun y p => ?_⟩
  · rw [(hother y).1, h.isProcessed]
  · rw [(hother y).2.1, h.isInTree, or_leadTo_concat hnew]
  · rw [(hother y).2.2, h.treeNeighbors, and_leadTo_concat hnew]
  · rw [among_concat]
    by_cases hy : y = i
    · rw [hy, Function.update_self, List.mem_append, List.mem_singleton, h.ports, or_assoc,
        and_iff_right rfl, and_iff_right rfl]
      refine or_congr_right (or_congr_right ⟨fun hp => ⟨hdata, hp.symm, hnew, hneighbor⟩, ?_⟩)
      exact fun hp => hp.2.1.symm
    · rw [Function.update_of_ne hy, h.ports]
      exact or_congr_right (iff_of_false (fun hy' => hy hy'.1) fun hy' => hy hy'.1)

end

theorem Visited.visitLink {links : List LinkOut} (h : Visited i info links info')
    (hi : (info i).isInTree = true) :
    Visited i info (links ++ [l]) (visitLink i info' l) := by
  -- the neighbours of `i` itself do not change
  have hown : (info' i).treeNeighbors l.remoteNode = (info i).treeNeighbors l.remoteNode := by
    rw [Bool.eq_iff_iff, h.treeNeighbors, hi]
    simp
  unfold StaticSpanningTree.visitLink
  dsimp only
  split_ifs with hcplane hnew hneighbor
  · exact h.controlLink hcplane
  · rw [Bool.not_eq_true', ← Bool.not_eq_true, h.isInTree, not_or, Bool.not_eq_true] at hnew
    exact h.newNode (Bool.eq_false_iff.mpr hcplane) hnew
  · rw [Bool.not_eq_true', Bool.not_eq_false, h.isInTree] at hnew
    rw [hown] at hneighbor
    exact h.treeLink hnew hneighbor
  · rw [Bool.not_eq_true', Bool.not_eq_false, h.isInTree] at hnew
    rw [hown, Bool.not_eq_true] at hneighbor
    exact h.otherLink hnew (Bool.eq_false_iff.mpr hcplane) hneighbor

theorem Visited.foldl {links rest : List LinkOut} (h : Visited i info links info')
    (hi : (info i).isInTree = true) :
    Visited i info (links ++ rest) (rest.foldl (StaticSpanningTree.visitLink i) info') := by
  induction rest generalizing links info' with
  | nil =>
    rw [List.append_nil]
    exact h
  | cons l rest ih =>
    have hlinks := ih (h.visitLink (l := l) hi)
    rwa [List.append_assoc] at hlinks

theorem visited_processNode (hi : (info i).isInTree = true) :
    Visited i (Function.update info i { info i with isProcessed := true }) (T.linksOut i)
      (processNode T info i) :=
  (visited_nil).foldl (by rw [Function.update_self]; exact hi)

/-! ## The turns of the nodes -/

/-- The node comes first in the order among the neighbours of another one. -/
structure First (T : Topology) (start : ℕ) (rank : ℕ → ℕ) (x y : ℕ) : Prop where
  ne_start : x ≠ start
  adj : T.Adj x y
  le : ∀ z, T.Adj x z → rank y ≤ rank z

/-- A link at the port leads to a node that was in the tree already, and not through this node. -/
def Blocked (T : Topology) (start : ℕ) (rank : ℕ → ℕ) (i p : ℕ) : Prop :=
  Among (T.linksOut i) fun pre l => l.gateCPlane = false ∧ l.localGate = p ∧
    (¬First T start rank l.remoteNode i ∨ LeadTo pre l.remoteNode) ∧
    ¬First T start rank i l.remoteNode

/-- What is known when the nodes have had so many turns. -/
structure At (T : Topology) (start : ℕ) (rank : ℕ → ℕ) (t : ℕ) (info : ℕ → NodeInfo) : Prop where
  isProcessed : ∀ y < T.numNodes, (info y).isProcessed = true ↔ rank y < t
  isInTree : ∀ x < T.numNodes,
    (info x).isInTree = true ↔ x = start ∨ ∃ y, T.Adj y x ∧ rank y < t
  treeNeighbors : ∀ x < T.numNodes, ∀ y < T.numNodes,
    (info x).treeNeighbors y = true ↔ First T start rank x y ∧ rank y < t
  ports : ∀ y < T.numNodes, ∀ p, p ∈ (info y).ports ↔ rank y < t ∧ Blocked T start rank y p

theorem leadTo_linksOut : LeadTo (T.linksOut i) x ↔ T.Adj i x := by
  constructor
  · rintro ⟨l, hl, hdata, rfl⟩
    exact ⟨l, Topology.mem_dataLinks.mpr ⟨hl, hdata⟩, rfl⟩
  · rintro ⟨l, hl, rfl⟩
    obtain ⟨hmem, hdata⟩ := Topology.mem_dataLinks.mp hl
    exact ⟨l, hmem, hdata, rfl⟩

section
variable (hT : T.Valid) (hrank : T.Ranking start rank)
include hrank

theorem rank_eq_iff (hy : y < T.numNodes) (ht : rank i = t) (hi : i < T.numNodes) :
    rank y = t ↔ y = i := by
  constructor
  · intro heq
    rw [← hrank.mod y hy, heq, ← ht, hrank.mod i hi]
  · rintro rfl
    exact ht

theorem at_zero (hstart : start < T.numNodes) :
    At T start rank 0 (Function.update (fun _ => {}) start { isInTree := true }) := by
  have hfields : ∀ x, (Function.update (fun _ => ({} : NodeInfo)) start { isInTree := true } x) =
      { isInTree := decide (x = start) } := by
    intro x
    by_cases hx : x = start
    · subst hx
      simp
    · simp [hx]
  constructor <;> intros <;> rw [hfields] <;> simp

/-- The first neighbour comes before the node itself. -/
theorem First.lt (h : First T start rank x y) : rank y < rank x := by
  obtain ⟨z, hz, hlt⟩ := hrank.before x h.adj.lt h.ne_start
  exact (h.le z hz).trans_lt hlt

include hT

/-- It is the turn of a node if it is in the tree and has not been processed. -/
theorem At.turn_iff (h : At T start rank t info) (hi : i < T.numNodes) (ht : t % T.numNodes = i) :
    ((info i).isInTree = true ∧ (info i).isProcessed = false) ↔ rank i = t := by
  rw [h.isInTree i hi, ← Bool.not_eq_true, h.isProcessed i hi]
  constructor
  · rintro ⟨rfl | ⟨y, hadj, hlt⟩, hnot⟩
    · have hle := Nat.mod_le t T.numNodes
      rw [hrank.rank_start] at hnot ⊢
      omega
    · have hle := hrank.next i y t hadj hi ht hlt
      omega
  · intro heq
    refine ⟨or_iff_not_imp_left.mpr fun hne => ?_, by omega⟩
    obtain ⟨y, hadj, hlt⟩ := hrank.before i hi hne
    exact ⟨y, hT.adj_symm hadj, heq ▸ hlt⟩

omit hrank in
/-- Which neighbours are not in the tree when it is the turn of a node. -/
theorem At.not_isInTree_iff (h : At T start rank (rank i) info) (hx : x < T.numNodes) :
    (info x).isInTree = false ∧ T.Adj i x ↔ First T start rank x i := by
  rw [← Bool.not_eq_true, h.isInTree x hx, not_or]
  constructor
  · rintro ⟨⟨hne, hnot⟩, hadj⟩
    refine ⟨hne, hT.adj_symm hadj, fun z hz => ?_⟩
    by_contra hlt
    exact hnot ⟨z, hT.adj_symm hz, Nat.lt_of_not_le hlt⟩
  · intro hfirst
    refine ⟨⟨hfirst.ne_start, ?_⟩, hT.adj_symm hfirst.adj⟩
    rintro ⟨y, hadj, hlt⟩
    exact absurd (hfirst.le y (hT.adj_symm hadj)) (Nat.not_le_of_lt hlt)

theorem At.processNode (h : At T start rank (rank i) info) (hi : i < T.numNodes) :
    At T start rank (rank i + 1) (processNode T info i) := by
  have hturn := (h.turn_iff hT hrank hi (hrank.mod i hi)).mpr rfl
  have hv := visited_processNode (T := T) hturn.1
  -- marking the node as processed leaves the rest of it as it is
  have hmark : ∀ y, (Function.update info i { info i with isProcessed := true } y) =
      { info y with isProcessed := (info y).isProcessed || decide (y = i) } := by
    intro y
    by_cases hy : y = i
    · subst hy
      simp
    · simp [hy]
  have hlt : ∀ y < T.numNodes, (rank y < rank i + 1 ↔ rank y < rank i ∨ y = i) := by
    intro y hy
    rw [Nat.lt_succ_iff_lt_or_eq, rank_eq_iff hrank hy rfl hi]
  constructor
  · intro y hy
    rw [hv.isProcessed, hmark, hlt y hy, ← h.isProcessed y hy]
    simp
  · intro x hx
    rw [hv.isInTree, hmark, leadTo_linksOut, h.isInTree x hx, or_assoc]
    refine or_congr_right ⟨?_, ?_⟩
    · rintro (⟨y, hadj, hlty⟩ | hadj)
      · exact ⟨y, hadj, (hlt y hadj.lt).mpr (.inl hlty)⟩
      · exact ⟨i, hadj, Nat.lt_succ_self _⟩
    · rintro ⟨y, hadj, hlty⟩
      rcases (hlt y hadj.lt).mp hlty with hlty | rfl
      · exact .inl ⟨y, hadj, hlty⟩
      · exact .inr hadj
  · intro x hx y hy
    rw [hv.treeNeighbors, hmark, leadTo_linksOut, h.treeNeighbors x hx y hy, hlt y hy,
      and_or_left]
    refine or_congr_right ?_
    rw [and_comm (a := First T start rank x y), h.not_isInTree_iff hT hx]
    refine and_congr_right ?_
    rintro rfl
    rfl
  · intro y hy p
    rw [hv.ports, hmark, h.ports y hy, hlt y hy, or_and_right]
    refine or_congr_right (and_congr_right ?_)
    rintro rfl
    refine among_congr fun pre l hl => and_congr_right fun hdata => and_congr_right fun _ => ?_
    have hadj : T.Adj y l.remoteNode := leadTo_linksOut.mp ⟨l, hl, hdata, rfl⟩
    have hremote := (hT.adj_symm hadj).lt
    have hnew := h.not_isInTree_iff hT hremote
    have hown := h.treeNeighbors y hy l.remoteNode hremote
    refine and_congr (or_congr_left ?_) ?_
    · rw [hmark, ← hnew, not_and_or]
      simp [hadj]
    · rw [hmark, ← Bool.not_eq_true, hown]
      exact not_congr (and_iff_left_of_imp fun hfirst => hfirst.lt hrank)

/-- **One turn**: what is known goes on. -/
theorem At.visitNode (h : At T start rank t info) (hi : i < T.numNodes)
    (ht : t % T.numNodes = i) {counter : ℕ} :
    At T start rank (t + 1) (StaticSpanningTree.visitNode T (info, counter) i).1 := by
  have hturn := h.turn_iff hT hrank hi ht
  have hvisit : (StaticSpanningTree.visitNode T (info, counter) i).1 =
      if rank i = t then StaticSpanningTree.processNode T info i else info := by
    rw [← Bool.not_eq_true', ← Bool.and_eq_true] at hturn
    rw [StaticSpanningTree.visitNode, apply_ite Prod.fst]
    exact if_congr hturn rfl rfl
  rw [hvisit]
  split_ifs with hif
  · subst hif
    exact h.processNode hT hrank hi
  · -- no node has this place in the order
    have hlt : ∀ y < T.numNodes, (rank y < t + 1 ↔ rank y < t) := by
      intro y hy
      rw [Nat.lt_succ_iff_lt_or_eq]
      refine or_iff_left fun heq => hif ?_
      rw [← ht, ← heq, hrank.mod y hy]
    refine ⟨fun y hy => ?_, fun x hx => ?_, fun x hx y hy => ?_, fun y hy p => ?_⟩
    · rw [h.isProcessed y hy, hlt y hy]
    · rw [h.isInTree x hx]
      exact or_congr_right (exists_congr fun y => and_congr_right fun hadj =>
        (hlt y hadj.lt).symm)
    · rw [h.treeNeighbors x hx y hy, hlt y hy]
    · rw [h.ports y hy, hlt y hy]

/-! ## The passes -/

omit hT in
/-- A node that has been processed when it is its turn was processed before the pass. -/
theorem rank_lt_turn_iff {r : ℕ} (hi : i < T.numNodes) :
    rank i < r * T.numNodes + i ↔ rank i < r * T.numNodes := by
  refine ⟨fun hlt => ?_, fun hlt => by omega⟩
  by_contra hle
  have hmod := hrank.mod i hi
  have heq : rank i = T.numNodes * r + (rank i - r * T.numNodes) := by
    rw [Nat.mul_comm T.numNodes]
    omega
  rw [heq, Nat.mul_add_mod, Nat.mod_eq_of_lt (by omega)] at hmod
  omega

/-- **One pass** counts the nodes that have been processed before. -/
theorem At.turns {r m : ℕ} (h : At T start rank (r * T.numNodes) info) (hm : m ≤ T.numNodes) :
    At T start rank (r * T.numNodes + m)
        ((List.range m).foldl (StaticSpanningTree.visitNode T) (info, 0)).1 ∧
      ((List.range m).foldl (StaticSpanningTree.visitNode T) (info, 0)).2 =
        (List.range m).countP (rank · < r * T.numNodes) := by
  induction m with
  | zero => exact ⟨h, rfl⟩
  | succ m ih =>
    obtain ⟨hat, hcounter⟩ := ih (Nat.le_of_succ_le hm)
    have hmod : (r * T.numNodes + m) % T.numNodes = m := by
      rw [Nat.mul_comm, Nat.mul_add_mod, Nat.mod_eq_of_lt hm]
    rw [List.range_succ, List.foldl_append, List.foldl_cons, List.foldl_nil, List.countP_append,
      ← hcounter]
    refine ⟨hat.visitNode hT hrank hm hmod, ?_⟩
    have hprocessed := (hat.isProcessed m hm).trans (rank_lt_turn_iff hrank hm)
    rw [List.countP_singleton, if_congr decide_eq_true_iff rfl rfl, ← if_congr hprocessed rfl rfl,
      StaticSpanningTree.visitNode, apply_ite Prod.snd, ite_self]
    split_ifs <;> rfl

/-- What holds before each pass: the counter is that of the pass before. -/
structure BeforePass (T : Topology) (start : ℕ) (rank : ℕ → ℕ) (r : ℕ)
    (s : (ℕ → NodeInfo) × ℕ) : Prop where
  at_turn : At T start rank (r * T.numNodes) s.1
  counter : s.2 = (List.range T.numNodes).countP (rank · < (r - 1) * T.numNodes)

theorem BeforePass.pass {r : ℕ} {s s' : (ℕ → NodeInfo) × ℕ} (h : BeforePass T start rank r s)
    (hs : pass T s = some s') : BeforePass T start rank (r + 1) s' := by
  obtain ⟨-, hs⟩ := Option.ite_none_right_eq_some.mp hs
  obtain rfl := Option.some.inj hs
  obtain ⟨hat, hcounter⟩ := h.at_turn.turns hT hrank le_rfl
  refine ⟨?_, hcounter⟩
  rw [Nat.succ_mul]
  exact hat

omit hT hrank in
theorem BeforePass.pass_eq_none_iff {r : ℕ} {s : (ℕ → NodeInfo) × ℕ}
    (h : BeforePass T start rank r s) :
    StaticSpanningTree.pass T s = none ↔ ∀ y < T.numNodes, rank y < (r - 1) * T.numNodes := by
  rw [StaticSpanningTree.pass, ite_eq_right_iff, h.counter]
  have hall := List.countP_eq_length (p := fun y => decide (rank y < (r - 1) * T.numNodes))
    (l := List.range T.numNodes)
  rw [List.length_range] at hall
  simp only [reduceCtorEq, imp_false, not_not, hall, List.mem_range, decide_eq_true_eq]

/-- The passes end at the latest when the counter is the number of the nodes. -/
theorem BeforePass.terminates {bound r : ℕ} {s : (ℕ → NodeInfo) × ℕ}
    (h : BeforePass T start rank r s)
    (hbound : ∀ y < T.numNodes, rank y < bound * T.numNodes) :
    ∃ n t r', whileLoop (StaticSpanningTree.pass T) n s = some t ∧ BeforePass T start rank r' t ∧
      StaticSpanningTree.pass T t = none := by
  -- by the passes that are left
  obtain ⟨k, hk⟩ : ∃ k, bound + 1 - r = k := ⟨_, rfl⟩
  induction k generalizing r s with
  | zero =>
    have hnone : StaticSpanningTree.pass T s = none := by
      rw [h.pass_eq_none_iff]
      intro y hy
      have hmul := Nat.mul_le_mul_right T.numNodes (show bound ≤ r - 1 by omega)
      have hlt := hbound y hy
      omega
    exact ⟨1, s, r, whileLoop_of_none hnone, h, hnone⟩
  | succ k ih =>
    cases hnext : StaticSpanningTree.pass T s with
    | none => exact ⟨1, s, r, whileLoop_of_none hnext, h, hnext⟩
    | some s' =>
      obtain ⟨n, t, r', hloop, ht⟩ := ih (h.pass hT hrank hnext) (by omega)
      exact ⟨n + 1, t, r', (whileLoop_of_some hnext).trans hloop, ht⟩

omit hrank in
/-- **The passes end**, and which ports are to be disabled follows from the order. -/
theorem exists_initializeStage {startNode rand : ℕ}
    (hstart : StaticSpanningTree.start T startNode rand < T.numNodes)
    (hrank : T.Ranking (StaticSpanningTree.start T startNode rand) rank) :
    ∃ n info, (∀ fuel, n ≤ fuel → initializeStage T startNode rand fuel = some info) ∧
      ∀ y < T.numNodes, ∀ p, p ∈ (info y).ports ↔
        Blocked T (StaticSpanningTree.start T startNode rand) rank y p := by
  obtain ⟨start, hs⟩ : ∃ start, start = StaticSpanningTree.start T startNode rand := ⟨_, rfl⟩
  unfold initializeStage
  rw [← hs] at hstart hrank ⊢
  obtain ⟨bound, hbound⟩ : ∃ bound, ∀ y < T.numNodes, rank y < bound * T.numNodes := by
    refine ⟨(Finset.range T.numNodes).sup rank + 1, fun y hy => ?_⟩
    have hle := Finset.le_sup (f := rank) (Finset.mem_range.mpr hy)
    rw [Nat.succ_mul]
    have hmul := Nat.le_mul_of_pos_right ((Finset.range T.numNodes).sup rank) (Nat.zero_lt_of_lt hy)
    omega
  have hfirst : BeforePass T start rank 0
      (Function.update (fun _ => {}) start { isInTree := true }, 0) := by
    refine ⟨?_, ?_⟩
    · rw [Nat.zero_mul]
      exact at_zero hrank hstart
    · simp
  obtain ⟨n, t, r, hloop, hbefore, hend⟩ := hfirst.terminates hT hrank hbound
  refine ⟨n, t.1, fun fuel hfuel => by rw [whileLoop_mono hloop hfuel, Option.map_some], ?_⟩
  intro y hy p
  rw [hbefore.at_turn.ports y hy]
  refine and_iff_right (lt_of_lt_of_le (hbefore.pass_eq_none_iff.mp hend y hy) ?_)
  exact Nat.mul_le_mul_right _ (Nat.sub_le r 1)

end

end TsnReconfig.Flooding
