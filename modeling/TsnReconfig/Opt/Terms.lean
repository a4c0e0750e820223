import Mathlib.Data.List.Chain
import Mathlib.Data.List.Sort
import Mathlib.Data.Rat.Defs
import TsnReconfig.Lib.Numbering

/-!
# The terms of the optimiser

`terms.py`, and from `main.py` the reading of the topology: demands, paths and edges, each
with an index from a class-level counter, and the `PhysicalNetwork` made of them.
-/

namespace TsnReconfig.Opt
open Lib

/-! ## The topology -/

instance decidableMemLinks (link : ℕ × ℕ) (links : List (ℕ × ℕ)) : Decidable (link ∈ links) :=
  inferInstance

/-- The `graphml` file: the number of its nodes and its edges between them. -/
structure Topology where
  size : ℕ
  links : List (ℕ × ℕ)
  links_lt : ∀ e ∈ links, e.1 < size ∧ e.2 < size

namespace Topology

/-- The entry of the matrix of `construct_topo_xml`. -/
def connected (t : Topology) (i j : ℕ) : Bool := (i, j) ∈ t.links || (j, i) ∈ t.links

/-- Whether `convert_adj2dict` makes `j` a neighbour of `i`. -/
def adjacent (t : Topology) (i j : ℕ) : Bool := i != j && t.connected i j

/-- The list `edges` of `convert_adjacency`. -/
def edges (t : Topology) : List (ℕ × ℕ) :=
  (List.range t.size).flatMap fun k =>
    ((List.range t.size).filter (t.adjacent k)).map fun k1 => (k, k1)

theorem mem_edges {t : Topology} {i j : ℕ} : (i, j) ∈ t.edges ↔ t.adjacent i j = true := by
  simp only [edges, List.mem_flatMap, List.mem_range, List.mem_map, List.mem_filter,
    Prod.mk.injEq]
  constructor
  · rintro ⟨k, -, k1, ⟨-, hadj⟩, rfl, rfl⟩
    exact hadj
  · intro hadj
    have hlink : (i, j) ∈ t.links ∨ (j, i) ∈ t.links := by
      simpa [adjacent, connected, and_comm] using (Bool.and_eq_true_iff.mp hadj).2
    have hlt : i < t.size ∧ j < t.size := by
      rcases hlink with h | h
      · exact t.links_lt _ h
      · exact (t.links_lt _ h).symm
    exact ⟨i, hlt.1, j, ⟨hlt.2, hadj⟩, rfl, rfl⟩

end Topology

/-- What the optimiser takes from outside on this topology: `networkx.all_simple_paths`,
which raises `NodeNotFound` for a node that is not there, and the order in which Python goes
through a set. -/
structure Libraries (t : Topology) where
  allSimplePaths : (source target cutoff : ℕ) → Option (List (List ℕ))
  allSimplePaths_isSome : ∀ source target cutoff,
    (allSimplePaths source target cutoff).isSome ↔ source < t.size ∧ target < t.size
  ends : ∀ {source target cutoff ps}, allSimplePaths source target cutoff = some ps →
    ∀ p ∈ ps, p.head? = some source ∧ p.getLast? = some target
  adjacent : ∀ {source target cutoff ps}, allSimplePaths source target cutoff = some ps →
    ∀ p ∈ ps, p.IsChain fun i j => t.adjacent i j = true
  setOrder : List (ℕ × ℕ) → List (ℕ × ℕ)
  setOrder_nodup : ∀ l, (setOrder l).Nodup
  mem_setOrder : ∀ l e, e ∈ setOrder l ↔ e ∈ l

/-! ## Demands, paths and edges -/

/-- The demand tuple the controller passes on, its `Demand`. -/
structure DemandTuple where
  index : ℕ
  talker : ℕ
  listener : ℕ
  serviceType : ℕ
  maxData : ℚ
  maxLatency : ℚ
  deriving DecidableEq, Repr

/-- The class `Demand` of the optimiser. -/
structure Demand where
  talker : ℕ
  listener : ℕ
  serviceType : ℕ
  data : ℚ
  latency : ℚ
  index : ℕ
  deriving DecidableEq, Repr

def Demand.hosts (d : Demand) : ℕ × ℕ := (d.talker, d.listener)

/-- The class `Path`. -/
structure Path where
  path : List ℕ
  index : ℕ
  deriving DecidableEq, Repr

namespace Path

def talker (p : Path) : Option ℕ := p.path.head?

def listener (p : Path) : Option ℕ := p.path.getLast?

def edges (p : Path) : List (ℕ × ℕ) := p.path.zip p.path.tail

end Path

def linkCapacity : ℚ := 100

/-- The class `Edge`. -/
structure Edge where
  outgoing : ℕ
  incoming : ℕ
  capacity : ℚ
  latency : ℚ
  index : ℕ
  deriving DecidableEq, Repr

def Edge.link (e : Edge) : ℕ × ℕ := (e.outgoing, e.incoming)

/-- The class-level counters `Demand.i`, `Path.i`, `Node.i` and `Edge.i`. -/
structure Counters where
  demand : ℕ
  path : ℕ
  node : ℕ
  edge : ℕ
  deriving DecidableEq, Repr

/-- The counters after `refresh`, and at the start of the interpreter. -/
def Counters.zero : Counters := ⟨0, 0, 0, 0⟩

/-- `[Demand((d[1], d[2]), d[3], d[4], d[5]) for d in demands]`. -/
def mkDemands : ℕ → List DemandTuple → List Demand :=
  numbered fun d i => ⟨d.talker, d.listener, d.serviceType, d.maxData, d.maxLatency, i⟩

/-- `[Path(p) for p in paths]`. -/
def mkPaths : ℕ → List (List ℕ) → List Path := numbered fun p i => ⟨p, i⟩

/-- `[Edge(e) for e in edges]`. -/
def mkEdges : ℕ → List (ℕ × ℕ) → List Edge :=
  numbered fun e i => ⟨e.1, e.2, linkCapacity, 1, i⟩

/-- The class `PhysicalNetwork`. -/
structure PhysicalNetwork where
  E : List Edge
  P : List Path
  D : List Demand
  deriving DecidableEq, Repr

namespace PhysicalNetwork

def pathSize (g : PhysicalNetwork) : ℕ := g.P.length

/-- `group_paths`: the paths between these hosts. -/
def groupPaths (g : PhysicalNetwork) (hosts : ℕ × ℕ) : List Path :=
  g.P.filter fun p => p.talker = some hosts.1 ∧ p.listener = some hosts.2

def getEdge (g : PhysicalNetwork) (hosts : ℕ × ℕ) : Option Edge :=
  g.E.find? fun e => hosts = e.link

end PhysicalNetwork

/-- `CUTOFF` of the configuration. -/
def cutoff : ℕ := 8

section
variable {t : Topology} (lib : Libraries t)

/-- The loop of `generate_paths_threadless`, with the counter `Path.i`. An exception leaves
the counter where it was. -/
def generatePathsLoop (generated : List (ℕ × ℕ)) (P : List Path) (i : ℕ) :
    List Demand → ℕ × Option (List Path)
  | [] => (i, some P)
  | demand :: D =>
    if demand.hosts ∈ generated then generatePathsLoop generated P i D
    else
      match lib.allSimplePaths demand.talker demand.listener cutoff with
      | none => (i, none)
      | some paths =>
        generatePathsLoop (generated ++ [demand.hosts]) (P ++ mkPaths i paths) (i + paths.length) D

/-- `generate_paths_threadless`. -/
def generatePathsThreadless (i : ℕ) (D : List Demand) : ℕ × Option (List Path) :=
  let (i, P) := generatePathsLoop lib [] [] i D
  (i, P.map fun P => P.insertionSort fun p q => p.index ≤ q.index)

/-- `PhysicalNetwork.__init__`, with `convert_adjacency`. -/
def PhysicalNetwork.new (D : List Demand) (c : Counters) : Counters × Option PhysicalNetwork :=
  if t.size = 0 then (c, some ⟨[], [], D⟩)
  else
    match generatePathsThreadless lib c.path D with
    | (i, none) => ({ c with path := i }, none)
    | (i, some P) =>
      let E := mkEdges c.edge (lib.setOrder t.edges)
      ({ c with path := i, edge := c.edge + E.length }, some ⟨E, P, D⟩)

end

/-! ## The numbering of the paths -/

/-- Both hosts are nodes of the topology. -/
def Topology.Knows (t : Topology) (hosts : ℕ × ℕ) : Prop := hosts.1 < t.size ∧ hosts.2 < t.size

instance (t : Topology) (hosts : ℕ × ℕ) : Decidable (t.Knows hosts) := by
  unfold Topology.Knows
  infer_instance

section
variable {t : Topology} {lib : Libraries t} {D : List Demand}

/-- The paths between two hosts, none if one of them is unknown. -/
def Libraries.pathsBetween (lib : Libraries t) (hosts : ℕ × ℕ) : List (List ℕ) :=
  (lib.allSimplePaths hosts.1 hosts.2 cutoff).getD []

/-- The node lists of the paths for these host pairs: pair by pair, each at its first
appearance. -/
def Libraries.candidates (lib : Libraries t) (pairs : List (ℕ × ℕ)) : List (List ℕ) :=
  (firsts [] pairs).flatMap lib.pathsBetween

theorem Libraries.allSimplePaths_eq {hosts : ℕ × ℕ} (h : t.Knows hosts) :
    lib.allSimplePaths hosts.1 hosts.2 cutoff = some (lib.pathsBetween hosts) := by
  obtain ⟨ps, hps⟩ := Option.isSome_iff_exists.mp ((lib.allSimplePaths_isSome _ _ cutoff).mpr h)
  simp [Libraries.pathsBetween, hps]

theorem Libraries.ends_of_mem_pathsBetween {hosts : ℕ × ℕ} {p : List ℕ}
    (hp : p ∈ lib.pathsBetween hosts) : p.head? = some hosts.1 ∧ p.getLast? = some hosts.2 := by
  unfold Libraries.pathsBetween at hp
  cases h : lib.allSimplePaths hosts.1 hosts.2 cutoff with
  | none => simp [h] at hp
  | some ps => exact lib.ends h p (by simpa [h] using hp)

/-- The edges of the paths are edges of the topology. -/
theorem Libraries.mem_edges_of_mem_pathsBetween {hosts : ℕ × ℕ} {p : List ℕ}
    (hp : p ∈ lib.pathsBetween hosts) : ∀ l ∈ p.zip p.tail, l ∈ t.edges := by
  have hchain : p.IsChain fun i j => t.adjacent i j = true := by
    unfold Libraries.pathsBetween at hp
    cases h : lib.allSimplePaths hosts.1 hosts.2 cutoff with
    | none => simp [h] at hp
    | some ps => exact lib.adjacent h p (by simpa [h] using hp)
  clear hp
  induction hchain with
  | nil => simp
  | singleton => simp
  | cons_cons hadj _ ih =>
    intro l hl
    rcases List.mem_cons.mp hl with rfl | hl
    · exact Topology.mem_edges.mpr hadj
    · exact ih l hl

theorem Libraries.candidates_concat (pairs : List (ℕ × ℕ)) (hosts : ℕ × ℕ) :
    lib.candidates (pairs ++ [hosts]) =
      lib.candidates pairs ++ if hosts ∈ pairs then [] else lib.pathsBetween hosts := by
  unfold Libraries.candidates
  rw [firsts_concat, List.flatMap_append]
  by_cases h : hosts ∈ pairs <;> simp [h]

/-- The paths between two hosts of a demand are candidates, and only those of the demands. -/
theorem Libraries.mem_candidates {pairs : List (ℕ × ℕ)} {p : List ℕ} :
    p ∈ lib.candidates pairs ↔ ∃ hosts ∈ pairs, p ∈ lib.pathsBetween hosts := by
  simp only [Libraries.candidates, List.mem_flatMap, mem_firsts, List.not_mem_nil,
    not_false_eq_true, and_true]

theorem generatePathsLoop_eq {generated : List (ℕ × ℕ)} {P : List Path} {i : ℕ}
    (h : ∀ d ∈ D, d.hosts ∈ generated ∨ t.Knows d.hosts) :
    let ps := (firsts generated (D.map Demand.hosts)).flatMap lib.pathsBetween
    generatePathsLoop lib generated P i D = (i + ps.length, some (P ++ mkPaths i ps)) := by
  induction D generalizing generated P i with
  | nil => simp [generatePathsLoop, firsts, mkPaths]
  | cons d D ih =>
    have htail : ∀ d' ∈ D, d'.hosts ∈ generated ∨ t.Knows d'.hosts :=
      fun d' hd' => h d' (List.mem_cons_of_mem _ hd')
    by_cases hd : d.hosts ∈ generated
    · simp only [generatePathsLoop, List.map_cons, firsts, if_pos hd]
      exact ih htail
    · have hknown : t.Knows d.hosts := (h d List.mem_cons_self).resolve_left hd
      have hpaths : lib.allSimplePaths d.talker d.listener cutoff =
          some (lib.pathsBetween d.hosts) := Libraries.allSimplePaths_eq hknown
      have hrest : generatePathsLoop lib (generated ++ [d.hosts])
          (P ++ mkPaths i (lib.pathsBetween d.hosts))
          (i + (lib.pathsBetween d.hosts).length) D = _ :=
        ih fun d' hd' => (htail d' hd').imp_left (List.mem_append_left _)
      have happend := fun ps => @numbered_append _ _ (fun p i => (⟨p, i⟩ : Path)) i
        (lib.pathsBetween d.hosts) ps
      simp only [generatePathsLoop, List.map_cons, firsts, if_neg hd, hpaths, hrest,
        List.flatMap_cons, List.length_append, List.append_assoc, Nat.add_assoc]
      simp only [mkPaths, happend]

/-- The loop gets through only if it knows all hosts. -/
theorem known_of_generatePathsLoop {generated : List (ℕ × ℕ)} {P P' : List Path} {i i' : ℕ}
    (h : generatePathsLoop lib generated P i D = (i', some P')) :
    ∀ d ∈ D, d.hosts ∈ generated ∨ t.Knows d.hosts := by
  induction D generalizing generated P i with
  | nil => simp
  | cons d D ih =>
    unfold generatePathsLoop at h
    split_ifs at h with hd
    · intro d' hd'
      rcases List.mem_cons.mp hd' with rfl | hd'
      · exact .inl hd
      · exact ih h d' hd'
    · cases hps : lib.allSimplePaths d.talker d.listener cutoff with
      | none => simp [hps] at h
      | some ps =>
        have hd' : t.Knows d.hosts :=
          (lib.allSimplePaths_isSome _ _ cutoff).mp (Option.isSome_iff_exists.mpr ⟨ps, hps⟩)
        simp only [hps] at h
        intro d₁ hd₁
        rcases List.mem_cons.mp hd₁ with rfl | hd₁
        · exact .inr hd'
        · rcases ih h d₁ hd₁ with hmem | hk
          · rcases List.mem_append.mp hmem with hmem | hmem
            · exact .inl hmem
            · rw [List.mem_singleton.mp hmem]
              exact .inr hd'
          · exact .inr hk

theorem generatePathsThreadless_eq {i : ℕ} (h : ∀ d ∈ D, t.Knows d.hosts) :
    let ps := lib.candidates (D.map Demand.hosts)
    generatePathsThreadless lib i D = (i + ps.length, some (mkPaths i ps)) := by
  have hloop : generatePathsLoop lib [] [] i D = _ :=
    generatePathsLoop_eq fun d hd => .inr (h d hd)
  have hsorted : (mkPaths i (lib.candidates (D.map Demand.hosts))).Pairwise
      fun p q : Path => p.index ≤ q.index := pairwise_numbered fun _ _ => rfl
  simp only [generatePathsThreadless, hloop, List.nil_append, Option.map_some]
  exact congrArg (fun P => (_, some P)) hsorted.insertionSort_eq

theorem known_of_generatePathsThreadless {i i' : ℕ} {P : List Path}
    (h : generatePathsThreadless lib i D = (i', some P)) : ∀ d ∈ D, t.Knows d.hosts := by
  obtain ⟨hi, hP⟩ := Prod.mk.inj h
  obtain ⟨P', hP', -⟩ := Option.map_eq_some_iff.mp hP
  intro d hd
  have hd := known_of_generatePathsLoop (Prod.ext hi hP') d hd
  simpa using hd

end

/-! ## Networks -/

/-- Paths and edges are numbered by their positions, every edge is there once and the edges
of the paths are there. -/
structure PhysicalNetwork.WellFormed (g : PhysicalNetwork) : Prop where
  capacity : ∀ e ∈ g.E, e.capacity = linkCapacity
  pathIndex : ∀ i (p : Path), g.P[i]? = some p → p.index = i
  edgeIndex : ∀ i (e : Edge), g.E[i]? = some e → e.index = i
  links_nodup : (g.E.map Edge.link).Nodup
  edges_mem : ∀ p ∈ g.P, ∀ l ∈ p.edges, l ∈ g.E.map Edge.link

theorem PhysicalNetwork.WellFormed.nodup_P {g : PhysicalNetwork} (h : g.WellFormed) :
    g.P.Nodup :=
  nodup_of_index h.pathIndex

namespace PhysicalNetwork
variable {t : Topology} {lib : Libraries t} {D : List Demand} {c c' : Counters}
  {g : PhysicalNetwork}

/-- The network of known hosts. -/
theorem new_eq (hsize : t.size ≠ 0) (h : ∀ d ∈ D, t.Knows d.hosts) :
    PhysicalNetwork.new lib D c =
      ({ c with
          path := c.path + (lib.candidates (D.map Demand.hosts)).length
          edge := c.edge + (lib.setOrder t.edges).length },
        some ⟨mkEdges c.edge (lib.setOrder t.edges),
          mkPaths c.path (lib.candidates (D.map Demand.hosts)), D⟩) := by
  simp [PhysicalNetwork.new, hsize, generatePathsThreadless_eq h, mkEdges]

theorem new_of_size_eq_zero (hsize : t.size = 0) :
    PhysicalNetwork.new lib D c = (c, some ⟨[], [], D⟩) :=
  if_pos hsize

theorem known_of_new (hsize : t.size ≠ 0) (h : PhysicalNetwork.new lib D c = (c', some g)) :
    ∀ d ∈ D, t.Knows d.hosts := by
  unfold PhysicalNetwork.new at h
  rw [if_neg hsize] at h
  cases hgen : generatePathsThreadless lib c.path D with
  | mk i P =>
    cases P with
    | none => simp [hgen] at h
    | some P => exact known_of_generatePathsThreadless hgen

/-- A network made with fresh counters is well formed. -/
theorem wellFormed_of_new (hpath : c.path = 0) (hedge : c.edge = 0)
    (h : PhysicalNetwork.new lib D c = (c', some g)) : g.WellFormed := by
  by_cases hsize : t.size = 0
  · obtain ⟨-, hg⟩ := Prod.mk.inj (by simpa [PhysicalNetwork.new, hsize] using h)
    subst hg
    exact ⟨by simp, by simp, by simp, by simp, by simp⟩
  · have hknown := known_of_new hsize h
    rw [new_eq hsize hknown, hpath, hedge] at h
    obtain ⟨-, hg⟩ := Prod.mk.inj h
    obtain rfl := Option.some.inj hg
    have hlinks : (mkEdges 0 (lib.setOrder t.edges)).map Edge.link = lib.setOrder t.edges := by
      rw [mkEdges, map_numbered (f := Edge.link) (g := id) fun _ _ => rfl, List.map_id]
    refine ⟨?_, ?_, ?_, ?_, ?_⟩
    · intro e he
      obtain ⟨⟨l, i⟩, -, rfl⟩ := List.mem_map.mp he
      rfl
    · intro i p hp
      rw [mkPaths, getElem?_numbered] at hp
      obtain ⟨nodes, -, rfl⟩ := Option.map_eq_some_iff.mp hp
      exact Nat.zero_add i
    · intro i e he
      rw [mkEdges, getElem?_numbered] at he
      obtain ⟨l, -, rfl⟩ := Option.map_eq_some_iff.mp he
      exact Nat.zero_add i
    · show ((mkEdges 0 (lib.setOrder t.edges)).map Edge.link).Nodup
      rw [hlinks]
      exact lib.setOrder_nodup _
    · intro p hp l hl
      obtain ⟨i, hi⟩ := List.mem_iff_getElem?.mp hp
      rw [mkPaths, getElem?_numbered] at hi
      obtain ⟨nodes, hnodes, rfl⟩ := Option.map_eq_some_iff.mp hi
      obtain ⟨hosts, -, hmem⟩ := Libraries.mem_candidates.mp (List.mem_of_getElem? hnodes)
      show l ∈ (mkEdges 0 (lib.setOrder t.edges)).map Edge.link
      rw [hlinks, lib.mem_setOrder]
      exact Libraries.mem_edges_of_mem_pathsBetween hmem l hl

/-- Every path is between the hosts of a demand. -/
theorem exists_demand_of_new (h : PhysicalNetwork.new lib D c = (c', some g)) {p : Path}
    (hp : p ∈ g.P) : ∃ d ∈ D, p.talker = some d.talker ∧ p.listener = some d.listener := by
  by_cases hsize : t.size = 0
  · obtain ⟨-, hg⟩ := Prod.mk.inj (by simpa [PhysicalNetwork.new, hsize] using h)
    rw [← hg] at hp
    simp at hp
  · rw [new_eq hsize (known_of_new hsize h)] at h
    obtain ⟨-, hg⟩ := Prod.mk.inj h
    obtain rfl := Option.some.inj hg
    obtain ⟨i, hi⟩ := List.mem_iff_getElem?.mp hp
    rw [mkPaths, getElem?_numbered] at hi
    obtain ⟨nodes, hnodes, rfl⟩ := Option.map_eq_some_iff.mp hi
    obtain ⟨hosts, hhosts, hmem⟩ := Libraries.mem_candidates.mp (List.mem_of_getElem? hnodes)
    obtain ⟨d, hd, rfl⟩ := List.mem_map.mp hhosts
    exact ⟨d, hd, Libraries.ends_of_mem_pathsBetween hmem⟩

end PhysicalNetwork

end TsnReconfig.Opt
