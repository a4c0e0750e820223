import Mathlib.Data.List.ProdSigma
import TsnReconfig.Opt.GD

/-!
# The variables of the program

The model `optimize` builds with fresh counters is well formed: every demand and path, and
every edge and service type, has a variable of its own.
-/

namespace TsnReconfig.Opt
open Lib

namespace GD

/-- The first statements of `optimize`, up to the constructor of `GD`. -/
def build {t : Topology} (lib : Libraries t) (demands : List DemandTuple) (A : List (ℕ × ℕ))
    (c : Counters) : Counters × Option GD :=
  let D := mkDemands c.demand demands
  let (c, G) := PhysicalNetwork.new lib D { c with demand := c.demand + D.length }
  (c, G.map fun G => ⟨G, D, A⟩)

/-- Demands, paths and edges are numbered by their positions, and every path is a candidate of
a demand. -/
structure WellFormed (p : GD) : Prop where
  network : p.G.WellFormed
  demandIndex : ∀ i (d : Demand), p.D[i]? = some d → d.index = i
  candidate : ∀ q ∈ p.G.P, ∃ d ∈ p.D, q ∈ p.paths d

theorem mem_paths {p : GD} {d : Demand} {q : Path} : q ∈ p.paths d ↔
    q ∈ p.G.P ∧ q.talker = some d.talker ∧ q.listener = some d.listener := by
  rw [paths, PhysicalNetwork.groupPaths, List.mem_filter, decide_eq_true_eq, Demand.hosts]

theorem wellFormed_of_build {t : Topology} {lib : Libraries t} {demands : List DemandTuple}
    {A : List (ℕ × ℕ)} {p : GD} (h : (build lib demands A .zero).2 = some p) : p.WellFormed := by
  obtain ⟨G, hG, rfl⟩ := Option.map_eq_some_iff.mp h
  constructor
  · exact PhysicalNetwork.wellFormed_of_new rfl rfl (Prod.ext rfl hG)
  · intro i d hd
    rw [mkDemands, getElem?_numbered] at hd
    obtain ⟨tuple, -, rfl⟩ := Option.map_eq_some_iff.mp hd
    exact Nat.zero_add i
  · intro q hq
    obtain ⟨d, hd, hends⟩ := PhysicalNetwork.exists_demand_of_new (Prod.ext rfl hG) hq
    exact ⟨d, hd, mem_paths.mpr ⟨hq, hends⟩⟩

theorem serviceType_of_build {t : Topology} {lib : Libraries t} {demands : List DemandTuple}
    {A : List (ℕ × ℕ)} {c : Counters} {p : GD} (h : (build lib demands A c).2 = some p)
    (hs : ∀ d ∈ demands, d.serviceType ∈ serviceTypes) :
    ∀ d ∈ p.D, d.serviceType ∈ serviceTypes := by
  obtain ⟨G, hG, rfl⟩ := Option.map_eq_some_iff.mp h
  intro d hd
  obtain ⟨⟨tuple, i⟩, hmem, rfl⟩ := List.mem_map.mp hd
  exact hs tuple (List.fst_mem_of_mem_zipIdx hmem)

variable {p : GD} {d d' : Demand} {q q' : Path} {e e' : Edge} {s s' : ℕ}

/-! ## The numbers of the variables -/

theorem xDpSize_eq : p.xDpSize = p.D.length * p.G.P.length := by
  rw [xDpSize, xDp, List.length_map, List.length_product]

theorem gEsSize_eq : p.gEsSize = p.G.E.length * 8 := by
  rw [gEsSize, gEs, List.length_map, List.length_product, serviceTypes, List.length_range]

theorem xIndex_eq : p.xIndex d q = d.index * p.G.P.length + q.index := by
  simp [xIndex, PhysicalNetwork.pathSize]

theorem gIndex_eq : p.gIndex e s = p.xDpSize + e.index * 8 + s := by
  simp [gIndex, serviceTypes]

namespace WellFormed

theorem path_index_lt (hp : p.WellFormed) (hq : q ∈ p.G.P) :
    q.index < p.G.P.length ∧ p.G.P[q.index]? = some q := by
  obtain ⟨i, hi⟩ := List.mem_iff_getElem?.mp hq
  obtain rfl := hp.network.pathIndex i q hi
  exact ⟨(List.getElem?_eq_some_iff.mp hi).1, hi⟩

theorem nodup_D (hp : p.WellFormed) : p.D.Nodup := nodup_of_index hp.demandIndex

theorem paths_nodup (hp : p.WellFormed) (d : Demand) : (p.paths d).Nodup :=
  hp.network.nodup_P.filter _

theorem demand_index_lt (hp : p.WellFormed) (hd : d ∈ p.D) :
    d.index < p.D.length ∧ p.D[d.index]? = some d := by
  obtain ⟨i, hi⟩ := List.mem_iff_getElem?.mp hd
  obtain rfl := hp.demandIndex i d hi
  exact ⟨(List.getElem?_eq_some_iff.mp hi).1, hi⟩

theorem edge_index_lt (hp : p.WellFormed) (he : e ∈ p.G.E) :
    e.index < p.G.E.length ∧ p.G.E[e.index]? = some e := by
  obtain ⟨i, hi⟩ := List.mem_iff_getElem?.mp he
  obtain rfl := hp.network.edgeIndex i e hi
  exact ⟨(List.getElem?_eq_some_iff.mp hi).1, hi⟩

theorem xIndex_lt (hp : p.WellFormed) (hd : d ∈ p.D) (hq : q ∈ p.G.P) :
    p.xIndex d q < p.xDpSize := by
  have hdlt := (hp.demand_index_lt hd).1
  have hqlt := (hp.path_index_lt hq).1
  rw [xIndex_eq, xDpSize_eq]
  calc d.index * p.G.P.length + q.index < d.index * p.G.P.length + p.G.P.length := by omega
    _ = (d.index + 1) * p.G.P.length := (Nat.succ_mul _ _).symm
    _ ≤ p.D.length * p.G.P.length := Nat.mul_le_mul_right _ hdlt

/-- Every demand and path have a variable of their own. -/
theorem xIndex_inj (hp : p.WellFormed) (hd : d ∈ p.D) (hd' : d' ∈ p.D) (hq : q ∈ p.G.P)
    (hq' : q' ∈ p.G.P) (h : p.xIndex d q = p.xIndex d' q') : d = d' ∧ q = q' := by
  obtain ⟨hqlt, hqat⟩ := hp.path_index_lt hq
  obtain ⟨hqlt', hqat'⟩ := hp.path_index_lt hq'
  rw [xIndex_eq, xIndex_eq] at h
  have hindex : q.index = q'.index := by
    have hmod := congrArg (· % p.G.P.length) h
    simpa [Nat.mul_add_mod', Nat.mod_eq_of_lt hqlt, Nat.mod_eq_of_lt hqlt'] using hmod
  have hdemand : d.index = d'.index := by
    rw [hindex] at h
    exact Nat.eq_of_mul_eq_mul_right (by omega) (Nat.add_right_cancel h)
  constructor
  · apply Option.some.inj
    rw [← (hp.demand_index_lt hd).2, ← (hp.demand_index_lt hd').2, hdemand]
  · apply Option.some.inj
    rw [← hqat, ← hqat', hindex]

theorem gIndex_lt (hp : p.WellFormed) (he : e ∈ p.G.E) (hs : s ∈ serviceTypes) :
    p.xDpSize ≤ p.gIndex e s ∧ p.gIndex e s < p.xDpSize + p.gEsSize := by
  have helt := (hp.edge_index_lt he).1
  have hs := List.mem_range.mp hs
  rw [gIndex_eq, gEsSize_eq]
  omega

/-- Every edge and service type have a variable of their own. -/
theorem gIndex_inj (hp : p.WellFormed) (he : e ∈ p.G.E) (he' : e' ∈ p.G.E)
    (hs : s ∈ serviceTypes) (hs' : s' ∈ serviceTypes) (h : p.gIndex e s = p.gIndex e' s') :
    e = e' ∧ s = s' := by
  have hs := List.mem_range.mp hs
  have hs' := List.mem_range.mp hs'
  rw [gIndex_eq, gIndex_eq] at h
  have hindex : e.index = e'.index := by omega
  constructor
  · apply Option.some.inj
    rw [← (hp.edge_index_lt he).2, ← (hp.edge_index_lt he').2, hindex]
  · omega

/-- The edges of the paths are found. -/
theorem exists_getEdge (hp : p.WellFormed) (hq : q ∈ p.G.P) {l : ℕ × ℕ} (hl : l ∈ q.edges) :
    ∃ e ∈ p.G.E, p.G.getEdge l = some e ∧ e.link = l := by
  obtain ⟨e, he, hlink⟩ := List.mem_map.mp (hp.network.edges_mem q hq l hl)
  have hsome : (p.G.getEdge l).isSome := by
    rw [PhysicalNetwork.getEdge, List.find?_isSome]
    exact ⟨e, he, by simp [hlink]⟩
  obtain ⟨e', he'⟩ := Option.isSome_iff_exists.mp hsome
  refine ⟨e', List.mem_of_find?_eq_some he', he', ?_⟩
  have hl' : l = e'.link := by simpa using List.find?_some he'
  exact hl'.symm

end WellFormed

/-! ## What the rows say -/

variable {m : Model} {v : ℕ → ℚ}

theorem addConstraints_eq_some (h : p.addConstraints = some m) :
    ∃ latency, p.latencyConstraint = some latency ∧
      m.zSize = latency.zTransition.length ∧
      p.minimizeLatencyObjective latency.zTransition = some m.objective ∧
      ∀ r, r ∈ m.rows ↔ r ∈ p.trafficDemandConstraint ∨ r ∈ p.linkCapacityConstraint ∨
        r ∈ p.gateOpeningConstraint ∨ r ∈ latency.rows ∨ r ∈ p.gateCongestionConstraint ∨
        r ∈ p.assignmentConstraint := by
  obtain ⟨latency, hlatency, h⟩ := Option.bind_eq_some_iff.mp h
  obtain ⟨objective, hobjective, h⟩ := Option.bind_eq_some_iff.mp h
  obtain rfl := Option.some.inj h
  refine ⟨latency, hlatency, rfl, hobjective, fun r => ?_⟩
  simp only [List.mem_append, or_assoc]

/-- A model of fresh counters that passes a check. -/
theorem exists_model {t : Topology} {lib : Libraries t} {demands : List DemandTuple}
    {A : List (ℕ × ℕ)} {check : GD → Model → Bool}
    (h : ((build lib demands A .zero).2.any fun p => p.addConstraints.any (check p)) = true) :
    ∃ p m, (build lib demands A .zero).2 = some p ∧ p.addConstraints = some m ∧
      check p m = true := by
  obtain ⟨p, hb, h⟩ := (Option.any_eq_true _ _).mp h
  obtain ⟨m, hm, hcheck⟩ := (Option.any_eq_true _ _).mp h
  exact ⟨p, m, hb, hm, hcheck⟩

end GD

end TsnReconfig.Opt
