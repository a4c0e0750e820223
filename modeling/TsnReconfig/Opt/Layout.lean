import TsnReconfig.Opt.LatencyRows
import TsnReconfig.Opt.Plans

/-!
# The layout of the variables

The indices of `index_translator` and of `latency_constraint` beside the list of names that is
loaded into the solver. The service type of a demand is the VLAN of an advertisement, of any
size, and the numbers of demands, paths and edges go on from where the class counters stand.
-/

namespace TsnReconfig.Opt
open Lib

namespace GD

/-! ## Variables and names -/

/-- What the code means by an index: a demand on a path, the gate of an edge for a service
type, or the product of two variables. -/
inductive Variable
  | x (demand : Demand) (path : Path)
  | g (edge : Edge) (service : ℕ)
  | z (xg : ℕ × ℕ)

/-- The names `x_%d_%d`, `g_%d_%d` and `z_%d`. -/
inductive VariableName
  | x (numbers : ℕ × ℕ)
  | g (numbers : ℕ × ℕ)
  | z (number : ℕ)
  deriving DecidableEq, Repr

section
variable (p : GD) (T : Transition)

/-- The dictionary `z_transition` of the model, empty if `latency_constraint` raises an
exception. -/
def zTransition : Transition := (p.latencyConstraint.map LatencyState.zTransition).getD []

/-- `names = x_dp + g_es + Z`; the dictionary has its newest entry first. -/
def names : List VariableName :=
  p.xDp.map .x ++ (p.gEs.map .g ++ (T.reverse.map Prod.snd).map .z)

def Variable.index : Variable → ℕ
  | .x d q => p.xIndex d q
  | .g e s => p.gIndex e s
  | .z k => zOf T k

def Variable.name : Variable → VariableName
  | .x d q => .x (d.index, q.index)
  | .g e s => .g (e.index, s)
  | .z k => .z (zOf T k)

/-- The index is computed for a row or the objective. -/
def Variable.Occurs : Variable → Prop
  | .x d q => d ∈ p.D ∧ q ∈ p.G.P
  | .g e s => e ∈ p.G.E ∧
      (s ∈ serviceTypes ∨ ∃ d ∈ p.D, ∃ q ∈ p.paths d, e.link ∈ q.edges ∧ d.serviceType = s)
  | .z k => (T.lookup k).isSome

/-- The block of the variable among the three. -/
def Variable.InBlock : Variable → Prop
  | .x d q => p.xIndex d q < p.xDpSize
  | .g e s => p.xDpSize ≤ p.gIndex e s ∧ p.gIndex e s < p.xDpSize + p.gEsSize
  | .z k => p.xDpSize + p.gEsSize ≤ zOf T k ∧ zOf T k < p.xDpSize + p.gEsSize + T.length

/-- Different variables have different indices, each in its block and under its name. -/
structure Layout : Prop where
  inj : ∀ v w : Variable, v.Occurs p T → w.Occurs p T → v.index p T = w.index p T → v = w
  inBlock : ∀ v : Variable, v.Occurs p T → v.InBlock p T
  named : ∀ v : Variable, v.Occurs p T → (p.names T)[v.index p T]? = some (v.name T)

end

/-- The class counters start at zero as far as anything is numbered with them, and the service
types of demands with an edge on a path are below eight. -/
structure LayoutOk (c : Counters) (p : GD) : Prop where
  paths : p.D ≠ [] → p.G.P ≠ [] → c.demand = 0 ∧ c.path = 0
  edges : p.G.E ≠ [] → c.edge = 0
  services : ∀ d ∈ p.D, (∃ q ∈ p.paths d, q.edges ≠ []) → d.serviceType ∈ serviceTypes

/-! ## What the constructors number -/

/-- Demands, paths and edges are numbered from the counters on. -/
structure Numbered (c : Counters) (p : GD) : Prop where
  demand : ∀ i (d : Demand), p.D[i]? = some d → d.index = c.demand + i
  path : ∀ i (q : Path), p.G.P[i]? = some q → q.index = c.path + i
  edge : ∀ i (e : Edge), p.G.E[i]? = some e → e.index = c.edge + i
  capacity : ∀ e ∈ p.G.E, e.capacity = linkCapacity
  links_nodup : (p.G.E.map Edge.link).Nodup
  edges_mem : ∀ q ∈ p.G.P, ∀ l ∈ q.edges, l ∈ p.G.E.map Edge.link
  candidate : ∀ q ∈ p.G.P, ∃ d ∈ p.D, q ∈ p.paths d

variable {p : GD} {T : Transition} {c : Counters}

theorem numbered_of_build {t : Topology} {lib : Libraries t} {demands : List DemandTuple}
    {A : List (ℕ × ℕ)} (h : (build lib demands A c).2 = some p) : Numbered c p := by
  obtain ⟨G, hG, rfl⟩ := Option.map_eq_some_iff.mp h
  have hnew : (PhysicalNetwork.new lib (mkDemands c.demand demands)
      { c with demand := c.demand + (mkDemands c.demand demands).length }).2 = some G := hG
  have hdemand : ∀ i (d : Demand), (mkDemands c.demand demands)[i]? = some d →
      d.index = c.demand + i := by
    intro i d hd
    rw [mkDemands, getElem?_numbered] at hd
    obtain ⟨tuple, -, rfl⟩ := Option.map_eq_some_iff.mp hd
    rfl
  have hcandidate : ∀ q ∈ G.P, ∃ d ∈ mkDemands c.demand demands,
      q ∈ G.groupPaths d.hosts := by
    intro q hq
    obtain ⟨d, hd, hends⟩ := PhysicalNetwork.exists_demand_of_new (Prod.ext rfl hG) hq
    refine ⟨d, hd, ?_⟩
    rw [PhysicalNetwork.groupPaths, List.mem_filter, decide_eq_true_eq]
    exact ⟨hq, hends⟩
  -- without nodes there are no paths, and the names are those of the demands
  by_cases hsize : t.size = 0
  · rw [PhysicalNetwork.new_of_size_eq_zero hsize] at hnew
    obtain rfl := Option.some.inj hnew
    exact ⟨hdemand, by simp, by simp, by simp, by simp, by simp, hcandidate⟩
  · have hknown := PhysicalNetwork.known_of_new hsize (Prod.ext rfl hG)
    rw [PhysicalNetwork.new_eq hsize hknown] at hnew
    obtain rfl := Option.some.inj hnew
    have hlinks : (mkEdges c.edge (lib.setOrder t.edges)).map Edge.link =
        lib.setOrder t.edges := by
      rw [mkEdges, map_numbered (f := Edge.link) (g := id) fun _ _ => rfl, List.map_id]
    refine ⟨hdemand, ?_, ?_, ?_, ?_, ?_, hcandidate⟩
    · intro i q hq
      simp only [mkPaths, getElem?_numbered] at hq
      obtain ⟨nodes, -, rfl⟩ := Option.map_eq_some_iff.mp hq
      rfl
    · intro i e he
      simp only [mkEdges, getElem?_numbered] at he
      obtain ⟨l, -, rfl⟩ := Option.map_eq_some_iff.mp he
      rfl
    · intro e he
      obtain ⟨⟨l, i⟩, -, rfl⟩ := List.mem_map.mp he
      rfl
    · show ((mkEdges c.edge (lib.setOrder t.edges)).map Edge.link).Nodup
      rw [hlinks]
      exact lib.setOrder_nodup _
    · intro q hq l hl
      obtain ⟨⟨nodes, i⟩, hnodes, rfl⟩ := List.mem_map.mp hq
      obtain ⟨hosts, -, hmem⟩ :=
        Libraries.mem_candidates.mp (List.fst_mem_of_mem_zipIdx hnodes)
      show l ∈ (mkEdges c.edge (lib.setOrder t.edges)).map Edge.link
      rw [hlinks, lib.mem_setOrder]
      exact Libraries.mem_edges_of_mem_pathsBetween hmem l hl

/-- With its counters at zero the model is well formed. -/
theorem Numbered.wellFormed (h : Numbered c p) (hdemand : c.demand = 0) (hpath : c.path = 0)
    (hedge : p.G.E ≠ [] → c.edge = 0) : p.WellFormed := by
  refine ⟨⟨h.capacity, ?_, ?_, h.links_nodup, h.edges_mem⟩, ?_, h.candidate⟩
  · intro i q hq
    rw [h.path i q hq, hpath, Nat.zero_add]
  · intro i e he
    rw [h.edge i e he, hedge (List.ne_nil_of_mem (List.mem_of_getElem? he)), Nat.zero_add]
  · intro i d hd
    rw [h.demand i d hd, hdemand, Nat.zero_add]

/-! ## The list of names -/

theorem getElem?_xDp {i j : ℕ} (hj : j < p.G.P.length) :
    p.xDp[i * p.G.P.length + j]? =
      p.D[i]?.bind fun d => p.G.P[j]?.map fun q => (d.index, q.index) := by
  rw [xDp, List.getElem?_map, getElem?_product hj]
  cases p.D[i]? <;> cases p.G.P[j]? <;> rfl

theorem getElem?_gEs {i s : ℕ} (hs : s < 8) :
    p.gEs[i * 8 + s]? = p.G.E[i]?.map fun e => (e.index, s) := by
  have hlength : serviceTypes.length = 8 := rfl
  have hget : serviceTypes[s]? = some s := by simp [serviceTypes, hs]
  rw [gEs, List.getElem?_map]
  have hproduct : (p.G.E ×ˢ serviceTypes)[i * serviceTypes.length + s]? = _ :=
    getElem?_product (by rwa [hlength])
  rw [hlength] at hproduct
  rw [hproduct, hget]
  cases p.G.E[i]? <;> rfl

theorem names_x {i : ℕ} (hi : i < p.xDpSize) : (p.names T)[i]? = p.xDp[i]?.map .x := by
  rw [names, List.getElem?_append_left (by rwa [List.length_map]), List.getElem?_map]

theorem names_g {i : ℕ} (hi : i < p.gEsSize) :
    (p.names T)[p.xDpSize + i]? = p.gEs[i]?.map .g := by
  have hx : (p.xDp.map VariableName.x).length = p.xDpSize := List.length_map _
  have hg : (p.gEs.map VariableName.g).length = p.gEsSize := List.length_map _
  rw [names, List.getElem?_append_right (by omega), hx, Nat.add_sub_cancel_left,
    List.getElem?_append_left (by omega), List.getElem?_map]

theorem names_z {i : ℕ} :
    (p.names T)[p.xDpSize + p.gEsSize + i]? = (T.reverse.map Prod.snd)[i]?.map .z := by
  have hx : (p.xDp.map VariableName.x).length = p.xDpSize := List.length_map _
  have hg : (p.gEs.map VariableName.g).length = p.gEsSize := List.length_map _
  rw [names, List.getElem?_append_right (by omega), hx, List.getElem?_append_right (by omega), hg,
    List.getElem?_map, show p.xDpSize + p.gEsSize + i - p.xDpSize - p.gEsSize = i by omega]

/-! ## Variables in place -/

theorem xIndex_of_numbered (h : Numbered c p) {d : Demand} {q : Path} {i j : ℕ}
    (hd : p.D[i]? = some d) (hq : p.G.P[j]? = some q) :
    p.xIndex d q = (c.demand + i) * p.G.P.length + (c.path + j) := by
  rw [xIndex_eq, h.demand i d hd, h.path j q hq]

/-- The name of a path variable tells that its demands and paths are numbered from zero on. -/
theorem counters_of_named (h : Numbered c p) {d : Demand} {q : Path} (hd : p.D[0]? = some d)
    (hq : p.G.P[0]? = some q) (hlt : p.xIndex d q < p.xDpSize)
    (hname : (p.names T)[p.xIndex d q]? = some (.x (d.index, q.index))) :
    c.demand = 0 ∧ c.path = 0 := by
  set n := p.G.P.length with hn
  have hpos : 0 < n := (List.getElem?_eq_some_iff.mp hq).1
  set k := p.xIndex d q with hk
  have hdigits : k / n * n + k % n = k := Nat.div_add_mod' k n
  have hj : k % n < n := Nat.mod_lt k hpos
  have hi : k / n < p.D.length := by
    rw [xDpSize_eq, ← hn] at hlt
    exact Nat.div_lt_of_lt_mul (by rwa [Nat.mul_comm])
  obtain ⟨d', hd'⟩ : ∃ d', p.D[k / n]? = some d' := ⟨_, List.getElem?_eq_getElem hi⟩
  obtain ⟨q', hq'⟩ : ∃ q', p.G.P[k % n]? = some q' := ⟨_, List.getElem?_eq_getElem hj⟩
  have hentry : p.xDp[k]? = some (d'.index, q'.index) := by
    rw [← hdigits, hn, getElem?_xDp hj, ← hn, hd', hq']
    rfl
  rw [names_x hlt, hentry] at hname
  obtain ⟨hdindex, hqindex⟩ := Prod.mk.inj (VariableName.x.inj (Option.some.inj hname))
  -- the entry at `k` has the numbers of the first one, so `k` is zero
  rw [h.demand _ d' hd', h.demand 0 d hd] at hdindex
  rw [h.path _ q' hq', h.path 0 q hq] at hqindex
  have hzero : k = 0 := by
    rw [← hdigits, show k / n = 0 by omega, show k % n = 0 by omega]
    simp
  have hindex := xIndex_of_numbered h hd hq
  rw [← hk, hzero, ← hn] at hindex
  have hprod : (c.demand + 0) * n = 0 := by omega
  rcases Nat.mul_eq_zero.mp hprod with hdemand | hn0
  · exact ⟨hdemand, by omega⟩
  · omega

/-- The name of a gate variable tells that the edges are numbered from zero on and that its
service type is below eight. -/
theorem counter_of_named_gate (h : Numbered c p) {e : Edge} {s : ℕ}
    (hlt : p.gIndex e s < p.xDpSize + p.gEsSize)
    (hname : (p.names T)[p.gIndex e s]? = some (.g (e.index, s))) :
    c.edge = 0 ∧ s < 8 := by
  set n := e.index * 8 + s with hn
  have hindex : p.gIndex e s = p.xDpSize + n := by rw [gIndex_eq, hn, Nat.add_assoc]
  rw [hindex] at hlt hname
  have hdigits : n / 8 * 8 + n % 8 = n := Nat.div_add_mod' n 8
  have hmod : n % 8 < 8 := Nat.mod_lt n (by omega)
  have hsize := @gEsSize_eq p
  obtain ⟨e', he'⟩ : ∃ e', p.G.E[n / 8]? = some e' :=
    ⟨_, List.getElem?_eq_getElem (by omega)⟩
  have hentry : p.gEs[n]? = some (e'.index, n % 8) := by
    rw [← hdigits, getElem?_gEs hmod, hdigits, he']
    rfl
  rw [names_g (by omega), hentry] at hname
  obtain ⟨heindex, hs⟩ := Prod.mk.inj (VariableName.g.inj (Option.some.inj hname))
  rw [h.edge _ e' he'] at heindex
  omega

theorem names_xIndex (hp : p.WellFormed) {d : Demand} {q : Path} (hd : d ∈ p.D)
    (hq : q ∈ p.G.P) : (p.names T)[p.xIndex d q]? = some (.x (d.index, q.index)) := by
  obtain ⟨hqlt, hqat⟩ := hp.path_index_lt hq
  rw [names_x (hp.xIndex_lt hd hq), xIndex_eq, getElem?_xDp hqlt, (hp.demand_index_lt hd).2, hqat]
  rfl

/-- A gate variable of an edge numbered by its position. -/
theorem names_gIndex {e : Edge} {s : ℕ} (he : p.G.E[e.index]? = some e) (hs : s < 8) :
    (p.xDpSize ≤ p.gIndex e s ∧ p.gIndex e s < p.xDpSize + p.gEsSize) ∧
      (p.names T)[p.gIndex e s]? = some (.g (e.index, s)) := by
  have hlt := (List.getElem?_eq_some_iff.mp he).1
  have hsize := @gEsSize_eq p
  have hindex : p.gIndex e s = p.xDpSize + (e.index * 8 + s) := by
    rw [gIndex_eq, Nat.add_assoc]
  refine ⟨by omega, ?_⟩
  rw [hindex, names_g (by omega), getElem?_gEs hs, he]
  rfl

theorem names_zOf (hT : Allocated (p.xDpSize + p.gEsSize) T) {k : ℕ × ℕ}
    (hk : (T.lookup k).isSome) :
    (p.xDpSize + p.gEsSize ≤ zOf T k ∧ zOf T k < p.xDpSize + p.gEsSize + T.length) ∧
      (p.names T)[zOf T k]? = some (.z (zOf T k)) := by
  obtain ⟨z, hz⟩ := Option.isSome_iff_exists.mp hk
  have hzOf : zOf T k = z := by rw [zOf, hz]; rfl
  obtain ⟨hle, hlt⟩ := hT.bounds (mem_of_lookup hz)
  obtain ⟨i, rfl⟩ := Nat.exists_eq_add_of_le hle
  rw [hzOf]
  refine ⟨⟨hle, hlt⟩, ?_⟩
  rw [names_z, hT.numbers, List.getElem?_range' (by omega), Nat.one_mul]
  rfl

/-- `latency_constraint` numbers the products one after the other. -/
theorem allocated_zTransition (p : GD) : Allocated (p.xDpSize + p.gEsSize) p.zTransition := by
  unfold zTransition
  cases hs : p.latencyConstraint with
  | none => trivial
  | some s => exact (good_of_latencyConstraint hs).1.allocated

/-! ## The layout -/

theorem Numbered.edge_of_mem (h : Numbered c p) (hedge : p.G.E ≠ [] → c.edge = 0) {e : Edge}
    (he : e ∈ p.G.E) : p.G.E[e.index]? = some e := by
  obtain ⟨i, hi⟩ := List.mem_iff_getElem?.mp he
  rw [h.edge i e hi, hedge (List.ne_nil_of_mem he), Nat.zero_add, hi]

/-- In place are all variables that occur. -/
theorem LayoutOk.inPlace (h : Numbered c p) (hok : LayoutOk c p) {v : Variable}
    (hv : v.Occurs p p.zTransition) : v.InBlock p p.zTransition ∧
      (p.names p.zTransition)[v.index p p.zTransition]? = some (v.name p.zTransition) := by
  cases v with
  | x d q =>
    obtain ⟨hd, hq⟩ := hv
    obtain ⟨hdemand, hpath⟩ := hok.paths (List.ne_nil_of_mem hd) (List.ne_nil_of_mem hq)
    have hp := h.wellFormed hdemand hpath hok.edges
    exact ⟨hp.xIndex_lt hd hq, names_xIndex hp hd hq⟩
  | g e s =>
    obtain ⟨he, hs⟩ := hv
    have hlt : s < 8 := by
      rcases hs with hs | ⟨d, hd, q, hq, hlink, rfl⟩
      · exact List.mem_range.mp hs
      · exact List.mem_range.mp (hok.services d hd ⟨q, hq, List.ne_nil_of_mem hlink⟩)
    exact names_gIndex (h.edge_of_mem hok.edges he) hlt
  | z k => exact names_zOf (allocated_zTransition p) hv

/-- Variables with one name are the same. -/
theorem LayoutOk.eq_of_name_eq (h : Numbered c p) (hok : LayoutOk c p) {v w : Variable}
    (hv : v.Occurs p p.zTransition) (hw : w.Occurs p p.zTransition)
    (hname : v.name p.zTransition = w.name p.zTransition) : v = w := by
  cases v with
  | x d q =>
    cases w with
    | x d' q' =>
      obtain ⟨hd, hq⟩ := hv
      obtain ⟨hd', hq'⟩ := hw
      obtain ⟨hdemand, hpath⟩ := hok.paths (List.ne_nil_of_mem hd) (List.ne_nil_of_mem hq)
      have hp := h.wellFormed hdemand hpath hok.edges
      obtain ⟨hdindex, hqindex⟩ := Prod.mk.inj (VariableName.x.inj hname)
      have hsame : p.xIndex d q = p.xIndex d' q' := by
        rw [xIndex_eq, xIndex_eq, hdindex, hqindex]
      obtain ⟨rfl, rfl⟩ := hp.xIndex_inj hd hd' hq hq' hsame
      rfl
    | g e s => cases hname
    | z k => cases hname
  | g e s =>
    cases w with
    | x d q => cases hname
    | g e' s' =>
      obtain ⟨heindex, rfl⟩ := Prod.mk.inj (VariableName.g.inj hname)
      have he := h.edge_of_mem hok.edges hv.1
      rw [heindex, h.edge_of_mem hok.edges hw.1] at he
      rw [Option.some.inj he]
    | z k => cases hname
  | z k =>
    cases w with
    | x d q => cases hname
    | g e s => cases hname
    | z k' =>
      obtain ⟨z, hz⟩ := Option.isSome_iff_exists.mp hv
      obtain ⟨z', hz'⟩ := Option.isSome_iff_exists.mp hw
      have hsame : zOf p.zTransition k = zOf p.zTransition k' := VariableName.z.inj hname
      rw [zOf, zOf, hz, hz'] at hsame
      obtain rfl : z = z' := hsame
      rw [(allocated_zTransition p).inj (mem_of_lookup hz) (mem_of_lookup hz')]

/-- **The layout of the variables**: different variables have different indices, each in its
block and under its name, exactly when the counters are fresh and the service types are those
of `SERVICE_TYPE`. -/
theorem layout_iff {t : Topology} {lib : Libraries t} {demands : List DemandTuple}
    {A : List (ℕ × ℕ)} (hb : (build lib demands A c).2 = some p) :
    p.Layout p.zTransition ↔ LayoutOk c p := by
  have h := numbered_of_build hb
  constructor
  · intro hlayout
    have hedges : p.G.E ≠ [] → c.edge = 0 := by
      intro hE
      obtain ⟨e, E, hcons⟩ := List.exists_cons_of_ne_nil hE
      have he : p.G.E[0]? = some e := by rw [hcons]; rfl
      have hoccurs : (Variable.g e 0).Occurs p p.zTransition :=
        ⟨List.mem_of_getElem? he, .inl (by decide)⟩
      exact (counter_of_named_gate h (hlayout.inBlock _ hoccurs).2
        (hlayout.named _ hoccurs)).1
    refine ⟨fun hD hP => ?_, hedges, fun d hd ⟨q, hq, hne⟩ => ?_⟩
    · obtain ⟨d, D, hcons⟩ := List.exists_cons_of_ne_nil hD
      obtain ⟨q, P, hcons'⟩ := List.exists_cons_of_ne_nil hP
      have hd : p.D[0]? = some d := by rw [hcons]; rfl
      have hq : p.G.P[0]? = some q := by rw [hcons']; rfl
      have hoccurs : (Variable.x d q).Occurs p p.zTransition :=
        ⟨List.mem_of_getElem? hd, List.mem_of_getElem? hq⟩
      exact counters_of_named h hd hq (hlayout.inBlock _ hoccurs) (hlayout.named _ hoccurs)
    · obtain ⟨l, hl⟩ := List.exists_mem_of_ne_nil _ hne
      obtain ⟨e, he, rfl⟩ := List.mem_map.mp (h.edges_mem q (mem_paths.mp hq).1 l hl)
      have hoccurs : (Variable.g e d.serviceType).Occurs p p.zTransition :=
        ⟨he, .inr ⟨d, hd, q, hq, hl, rfl⟩⟩
      exact List.mem_range.mpr (counter_of_named_gate h (hlayout.inBlock _ hoccurs).2
        (hlayout.named _ hoccurs)).2
  · intro hok
    refine ⟨fun v w hv hw heq => ?_, fun v hv => (hok.inPlace h hv).1,
      fun v hv => (hok.inPlace h hv).2⟩
    have hname := (hok.inPlace h hv).2
    rw [heq, (hok.inPlace h hw).2] at hname
    exact (hok.eq_of_name_eq h hw hv (Option.some.inj hname)).symm

theorem layout_iff_sample : ∃ p, (build (.reference twoNodes) [sampleDemand] [] .zero).2 = some p ∧
    p.Layout p.zTransition := by
  obtain ⟨p, hb⟩ : ∃ p, (build (.reference twoNodes) [sampleDemand] [] .zero).2 = some p :=
    Option.isSome_iff_exists.mp (by decide +kernel)
  refine ⟨p, hb, (layout_iff hb).mpr ⟨fun _ _ => ⟨rfl, rfl⟩, fun _ => rfl, fun d hd _ => ?_⟩⟩
  exact serviceType_of_build hb (by decide) d hd

/-- The model of a demand whose service type is not among the eight. -/
def vlanModel : GD :=
  ⟨⟨[⟨0, 1, 100, 1, 0⟩, ⟨1, 0, 100, 1, 1⟩], [⟨[0, 1], 0⟩], [⟨0, 1, 8, 10, 7, 0⟩]⟩,
    [⟨0, 1, 8, 10, 7, 0⟩], []⟩

/-- The gate of edge 0 for the service type 8 is the one of edge 1 for the service type 0. -/
theorem vlanModel_not_layout :
    (build (.reference twoNodes) [⟨0, 0, 1, 8, 10, 7⟩] [] .zero).2 = some vlanModel ∧
      (∃ e e' : Edge, e ≠ e' ∧ (Variable.g e 8).Occurs vlanModel vlanModel.zTransition ∧
        (Variable.g e' 0).Occurs vlanModel vlanModel.zTransition ∧
        vlanModel.gIndex e 8 = vlanModel.gIndex e' 0) ∧
      ¬vlanModel.Layout vlanModel.zTransition := by
  have hb : (build (.reference twoNodes) [⟨0, 0, 1, 8, 10, 7⟩] [] .zero).2 = some vlanModel := by
    decide +kernel
  have hgate : (Variable.g ⟨0, 1, 100, 1, 0⟩ 8).Occurs vlanModel vlanModel.zTransition :=
    ⟨List.mem_cons_self, .inr ⟨⟨0, 1, 8, 10, 7, 0⟩, List.mem_cons_self, ⟨[0, 1], 0⟩,
      mem_paths.mpr ⟨List.mem_cons_self, rfl, rfl⟩, List.mem_cons_self, rfl⟩⟩
  have hother : (Variable.g ⟨1, 0, 100, 1, 1⟩ 0).Occurs vlanModel vlanModel.zTransition :=
    ⟨List.mem_cons_of_mem _ List.mem_cons_self, .inl (by decide)⟩
  have hsame : vlanModel.gIndex ⟨0, 1, 100, 1, 0⟩ 8 = vlanModel.gIndex ⟨1, 0, 100, 1, 1⟩ 0 := by
    decide
  refine ⟨hb, ⟨_, _, by decide, hgate, hother, hsame⟩, fun hlayout => ?_⟩
  cases hlayout.inj _ _ hgate hother hsame

end GD

end TsnReconfig.Opt
