import Mathlib.Algebra.BigOperators.Ring.List
import TsnReconfig.Opt.SimplePaths
import TsnReconfig.Opt.Variables

/-!
# Plans

What the optimiser is for: a path for every demand and shares of the gates that fit the
network. A feasible valuation describes such a plan.
-/

namespace TsnReconfig.Opt
open Lib

/-- A path for every demand, and for every edge the share of its time for each service
type. -/
structure Plan where
  route : Demand → Path
  share : Edge → ℕ → ℚ

namespace Plan

/-- The summed data of the demands whose path meets a condition. -/
def dataOver (plan : Plan) (use : Path → Bool) (demands : List Demand) : ℚ :=
  (demands.map fun d => if use (plan.route d) then d.data else 0).sum

/-- Every demand has a path between its hosts, the demands on an edge in either direction fit
its capacity, the gate shares of an edge sum to one, and the demands of a service type that
cross an edge fit its share of the link. -/
structure Fits (plan : Plan) (p : GD) : Prop where
  route : ∀ d ∈ p.D, plan.route d ∈ p.paths d
  capacity : ∀ e ∈ p.G.E, plan.dataOver (GD.usesLink e) p.D ≤ e.capacity
  nonneg : ∀ e ∈ p.G.E, ∀ s ∈ serviceTypes, 0 ≤ plan.share e s
  gates : ∀ e ∈ p.G.E, (serviceTypes.map (plan.share e)).sum = 1
  congestion : ∀ e ∈ p.G.E, ∀ s ∈ serviceTypes,
    plan.dataOver (fun q => e.link ∈ q.edges) (p.D.filter fun d => d.serviceType = s) ≤
      plan.share e s * linkCapacity

end Plan

namespace GD
variable {p : GD} {m : Model} {v : ℕ → ℚ} {plan : Plan}

/-- The valuation describes the plan: the path of a demand is the one between its hosts
whose variable is one, and the shares are the gate variables. -/
structure Describes (p : GD) (v : ℕ → ℚ) (plan : Plan) : Prop where
  path : ∀ d ∈ p.D, ∀ q, q ∈ p.paths d ∧ v (p.xIndex d q) = 1 ↔ q = plan.route d
  share : ∀ e ∈ p.G.E, ∀ s ∈ serviceTypes, plan.share e s = v (p.gIndex e s)

/-- The forms over the variables of a demand's paths are their coefficients at its path. -/
def Routes (p : GD) (v : ℕ → ℚ) (plan : Plan) : Prop :=
  ∀ d ∈ p.D, ∀ f : Path → ℚ,
    ((p.paths d).map fun q => f q * v (p.xIndex d q)).sum = f (plan.route d)

/-! ## What the rows say about plans -/

theorem trafficDemand_iff : (∀ r ∈ p.trafficDemandConstraint, r.Holds v) ↔
    ∀ d ∈ p.D, ((p.paths d).map fun q => v (p.xIndex d q)).sum = 1 := by
  simp [trafficDemandConstraint, Row.Holds, linear_map]

/-- Each demand counts with its path. -/
theorem Routes.linear_eq (h : p.Routes v plan) {demands : List Demand}
    (hsub : ∀ d ∈ demands, d ∈ p.D) (use : Path → Bool) (scale : ℚ → ℚ) :
    linear (demands.flatMap fun d => (p.paths d).filterMap fun q =>
        if use q then some (p.xIndex d q, scale d.data) else none) v =
      (demands.map fun d => if use (plan.route d) then scale d.data else 0).sum := by
  rw [linear_flatMap]
  congr 1
  apply List.map_congr_left
  intro d hd
  rw [linear_filterMap, h d (hsub d hd) fun q => if use q then scale d.data else 0]

theorem linkCapacity_iff (hp : p.WellFormed) (h : p.Routes v plan) :
    (∀ r ∈ p.linkCapacityConstraint, r.Holds v) ↔
      ∀ e ∈ p.G.E, plan.dataOver (usesLink e) p.D ≤ e.capacity := by
  have hform : ∀ e, linear (p.linkCapacityEntries e) v = plan.dataOver (usesLink e) p.D :=
    fun e => h.linear_eq (fun _ hd => hd) (usesLink e) id
  constructor
  · intro hrows e he
    rw [← hform]
    by_cases hempty : p.linkCapacityEntries e = []
    · -- no row is added for an edge without candidate paths
      rw [hempty, linear_nil, hp.network.capacity e he, linkCapacity]
      norm_num
    · exact hrows ⟨p.linkCapacityEntries e, .le, e.capacity⟩
        (List.mem_filterMap.mpr ⟨e, he, by simp [hempty]⟩)
  · intro hfits r hr
    obtain ⟨e, he, hrow⟩ := List.mem_filterMap.mp hr
    dsimp only at hrow
    split_ifs at hrow with hempty
    obtain rfl := Option.some.inj hrow
    show linear (p.linkCapacityEntries e) v ≤ e.capacity
    rw [hform]
    exact hfits e he

theorem gateOpening_iff : (∀ r ∈ p.gateOpeningConstraint, r.Holds v) ↔
    ∀ e ∈ p.G.E, (serviceTypes.map fun s => v (p.gIndex e s)).sum = 1 := by
  simp [gateOpeningConstraint, Row.Holds, linear_map]

theorem Routes.linear_congestion (h : p.Routes v plan) (e : Edge) (s : ℕ) :
    linear (p.gateCongestionEntries e s) v =
      -plan.dataOver (fun q => e.link ∈ q.edges) (p.D.filter fun d => d.serviceType = s) /
        linkCapacity := by
  have hsub : ∀ d ∈ p.D.filter fun d => d.serviceType = s, d ∈ p.D :=
    fun d hd => (List.mem_filter.mp hd).1
  calc linear (p.gateCongestionEntries e s) v
      = ((p.D.filter fun d => d.serviceType = s).map fun d =>
          if decide (e.link ∈ (plan.route d).edges) then -d.data / linkCapacity else 0).sum := by
        rw [← h.linear_eq hsub (fun q => e.link ∈ q.edges) fun data => -data / linkCapacity]
        simp [gateCongestionEntries]
    _ = ((p.D.filter fun d => d.serviceType = s).map fun d => -1 / linkCapacity *
          if decide (e.link ∈ (plan.route d).edges) then d.data else 0).sum := by
        congr 1
        apply List.map_congr_left
        intro d _
        split_ifs <;> ring
    _ = _ := by
        rw [List.sum_map_mul_left, Plan.dataOver]
        ring

theorem gateCongestion_iff (h : p.Routes v plan) :
    (∀ r ∈ p.gateCongestionConstraint, r.Holds v) ↔ ∀ e ∈ p.G.E, ∀ s ∈ serviceTypes,
      plan.dataOver (fun q => e.link ∈ q.edges) (p.D.filter fun d => d.serviceType = s) ≤
        v (p.gIndex e s) * linkCapacity := by
  have hpos : (0 : ℚ) < linkCapacity := by norm_num [linkCapacity]
  have hrow : ∀ e s,
      (⟨p.gateCongestionEntries e s ++ [(p.gIndex e s, 1)], .ge, 0⟩ : Row).Holds v ↔
        plan.dataOver (fun q => e.link ∈ q.edges) (p.D.filter fun d => d.serviceType = s) ≤
          v (p.gIndex e s) * linkCapacity := by
    intro e s
    show 0 ≤ linear (p.gateCongestionEntries e s ++ [(p.gIndex e s, 1)]) v ↔ _
    rw [linear_append, h.linear_congestion, linear_cons, linear_nil, ← div_le_iff₀ hpos, neg_div]
    constructor <;> intro hle <;> linarith
  simp only [gateCongestionConstraint, List.mem_flatMap, List.mem_map]
  constructor
  · intro hrows e he s hs
    exact (hrow e s).mp (hrows _ ⟨e, he, s, hs, rfl⟩)
  · rintro hfits r ⟨e, he, s, hs, rfl⟩
    exact (hrow e s).mpr (hfits e he s hs)

/-! ## The plan of a valuation -/

theorem Feasible.routes_of_describes (hp : p.WellFormed) (hm : p.addConstraints = some m)
    (hv : p.Feasible m v) (h : p.Describes v plan) : p.Routes v plan := by
  intro d hd f
  obtain ⟨latency, -, -, -, hrows⟩ := addConstraints_eq_some hm
  have hsum := trafficDemand_iff.mp (fun r hr => hv.rows r ((hrows r).mpr (.inl hr))) d hd
  have h01 : ∀ q ∈ p.paths d, v (p.xIndex d q) = 0 ∨ v (p.xIndex d q) = 1 :=
    fun q hq => hv.binary _ (hp.xIndex_lt hd (mem_paths.mp hq).1)
  obtain ⟨q, hq, hone, -, -, hform⟩ := exists_chosen h01 hsum
  rw [hform f, (h.path d hd q).mp ⟨hq, hone⟩]

theorem exists_describes (hp : p.WellFormed) (hm : p.addConstraints = some m)
    (hv : p.Feasible m v) : ∃ plan, p.Describes v plan := by
  obtain ⟨latency, -, -, -, hrows⟩ := addConstraints_eq_some hm
  have hchoice : ∀ d, ∃ route, d ∈ p.D → ∀ q, q ∈ p.paths d ∧ v (p.xIndex d q) = 1 ↔ q = route := by
    intro d
    by_cases hd : d ∈ p.D
    · have hsum := trafficDemand_iff.mp (fun r hr => hv.rows r ((hrows r).mpr (.inl hr))) d hd
      have h01 : ∀ q ∈ p.paths d, v (p.xIndex d q) = 0 ∨ v (p.xIndex d q) = 1 :=
        fun q hq => hv.binary _ (hp.xIndex_lt hd (mem_paths.mp hq).1)
      obtain ⟨q, -, -, -, hfilter, -⟩ := exists_chosen h01 hsum
      refine ⟨q, fun _ q' => ?_⟩
      have hmem : q' ∈ (p.paths d).filter (fun q => v (p.xIndex d q) = 1) ↔ q' = q := by
        rw [hfilter, List.mem_singleton]
      rw [← hmem, List.mem_filter, decide_eq_true_eq]
    · exact ⟨⟨[], 0⟩, fun h => absurd h hd⟩
  choose route hroute using hchoice
  exact ⟨⟨route, fun e s => v (p.gIndex e s)⟩, fun d hd => hroute d hd, fun _ _ _ _ => rfl⟩

theorem Feasible.fits (hp : p.WellFormed) (hm : p.addConstraints = some m)
    (hv : p.Feasible m v) (h : p.Describes v plan) : plan.Fits p := by
  obtain ⟨latency, -, -, -, hrows⟩ := addConstraints_eq_some hm
  have hroutes := hv.routes_of_describes hp hm h
  constructor
  · intro d hd
    exact ((h.path d hd _).mpr rfl).1
  · exact (linkCapacity_iff hp hroutes).mp
      fun r hr => hv.rows r ((hrows r).mpr (.inr (.inl hr)))
  · intro e he s hs
    obtain ⟨hle, hlt⟩ := hp.gIndex_lt he hs
    rw [h.share e he s hs]
    exact (hv.bounds _ (hlt.trans_le (Nat.le_add_right _ _)) hle).1
  · intro e he
    have hgates := gateOpening_iff.mp
      (fun r hr => hv.rows r ((hrows r).mpr (.inr (.inr (.inl hr))))) e he
    rw [← hgates]
    congr 1
    apply List.map_congr_left
    intro s hs
    exact h.share e he s hs
  · intro e he s hs
    rw [h.share e he s hs]
    exact (gateCongestion_iff hroutes).mp
      (fun r hr => hv.rows r ((hrows r).mpr (.inr (.inr (.inr (.inr (.inl hr))))))) e he s hs

/-- **The chosen paths fit the network.** In every model that is built with fresh counters,
every feasible valuation describes a plan, and the plan fits. -/
theorem exists_plan_of_feasible {t : Topology} {lib : Libraries t} {demands : List DemandTuple}
    {A : List (ℕ × ℕ)} (hb : (build lib demands A .zero).2 = some p)
    (hm : p.addConstraints = some m) (hv : p.Feasible m v) :
    ∃ plan, p.Describes v plan ∧ plan.Fits p := by
  have hp := wellFormed_of_build hb
  obtain ⟨plan, hplan⟩ := exists_describes hp hm hv
  exact ⟨plan, hplan, hv.fits hp hm hplan⟩

/-- Two nodes and the link between them. -/
def twoNodes : Topology := ⟨2, [(0, 1)], by decide⟩

def sampleDemand : DemandTuple := ⟨0, 0, 1, 0, 10, 7⟩

/-- The path, the gates of type 0 on both edges, and the product of the path and its gate. -/
def sampleValuation (i : ℕ) : ℚ := if i ∈ [0, 1, 9, 17] then 1 else 0

theorem exists_plan_of_feasible_sample :
    ∃ p m, (build (.reference twoNodes) [sampleDemand] [] .zero).2 = some p ∧
      p.addConstraints = some m ∧ p.Feasible m sampleValuation ∧
      ∃ plan, p.Describes sampleValuation plan ∧ plan.Fits p := by
  have hrun : ((build (.reference twoNodes) [sampleDemand] [] .zero).2.any fun p =>
      p.addConstraints.any fun m => decide (p.Feasible m sampleValuation)) = true := by
    decide +kernel
  obtain ⟨p, m, hb, hm, hv⟩ := exists_model hrun
  have hv := of_decide_eq_true hv
  exact ⟨p, m, hb, hm, hv, exists_plan_of_feasible hb hm hv⟩

end GD

end TsnReconfig.Opt
