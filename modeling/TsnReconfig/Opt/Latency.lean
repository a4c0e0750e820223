import TsnReconfig.Opt.Linearization
import TsnReconfig.Opt.Plans

/-!
# Latency

`latency_constraint` adds the row of a demand after the loop over its paths, so only the last
candidate path of a demand is bounded. The feasible valuations are those of the plans that
fit the network and keep this bound; the guarantee for all paths holds exactly when no such
plan breaks it.
-/

namespace TsnReconfig.Opt
open Lib

namespace GD

/-- The delay of a demand on a path: its edges, less what the open gates save. -/
def delay (p : GD) (share : Edge → ℕ → ℚ) (d : Demand) (q : Path) : ℚ :=
  ((p.pathEdges q).map fun e => e.latency + 1 / 2 - 1 / 2 * share e d.serviceType).sum

/-- Every path a valuation chooses for a demand keeps the bound of the demand. -/
def MeetsLatency (p : GD) (v : ℕ → ℚ) : Prop :=
  ∀ d ∈ p.D, ∀ q ∈ p.paths d, v (p.xIndex d q) = 1 →
    p.delay (fun e s => v (p.gIndex e s)) d q ≤ d.latency

instance (p : GD) (v : ℕ → ℚ) : Decidable (p.MeetsLatency v) := by
  unfold MeetsLatency
  infer_instance

/-- The path is the last of the candidates of its demand. -/
def IsLast (p : GD) (d : Demand) (q : Path) : Prop := (p.paths d).getLast? = some q

/-- What the rows of the demands say: the last path is in time if it is the one taken. -/
structure LastInTime (p : GD) (plan : Plan) : Prop where
  last : ∀ d ∈ p.D, p.IsLast d (plan.route d) → p.delay plan.share d (plan.route d) ≤ d.latency
  other : ∀ d ∈ p.D, ¬p.IsLast d (plan.route d) → 0 ≤ d.latency

/-! ## The valuation of a plan -/

/-- The plan as a valuation of the path and gate variables. The variables of paths between
other hosts, which the plan says nothing about, are one. -/
def encodeBase (p : GD) (plan : Plan) (i : ℕ) : ℚ :=
  match p.ownPairs.find? fun dq => p.xIndex dq.1 dq.2 = i with
  | some (d, q) => if plan.route d = q then 1 else 0
  | none =>
    match (p.G.E ×ˢ serviceTypes).find? fun es => p.gIndex es.1 es.2 = i with
    | some (e, s) => plan.share e s
    | none => 1

/-- With the largest values the products can have. -/
def encode (p : GD) (T : Transition) (plan : Plan) (i : ℕ) : ℚ :=
  match T.find? fun kz => kz.2 = i with
  | some (k, _) => min (p.encodeBase plan k.1) (p.encodeBase plan k.2)
  | none => p.encodeBase plan i

/-- The plan respects the assignments: the variables they name can be one. For a demand and
one of its candidate paths this says that the demand keeps the path. -/
def Respects (p : GD) (T : Transition) (plan : Plan) : Prop :=
  ∀ a ∈ p.A, 1 ≤ p.encode T plan (indexTranslator [(a.1, 0), (a.2, p.G.pathSize)] 0)

/-- What a plan has to be for the rows: it fits the network, keeps the bounds there are and
respects the assignments. -/
structure Admissible (p : GD) (plan : Plan) : Prop where
  fits : plan.Fits p
  inTime : p.LastInTime plan
  respects : ∀ s, p.latencyConstraint = some s → p.Respects s.zTransition plan

variable {p : GD} {m : Model} {v : ℕ → ℚ} {plan : Plan} {s : LatencyState} {done : List Row}
  {d : Demand} {q : Path} {e : Edge} {i ty : ℕ}

theorem ownPairs_find? (hp : p.WellFormed) (hd : d ∈ p.D) (hq : q ∈ p.paths d) :
    p.ownPairs.find? (fun dq => p.xIndex dq.1 dq.2 = p.xIndex d q) = some (d, q) := by
  apply find?_key (mem_ownPairs.mpr ⟨hd, hq⟩) rfl
  rintro ⟨d', q'⟩ hmem heq
  obtain ⟨hd', hq'⟩ := mem_ownPairs.mp hmem
  obtain ⟨rfl, rfl⟩ := hp.xIndex_inj hd' hd (mem_paths.mp hq').1 (mem_paths.mp hq).1 heq
  rfl

theorem ownPairs_find?_none (hp : p.WellFormed) (hi : p.xDpSize ≤ i) :
    p.ownPairs.find? (fun dq => p.xIndex dq.1 dq.2 = i) = none := by
  rw [List.find?_eq_none]
  rintro ⟨d, q⟩ hmem heq
  obtain ⟨hd, hq⟩ := mem_ownPairs.mp hmem
  have hlt := hp.xIndex_lt hd (mem_paths.mp hq).1
  have heq : p.xIndex d q = i := by simpa using heq
  omega

theorem encodeBase_x (hp : p.WellFormed) (hd : d ∈ p.D) (hq : q ∈ p.paths d) :
    p.encodeBase plan (p.xIndex d q) = if plan.route d = q then 1 else 0 := by
  rw [encodeBase, ownPairs_find? hp hd hq]

theorem encodeBase_g (hp : p.WellFormed) (he : e ∈ p.G.E) (hty : ty ∈ serviceTypes) :
    p.encodeBase plan (p.gIndex e ty) = plan.share e ty := by
  have hfind : (p.G.E ×ˢ serviceTypes).find? (fun es => p.gIndex es.1 es.2 = p.gIndex e ty) =
      some (e, ty) := by
    apply find?_key (List.mem_product.mpr ⟨he, hty⟩) rfl
    rintro ⟨e', ty'⟩ hmem heq
    obtain ⟨he', hty'⟩ := List.mem_product.mp hmem
    obtain ⟨rfl, rfl⟩ := hp.gIndex_inj he' he hty' hty heq
    rfl
  rw [encodeBase, ownPairs_find?_none hp (hp.gIndex_lt he hty).1, hfind]

theorem share_le_one (h : plan.Fits p) (he : e ∈ p.G.E) (hty : ty ∈ serviceTypes) :
    plan.share e ty ≤ 1 := by
  rw [← h.gates e he]
  apply List.single_le_sum
  · intro y hy
    obtain ⟨ty', hty', rfl⟩ := List.mem_map.mp hy
    exact h.nonneg e he ty' hty'
  · exact List.mem_map.mpr ⟨ty, hty, rfl⟩

theorem encodeBase_mem (h : plan.Fits p) (i : ℕ) :
    0 ≤ p.encodeBase plan i ∧ p.encodeBase plan i ≤ 1 := by
  unfold encodeBase
  cases hown : p.ownPairs.find? fun dq => p.xIndex dq.1 dq.2 = i with
  | some dq =>
    dsimp only
    split_ifs <;> norm_num
  | none =>
    cases hgate : (p.G.E ×ˢ serviceTypes).find? fun es => p.gIndex es.1 es.2 = i with
    | some es =>
      obtain ⟨he, hty⟩ := List.mem_product.mp (List.mem_of_find?_eq_some hgate)
      exact ⟨h.nonneg _ he _ hty, share_le_one h he hty⟩
    | none => norm_num

theorem encode_mem (h : plan.Fits p) (i : ℕ) :
    0 ≤ p.encode s.zTransition plan i ∧ p.encode s.zTransition plan i ≤ 1 := by
  unfold encode
  cases s.zTransition.find? fun kz => kz.2 = i with
  | some kz =>
    constructor
    · exact le_min (encodeBase_mem h _).1 (encodeBase_mem h _).1
    · exact (min_le_left _ _).trans (encodeBase_mem h _).2
  | none => exact encodeBase_mem h i

theorem Good.encode_eq (hs : p.Good s done) (hi : i < p.xDpSize + p.gEsSize) :
    p.encode s.zTransition plan i = p.encodeBase plan i := by
  have hnone : s.zTransition.find? (fun kz => kz.2 = i) = none := by
    rw [List.find?_eq_none]
    rintro ⟨k, z⟩ hmem heq
    have hle := (hs.allocated.bounds hmem).1
    have heq : z = i := by simpa using heq
    omega
  rw [encode, hnone]

theorem Good.encode_z (hs : p.Good s done) {k : ℕ × ℕ} {z : ℕ} (hmem : (k, z) ∈ s.zTransition) :
    p.encode s.zTransition plan z = min (p.encodeBase plan k.1) (p.encodeBase plan k.2) := by
  have hfind : s.zTransition.find? (fun kz => kz.2 = z) = some (k, z) := by
    apply find?_key hmem rfl
    rintro ⟨k', z'⟩ hmem' rfl
    rw [hs.allocated.inj hmem hmem']
  rw [encode, hfind]

/-! ## The latency rows of a valuation -/

theorem linear_latencyEntries (T : Transition) (d : Demand) (q : Path) (v : ℕ → ℚ) :
    linear (p.latencyEntries T d q) v =
      ((p.pathEdges q).map fun e => -1 / 2 * v (zOf T (p.xgTuple d q e))).sum +
        p.totalEdgeDelays q * v (p.xIndex d q) := by
  rw [latencyEntries, linear_append, linear_map, linear_cons, linear_nil, add_zero]

theorem delay_eq (share : Edge → ℕ → ℚ) (d : Demand) (q : Path) :
    p.delay share d q =
      ((p.pathEdges q).map fun e => -1 / 2 * share e d.serviceType).sum + p.totalEdgeDelays q := by
  unfold delay totalEdgeDelays
  rw [← List.sum_map_add]
  congr 1
  apply List.map_congr_left
  intro e _
  ring

/-! ## From plans to valuations -/

theorem routes_encode (hp : p.WellFormed) (hs : p.Good s done) (h : plan.Fits p) :
    p.Routes (p.encode s.zTransition plan) plan := by
  intro d hd f
  rw [← sum_indicator (hp.paths_nodup d) (h.route d hd) f]
  congr 1
  apply List.map_congr_left
  intro q hq
  have hlt := hp.xIndex_lt hd (mem_paths.mp hq).1
  rw [hs.encode_eq (hlt.trans_le (Nat.le_add_right _ _)), encodeBase_x hp hd hq]

/-- The row of a demand under the valuation of a plan. -/
theorem demandRow_encode (hp : p.WellFormed) (hs : p.Good s done) (h : p.Admissible plan)
    (hty : ∀ d ∈ p.D, d.serviceType ∈ serviceTypes) (hd : d ∈ p.D) (hq : p.IsLast d q)
    (hc : p.Covers s.zTransition d q) :
    linear (p.latencyEntries s.zTransition d q) (p.encode s.zTransition plan) ≤ d.latency := by
  have hmem : q ∈ p.paths d := List.mem_of_getLast? hq
  have hlt := hp.xIndex_lt hd (mem_paths.mp hmem).1
  have hx : p.encode s.zTransition plan (p.xIndex d q) = if plan.route d = q then 1 else 0 := by
    rw [hs.encode_eq (hlt.trans_le (Nat.le_add_right _ _)), encodeBase_x hp hd hmem]
  have hz : ∀ e ∈ p.pathEdges q,
      p.encode s.zTransition plan (zOf s.zTransition (p.xgTuple d q e)) =
        if plan.route d = q then plan.share e d.serviceType else 0 := by
    intro e he
    have heE := mem_of_mem_pathEdges he
    rw [hs.encode_z (hc.mem he)]
    simp only [xgTuple, encodeBase_x hp hd hmem, encodeBase_g hp heE (hty d hd)]
    split_ifs
    · exact min_eq_right (share_le_one h.fits heE (hty d hd))
    · exact min_eq_left (h.fits.nonneg e heE _ (hty d hd))
  have hsum : ((p.pathEdges q).map fun e => -1 / 2 *
      p.encode s.zTransition plan (zOf s.zTransition (p.xgTuple d q e))) =
      (p.pathEdges q).map fun e =>
        -1 / 2 * if plan.route d = q then plan.share e d.serviceType else 0 := by
    apply List.map_congr_left
    intro e he
    rw [hz e he]
  rw [linear_latencyEntries, hsum, hx]
  by_cases hroute : plan.route d = q
  · have hle := h.inTime.last d hd (hroute ▸ hq)
    simp only [if_pos hroute, mul_one]
    rw [delay_eq, hroute] at hle
    exact hle
  · have hother : ¬p.IsLast d (plan.route d) := by
      intro hlast
      exact hroute (Option.some.inj (hlast.symm.trans hq))
    simp only [if_neg hroute, mul_zero, add_zero, List.sum_map_zero]
    exact h.inTime.other d hd hother

/-- A path variable is one or zero: it belongs to one path of one demand. -/
theorem Good.encode_binary (hgood : p.Good s done) (hp : p.WellFormed) (hi : i < p.xDpSize) :
    p.encode s.zTransition plan i = 0 ∨ p.encode s.zTransition plan i = 1 := by
  rw [hgood.encode_eq (hi.trans_le (Nat.le_add_right _ _)), encodeBase]
  cases hown : p.ownPairs.find? fun dq => p.xIndex dq.1 dq.2 = i with
  | some dq => by_cases hroute : plan.route dq.1 = dq.2 <;> simp [hroute]
  | none =>
    -- the shares have the indices from `xDpSize` on
    have hnone : (p.G.E ×ˢ serviceTypes).find? (fun es => p.gIndex es.1 es.2 = i) = none := by
      rw [List.find?_eq_none]
      rintro ⟨e, ty⟩ hmem heq
      obtain ⟨he, hty⟩ := List.mem_product.mp hmem
      have hle := (hp.gIndex_lt he hty).1
      have heq : p.gIndex e ty = i := by simpa using heq
      omega
    rw [hnone]
    exact .inr rfl

/-- The products are the lesser of their factors, which are between zero and one. -/
theorem Good.encode_product (hgood : p.Good s done) (hp : p.WellFormed)
    (hty : ∀ d ∈ p.D, d.serviceType ∈ serviceTypes) (h : plan.Fits p) {k : ℕ × ℕ} {z : ℕ}
    (hmem : (k, z) ∈ s.zTransition) :
    let w := p.encode s.zTransition plan
    w z ≤ w k.1 ∧ w z ≤ w k.2 ∧ w k.1 + w k.2 - 1 ≤ w z := by
  obtain ⟨d, hd, q, hq, e, he, rfl⟩ := hgood.keys k (List.mem_map.mpr ⟨_, hmem, rfl⟩)
  have hx := hp.xIndex_lt hd (mem_paths.mp hq).1
  have hgi := (hp.gIndex_lt he (hty d hd)).2
  have hxle := (encodeBase_mem h (p.xIndex d q)).2
  have hgle := (encodeBase_mem h (p.gIndex e d.serviceType)).2
  dsimp only
  rw [hgood.encode_z hmem]
  simp only [xgTuple, hgood.encode_eq (hx.trans_le (Nat.le_add_right _ _)),
    hgood.encode_eq hgi]
  refine ⟨min_le_left _ _, min_le_right _ _, le_min ?_ ?_⟩ <;> linarith

/-- The valuation of an admissible plan is feasible. -/
theorem feasible_encode (hp : p.WellFormed) (hm : p.addConstraints = some m)
    (hs : p.latencyConstraint = some s) (hty : ∀ d ∈ p.D, d.serviceType ∈ serviceTypes)
    (h : p.Admissible plan) : p.Feasible m (p.encode s.zTransition plan) := by
  obtain ⟨hgood, hcov⟩ := good_of_latencyConstraint hs
  have hroutes := routes_encode hp hgood h.fits
  have hg : ∀ e ∈ p.G.E, ∀ ty ∈ serviceTypes,
      p.encode s.zTransition plan (p.gIndex e ty) = plan.share e ty := by
    intro e he ty hty
    rw [hgood.encode_eq (hp.gIndex_lt he hty).2, encodeBase_g hp he hty]
  constructor
  · exact fun i hi => hgood.encode_binary hp hi
  · intro i _ _
    obtain ⟨hzero, hone⟩ := encode_mem (s := s) h.fits i
    exact ⟨hzero, hone.trans (by norm_num [uBound])⟩
  · -- the rows of the source, in the order in which it adds them
    intro r hr
    obtain ⟨latency, hlatency, -, -, hrows⟩ := addConstraints_eq_some hm
    obtain rfl := Option.some.inj (hlatency.symm.trans hs)
    rcases (hrows r).mp hr with hr | hr | hr | hr | hr | hr
    · refine trafficDemand_iff.mpr (fun d hd => ?_) r hr
      simpa using hroutes d hd fun _ => 1
    · exact (linkCapacity_iff hp hroutes).mpr h.fits.capacity r hr
    · refine gateOpening_iff.mpr (fun e he => ?_) r hr
      rw [← h.fits.gates e he]
      congr 1
      exact List.map_congr_left fun ty hty => hg e he ty hty
    · refine hgood.rows_iff.mpr ⟨fun k z hmem => ?_, fun r hr => ?_⟩ r hr
      · exact hgood.encode_product hp hty h.fits hmem
      · have hne : ∀ d ∈ p.D, p.paths d ≠ [] :=
          fun d hd => List.ne_nil_of_mem (h.fits.route d hd)
        obtain ⟨d, hd, q, hq, rfl⟩ := (mem_demandRows hne fun _ hd => hd).mp hr
        exact demandRow_encode hp hgood h hty hd hq (hcov d hd q (List.mem_of_getLast? hq))
    · refine (gateCongestion_iff hroutes).mpr (fun e he ty hty => ?_) r hr
      rw [hg e he ty hty]
      exact h.fits.congestion e he ty hty
    · obtain ⟨⟨dIndex, pIndex⟩, ha, rfl⟩ := List.mem_map.mp hr
      have hrespects := h.respects _ hs _ ha
      simpa [Row.Holds] using hrespects

/-! ## From valuations to plans -/

/-- The row of a demand under a feasible valuation. -/
theorem Feasible.demandRow (hv : p.Feasible m v) (hm : p.addConstraints = some m)
    (hs : p.latencyConstraint = some s) (hfits : plan.Fits p) (hd : d ∈ p.D)
    (hq : p.IsLast d q) : linear (p.latencyEntries s.zTransition d q) v ≤ d.latency := by
  obtain ⟨latency, hlatency, -, -, hrows⟩ := addConstraints_eq_some hm
  obtain rfl := Option.some.inj (hlatency.symm.trans hs)
  have hne : ∀ d ∈ p.D, p.paths d ≠ [] := fun d hd => List.ne_nil_of_mem (hfits.route d hd)
  have hgood := (good_of_latencyConstraint hs).1
  have hmem : ⟨p.latencyEntries latency.zTransition d q, .le, d.latency⟩ ∈ latency.rows := by
    apply (hgood.rows _).mpr
    exact .inr ((mem_demandRows hne fun _ hd => hd).mpr ⟨d, hd, q, hq, rfl⟩)
  exact hv.rows _ ((hrows _).mpr (.inr (.inr (.inr (.inl hmem)))))

theorem Feasible.latencyFeasible (hv : p.Feasible m v) (hm : p.addConstraints = some m)
    (hs : p.latencyConstraint = some s) : p.LatencyFeasible s v := by
  obtain ⟨latency, hlatency, hsize, -, hrows⟩ := addConstraints_eq_some hm
  obtain rfl := Option.some.inj (hlatency.symm.trans hs)
  refine ⟨hv.binary, fun i hi => hv.bounds i ?_, fun r hr => ?_⟩
  · rw [size, hsize]
    exact hi
  · exact hv.rows r ((hrows r).mpr (.inr (.inr (.inr (.inl hr)))))

theorem delay_congr {share share' : Edge → ℕ → ℚ}
    (h : ∀ e ∈ p.G.E, share e d.serviceType = share' e d.serviceType) :
    p.delay share d q = p.delay share' d q := by
  unfold delay
  congr 1
  apply List.map_congr_left
  intro e he
  rw [h e (mem_of_mem_pathEdges he)]

/-- If a demand takes its last path, its row bounds the delay of the plan. -/
theorem Feasible.last_inTime (hv : p.Feasible m v) (hm : p.addConstraints = some m)
    (hs : p.latencyConstraint = some s) (hty : d.serviceType ∈ serviceTypes)
    (hfits : plan.Fits p) (h : p.Describes v plan) (hd : d ∈ p.D)
    (hlast : p.IsLast d (plan.route d)) :
    p.delay plan.share d (plan.route d) ≤ d.latency := by
  have hcov := (good_of_latencyConstraint hs).2
  have hrow := hv.demandRow hm hs hfits hd hlast
  obtain ⟨hmem, hone⟩ := (h.path d hd _).mpr rfl
  -- the product of a share and the path is not above the share
  have hsum : ((p.pathEdges (plan.route d)).map fun e =>
      -1 / 2 * plan.share e d.serviceType).sum ≤
      ((p.pathEdges (plan.route d)).map fun e => -1 / 2 *
        v (zOf s.zTransition (p.xgTuple d (plan.route d) e))).sum := by
    apply List.sum_le_sum
    intro e he
    have hz := ((hv.latencyFeasible hm hs).products hs ((hcov d hd _ hmem).mem he)).2.1
    rw [h.share e (mem_of_mem_pathEdges he) _ hty]
    simp only [xgTuple] at hz ⊢
    linarith
  rw [linear_latencyEntries, hone, mul_one] at hrow
  rw [delay_eq]
  linarith

/-- If it takes another path, the row of its last path says that the bound is not negative. -/
theorem Feasible.other_nonneg (hv : p.Feasible m v) (hm : p.addConstraints = some m)
    (hp : p.WellFormed) (hs : p.latencyConstraint = some s) (hfits : plan.Fits p)
    (h : p.Describes v plan) (hd : d ∈ p.D) (hother : ¬p.IsLast d (plan.route d)) :
    0 ≤ d.latency := by
  have hcov := (good_of_latencyConstraint hs).2
  have hpaths : p.paths d ≠ [] := List.ne_nil_of_mem (hfits.route d hd)
  obtain ⟨q, hq⟩ := Option.isSome_iff_exists.mp (List.getLast?_isSome.mpr hpaths)
  have hmem : q ∈ p.paths d := List.mem_of_getLast? hq
  have hzero : v (p.xIndex d q) = 0 := by
    apply (hv.binary _ (hp.xIndex_lt hd (mem_paths.mp hmem).1)).resolve_right
    intro hone
    exact hother ((h.path d hd q).mp ⟨hmem, hone⟩ ▸ hq)
  have hsum : ((p.pathEdges q).map fun e =>
      -1 / 2 * v (zOf s.zTransition (p.xgTuple d q e))).sum = 0 := by
    apply List.sum_eq_zero
    intro y hy
    obtain ⟨e, he, rfl⟩ := List.mem_map.mp hy
    obtain ⟨hx, -, -, hnonneg⟩ :=
      (hv.latencyFeasible hm hs).products hs ((hcov d hd q hmem).mem he)
    simp only [xgTuple, hzero] at hx hnonneg ⊢
    linarith
  have hrow := hv.demandRow hm hs hfits hd hq
  rw [linear_latencyEntries, hsum, hzero] at hrow
  linarith

/-- A path variable or a share that is one in the valuation is one in that of the plan. -/
theorem Feasible.one_le_encodeBase (hv : p.Feasible m v) (hp : p.WellFormed)
    (h : p.Describes v plan) (hi : 1 ≤ v i) : 1 ≤ p.encodeBase plan i := by
  unfold encodeBase
  cases hown : p.ownPairs.find? fun dq => p.xIndex dq.1 dq.2 = i with
  | some dq =>
    obtain ⟨d, q⟩ := dq
    obtain ⟨hd, hq⟩ := mem_ownPairs.mp (List.mem_of_find?_eq_some hown)
    have hindex : p.xIndex d q = i := by simpa using List.find?_some hown
    have hone : v (p.xIndex d q) = 1 := by
      apply (hv.binary _ (hp.xIndex_lt hd (mem_paths.mp hq).1)).resolve_left
      rw [hindex]
      linarith
    simp [(h.path d hd q).mp ⟨hq, hone⟩]
  | none =>
    cases hgate : (p.G.E ×ˢ serviceTypes).find? fun es => p.gIndex es.1 es.2 = i with
    | some es =>
      obtain ⟨he, hes⟩ := List.mem_product.mp (List.mem_of_find?_eq_some hgate)
      have hindex : p.gIndex es.1 es.2 = i := by simpa using List.find?_some hgate
      rw [← hindex, ← h.share _ he _ hes] at hi
      exact hi
    | none => exact le_rfl

/-- The present assignments stay feasible in the valuation of the plan. -/
theorem Feasible.respects (hv : p.Feasible m v) (hm : p.addConstraints = some m)
    (hp : p.WellFormed) (hs : p.latencyConstraint = some s) (h : p.Describes v plan) :
    p.Respects s.zTransition plan := by
  intro a ha
  obtain ⟨latency, hlatency, -, -, hrows⟩ := addConstraints_eq_some hm
  have hrow : 1 ≤ v (indexTranslator [(a.1, 0), (a.2, p.G.pathSize)] 0) := by
    have hmem := hv.rows _ ((hrows _).mpr (.inr (.inr (.inr (.inr (.inr
      (List.mem_map.mpr ⟨a, ha, rfl⟩)))))))
    simpa [Row.Holds] using hmem
  unfold encode
  cases hfind : s.zTransition.find? fun kz =>
      kz.2 = indexTranslator [(a.1, 0), (a.2, p.G.pathSize)] 0 with
  | none => exact hv.one_le_encodeBase hp h hrow
  | some kz =>
    -- a product that is one has factors that are one
    have hindex := List.find?_some hfind
    have hprod := (hv.latencyFeasible hm hs).products hs (List.mem_of_find?_eq_some hfind)
    rw [of_decide_eq_true hindex] at hprod
    exact le_min (hv.one_le_encodeBase hp h (hrow.trans hprod.1))
      (hv.one_le_encodeBase hp h (hrow.trans hprod.2.1))

/-- The plan that a feasible valuation describes is admissible. -/
theorem admissible_of_feasible (hp : p.WellFormed) (hm : p.addConstraints = some m)
    (hty : ∀ d ∈ p.D, d.serviceType ∈ serviceTypes) (hv : p.Feasible m v)
    (h : p.Describes v plan) : p.Admissible plan := by
  have hfits := hv.fits hp hm h
  obtain ⟨s, hs, -⟩ := addConstraints_eq_some hm
  refine ⟨hfits, ⟨fun d hd hlast => ?_, fun d hd hother => ?_⟩, fun s' hs' => ?_⟩
  · exact hv.last_inTime hm hs (hty d hd) hfits h hd hlast
  · exact hv.other_nonneg hm hp hs hfits h hd hother
  · exact hv.respects hm hp hs' h

/-- **The latency guarantee.** Every feasible valuation keeps the latency bounds exactly when
no admissible plan breaks the bound of a demand whose path is not the last of its
candidates. -/
theorem meetsLatency_iff {t : Topology} {lib : Libraries t} {demands : List DemandTuple}
    {A : List (ℕ × ℕ)} (hb : (build lib demands A .zero).2 = some p)
    (hservice : ∀ d ∈ demands, d.serviceType ∈ serviceTypes) (hm : p.addConstraints = some m) :
    (∀ v, p.Feasible m v → p.MeetsLatency v) ↔
      ∀ plan, p.Admissible plan → ∀ d ∈ p.D, ¬p.IsLast d (plan.route d) →
        p.delay plan.share d (plan.route d) ≤ d.latency := by
  have hp := wellFormed_of_build hb
  have hty := serviceType_of_build hb hservice
  constructor
  · intro hall plan hplan d hd _
    obtain ⟨s, hs, -⟩ := addConstraints_eq_some hm
    have hgood := (good_of_latencyConstraint hs).1
    have hmem := hplan.fits.route d hd
    have hlt := hp.xIndex_lt hd (mem_paths.mp hmem).1
    have hmeets := hall _ (feasible_encode hp hm hs hty hplan) d hd _ hmem (by
      rw [hgood.encode_eq (hlt.trans_le (Nat.le_add_right _ _)), encodeBase_x hp hd hmem,
        if_pos rfl])
    refine (delay_congr fun e he => ?_).trans_le hmeets
    rw [hgood.encode_eq (hp.gIndex_lt he (hty d hd)).2, encodeBase_g hp he (hty d hd)]
  · intro hall v hv d hd q hq hone
    obtain ⟨plan, hplan⟩ := exists_describes hp hm hv
    have hadm := admissible_of_feasible hp hm hty hv hplan
    obtain rfl := (hplan.path d hd q).mp ⟨hq, hone⟩
    have hdelay : p.delay plan.share d (plan.route d) ≤ d.latency := by
      by_cases hlast : p.IsLast d (plan.route d)
      · exact hadm.inTime.last d hd hlast
      · exact hall plan hadm d hd hlast
    refine (delay_congr fun e he => ?_).trans_le hdelay
    rw [hplan.share e he _ (hty d hd)]

theorem meetsLatency_iff_sample :
    ∃ p m, (build (.reference twoNodes) [sampleDemand] [] .zero).2 = some p ∧
      p.addConstraints = some m ∧
      ((∀ v, p.Feasible m v → p.MeetsLatency v) ↔
        ∀ plan, p.Admissible plan → ∀ d ∈ p.D, ¬p.IsLast d (plan.route d) →
          p.delay plan.share d (plan.route d) ≤ d.latency) := by
  have hrun : ((build (.reference twoNodes) [sampleDemand] [] .zero).2.any fun p =>
      p.addConstraints.any fun _ => true) = true := by
    decide +kernel
  obtain ⟨p, m, hb, hm, -⟩ := exists_model hrun
  exact ⟨p, m, hb, hm, meetsLatency_iff hb (by decide) hm⟩

/-- The guarantee holds if the candidate paths without a row are short enough. -/
theorem meetsLatency_of_totalEdgeDelays {t : Topology} {lib : Libraries t}
    {demands : List DemandTuple} {A : List (ℕ × ℕ)}
    (hb : (build lib demands A .zero).2 = some p)
    (hservice : ∀ d ∈ demands, d.serviceType ∈ serviceTypes) (hm : p.addConstraints = some m)
    (hshort : ∀ d ∈ p.D, ∀ q ∈ p.paths d, ¬p.IsLast d q → p.totalEdgeDelays q ≤ d.latency)
    (hv : p.Feasible m v) : p.MeetsLatency v := by
  refine (meetsLatency_iff hb hservice hm).mpr (fun plan hplan d hd hlast => ?_) v hv
  have hshare : ((p.pathEdges (plan.route d)).map fun e =>
      -1 / 2 * plan.share e d.serviceType).sum ≤ 0 := by
    rw [← List.sum_map_zero (l := p.pathEdges (plan.route d))]
    apply List.sum_le_sum
    intro e he
    have hnonneg := hplan.fits.nonneg e (mem_of_mem_pathEdges he) d.serviceType
      (serviceType_of_build hb hservice d hd)
    linarith
  have hle := hshort d hd _ (hplan.fits.route d hd) hlast
  rw [delay_eq]
  linarith

/-- A ring of six nodes. From node 0 to node 5 the candidates are the way around and, last,
the link between them. -/
def ring : Topology := ⟨6, [(0, 1), (1, 2), (2, 3), (3, 4), (4, 5), (5, 0)], by decide⟩

def ringDemand : DemandTuple := ⟨0, 0, 5, 0, 10, 7⟩

/-- The way around, with a tenth of every edge for its service type. -/
def ringValuation (i : ℕ) : ℚ :=
  if i = 0 then 1
  else if i = 1 ∨ i = 103 then 0
  else if 98 ≤ i ∨ (i - 2) % 8 = 0 then 1 / 10
  else if (i - 2) % 8 = 1 then 9 / 10
  else 0

/-- The way around the ring takes `5 * 1.5 - 5 * 0.05` and the bound is 7. -/
theorem ringValuation_not_meetsLatency :
    ∃ p m, (build (.reference ring) [ringDemand] [] .zero).2 = some p ∧
      (∀ d ∈ [ringDemand], d.serviceType ∈ serviceTypes) ∧ p.addConstraints = some m ∧
      p.Loadable m ∧ p.Feasible m ringValuation ∧ ¬p.MeetsLatency ringValuation := by
  have hrun : ((build (.reference ring) [ringDemand] [] .zero).2.any fun p =>
      p.addConstraints.any fun m => decide (p.Loadable m ∧ p.Feasible m ringValuation ∧
        ¬p.MeetsLatency ringValuation)) = true := by
    decide +kernel
  obtain ⟨p, m, hb, hm, hcheck⟩ := exists_model hrun
  exact ⟨p, m, hb, by decide, hm, of_decide_eq_true hcheck⟩

end GD

end TsnReconfig.Opt
