import TsnReconfig.Opt.Objective
import TsnReconfig.Opt.Plans

/-!
# Decoding

`get_diagnose` reads every nonzero path variable. The variable of a demand and a path between
other hosts occurs in no row but those of the assignments and costs nothing, so a solution may
choose it beside the path of the demand.
-/

namespace TsnReconfig.Opt
open Lib Controller

namespace GD

/-- Exactly one assignment for every demand, with a path from its talker to its listener. -/
def DecodesRight (p : GD) (v : ℕ → ℚ) : Prop :=
  ∃ assignments, p.getDiagnose v = some assignments ∧ ∀ d ∈ p.D, ∃ a : Assignment,
    assignments.filter (fun a => a.demandIndex = d.index) = [a] ∧
      a.path.head? = some d.talker ∧ a.path.getLast? = some d.listener

/-- All demands have the same hosts. -/
def SameHosts (p : GD) : Prop := ∀ d ∈ p.D, ∀ d' ∈ p.D, d.hosts = d'.hosts

/-- The assignment of a demand and a path. -/
def assignment (p : GD) (v : ℕ → ℚ) (d : Demand) (q : Path) : Assignment :=
  ⟨d.index, v (p.xIndex d q), q.path, q.index⟩

/-- The assignments of the nonzero path variables. -/
def decoded (p : GD) (v : ℕ → ℚ) : List Assignment :=
  ((p.D ×ˢ p.G.P).filter fun dq => v (p.xIndex dq.1 dq.2) > valueTolerance).map fun dq =>
    p.assignment v dq.1 dq.2

variable {p : GD} {m : Model} {v : ℕ → ℚ} {d d' : Demand} {q : Path} {i : ℕ}

theorem mem_decoded {a : Assignment} : a ∈ p.decoded v ↔
    ∃ d ∈ p.D, ∃ q ∈ p.G.P, v (p.xIndex d q) > valueTolerance ∧ a = p.assignment v d q := by
  simp only [decoded, List.mem_map, List.mem_filter, Prod.exists, List.mem_product,
    decide_eq_true_eq]
  constructor
  · rintro ⟨d, q, ⟨⟨hd, hq⟩, hv⟩, rfl⟩
    exact ⟨d, hd, q, hq, hv, rfl⟩
  · rintro ⟨d, hd, q, hq, hv, rfl⟩
    exact ⟨d, q, ⟨⟨hd, hq⟩, hv⟩, rfl⟩

theorem xDp_zipIdx (hp : p.WellFormed) : p.xDp.zipIdx =
    (p.D ×ˢ p.G.P).map fun dq => ((dq.1.index, dq.2.index), p.xIndex dq.1 dq.2) := by
  have hproduct : (p.D ×ˢ p.G.P).zipIdx =
      (p.D ×ˢ p.G.P).map fun dq => (dq, dq.1.index * p.G.P.length + dq.2.index) := by
    have hzip := @zipIdx_product _ _ Demand.index Path.index p.D p.G.P 0
      (fun i d hd => (hp.demandIndex i d hd).trans (Nat.zero_add i).symm) hp.network.pathIndex
    rwa [Nat.zero_mul] at hzip
  rw [xDp, List.zipIdx_map, hproduct, List.map_map]
  apply List.map_congr_left
  intro dq _
  simp [xIndex_eq]

/-- What `get_diagnose` returns for a well formed model. -/
theorem getDiagnose_eq (hp : p.WellFormed) (v : ℕ → ℚ) :
    p.getDiagnose v = some (p.decoded v) := by
  have hgates : ∃ edges, ((p.gEs.zipIdx p.xDpSize).filter fun gi => v gi.2 > valueTolerance).mapM
      (fun gi => p.G.E[gi.1.1]?) = some edges := by
    apply exists_mapM_eq_some
    rintro ⟨g, i⟩ hmem
    have hg := List.fst_mem_of_mem_zipIdx (List.mem_filter.mp hmem).1
    obtain ⟨⟨e, s⟩, hes, rfl⟩ := List.mem_map.mp hg
    have hget := (hp.edge_index_lt (List.mem_product.mp hes).1).2
    exact Option.isSome_iff_exists.mpr ⟨e, hget⟩
  obtain ⟨edges, hedges⟩ := hgates
  have hpaths : ((p.xDp.zipIdx).filter fun xi => v xi.2 > valueTolerance).mapM
      (fun xi => (p.G.P[xi.1.2]?).bind fun path =>
        some (⟨xi.1.1, v xi.2, path.path, xi.1.2⟩ : Assignment)) = some (p.decoded v) := by
    rw [xDp_zipIdx hp, List.filter_map, List.mapM_map]
    apply mapM_eq_some_map
    rintro ⟨d, q⟩ hmem
    have hq := (List.mem_product.mp (List.mem_filter.mp hmem).1).2
    simp only [Function.comp_apply, (hp.path_index_lt hq).2, Option.bind_some, assignment]
  unfold getDiagnose
  show (List.mapM (fun gi : (ℕ × ℕ) × ℕ => p.G.E[gi.1.1]?) _).bind (fun _ => List.mapM _ _) = _
  rw [hedges, Option.bind_some]
  exact hpaths

/-- The assignments of one demand. -/
theorem decoded_filter (hp : p.WellFormed) (hd : d ∈ p.D) :
    (p.decoded v).filter (fun a => a.demandIndex = d.index) =
      (p.G.P.filter fun q => v (p.xIndex d q) > valueTolerance).map (p.assignment v d) := by
  have hproduct : (p.D ×ˢ p.G.P) = p.D.flatMap fun d => p.G.P.map (d, ·) := rfl
  rw [decoded, List.filter_map, List.filter_filter, hproduct, List.filter_flatMap,
    flatMap_eq_of_unique hp.nodup_D hd]
  · rw [List.filter_map, List.map_map]
    congr 1
    apply List.filter_congr
    intro q _
    simp [assignment]
  · intro d' hd' hne
    rw [List.filter_eq_nil_iff]
    intro dq hdq
    obtain ⟨q, -, rfl⟩ := List.mem_map.mp hdq
    have hindex : d'.index ≠ d.index := by
      intro heq
      apply hne
      apply Option.some.inj
      rw [← (hp.demand_index_lt hd').2, ← (hp.demand_index_lt hd).2, heq]
    simp [assignment, hindex]

/-- A path variable is one if it is not zero. -/
theorem Feasible.one_iff (hv : p.Feasible m v) (hp : p.WellFormed) (hd : d ∈ p.D)
    (hq : q ∈ p.G.P) : v (p.xIndex d q) = 1 ↔ v (p.xIndex d q) > valueTolerance := by
  rcases hv.binary _ (hp.xIndex_lt hd hq) with h | h <;> norm_num [h, valueTolerance]

/-- One path for every demand, if all demands have the same hosts. -/
theorem decodesRight_of_sameHosts (hp : p.WellFormed) (hm : p.addConstraints = some m)
    (hv : p.Feasible m v) (hsame : p.SameHosts) : p.DecodesRight v := by
  refine ⟨p.decoded v, getDiagnose_eq hp v, fun d hd => ?_⟩
  obtain ⟨plan, hplan⟩ := exists_describes hp hm hv
  obtain ⟨hmem, -⟩ := (hplan.path d hd _).mpr rfl
  have hall : ∀ q ∈ p.G.P, q ∈ p.paths d := by
    intro q hq
    obtain ⟨d', hd', hq'⟩ := hp.candidate q hq
    rwa [paths, hsame d hd d' hd']
  have hfilter : (p.G.P.filter fun q => v (p.xIndex d q) > valueTolerance) = [plan.route d] := by
    apply List.perm_singleton.mp
    rw [List.perm_ext_iff_of_nodup (hp.network.nodup_P.filter _) (List.nodup_singleton _)]
    intro q
    rw [List.mem_filter, List.mem_singleton, ← hplan.path d hd q, decide_eq_true_eq]
    constructor
    · rintro ⟨hq, hnonzero⟩
      exact ⟨hall q hq, (hv.one_iff hp hd hq).mpr hnonzero⟩
    · rintro ⟨hq, hone⟩
      exact ⟨(mem_paths.mp hq).1, (hv.one_iff hp hd (mem_paths.mp hq).1).mp hone⟩
  refine ⟨p.assignment v d (plan.route d), ?_, (mem_paths.mp hmem).2⟩
  rw [decoded_filter hp hd, hfilter]
  rfl

/-! ## A second path -/

/-- The variable of a demand and a path between other hosts is not among those the rows and
the objective speak of. -/
theorem not_isOwn (hp : p.WellFormed) (hd : d ∈ p.D) (hq : q ∈ p.G.P) (hother : q ∉ p.paths d) :
    ¬p.IsOwn (p.xIndex d q) := by
  rintro (⟨d', hd', q', hq', heq⟩ | hle)
  · obtain ⟨rfl, rfl⟩ := hp.xIndex_inj hd hd' hq (mem_paths.mp hq').1 heq
    exact hother hq'
  · have hlt := hp.xIndex_lt hd hq
    omega

theorem candidates_own {use : Path → Bool} {c : ℚ} (hd : d ∈ p.D) :
    ∀ w ∈ (p.paths d).filterMap fun q => if use q then some (p.xIndex d q, c) else none,
      p.IsOwn w.1 := by
  intro w hw
  obtain ⟨q, hq, hsome⟩ := List.mem_filterMap.mp hw
  split_ifs at hsome
  obtain rfl := Option.some.inj hsome
  exact .inl ⟨d, hd, q, hq, rfl⟩

theorem gIndex_own (e : Edge) (s : ℕ) : p.IsOwn (p.gIndex e s) :=
  .inr (by rw [gIndex_eq]; omega)

/-- Only the rows of the assignments speak of other variables. -/
theorem rows_own (hm : p.addConstraints = some m)
    (hpaths : ∀ d ∈ p.D, p.paths d ≠ []) {r : Row} (hr : r ∈ m.rows) :
    r ∈ p.assignmentConstraint ∨ ∀ w ∈ r.entries, p.IsOwn w.1 := by
  obtain ⟨latency, hlatency, -, -, hrows⟩ := addConstraints_eq_some hm
  obtain ⟨hgood, hcov⟩ := good_of_latencyConstraint hlatency
  rcases (hrows r).mp hr with hr | hr | hr | hr | hr | hr
  · obtain ⟨d, hd, rfl⟩ := List.mem_map.mp hr
    right
    intro w hw
    obtain ⟨q, hq, rfl⟩ := List.mem_map.mp hw
    exact .inl ⟨d, hd, q, hq, rfl⟩
  · obtain ⟨e, he, hrow⟩ := List.mem_filterMap.mp hr
    dsimp only at hrow
    split_ifs at hrow
    obtain rfl := Option.some.inj hrow
    right
    intro w hw
    obtain ⟨d, hd, hw⟩ := List.mem_flatMap.mp hw
    exact candidates_own hd w hw
  · obtain ⟨e, he, rfl⟩ := List.mem_map.mp hr
    right
    intro w hw
    obtain ⟨s, hs, rfl⟩ := List.mem_map.mp hw
    exact gIndex_own e s
  · right
    -- the rows of a product, and that of a demand
    rcases (hgood.rows r).mp hr with ⟨⟨k, z⟩, hmem, hr⟩ | hr
    · obtain ⟨d, hd, q, hq, e, he, rfl⟩ := hgood.keys k (List.mem_map.mpr ⟨_, hmem, rfl⟩)
      have hz : p.IsOwn z := .inr (by have := (hgood.allocated.bounds hmem).1; omega)
      have hx : p.IsOwn (p.xIndex d q) := .inl ⟨d, hd, q, hq, rfl⟩
      have hg : p.IsOwn (p.gIndex e d.serviceType) := gIndex_own e d.serviceType
      intro w hw
      simp only [linearization, xgTuple, List.mem_cons, List.not_mem_nil, or_false] at hr
      rcases hr with rfl | rfl | rfl <;>
        simp only [List.mem_cons, List.not_mem_nil, or_false] at hw
      · rcases hw with rfl | rfl <;> assumption
      · rcases hw with rfl | rfl <;> assumption
      · rcases hw with rfl | rfl | rfl <;> assumption
    · obtain ⟨d, hd, q, hq, rfl⟩ := (mem_demandRows hpaths fun _ hd => hd).mp hr
      have hq := List.mem_of_getLast? hq
      exact hgood.entries_own hd hq (hcov d hd q hq)
  · obtain ⟨e, he, hr⟩ := List.mem_flatMap.mp hr
    obtain ⟨s, hs, rfl⟩ := List.mem_map.mp hr
    right
    intro w hw
    rcases List.mem_append.mp hw with hw | hw
    · obtain ⟨d, hd, hw⟩ := List.mem_flatMap.mp hw
      have hd := (List.mem_filter.mp hd).1
      exact @candidates_own p d (fun q => e.link ∈ q.edges) _ hd w (by simpa using hw)
    · rw [List.mem_singleton.mp hw]
      exact gIndex_own e s
  · exact .inl hr

/-- Setting such a variable keeps a valuation feasible. -/
theorem Feasible.update (hv : p.Feasible m v) (hp : p.WellFormed) (hm : p.addConstraints = some m)
    (hi : ¬p.IsOwn i) : p.Feasible m (Function.update v i 1) := by
  have hne : ∀ j, p.IsOwn j → Function.update v i 1 j = v j := by
    intro j hj
    apply Function.update_of_ne
    rintro rfl
    exact hi hj
  obtain ⟨plan, hplan⟩ := exists_describes hp hm hv
  have hpaths : ∀ d ∈ p.D, p.paths d ≠ [] := by
    intro d hd
    exact List.ne_nil_of_mem ((hv.fits hp hm hplan).route d hd)
  constructor
  · intro j hj
    by_cases hji : j = i
    · rw [hji, Function.update_self]
      exact .inr rfl
    · rw [Function.update_of_ne hji]
      exact hv.binary j hj
  · intro j hj hle
    rw [hne j (.inr hle)]
    exact hv.bounds j hj hle
  · intro r hr
    rcases rows_own hm hpaths hr with hassign | hown
    · obtain ⟨⟨dIndex, pIndex⟩, ha, rfl⟩ := List.mem_map.mp hassign
      have hrow := hv.rows _ hr
      simp only [Row.Holds, linear_cons, linear_nil, one_mul, add_zero] at hrow ⊢
      by_cases hji : indexTranslator [(dIndex, 0), (pIndex, p.G.pathSize)] 0 = i
      · rw [hji, Function.update_self]
      · rw [Function.update_of_ne hji]
        exact hrow
    · exact (Row.holds_congr fun w hw => hne w.1 (hown w hw)).mpr (hv.rows r hr)

/-- And it costs nothing. -/
theorem Optimal.update (hv : p.Optimal m v) (hp : p.WellFormed) (hm : p.addConstraints = some m)
    (hi : ¬p.IsOwn i) : p.Optimal m (Function.update v i 1) := by
  have hcost : p.cost m (Function.update v i 1) = p.cost m v := by
    unfold cost
    congr 1
    apply List.map_congr_left
    intro j _
    by_cases hji : j = i
    · rw [hji, objective_eq_zero hp hm hi, zero_mul, zero_mul]
    · rw [Function.update_of_ne hji]
  exact ⟨hv.feasible.update hp hm hi, fun w hw => hcost.trans_le (hv.least w hw)⟩

/-- Two demands with different hosts: the first may get the path of the second beside its
own. -/
theorem Feasible.exists_second_path (hv : p.Feasible m v) (hp : p.WellFormed)
    (hm : p.addConstraints = some m) (hsame : ¬p.SameHosts) :
    ∃ i, ¬p.IsOwn i ∧ ¬p.DecodesRight (Function.update v i 1) := by
  obtain ⟨d, hd, d', hd', hne⟩ : ∃ d ∈ p.D, ∃ d' ∈ p.D, d.hosts ≠ d'.hosts := by
    simpa [SameHosts] using hsame
  obtain ⟨plan, hplan⟩ := exists_describes hp hm hv
  obtain ⟨hq, hone⟩ := (hplan.path d hd _).mpr rfl
  obtain ⟨hq', -⟩ := (hplan.path d' hd' _).mpr rfl
  have hother : plan.route d' ∉ p.paths d := by
    intro hmem
    obtain ⟨-, ht, hl⟩ := mem_paths.mp hmem
    obtain ⟨-, ht', hl'⟩ := mem_paths.mp hq'
    apply hne
    rw [Demand.hosts, Demand.hosts, Option.some.inj (ht.symm.trans ht'),
      Option.some.inj (hl.symm.trans hl')]
  have hown := not_isOwn hp hd (mem_paths.mp hq').1 hother
  refine ⟨p.xIndex d (plan.route d'), hown, ?_⟩
  rintro ⟨assignments, hdecode, hdecodes⟩
  obtain rfl := Option.some.inj ((getDiagnose_eq hp _).symm.trans hdecode)
  obtain ⟨a, ha, -⟩ := hdecodes d hd
  rw [decoded_filter hp hd, List.map_eq_singleton_iff] at ha
  obtain ⟨q, hfilter, -⟩ := ha
  have hfirst : plan.route d = q := by
    rw [← List.mem_singleton, ← hfilter, List.mem_filter]
    refine ⟨(mem_paths.mp hq).1, ?_⟩
    rw [Function.update_of_ne, hone]
    · norm_num [valueTolerance]
    · intro heq
      exact hown (heq ▸ .inl ⟨d, hd, _, hq, rfl⟩)
  have hsecond : plan.route d' = q := by
    rw [← List.mem_singleton, ← hfilter, List.mem_filter]
    refine ⟨(mem_paths.mp hq').1, ?_⟩
    rw [Function.update_self]
    norm_num [valueTolerance]
  exact hother (hsecond.trans hfirst.symm ▸ hq)

/-- **Decoding.** Every solution decodes to exactly one path between the hosts of each demand
exactly when there is no solution or all demands have the same hosts, for the feasible
valuations and for the optimal ones alike. -/
theorem decodesRight_iff {t : Topology} {lib : Libraries t} {demands : List DemandTuple}
    {A : List (ℕ × ℕ)} (hb : (build lib demands A .zero).2 = some p)
    (hm : p.addConstraints = some m) :
    ((∀ v, p.Optimal m v → p.DecodesRight v) ↔ (∀ v, ¬p.Optimal m v) ∨ p.SameHosts) ∧
      ((∀ v, p.Feasible m v → p.DecodesRight v) ↔ (∀ v, ¬p.Feasible m v) ∨ p.SameHosts) := by
  have hp := wellFormed_of_build hb
  refine ⟨⟨?_, ?_⟩, ?_, ?_⟩
  · intro hall
    by_contra! hnot
    obtain ⟨⟨v, hv⟩, hsame⟩ := hnot
    obtain ⟨i, hi, hwrong⟩ := hv.feasible.exists_second_path hp hm hsame
    exact hwrong (hall _ (hv.update hp hm hi))
  · rintro (hnone | hsame) v hv
    · exact absurd hv (hnone v)
    · exact decodesRight_of_sameHosts hp hm hv.feasible hsame
  · intro hall
    by_contra! hnot
    obtain ⟨⟨v, hv⟩, hsame⟩ := hnot
    obtain ⟨i, hi, hwrong⟩ := hv.exists_second_path hp hm hsame
    exact hwrong (hall _ (hv.update hp hm hi))
  · rintro (hnone | hsame) v hv
    · exact absurd hv (hnone v)
    · exact decodesRight_of_sameHosts hp hm hv hsame

theorem decodesRight_iff_sample :
    ∃ p m, (build (.reference twoNodes) [sampleDemand] [] .zero).2 = some p ∧
      p.addConstraints = some m ∧
      ((∀ v, p.Optimal m v → p.DecodesRight v) ↔ (∀ v, ¬p.Optimal m v) ∨ p.SameHosts) ∧
      ((∀ v, p.Feasible m v → p.DecodesRight v) ↔ (∀ v, ¬p.Feasible m v) ∨ p.SameHosts) := by
  have hrun : ((build (.reference twoNodes) [sampleDemand] [] .zero).2.any fun p =>
      p.addConstraints.any fun _ => true) = true := by
    decide +kernel
  obtain ⟨p, m, hb, hm, -⟩ := exists_model hrun
  exact ⟨p, m, hb, hm, decodesRight_iff hb hm⟩

/-- A demand in each direction. -/
def oppositeDemands : List DemandTuple := [⟨0, 0, 1, 0, 10, 7⟩, ⟨1, 1, 0, 0, 10, 7⟩]

/-- Both demands take their paths, with open gates, and demand 0 the other path, too. -/
def oppositeValuation (i : ℕ) : ℚ := if i ∈ [0, 1, 3, 4, 12, 20, 21] then 1 else 0

/-- What there is to see of the model of the two demands. -/
def oppositeCheck (p : GD) (m : Model) : Bool :=
  p.Loadable m ∧ p.Feasible m oppositeValuation ∧ p.size m = 22 ∧
    (List.range 22).map m.objective =
      [3 / 2, 0, 0, 3 / 2] ++ List.replicate 16 0 ++ [-1 / 2, -1 / 2] ∧
    ⟨[(0, 1)], .eq, 1⟩ ∈ m.rows ∧ ⟨[(3, 1)], .eq, 1⟩ ∈ m.rows ∧
    ⟨[(20, 1), (0, -1)], .le, 0⟩ ∈ m.rows ∧ ⟨[(21, 1), (3, -1)], .le, 0⟩ ∈ m.rows ∧
    p.getDiagnose oppositeValuation =
      some [⟨0, 1, [0, 1], 0⟩, ⟨0, 1, [1, 0], 1⟩, ⟨1, 1, [1, 0], 1⟩] ∧
    ∃ d ∈ p.D, d.index = 0

/-- An optimal solution that gives demand 0 two paths, the second one backwards. -/
theorem oppositeValuation_not_decodesRight :
    ∃ p m, (build (.reference twoNodes) oppositeDemands [] .zero).2 = some p ∧
      p.addConstraints = some m ∧ p.Loadable m ∧ p.Optimal m oppositeValuation ∧
      ¬p.DecodesRight oppositeValuation := by
  have hrun : ((build (.reference twoNodes) oppositeDemands [] .zero).2.any fun p =>
      p.addConstraints.any (oppositeCheck p)) = true := by
    decide +kernel
  obtain ⟨p, m, hb, hm, hcheck⟩ := exists_model hrun
  obtain ⟨hload, hfeasible, hsize, hobjective, hrow, hrow', hprod, hprod', hdecode, d, hd, hzero⟩ :=
    of_decide_eq_true hcheck
  refine ⟨p, m, hb, hm, hload, ⟨hfeasible, fun w hw => ?_⟩, ?_⟩
  · have hcost : ∀ u : ℕ → ℚ, p.cost m u =
        3 / 2 * u 0 + 3 / 2 * u 3 - 1 / 2 * u 20 - 1 / 2 * u 21 := by
      intro u
      have hzip : (List.range 22).map (fun i => m.objective i * u i) =
          List.zipWith (· * ·) ((List.range 22).map m.objective) ((List.range 22).map u) := by
        rw [List.zipWith_map, List.zipWith_self]
      rw [cost, hsize, hzip, hobjective]
      simp [List.range_succ, List.replicate_succ]
      ring
    have h0 := hw.rows _ hrow
    have h3 := hw.rows _ hrow'
    have h20 := hw.rows _ hprod
    have h21 := hw.rows _ hprod'
    simp only [Row.Holds, linear_cons, linear_nil] at h0 h3 h20 h21
    have hv : p.cost m oppositeValuation = 2 := by
      rw [hcost]
      norm_num [oppositeValuation]
    rw [hv, hcost]
    linarith
  · rintro ⟨assignments, hsome, hone⟩
    obtain rfl := Option.some.inj (hdecode.symm.trans hsome)
    obtain ⟨a, ha, -⟩ := hone d hd
    rw [hzero] at ha
    simp at ha

end GD

end TsnReconfig.Opt
