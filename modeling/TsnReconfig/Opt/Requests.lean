import TsnReconfig.Opt.OPCE2

/-!
# Histories of requests

As long as every call of the optimiser gets as far as its `refresh()`, the counters are zero
between the calls, the path list only grows at its end, and the assignments that are passed on
keep their meaning.
-/

namespace TsnReconfig.Opt
open Lib Controller

variable {t : Topology} (lib : Libraries t)

/-- The request gets the optimiser as far as its `refresh()`: its switches are nodes of the
topology, the solver can be constructed, and a request without any admitted demand has a
candidate path. -/
def Clean (s : OPCE2) (r : Request) (answer : SolverAnswer) : Prop :=
  r.srcTopoIndex ≠ r.dstTopoIndex →
    t.Knows (r.srcTopoIndex, r.dstTopoIndex) ∧ answer.available ∧
      (s.allDemands = [] → lib.pathsBetween (r.srcTopoIndex, r.dstTopoIndex) ≠ [])

instance (s : OPCE2) (r : Request) (answer : SolverAnswer) : Decidable (Clean lib s r answer) := by
  unfold Clean
  infer_instance

/-- The state between calls that all got that far. -/
structure Regular (s : OPCE2) : Prop where
  counters : s.counters = .zero
  known : ∀ d ∈ s.allDemands, t.Knows d.hosts
  first : ∀ d, s.allDemands.head? = some d → lib.pathsBetween d.hosts ≠ []
  assignments : ∀ a ∈ s.allAssignments, a.demandIndex < s.allDemands.length ∧
    (lib.candidates (s.allDemands.map DemandTuple.hosts))[a.pathIndex]? = some a.path

/-- Every demand still has its path. -/
def Kept (later earlier : List Assignment) : Prop :=
  ∀ a ∈ earlier, ∃ a' ∈ later, a'.demandIndex = a.demandIndex ∧ a'.path = a.path

theorem Kept.trans {later middle earlier : List Assignment} (h : Kept later middle)
    (h' : Kept middle earlier) : Kept later earlier := by
  intro a ha
  obtain ⟨a', ha', hindex, hpath⟩ := h' a ha
  obtain ⟨a'', ha'', hindex', hpath'⟩ := h a' ha'
  exact ⟨a'', ha'', hindex'.trans hindex, hpath'.trans hpath⟩

variable {lib} {s s' : OPCE2} {r : Request} {answer : SolverAnswer}

/-! ## One request -/

/-- The demands of a clean request in a regular state. -/
theorem Regular.demands (hs : Regular lib s) (hc : Clean lib s r answer)
    (hne : r.srcTopoIndex ≠ r.dstTopoIndex) :
    t.size ≠ 0 ∧ (∀ d ∈ s.allDemands ++ [s.demand r], t.Knows d.hosts) ∧
      ∀ d, (s.allDemands ++ [s.demand r]).head? = some d → lib.pathsBetween d.hosts ≠ [] := by
  obtain ⟨hknown, -, hpath⟩ := hc hne
  refine ⟨?_, ?_, ?_⟩
  · have hlt : r.srcTopoIndex < t.size := hknown.1
    omega
  · intro d hd
    rcases List.mem_append.mp hd with hd | hd
    · exact hs.known d hd
    · rw [List.mem_singleton.mp hd]
      exact hknown
  · intro d hd
    cases hdemands : s.allDemands with
    | nil =>
      obtain rfl : s.demand r = d := by simpa [hdemands] using hd
      exact hpath hdemands
    | cons d' ds =>
      apply hs.first d
      simpa [hdemands] using hd

/-- What a clean request does: it is rejected without a trace, or the assignments of a
feasible valuation are taken over. -/
theorem Regular.request_cases (hs : Regular lib s) (hc : Clean lib s r answer)
    (hne : r.srcTopoIndex ≠ r.dstTopoIndex) (hpossible : s.possible lib r answer = true) :
    s.requestPathforTalker lib r answer = (s, none) ∨
      ∃ p m x, (GD.build lib (s.allDemands ++ [s.demand r]) s.assignmentPairs .zero).2 = some p ∧
        p.addConstraints = some m ∧ p.Feasible m x ∧ p.decoded x ≠ [] ∧
        s.requestPathforTalker lib r answer =
          (⟨s.demandIndex + 1, s.allDemands ++ [s.demand r], p.decoded x, .zero⟩,
            some (s.demandIndex, p.decoded x)) := by
  obtain ⟨hsize, hknown, hfirst⟩ := hs.demands hc hne
  obtain ⟨p, hb⟩ : ∃ p, (GD.build lib (s.allDemands ++ [s.demand r]) s.assignmentPairs .zero).2 =
      some p := ⟨_, build_eq hsize hknown⟩
  obtain ⟨m, hm⟩ := Option.isSome_iff_exists.mp
    ((addConstraints_isSome hsize hknown hb).mpr hfirst)
  have hcounters : s = { s with counters := .zero } := by rw [← hs.counters]
  have hnone := (optimize_eq hb hm).1
  have hsolution := (optimize_eq hb hm).2
  rw [OPCE2.requestPathforTalker_of_ne hne, hs.counters]
  cases answer with
  | unavailable => simp [Clean, SolverAnswer.available, hne] at hc
  | noSolution =>
    left
    simp only [hnone, Option.getD_none, ne_eq, not_true_eq_false, if_false]
    rw [← hcounters]
  | solution x =>
    have hdecoded := GD.getDiagnose_eq (GD.wellFormed_of_build hb) x
    by_cases hempty : p.decoded x = []
    · left
      simp only [hsolution, hdecoded, hempty, Option.getD_some, ne_eq, not_true_eq_false, if_false]
      rw [← hcounters]
    · right
      have hfeasible : p.Feasible m x := by
        simp only [OPCE2.possible, hne, decide_false, Bool.false_or, SolverAnswer.possible,
          hs.counters, hb, hm, Option.any_some] at hpossible
        exact (of_decide_eq_true hpossible).2
      refine ⟨p, m, x, hb, hm, hfeasible, hempty, ?_⟩
      simp only [hsolution, hdecoded, Option.getD_some, ne_eq, hempty, not_false_eq_true, if_true]

/-- The assignments of a feasible valuation refer to the demands and paths of the call, and
contain those that were passed on. -/
theorem Regular.decoded (hs : Regular lib s) {p : GD} {m : GD.Model} {x : ℕ → ℚ}
    {d : DemandTuple} (hsize : t.size ≠ 0) (hknown : ∀ d' ∈ s.allDemands ++ [d], t.Knows d'.hosts)
    (hb : (GD.build lib (s.allDemands ++ [d]) s.assignmentPairs .zero).2 = some p)
    (hm : p.addConstraints = some m) (hx : p.Feasible m x) :
    Kept (p.decoded x) s.allAssignments ∧
      ∀ a ∈ p.decoded x, a.demandIndex < (s.allDemands ++ [d]).length ∧
        (lib.candidates ((s.allDemands ++ [d]).map DemandTuple.hosts))[a.pathIndex]? =
          some a.path := by
  have hp := GD.wellFormed_of_build hb
  have hbuild := Option.some.inj ((build_eq hsize hknown).symm.trans hb)
  have hD : p.D = mkDemands 0 (s.allDemands ++ [d]) := by rw [← hbuild]
  have hP : p.G.P = mkPaths 0 (lib.candidates ((s.allDemands ++ [d]).map DemandTuple.hosts)) := by
    rw [← hbuild]
  have hA : p.A = s.assignmentPairs := by rw [← hbuild]
  constructor
  · intro a ha
    obtain ⟨hlt, hpath⟩ := hs.assignments a ha
    -- the demand and the path the pair was made for are still where they were
    have hpath' : p.G.P[a.pathIndex]? = some ⟨a.path, a.pathIndex⟩ := by
      rw [hP, mkPaths, getElem?_numbered, List.map_append, List.map_singleton,
        Libraries.candidates_concat, List.getElem?_append_left (List.getElem?_eq_some_iff.mp hpath).1,
        hpath, Nat.zero_add]
      rfl
    obtain ⟨d', hd'⟩ : ∃ d', p.D[a.demandIndex]? = some d' := by
      rw [← Option.isSome_iff_exists, hD, mkDemands, getElem?_numbered, Option.isSome_map,
        List.getElem?_append_left hlt, List.getElem?_eq_getElem hlt]
      rfl
    have hindex : d'.index = a.demandIndex := hp.demandIndex _ d' hd'
    have hone : 1 ≤ x (p.xIndex d' ⟨a.path, a.pathIndex⟩) := by
      obtain ⟨latency, -, -, -, hrows⟩ := GD.addConstraints_eq_some hm
      have hpair : (a.demandIndex, a.pathIndex) ∈ p.A := by
        rw [hA]
        exact List.mem_map.mpr ⟨a, ha, rfl⟩
      have hrow := hx.rows _ ((hrows _).mpr (.inr (.inr (.inr (.inr (.inr
        (List.mem_map.mpr ⟨_, hpair, rfl⟩)))))))
      rw [GD.xIndex, hindex]
      simpa [Row.Holds] using hrow
    refine ⟨p.assignment x d' ⟨a.path, a.pathIndex⟩, GD.mem_decoded.mpr ?_, hindex, rfl⟩
    refine ⟨d', List.mem_of_getElem? hd', _, List.mem_of_getElem? hpath', ?_, rfl⟩
    exact lt_of_lt_of_le (by norm_num [GD.valueTolerance]) hone
  · intro a ha
    obtain ⟨d', hd', q, hq, -, rfl⟩ := GD.mem_decoded.mp ha
    constructor
    · have hlt := (hp.demand_index_lt hd').1
      rw [hD, mkDemands, length_numbered] at hlt
      exact hlt
    · have hget := (hp.path_index_lt hq).2
      rw [hP, mkPaths, getElem?_numbered] at hget
      obtain ⟨nodes, hnodes, hq'⟩ := Option.map_eq_some_iff.mp hget
      have hnode : nodes = q.path := congrArg Path.path hq'
      show _ = some q.path
      rw [← hnode]
      exact hnodes

/-- A clean request leaves a regular state, and what it returns keeps the paths of the
demands. -/
theorem Regular.request (hs : Regular lib s) (hc : Clean lib s r answer)
    (hpossible : s.possible lib r answer = true) :
    Regular lib (s.requestPathforTalker lib r answer).1 ∧
      (s.requestPathforTalker lib r answer).1.allAssignments =
        ((s.requestPathforTalker lib r answer).2.map Prod.snd).getD s.allAssignments ∧
      ∀ call, (s.requestPathforTalker lib r answer).2 = some call → Kept call.2 s.allAssignments := by
  by_cases hne : r.srcTopoIndex = r.dstTopoIndex
  · rw [OPCE2.requestPathforTalker_of_eq hne]
    exact ⟨⟨hs.counters, hs.known, hs.first, hs.assignments⟩, rfl, by simp⟩
  · obtain ⟨hsize, hknown, hfirst⟩ := hs.demands hc hne
    rcases hs.request_cases hc hne hpossible with heq | ⟨p, m, x, hb, hm, hx, -, heq⟩
    · rw [heq]
      exact ⟨hs, rfl, by simp⟩
    · obtain ⟨hkept, hassignments⟩ := hs.decoded hsize hknown hb hm hx
      rw [heq]
      refine ⟨⟨rfl, hknown, hfirst, hassignments⟩, rfl, ?_⟩
      rintro call hcall
      obtain rfl := Option.some.inj hcall
      exact hkept

/-! ## Histories -/

/-- What holds of the results so far. -/
structure Consistent (lib : Libraries t) (s : RequestState) : Prop where
  regular : Regular lib s.opce
  latest : s.results.head?.getD [] = s.opce.allAssignments
  kept : s.results.Pairwise Kept

/-- The condition of a run of clean requests. -/
def CleanStep (lib : Libraries t) (s : RequestState) (e : Request × SolverAnswer) : Prop :=
  Clean lib s.opce e.1 e.2

instance (lib : Libraries t) (s : RequestState) (e : Request × SolverAnswer) :
    Decidable (CleanStep lib s e) := by
  unfold CleanStep
  infer_instance

theorem Consistent.init {s : RequestState} (h : (requests lib).init s) : Consistent lib s := by
  obtain rfl := h
  exact ⟨⟨rfl, by simp [OPCE2.start], by simp [OPCE2.start], by simp [OPCE2.start]⟩, rfl, .nil⟩

theorem Consistent.step {s s' : RequestState} {e : Request × SolverAnswer}
    (h : Consistent lib s) (hc : CleanStep lib s e) (hs : (requests lib).step s e = some s') :
    Consistent lib s' := by
  unfold requests at hs
  dsimp only at hs
  split_ifs at hs with hpossible
  obtain rfl := Option.some.inj hs
  obtain ⟨hregular, hassignments, hkept⟩ := h.regular.request hc hpossible
  cases hcall : (s.opce.requestPathforTalker lib e.1 e.2).2 with
  | none =>
    rw [hcall] at hassignments
    exact ⟨hregular, h.latest.trans hassignments.symm, h.kept⟩
  | some call =>
    rw [hcall] at hassignments
    refine ⟨hregular, hassignments.symm, List.pairwise_cons.mpr ⟨fun result hresult => ?_, h.kept⟩⟩
    have hnew := hkept call hcall
    rw [← h.latest] at hnew
    cases hresults : s.results with
    | nil => simp [hresults] at hresult
    | cons latest results =>
      rw [hresults] at hnew hresult
      rcases List.mem_cons.mp hresult with rfl | hresult
      · exact hnew
      · have hpairwise := List.pairwise_cons.mp (hresults ▸ h.kept)
        exact hnew.trans (hpairwise.1 result hresult)

theorem consistent_of_reachableUnder {s : RequestState}
    (h : (requests lib).ReachableUnder (CleanStep lib) s) : Consistent lib s :=
  h.invariant (fun _ => .init) fun _ _ _ _ hP hok hs => hP.step hok hs

/-- **Admitted streams keep their paths**: in every run of clean requests every result
contains the assignments of all earlier ones. -/
theorem kept_of_reachableUnder {s : RequestState}
    (h : (requests lib).ReachableUnder (CleanStep lib) s) : s.results.Pairwise Kept :=
  (consistent_of_reachableUnder h).kept

/-- Two requests for the link between two nodes, both admitted. -/
def sampleRequests : List (Request × SolverAnswer) :=
  [(⟨0, 1, 0, 10⟩, .solution GD.sampleValuation),
    (⟨0, 1, 0, 10⟩, .solution fun i => if i ∈ [0, 1, 2, 10, 18, 19] then 1 else 0)]

theorem kept_of_reachableUnder_sample : ∃ s : RequestState,
    (requests (.reference GD.twoNodes)).ReachableUnder (CleanStep (.reference GD.twoNodes)) s ∧
      s.results = [[⟨0, 1, [0, 1], 0⟩, ⟨1, 1, [0, 1], 0⟩], [⟨0, 1, [0, 1], 0⟩]] ∧
      s.results.Pairwise Kept := by
  have hrun : (((requests (.reference GD.twoNodes)).runUnder (CleanStep (.reference GD.twoNodes))
      ⟨.start, []⟩ sampleRequests).any fun s => decide
        (s.results = [[⟨0, 1, [0, 1], 0⟩, ⟨1, 1, [0, 1], 0⟩], [⟨0, 1, [0, 1], 0⟩]])) = true := by
    decide +kernel
  obtain ⟨s, hs, hresults⟩ := (Option.any_eq_true _ _).mp hrun
  have hreachable := System.ReachableUnder.run (.init rfl) hs
  exact ⟨s, hreachable, of_decide_eq_true hresults, kept_of_reachableUnder hreachable⟩

/-- Three nodes, each linked to the others. -/
def triangle : Topology := ⟨3, [(0, 1), (1, 2), (0, 2)], by decide⟩

/-- A request for the way from 0 to 1 is admitted, one to an unknown node fails, and in the
next call, for the way from 1 to 0, the demands have the indices 2 and 3. -/
def shiftedRequests : List (Request × SolverAnswer) :=
  [(⟨0, 1, 0, 10⟩, .solution fun i => if i ∈ [0, 2, 10, 18, 26, 34, 42, 50] then 1 else 0),
    (⟨0, 3, 0, 10⟩, .noSolution),
    (⟨1, 0, 0, 10⟩, .solution fun i =>
      if i ∈ [0, 11, 16, 24, 32, 40, 48, 57, 58, 59] then 1 else 0)]

/-- Demand 0 is missing in the last result. -/
theorem shiftedRequests_not_kept : ∃ s : RequestState,
    (requests (.reference triangle)).Reachable s ∧
      s.results = [[⟨2, 1, [1, 0], 2⟩], [⟨0, 1, [0, 1], 0⟩]] ∧ ¬s.results.Pairwise Kept := by
  have hrun : (((requests (.reference triangle)).runFrom ⟨.start, []⟩ shiftedRequests).any fun s =>
      decide (s.results = [[⟨2, 1, [1, 0], 2⟩], [⟨0, 1, [0, 1], 0⟩]])) = true := by
    decide +kernel
  obtain ⟨s, hs, hresults⟩ := (Option.any_eq_true _ _).mp hrun
  have hresults := of_decide_eq_true hresults
  refine ⟨s, System.reachable_of_runFrom rfl hs, hresults, ?_⟩
  simp [hresults, Kept]

/-! ## Rejected requests -/

/-- The state `s'` is as good as `s`: the members of `OPCE2` are restored, the counters are zero
and the later requests are handled in the same way. -/
structure NoTrace (lib : Libraries t) (s s' : RequestState) : Prop where
  allDemands : s'.opce.allDemands = s.opce.allDemands
  allAssignments : s'.opce.allAssignments = s.opce.allAssignments
  demandIndex : s'.opce.demandIndex = s.opce.demandIndex
  counters : s'.opce.counters = .zero
  later : ∀ es, (requests lib).runFrom s' es = (requests lib).runFrom s es

/-- A request that is not clean leaves counters that are not zero. -/
theorem Regular.not_refreshed (hs : Regular lib s) (hne : r.srcTopoIndex ≠ r.dstTopoIndex)
    (hc : ¬Clean lib s r answer) : (s.requestPathforTalker lib r answer).1.counters ≠ .zero := by
  have hbuilt : ∀ p, (GD.build lib (s.allDemands ++ [s.demand r]) s.assignmentPairs .zero).2 =
      some p → answer.available = false ∨ p.addConstraints = none := by
    intro p hb
    by_contra! hnot
    obtain ⟨havailable, hsome⟩ := hnot
    have hsize : t.size ≠ 0 := by
      intro hzero
      exact hsome (addConstraints_of_size_eq_zero hzero (by simp) hb)
    have hknown := known_of_build hsize hb
    refine hc fun _ => ⟨hknown (s.demand r) (by simp), by simpa using havailable, fun hempty => ?_⟩
    exact (addConstraints_isSome hsize hknown hb).mp (Option.isSome_iff_ne_none.mpr hsome)
      (s.demand r) (by simp [hempty])
  have hdemand : (GD.build lib (s.allDemands ++ [s.demand r]) s.assignmentPairs .zero).1.demand ≠
      0 := by
    rw [build_demand, List.length_append, List.length_singleton]
    omega
  rw [OPCE2.requestPathforTalker_of_ne hne, hs.counters, optimize_of_not_refreshed hbuilt]
  intro hzero
  exact hdemand (congrArg Counters.demand hzero)

/-- **Rejected requests**: after clean requests, a request that is rejected leaves no trace
exactly when it is clean itself. -/
theorem noTrace_iff {s s' : RequestState} {e : Request × SolverAnswer}
    (h : (requests lib).ReachableUnder (CleanStep lib) s)
    (hs : (requests lib).step s e = some s') (hne : e.1.srcTopoIndex ≠ e.1.dstTopoIndex)
    (hrejected : (s.opce.requestPathforTalker lib e.1 e.2).2 = none) :
    NoTrace lib s s' ↔ CleanStep lib s e := by
  have hregular := (consistent_of_reachableUnder h).regular
  unfold requests at hs
  dsimp only at hs
  split_ifs at hs with hpossible
  obtain rfl := Option.some.inj hs
  constructor
  · intro htrace
    by_contra hc
    exact hregular.not_refreshed hne hc htrace.counters
  · intro hc
    rcases hregular.request_cases hc hne hpossible with heq | ⟨p, m, x, -, -, -, -, heq⟩
    · rw [heq]
      exact ⟨rfl, rfl, rfl, hregular.counters, fun _ => rfl⟩
    · rw [heq] at hrejected
      simp at hrejected

theorem noTrace_iff_sample : ∃ (s s' : RequestState) (e : Request × SolverAnswer),
    (requests (.reference GD.twoNodes)).ReachableUnder (CleanStep (.reference GD.twoNodes)) s ∧
      (requests (.reference GD.twoNodes)).step s e = some s' ∧
      e.1.srcTopoIndex ≠ e.1.dstTopoIndex ∧
      (s.opce.requestPathforTalker (.reference GD.twoNodes) e.1 e.2).2 = none ∧
      (NoTrace (.reference GD.twoNodes) s s' ↔ CleanStep (.reference GD.twoNodes) s e) := by
  have hreachable : (requests (.reference GD.twoNodes)).ReachableUnder
      (CleanStep (.reference GD.twoNodes)) ⟨.start, []⟩ := .init rfl
  have hstep : (requests (.reference GD.twoNodes)).step ⟨.start, []⟩
      (⟨0, 1, 0, 10⟩, .noSolution) = some _ := rfl
  have hrejected : (OPCE2.start.requestPathforTalker (.reference GD.twoNodes) ⟨0, 1, 0, 10⟩
      .noSolution).2 = none := by
    decide +kernel
  exact ⟨_, _, _, hreachable, hstep, by decide, hrejected,
    noTrace_iff hreachable hstep (by decide) hrejected⟩

/-- After a request to an unknown node the next demand gets the index 1. -/
theorem unknownNode_not_noTrace : ∃ s s' : RequestState,
    (requests (.reference GD.twoNodes)).Reachable s ∧
      (requests (.reference GD.twoNodes)).step s (⟨0, 2, 0, 10⟩, .noSolution) = some s' ∧
      (s.opce.requestPathforTalker (.reference GD.twoNodes) ⟨0, 2, 0, 10⟩ .noSolution).2 = none ∧
      s'.opce.counters.demand = 1 ∧ ¬NoTrace (.reference GD.twoNodes) s s' := by
  have hcounters : (OPCE2.start.requestPathforTalker (.reference GD.twoNodes) ⟨0, 2, 0, 10⟩
      .noSolution).1.counters.demand = 1 := by
    decide +kernel
  refine ⟨⟨.start, []⟩, _, .init rfl, rfl, by decide +kernel, hcounters, ?_⟩
  intro htrace
  have hzero := congrArg Counters.demand htrace.counters
  exact absurd (hcounters.symm.trans hzero) (by decide)

end TsnReconfig.Opt
