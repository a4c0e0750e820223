import TsnReconfig.Lib.System
import TsnReconfig.Opt.Decoding

/-!
# The request handler

`optimize` of `main.py`, and `OPCE2`, the controller application that calls it for every talker
request. The counters of the Python classes live as long as the interpreter.
-/

namespace TsnReconfig.Opt
open Lib Controller

/-- What the solver does in a call: its constructor raises, it ends without a solution (or
does not take the rows), or it returns a valuation. -/
inductive SolverAnswer
  | unavailable
  | noSolution
  | solution (x : ℕ → ℚ)

/-- The solver can be constructed. -/
def SolverAnswer.available : SolverAnswer → Bool
  | .unavailable => false
  | _ => true

section
variable {t : Topology} (lib : Libraries t)

/-- `optimize`, `none` when it raises an exception. `add_constraints` ends with `refresh()`. -/
def optimize (demands : List DemandTuple) (assigments : List (ℕ × ℕ)) (answer : SolverAnswer)
    (c : Counters) : Counters × Option (List Assignment) :=
  match GD.build lib demands assigments c with
  | (c, none) => (c, none)
  | (c, some p) =>
    match answer, p.addConstraints with
    | .unavailable, _ => (c, none)
    | _, none => (c, none)
    | .noSolution, some _ => (.zero, none)
    | .solution x, some _ => (.zero, p.getDiagnose x)

/-- The solver returns feasible valuations of the rows it takes. -/
def SolverAnswer.possible (answer : SolverAnswer) (demands : List DemandTuple)
    (assigments : List (ℕ × ℕ)) (c : Counters) : Bool :=
  match answer with
  | .solution x => (GD.build lib demands assigments c).2.any fun p =>
      p.addConstraints.any fun m => decide (p.Loadable m ∧ p.Feasible m x)
  | _ => true

/-- The members of `OPCE2` and the counters of the interpreter it runs. -/
structure OPCE2 where
  demandIndex : ℕ
  allDemands : List DemandTuple
  allAssignments : List Assignment
  counters : Counters
  deriving DecidableEq, Repr

/-- What a request comes down to: the topology indices of the two switches, the VLAN of the
advertisement and the rate. -/
structure Request where
  srcTopoIndex : ℕ
  dstTopoIndex : ℕ
  vlan : UInt16
  rate : ℚ
  deriving DecidableEq, Repr

namespace OPCE2

/-- `initialize`. -/
def start : OPCE2 := ⟨0, [], [], .zero⟩

/-- The demand a request adds. -/
def demand (s : OPCE2) (r : Request) : DemandTuple :=
  ⟨s.demandIndex, r.srcTopoIndex, r.dstTopoIndex, r.vlan.toNat, r.rate, 7⟩

/-- The pairs passed on for the assignments. -/
def assignmentPairs (s : OPCE2) : List (ℕ × ℕ) :=
  s.allAssignments.map fun a => (a.demandIndex, a.pathIndex)

/-- `requestPathforTalker`, with the demand id and the assignments it passes on to
`configureDataPlane`. An exception of `optimize` and an empty result are the same to it. -/
def requestPathforTalker (s : OPCE2) (r : Request) (answer : SolverAnswer) :
    OPCE2 × Option (ℕ × List Assignment) :=
  let id := s.demandIndex
  let demand := s.demand r
  let s := { s with demandIndex := s.demandIndex + 1 }
  if r.srcTopoIndex ≠ r.dstTopoIndex then
    let s := { s with allDemands := s.allDemands ++ [demand] }
    let (counters, result) := optimize lib s.allDemands s.assignmentPairs answer s.counters
    let s := { s with counters := counters }
    let returnedAssignments := result.getD []
    if returnedAssignments ≠ [] then
      ({ s with allAssignments := returnedAssignments }, some (id, returnedAssignments))
    else
      ({ s with allDemands := s.allDemands.dropLast, demandIndex := s.demandIndex - 1 }, none)
  else (s, none)

/-- The solver can give this answer to the request. -/
def possible (s : OPCE2) (r : Request) (answer : SolverAnswer) : Bool :=
  r.srcTopoIndex = r.dstTopoIndex ||
    answer.possible lib (s.allDemands ++ [s.demand r]) s.assignmentPairs s.counters

end OPCE2

/-- The handler with the non-empty results it has got, newest first. -/
structure RequestState where
  opce : OPCE2
  results : List (List Assignment)

/-- The runs of the handler: requests, each with an answer of the solver. -/
def requests : System RequestState (Request × SolverAnswer) where
  init s := s = ⟨.start, []⟩
  step s e :=
    if s.opce.possible lib e.1 e.2 then
      let (opce, call) := s.opce.requestPathforTalker lib e.1 e.2
      some ⟨opce, (call.map Prod.snd).toList ++ s.results⟩
    else none

end

/-! ## Calls that come to an end -/

variable {t : Topology} {lib : Libraries t} {s : OPCE2} {r : Request} {answer : SolverAnswer}
  {demands : List DemandTuple} {A : List (ℕ × ℕ)}

def DemandTuple.hosts (d : DemandTuple) : ℕ × ℕ := (d.talker, d.listener)

theorem map_hosts_mkDemands (start : ℕ) (demands : List DemandTuple) :
    (mkDemands start demands).map Demand.hosts = demands.map DemandTuple.hosts :=
  map_numbered fun _ _ => rfl

/-- The model of known hosts, built with fresh counters. -/
theorem build_eq (hsize : t.size ≠ 0) (h : ∀ d ∈ demands, t.Knows d.hosts) :
    (GD.build lib demands A .zero).2 = some
      ⟨⟨mkEdges 0 (lib.setOrder t.edges), mkPaths 0 (lib.candidates (demands.map DemandTuple.hosts)),
        mkDemands 0 demands⟩, mkDemands 0 demands, A⟩ := by
  have hknown : ∀ d ∈ mkDemands 0 demands, t.Knows d.hosts := by
    intro d hd
    obtain ⟨⟨tuple, i⟩, hmem, rfl⟩ := List.mem_map.mp hd
    exact h tuple (List.fst_mem_of_mem_zipIdx hmem)
  unfold GD.build
  simp only [PhysicalNetwork.new_eq hsize hknown, map_hosts_mkDemands, Counters.zero,
    Option.map_some]

theorem known_of_build {p : GD} {c : Counters} (hsize : t.size ≠ 0)
    (hb : (GD.build lib demands A c).2 = some p) : ∀ d ∈ demands, t.Knows d.hosts := by
  obtain ⟨G, hG, -⟩ := Option.map_eq_some_iff.mp hb
  intro d hd
  have hhosts : d.hosts ∈ (mkDemands c.demand demands).map Demand.hosts := by
    rw [map_hosts_mkDemands]
    exact List.mem_map.mpr ⟨d, hd, rfl⟩
  obtain ⟨d', hd', heq⟩ := List.mem_map.mp hhosts
  rw [← heq]
  exact PhysicalNetwork.known_of_new hsize (Prod.ext rfl hG) d' hd'

theorem addConstraints_eq_none {p : GD} {d : Demand} (hd : p.D.head? = some d)
    (hnone : p.paths d = []) : p.addConstraints = none := by
  unfold GD.addConstraints
  rw [GD.latencyConstraint_eq_none hd hnone]
  rfl

/-- Without any node there are no paths. -/
theorem addConstraints_of_size_eq_zero {p : GD} {c : Counters} (hsize : t.size = 0)
    (hne : demands ≠ []) (hb : (GD.build lib demands A c).2 = some p) :
    p.addConstraints = none := by
  obtain ⟨G, hG, rfl⟩ := Option.map_eq_some_iff.mp hb
  have hnew : (PhysicalNetwork.new lib (mkDemands c.demand demands)
      { c with demand := c.demand + (mkDemands c.demand demands).length }).2 =
        some ⟨[], [], mkDemands c.demand demands⟩ :=
    congrArg Prod.snd (PhysicalNetwork.new_of_size_eq_zero hsize)
  obtain rfl := Option.some.inj (hnew.symm.trans hG)
  obtain ⟨d, ds, rfl⟩ := List.exists_cons_of_ne_nil hne
  apply addConstraints_eq_none (d := ⟨d.talker, d.listener, d.serviceType, d.maxData, d.maxLatency,
    c.demand⟩)
  · rfl
  · rfl

theorem paths_ne_nil_iff {p : GD} (hsize : t.size ≠ 0) (h : ∀ d ∈ demands, t.Knows d.hosts)
    (hb : (GD.build lib demands A .zero).2 = some p) {d : Demand} (hd : d ∈ p.D) :
    p.paths d ≠ [] ↔ lib.pathsBetween d.hosts ≠ [] := by
  rw [build_eq hsize h] at hb
  obtain rfl := Option.some.inj hb
  constructor
  · intro hne
    obtain ⟨q, hq⟩ := List.exists_mem_of_ne_nil _ hne
    obtain ⟨hmem, htalker, hlistener⟩ := GD.mem_paths.mp hq
    obtain ⟨⟨nodes, i⟩, hnodes, rfl⟩ := List.mem_map.mp hmem
    obtain ⟨hosts, -, hp⟩ := Libraries.mem_candidates.mp (List.fst_mem_of_mem_zipIdx hnodes)
    have hends := Libraries.ends_of_mem_pathsBetween hp
    have hhosts : d.hosts = hosts :=
      Prod.ext (Option.some.inj (htalker.symm.trans hends.1))
        (Option.some.inj (hlistener.symm.trans hends.2))
    rw [hhosts]
    exact List.ne_nil_of_mem hp
  · intro hne
    obtain ⟨nodes, hnodes⟩ := List.exists_mem_of_ne_nil _ hne
    have hhosts : d.hosts ∈ demands.map DemandTuple.hosts := by
      rw [← map_hosts_mkDemands 0]
      exact List.mem_map.mpr ⟨d, hd, rfl⟩
    obtain ⟨i, hi⟩ := List.mem_iff_getElem?.mp
      (Libraries.mem_candidates.mpr ⟨d.hosts, hhosts, hnodes⟩)
    have hq : (⟨nodes, i⟩ : Path) ∈ mkPaths 0 (lib.candidates (demands.map DemandTuple.hosts)) := by
      apply List.mem_of_getElem? (i := i)
      rw [mkPaths, getElem?_numbered, hi, Nat.zero_add]
      rfl
    exact List.ne_nil_of_mem (GD.mem_paths.mpr ⟨hq, Libraries.ends_of_mem_pathsBetween hnodes⟩)

/-- The program for known hosts is set up if the first demand has a candidate path. -/
theorem addConstraints_isSome {p : GD} (hsize : t.size ≠ 0) (h : ∀ d ∈ demands, t.Knows d.hosts)
    (hb : (GD.build lib demands A .zero).2 = some p) :
    p.addConstraints.isSome ↔ ∀ d, demands.head? = some d → lib.pathsBetween d.hosts ≠ [] := by
  rw [GD.addConstraints_isSome_iff (GD.wellFormed_of_build hb)]
  have hD : p.D = mkDemands 0 demands := by
    rw [build_eq hsize h] at hb
    rw [← Option.some.inj hb]
  cases demands with
  | nil => simp [hD, mkDemands]
  | cons d demands =>
    have hhead : p.D.head? = some ⟨d.talker, d.listener, d.serviceType, d.maxData, d.maxLatency, 0⟩ := by
      rw [hD]
      rfl
    have hiff := paths_ne_nil_iff hsize h hb (List.mem_of_mem_head? hhead)
    simp only [hhead, Option.some.injEq, List.head?_cons, forall_eq']
    exact hiff

/-- A call that gets as far as `refresh()`. -/
theorem optimize_eq {p : GD} {m : GD.Model} {c : Counters}
    (hb : (GD.build lib demands A c).2 = some p) (hm : p.addConstraints = some m) :
    optimize lib demands A .noSolution c = (.zero, none) ∧
      ∀ x, optimize lib demands A (.solution x) c = (.zero, p.getDiagnose x) := by
  cases hbuild : GD.build lib demands A c with
  | mk c' built =>
    obtain rfl : built = some p := by rw [← hb, hbuild]
    constructor
    · simp only [optimize, hbuild, hm]
    · intro x
      simp only [optimize, hbuild, hm]

/-- The constructors of all demands have run before anything can fail. -/
theorem build_demand (demands : List DemandTuple) (A : List (ℕ × ℕ)) (c : Counters) :
    (GD.build lib demands A c).1.demand = c.demand + demands.length := by
  unfold GD.build PhysicalNetwork.new
  by_cases hsize : t.size = 0
  · simp [hsize, mkDemands]
  · simp only [if_neg hsize]
    cases generatePathsThreadless lib c.path (mkDemands c.demand demands) with
    | mk i P => cases P <;> simp [mkDemands]

/-- A call that does not get as far as `refresh()`. -/
theorem optimize_of_not_refreshed {c : Counters} (h : ∀ p, (GD.build lib demands A c).2 = some p →
    answer.available = false ∨ p.addConstraints = none) :
    optimize lib demands A answer c = ((GD.build lib demands A c).1, none) := by
  cases hbuild : GD.build lib demands A c with
  | mk c' built =>
    cases built with
    | none => simp only [optimize, hbuild]
    | some p =>
      rcases h p (by rw [hbuild]) with hanswer | hnone
      · cases answer with
        | unavailable => simp only [optimize, hbuild]
        | noSolution => simp [SolverAnswer.available] at hanswer
        | solution x => simp [SolverAnswer.available] at hanswer
      · cases answer <;> simp only [optimize, hbuild, hnone]

/-- A request between two switches, by what the optimiser does. -/
theorem OPCE2.requestPathforTalker_of_ne (hne : r.srcTopoIndex ≠ r.dstTopoIndex) :
    let o := optimize lib (s.allDemands ++ [s.demand r]) s.assignmentPairs answer s.counters
    s.requestPathforTalker lib r answer =
      if o.2.getD [] ≠ [] then
        (⟨s.demandIndex + 1, s.allDemands ++ [s.demand r], o.2.getD [], o.1⟩,
          some (s.demandIndex, o.2.getD []))
      else (⟨s.demandIndex, s.allDemands, s.allAssignments, o.1⟩, none) := by
  simp only [OPCE2.requestPathforTalker, if_pos hne, List.dropLast_concat, Nat.add_sub_cancel]
  rfl

/-- A request between hosts on one switch. -/
theorem OPCE2.requestPathforTalker_of_eq (heq : r.srcTopoIndex = r.dstTopoIndex) :
    s.requestPathforTalker lib r answer = ({ s with demandIndex := s.demandIndex + 1 }, none) := by
  simp only [OPCE2.requestPathforTalker, heq, ne_eq, not_true_eq_false, if_false]

end TsnReconfig.Opt
