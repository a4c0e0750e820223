import TsnReconfig.Controller.ConfigurationEngine
import TsnReconfig.Lib.Linear
import TsnReconfig.Opt.Terms

/-!
# The mixed integer program

`GD.py`: the rows, bounds and objective that are loaded into the solver, and the reading of
its solution. Floating point numbers are rationals. A function returns `none` where Python
raises an exception.
-/

namespace TsnReconfig.Opt
open Lib Controller

/-- `index_translator`. -/
def indexTranslator : List (ℕ × ℕ) → (redundant : ℕ) → ℕ
  | [], index => index
  | (x, _) :: indices, index =>
    let x := if x ≠ 0 then (indices.map Prod.snd).foldl (· * ·) x else x
    indexTranslator indices (index + x)

@[simp] theorem indexTranslator_pair (a m b n redundant : ℕ) :
    indexTranslator [(a, m), (b, n)] redundant = redundant + a * n + b := by
  by_cases ha : a = 0 <;> simp [indexTranslator, ha]

/-- `SERVICE_TYPE`. -/
def serviceTypes : List ℕ := List.range 8

/-- The class `GD`, as its constructor leaves it. -/
structure GD where
  G : PhysicalNetwork
  D : List Demand
  A : List (ℕ × ℕ)
  deriving DecidableEq, Repr

namespace GD

section
variable (p : GD)

/-- The names `x_%d_%d`, as the numbers in them. -/
def xDp : List (ℕ × ℕ) :=
  (p.D ×ˢ p.G.P).map fun (demand, path) => (demand.index, path.index)

/-- The names `g_%d_%d`. -/
def gEs : List (ℕ × ℕ) :=
  (p.G.E ×ˢ serviceTypes).map fun (edge, service) => (edge.index, service)

def xDpSize : ℕ := p.xDp.length

def gEsSize : ℕ := p.gEs.length

/-- `self.paths_per_hosts[hosts]` for the hosts of a demand. -/
def paths (demand : Demand) : List Path := p.G.groupPaths demand.hosts

/-- The variable of a demand and a path. -/
def xIndex (demand : Demand) (path : Path) : ℕ :=
  indexTranslator [(demand.index, 0), (path.index, p.G.pathSize)] 0

/-- The variable of an edge and a service type. -/
def gIndex (edge : Edge) (service : ℕ) : ℕ :=
  indexTranslator [(edge.index, 0), (service, serviceTypes.length)] p.xDpSize

/-! ## The rows -/

def trafficDemandConstraint : List Row :=
  p.D.map fun demand => ⟨(p.paths demand).map fun path => (p.xIndex demand path, 1), .eq, 1⟩

/-- `link in path.edges or link_reverse in path.edges`. -/
def usesLink (edge : Edge) (path : Path) : Bool :=
  edge.link ∈ path.edges || edge.link.swap ∈ path.edges

def linkCapacityEntries (edge : Edge) : List (ℕ × ℚ) :=
  p.D.flatMap fun demand => (p.paths demand).filterMap fun path =>
    if usesLink edge path then some (p.xIndex demand path, demand.data) else none

def linkCapacityConstraint : List Row :=
  p.G.E.filterMap fun edge =>
    let entries := p.linkCapacityEntries edge
    if entries = [] then none else some ⟨entries, .le, edge.capacity⟩

def gateOpeningConstraint : List Row :=
  p.G.E.map fun edge => ⟨serviceTypes.map fun service => (p.gIndex edge service, 1), .eq, 1⟩

/-- The dictionary `z_transition`. -/
abbrev Transition := List ((ℕ × ℕ) × ℕ)

/-- The variables of `latency_constraint`; `entries` is what `var` and `mult` hold after the
last path, `none` before the first one. -/
structure LatencyState where
  zIndex : ℕ
  zTransition : Transition
  rows : List Row
  entries : Option (List (ℕ × ℚ))
  deriving DecidableEq, Repr

/-- The rows for the product `z` of `x` and `g`. -/
def linearization (z x g : ℕ) : List Row :=
  [⟨[(z, 1), (x, -1)], .le, 0⟩, ⟨[(z, 1), (g, -1)], .le, 0⟩, ⟨[(z, 1), (g, -1), (x, -1)], .ge, -1⟩]

/-- A variable for the pair, if it has none yet. -/
def LatencyState.addTransition (s : LatencyState) (x g : ℕ) : LatencyState :=
  if (s.zTransition.lookup (x, g)).isSome then s
  else
    { s with
      zIndex := s.zIndex + 1
      zTransition := ((x, g), s.zIndex) :: s.zTransition
      rows := s.rows ++ linearization s.zIndex x g }

/-- A round of the loop over `path.edges`, with the entries and `total_edge_delays`. -/
def latencyEdge (demand : Demand) (x : ℕ) (r : LatencyState × List (ℕ × ℚ) × ℚ)
    (edge : ℕ × ℕ) : Option (LatencyState × List (ℕ × ℚ) × ℚ) := do
  let (s, entries, totalEdgeDelays) := r
  let e ← p.G.getEdge edge
  let g := p.gIndex e demand.serviceType
  let s := s.addTransition x g
  let z ← s.zTransition.lookup (x, g)
  return (s, entries ++ [(z, -1 / 2)], totalEdgeDelays + (e.latency + 1 / 2))

/-- A round of the loop over the paths of a demand. -/
def latencyPath (demand : Demand) (s : LatencyState) (path : Path) : Option LatencyState := do
  let x := p.xIndex demand path
  let (s, entries, totalEdgeDelays) ← path.edges.foldlM (p.latencyEdge demand x) (s, [], 0)
  return { s with entries := some (entries ++ [(x, totalEdgeDelays)]) }

/-- A round of the loop over the demands: the row is added after the loop over the paths. -/
def latencyDemand (s : LatencyState) (demand : Demand) : Option LatencyState := do
  let s ← (p.paths demand).foldlM (p.latencyPath demand) s
  return { s with rows := s.rows ++ [⟨← s.entries, .le, demand.latency⟩] }

def latencyConstraint : Option LatencyState :=
  p.D.foldlM p.latencyDemand ⟨p.xDpSize + p.gEsSize, [], [], none⟩

def gateCongestionEntries (edge : Edge) (service : ℕ) : List (ℕ × ℚ) :=
  (p.D.filter fun demand => demand.serviceType = service).flatMap fun demand =>
    (p.paths demand).filterMap fun path =>
      if edge.link ∈ path.edges then some (p.xIndex demand path, -demand.data / linkCapacity)
      else none

def gateCongestionConstraint : List Row :=
  p.G.E.flatMap fun edge => serviceTypes.map fun service =>
    ⟨p.gateCongestionEntries edge service ++ [(p.gIndex edge service, 1)], .ge, 0⟩

def assignmentConstraint : List Row :=
  p.A.map fun (dIndex, pIndex) =>
    ⟨[(indexTranslator [(dIndex, 0), (pIndex, p.G.pathSize)] 0, 1)], .ge, 1⟩

/-! ## The objective -/

/-- A round of the loop over `path.edges` of `minimize_latency_objective`. -/
def objectiveEdge (zTransition : Transition) (demand : Demand) (x : ℕ)
    (r : List (ℕ × ℚ) × ℚ) (edge : ℕ × ℕ) : Option (List (ℕ × ℚ) × ℚ) := do
  let (writes, totalEdgeDelays) := r
  let e ← p.G.getEdge edge
  let z ← zTransition.lookup (x, p.gIndex e demand.serviceType)
  return (writes ++ [(z, -1 / 2)], totalEdgeDelays + (e.latency + 1 / 2))

/-- What `minimize_latency_objective` writes for a path, in order. -/
def objectivePath (zTransition : Transition) (demand : Demand) (path : Path) :
    Option (List (ℕ × ℚ)) := do
  let x := p.xIndex demand path
  let (writes, totalEdgeDelays) ← path.edges.foldlM (p.objectiveEdge zTransition demand x) ([], 0)
  return writes ++ [(x, totalEdgeDelays)]

def objectiveWrites (zTransition : Transition) : Option (List (ℕ × ℚ)) := do
  let writes ← (p.D.flatMap fun demand => (p.paths demand).map fun path => (demand, path)).mapM
    fun (demand, path) => p.objectivePath zTransition demand path
  return writes.flatten

/-- `minimize_latency_objective`: zeros, written over. -/
def minimizeLatencyObjective (zTransition : Transition) : Option (ℕ → ℚ) := do
  let size := p.xDpSize + p.gEsSize + zTransition.length
  let writes ← p.objectiveWrites zTransition
  if writes.all fun w => w.1 < size then
    return writes.foldl (fun objective w => Function.update objective w.1 w.2) fun _ => 0
  else none

end

/-- What is loaded into the solver. -/
structure Model where
  zSize : ℕ
  rows : List Row
  objective : ℕ → ℚ

/-- `add_constraints`. -/
def addConstraints (p : GD) : Option Model := do
  let latency ← p.latencyConstraint
  let rows := p.trafficDemandConstraint ++ p.linkCapacityConstraint ++ p.gateOpeningConstraint ++
    latency.rows ++ p.gateCongestionConstraint ++ p.assignmentConstraint
  return ⟨latency.zTransition.length, rows, ← p.minimizeLatencyObjective latency.zTransition⟩

/-- The number of the variables `load` adds. -/
def size (p : GD) (m : Model) : ℕ := p.xDpSize + p.gEsSize + m.zSize

/-- The solver takes the rows: their variables are there, none of them twice in a row. -/
def Loadable (p : GD) (m : Model) : Prop :=
  ∀ r ∈ m.rows, (∀ e ∈ r.entries, e.1 < p.size m) ∧ (r.entries.map Prod.fst).Nodup

/-- The upper bound of the continuous variables. -/
def uBound : ℚ := 10002 / 10000

/-- A valuation with the bounds and types of `load` that satisfies the rows. -/
structure Feasible (p : GD) (m : Model) (v : ℕ → ℚ) : Prop where
  binary : ∀ i < p.xDpSize, v i = 0 ∨ v i = 1
  bounds : ∀ i < p.size m, p.xDpSize ≤ i → 0 ≤ v i ∧ v i ≤ uBound
  rows : ∀ r ∈ m.rows, r.Holds v

/-- The value of the objective. -/
def cost (p : GD) (m : Model) (v : ℕ → ℚ) : ℚ :=
  ((List.range (p.size m)).map fun i => m.objective i * v i).sum

structure Optimal (p : GD) (m : Model) (v : ℕ → ℚ) : Prop where
  feasible : p.Feasible m v
  least : ∀ w, p.Feasible m w → p.cost m v ≤ p.cost m w

instance (p : GD) (m : Model) : Decidable (p.Loadable m) := by
  unfold Loadable
  infer_instance

instance (p : GD) (m : Model) (v : ℕ → ℚ) : Decidable (p.Feasible m v) :=
  decidable_of_iff
    ((∀ i < p.xDpSize, v i = 0 ∨ v i = 1) ∧
      (∀ i < p.size m, p.xDpSize ≤ i → 0 ≤ v i ∧ v i ≤ uBound) ∧ ∀ r ∈ m.rows, r.Holds v)
    ⟨fun ⟨hb, hu, hr⟩ => ⟨hb, hu, hr⟩, fun h => ⟨h.binary, h.bounds, h.rows⟩⟩

/-! ## The solution -/

/-- `VALUE_TOLERANCE`. -/
def valueTolerance : ℚ := 1 / 100000000

/-- `get_diagnose`: the assignments of the nonzero path variables. The gate configuration
beside them, which nobody reads, is left out, but not the look-up of its edges. -/
def getDiagnose (p : GD) (x : ℕ → ℚ) : Option (List Assignment) := do
  let gates := (p.gEs.zipIdx p.xDpSize).filter fun (_, i) => x i > valueTolerance
  let _ ← gates.mapM fun ((eIndex, _), _) => p.G.E[eIndex]?
  let chosen := p.xDp.zipIdx.filter fun (_, i) => x i > valueTolerance
  chosen.mapM fun ((dIndex, pIndex), i) => do
    let path ← p.G.P[pIndex]?
    return ⟨dIndex, x i, path.path, pIndex⟩

end GD

end TsnReconfig.Opt
