import TsnReconfig.Opt.Objective

/-!
# The linearisation

A product of a path variable and a gate variable is a variable of its own, which
`latency_constraint` pins with three rows. It is the product for every program, also where the
numbers of its paths or edges do not fit the layout of the variables.
-/

namespace TsnReconfig.Opt
open Lib

namespace GD

/-- A valuation with the bounds and types of `load` that satisfies the rows of
`latency_constraint`. -/
structure LatencyFeasible (p : GD) (s : LatencyState) (v : ℕ → ℚ) : Prop where
  binary : ∀ i < p.xDpSize, v i = 0 ∨ v i = 1
  bounds : ∀ i < p.xDpSize + p.gEsSize + s.zTransition.length, p.xDpSize ≤ i →
    0 ≤ v i ∧ v i ≤ uBound
  rows : ∀ r ∈ s.rows, r.Holds v

instance (p : GD) (s : LatencyState) (v : ℕ → ℚ) : Decidable (p.LatencyFeasible s v) :=
  decidable_of_iff
    ((∀ i < p.xDpSize, v i = 0 ∨ v i = 1) ∧
      (∀ i < p.xDpSize + p.gEsSize + s.zTransition.length, p.xDpSize ≤ i →
        0 ≤ v i ∧ v i ≤ uBound) ∧ ∀ r ∈ s.rows, r.Holds v)
    ⟨fun ⟨hb, hu, hr⟩ => ⟨hb, hu, hr⟩, fun h => ⟨h.binary, h.bounds, h.rows⟩⟩

/-- One variable for every pair that occurs, which all rows and the objective use, and which is the
product in the valuation. -/
structure Linearizes (p : GD) (s : LatencyState) (v : ℕ → ℚ) : Prop where
  one : ∀ d ∈ p.D, ∀ q ∈ p.paths d, ∀ l ∈ q.edges, ∃ e, p.G.getEdge l = some e ∧
    ∃! z, (p.xgTuple d q e, z) ∈ s.zTransition
  occurs : ∀ kz ∈ s.zTransition, p.IsPair kz.1
  apart : ∀ k k' z, (k, z) ∈ s.zTransition → (k', z) ∈ s.zTransition → k = k'
  rows : ∀ r, r ∈ s.rows ↔
    (∃ kz ∈ s.zTransition, r ∈ linearization kz.2 kz.1.1 kz.1.2) ∨
      r ∈ p.demandRows s.zTransition none p.D
  objective : p.objectiveWrites s.zTransition =
    some (p.ownPairs.flatMap fun dq => p.latencyEntries s.zTransition dq.1 dq.2)
  zero : ∀ k z, (k, z) ∈ s.zTransition → v k.1 = 0 → v z = 0
  gate : ∀ k z, (k, z) ∈ s.zTransition → v k.1 = 1 → v z = v k.2
  contiguous : s.zTransition.reverse.map Prod.snd =
    List.range' (p.xDpSize + p.gEsSize) s.zTransition.length
  counted : ∀ m, p.addConstraints = some m → m.zSize = s.zTransition.length

variable {p : GD} {m : Model} {v : ℕ → ℚ} {s : LatencyState} {done : List Row}

theorem linearization_iff {z x g : ℕ} : (∀ r ∈ linearization z x g, r.Holds v) ↔
    v z ≤ v x ∧ v z ≤ v g ∧ v x + v g - 1 ≤ v z := by
  simp only [linearization, List.forall_mem_cons, List.not_mem_nil, false_imp_iff, implies_true,
    and_true, Row.Holds, linear_cons, linear_nil]
  constructor
  · rintro ⟨hx, hg, hxg⟩
    refine ⟨?_, ?_, ?_⟩ <;> linarith
  · rintro ⟨hx, hg, hxg⟩
    refine ⟨?_, ?_, ?_⟩ <;> linarith

theorem Good.rows_iff (hs : p.Good s done) : (∀ r ∈ s.rows, r.Holds v) ↔
    (∀ k z, (k, z) ∈ s.zTransition → v z ≤ v k.1 ∧ v z ≤ v k.2 ∧ v k.1 + v k.2 - 1 ≤ v z) ∧
      ∀ r ∈ done, r.Holds v := by
  constructor
  · intro h
    constructor
    · intro k z hmem
      exact linearization_iff.mp fun r hr => h r ((hs.rows r).mpr (.inl ⟨(k, z), hmem, hr⟩))
    · exact fun r hr => h r ((hs.rows r).mpr (.inr hr))
  · rintro ⟨hlin, hdone⟩ r hr
    rcases (hs.rows r).mp hr with ⟨⟨k, z⟩, hmem, hr⟩ | hr
    · exact linearization_iff.mpr (hlin k z hmem) r hr
    · exact hdone r hr

/-- What the rows and bounds say about a product. -/
theorem LatencyFeasible.products (hv : p.LatencyFeasible s v) (hs : p.latencyConstraint = some s)
    {k : ℕ × ℕ} {z : ℕ} (hmem : (k, z) ∈ s.zTransition) :
    v z ≤ v k.1 ∧ v z ≤ v k.2 ∧ v k.1 + v k.2 - 1 ≤ v z ∧ 0 ≤ v z := by
  have hgood := (good_of_latencyConstraint hs).1
  obtain ⟨hx, hg, hxg⟩ := (hgood.rows_iff.mp hv.rows).1 k z hmem
  obtain ⟨hle, hlt⟩ := hgood.allocated.bounds hmem
  exact ⟨hx, hg, hxg, (hv.bounds z hlt (by omega)).1⟩

theorem exists_unique_of_covers {d : Demand} {q : Path} {e : Edge} {T : Transition} {start : ℕ}
    (hT : Allocated start T) (hc : p.Covers T d q) (he : e ∈ p.pathEdges q) :
    ∃! z, (p.xgTuple d q e, z) ∈ T := by
  refine ⟨_, hc.mem he, fun z hz => ?_⟩
  have hlookup := (lookup_eq_some_iff_mem hT.nodup_keys).mpr (hc.mem he)
  exact Option.some.inj (((lookup_eq_some_iff_mem hT.nodup_keys).mpr hz).symm.trans hlookup)

/-- **The linearisation is exact**: in every valuation that satisfies the rows and bounds, the
variable of a pair is zero with its path variable, and the gate variable if that is one. -/
theorem linearizes_of_latencyFeasible (hs : p.latencyConstraint = some s)
    (hv : p.LatencyFeasible s v) : p.Linearizes s v := by
  obtain ⟨hgood, hcov⟩ := good_of_latencyConstraint hs
  have hlinked := linked_of_latencyConstraint hs
  refine
    { one := fun d hd q hq l hl => ?_
      occurs := fun kz hkz => hgood.keys _ (List.mem_map_of_mem hkz)
      apart := fun k k' z hk hk' => hgood.allocated.inj hk hk'
      rows := hgood.rows
      objective := objectiveWrites_eq hlinked hcov
      zero := fun k z hmem hzero => ?_
      gate := fun k z hmem hone => ?_
      contiguous := hgood.allocated.numbers
      counted := fun m hm => ?_ }
  · obtain ⟨e, he⟩ := Option.isSome_iff_exists.mp (hlinked d hd q hq l hl)
    exact ⟨e, he, exists_unique_of_covers hgood.allocated (hcov d hd q hq)
      (List.mem_filterMap.mpr ⟨l, hl, he⟩)⟩
  · obtain ⟨hx, -, -, hnonneg⟩ := hv.products hs hmem
    exact le_antisymm (hzero ▸ hx) hnonneg
  · obtain ⟨-, hg, hxg, -⟩ := hv.products hs hmem
    rw [hone] at hxg
    linarith
  · obtain ⟨latency, hlatency, hsize, -⟩ := addConstraints_eq_some hm
    obtain rfl := Option.some.inj (hlatency.symm.trans hs)
    exact hsize

/-- Two nodes and a demand for the link between them. -/
def linkedNodes : GD :=
  ⟨⟨[⟨0, 1, 100, 1, 0⟩, ⟨1, 0, 100, 1, 1⟩], [⟨[0, 1], 0⟩], [⟨0, 1, 0, 10, 7, 0⟩]⟩,
    [⟨0, 1, 0, 10, 7, 0⟩], []⟩

/-- The path, with a third of the gate on its edge. -/
def thirdOfGate (i : ℕ) : ℚ := if i = 0 then 1 else if i ∈ [1, 17] then 1 / 3 else 0

theorem linearizes_of_latencyFeasible_third : ∃ s, linkedNodes.latencyConstraint = some s ∧
    linkedNodes.Linearizes s thirdOfGate := by
  have hrun : (linkedNodes.latencyConstraint.any fun s =>
      decide (linkedNodes.LatencyFeasible s thirdOfGate)) = true := by
    decide +kernel
  obtain ⟨s, hs, hv⟩ := (Option.any_eq_true _ _).mp hrun
  exact ⟨s, hs, linearizes_of_latencyFeasible hs (of_decide_eq_true hv)⟩

end GD

end TsnReconfig.Opt
