import TsnReconfig.Lib.RootedTree

/-!
# Tree networks

Switches and stations with their ports, each named by the node at the other end of its link.
-/

namespace TsnReconfig.Lib

structure Wiring (V : Type*) where
  ports : V → List V
  isSwitch : V → Bool

namespace Wiring
variable (w : Wiring V)

def graph : SimpleGraph V := SimpleGraph.fromRel fun u v => v ∈ w.ports u

/-- The links are a tree, and a station has one of them. -/
structure TreeNetwork : Prop where
  symm : ∀ u v, v ∈ w.ports u → u ∈ w.ports v
  irrefl : ∀ v, v ∉ w.ports v
  nodup : ∀ v, (w.ports v).Nodup
  station : ∀ v, w.isSwitch v = false → ∃ u, w.ports v = [u]
  isTree : w.graph.IsTree

variable {w}

theorem TreeNetwork.mem_ports (h : w.TreeNetwork) {u v : V} :
    v ∈ w.ports u ↔ w.graph.Adj u v := by
  rw [graph, SimpleGraph.fromRel_adj]
  constructor
  · intro hv
    refine ⟨?_, .inl hv⟩
    rintro rfl
    exact h.irrefl u hv
  · rintro ⟨-, hv | hu⟩
    · exact hv
    · exact h.symm v u hu

/-- The link of a station is on the way to every other one. -/
theorem TreeNetwork.closer_of_station (h : w.TreeNetwork) {u v d : V}
    (hv : w.isSwitch v = false) (hd : d ≠ v) (hadj : w.graph.Adj u v) :
    Closer w.graph d u v := by
  obtain ⟨u', hu'⟩ := exists_closer h.isTree hd.symm
  obtain ⟨x, hx⟩ := h.station v hv
  have hmem := h.mem_ports.mpr hu'.adj.symm
  have hmem' := h.mem_ports.mpr hadj.symm
  rw [hx, List.mem_singleton] at hmem hmem'
  rw [hmem', ← hmem]
  exact hu'

/-- A node has one port for each of its links. -/
theorem TreeNetwork.port_unique (h : w.TreeNetwork) {v x : V} {i j : ℕ}
    (hi : (w.ports v)[i]? = some x) (hj : (w.ports v)[j]? = some x) : i = j := by
  obtain ⟨hlt, -⟩ := List.getElem?_eq_some_iff.mp hi
  exact (List.getElem?_inj hlt (h.nodup v)).mp (hi.trans hj.symm)

end Wiring

end TsnReconfig.Lib
