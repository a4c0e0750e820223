import Mathlib.Algebra.Order.Ring.Int
import Mathlib.Data.List.Perm.Subperm
import Mathlib.Tactic.Linarith

/-!
# Routes in a graph

A segment of a route leads from its source to the source of the next one. Labels that grow by one
at most along every segment bound the length of a route from below, so that a route along which they
grow by one is a shortest one.
-/

namespace TsnReconfig.Lib

variable {V S : Type*} (source : S → V) (E : S → V → Prop)

/-- `E s v`: the segment leads from its source to `v`. -/
inductive Route : V → List S → V → Prop
  | nil (v : V) : Route v [] v
  | cons {s : S} {segs : List S} {v w : V} (hE : E s v) (h : Route v segs w) :
    Route (source s) (s :: segs) w

/-- No route between its ends has fewer segments. -/
def Shortest (u : V) (segs : List S) (w : V) : Prop :=
  Route source E u segs w ∧ ∀ segs', Route source E u segs' w → segs.length ≤ segs'.length

def Connected (u w : V) : Prop := ∃ segs, Route source E u segs w

variable {source E} {u v w : V} {s : S} {segs segs' : List S}

theorem Route.append (h : Route source E u segs v) (h' : Route source E v segs' w) :
    Route source E u (segs ++ segs') w := by
  induction h with
  | nil v => exact h'
  | cons hE _ ih => exact .cons hE (ih h')

theorem Route.single (hE : E s v) : Route source E (source s) [s] v := .cons hE (.nil v)

theorem Route.concat (h : Route source E u segs (source s)) (hE : E s v) :
    Route source E u (segs ++ [s]) v :=
  h.append (.single hE)

theorem Connected.trans (h : Connected source E u v) (h' : Connected source E v w) :
    Connected source E u w := by
  obtain ⟨segs, h⟩ := h
  obtain ⟨segs', h'⟩ := h'
  exact ⟨segs ++ segs', h.append h'⟩

theorem Connected.edge (hE : E s v) : Connected source E (source s) v := ⟨[s], .single hE⟩

/-- Where every edge can be gone back, so can every route. -/
theorem Connected.symm (hsymm : ∀ s v, E s v → ∃ s', source s' = v ∧ E s' (source s))
    (h : Connected source E u w) : Connected source E w u := by
  obtain ⟨segs, h⟩ := h
  induction h with
  | nil v => exact ⟨[], .nil v⟩
  | cons hE _ ih =>
    obtain ⟨s', hs', hE'⟩ := hsymm _ _ hE
    exact ih.trans (hs' ▸ Connected.edge hE')

theorem Shortest.eq_nil (h : Shortest source E u segs u) : segs = [] :=
  List.length_eq_zero_iff.mp (Nat.le_zero.mp (h.2 [] (.nil u)))

/-- What is closed under edges is closed under routes. -/
theorem Route.closed {P : V → Prop} (hP : ∀ s v, E s v → P (source s) → P v)
    (h : Route source E u segs w) (hu : P u) : P w := by
  induction h with
  | nil v => exact hu
  | cons hE _ ih => exact ih (hP _ _ hE hu)

/-- Labels that grow by one at most, as long as they are below a bound, grow by the length of a
route at most. -/
theorem Route.label_le (label : V → ℤ) (bound : ℤ) {P : V → Prop}
    (hE : ∀ s v, P (source s) → E s v → label (source s) < bound →
      P v ∧ label v ≤ label (source s) + 1)
    (h : Route source E u segs w) (hu : P u) (hbound : label u + segs.length ≤ bound) :
    label w ≤ label u + segs.length := by
  induction h with
  | nil v => simp
  | @cons s segs v w hedge _ ih =>
    rw [List.length_cons] at hbound ⊢
    push_cast at hbound ⊢
    obtain ⟨hv, hle⟩ := hE s v hu hedge (by omega)
    have hrest := ih hv (by omega)
    omega

theorem Route.mono {E' : S → V → Prop} (hE : ∀ s v, E s v → E' s v)
    (h : Route source E u segs w) : Route source E' u segs w := by
  induction h with
  | nil v => exact .nil v
  | cons hedge _ ih => exact .cons (hE _ _ hedge) ih

/-! ## Shortest routes -/

theorem Shortest.tail (h : Shortest source E (source s) (s :: segs) w) (hE : E s v)
    (hrest : Route source E v segs w) : Shortest source E v segs w := by
  refine ⟨hrest, fun segs' h' => ?_⟩
  have hle := h.2 (s :: segs') (.cons hE h')
  exact Nat.le_of_succ_le_succ hle

theorem Route.edge_of_mem (h : Route source E u segs w) (hs : s ∈ segs) : ∃ v, E s v := by
  induction h with
  | nil v => cases hs
  | @cons s' segs v w hE _ ih =>
    rcases List.mem_cons.mp hs with rfl | hs
    · exact ⟨v, hE⟩
    · exact ih hs

/-- A route goes on from each of its segments. -/
theorem Route.from_mem (h : Route source E u segs w) (hs : s ∈ segs) :
    ∃ segs', Route source E (source s) segs' w ∧ segs'.length ≤ segs.length := by
  induction h with
  | nil v => cases hs
  | @cons s' segs v w hE hrest ih =>
    rcases List.mem_cons.mp hs with rfl | hs
    · exact ⟨s :: segs, .cons hE hrest, le_rfl⟩
    · obtain ⟨segs', hroute, hle⟩ := ih hs
      exact ⟨segs', hroute, hle.trans (Nat.le_succ _)⟩

/-- A shortest route comes to no vertex twice. -/
theorem Shortest.nodup (h : Shortest source E u segs w) : (segs.map source).Nodup := by
  obtain ⟨hroute, hshort⟩ := h
  induction hroute with
  | nil v => exact List.nodup_nil
  | @cons s segs v w hE hrest ih =>
    have htail := Shortest.tail ⟨.cons hE hrest, hshort⟩ hE hrest
    refine List.nodup_cons.mpr ⟨fun hmem => ?_, ih htail.2⟩
    obtain ⟨s', hs', hsource⟩ := List.mem_map.mp hmem
    obtain ⟨segs', hroute', hle⟩ := hrest.from_mem hs'
    rw [hsource] at hroute'
    have hlt := hshort segs' hroute'
    rw [List.length_cons] at hlt
    omega

theorem Shortest.length_le {vs : List V} (h : Shortest source E u segs w)
    (hvs : ∀ s v, E s v → source s ∈ vs) : segs.length ≤ vs.length := by
  have hsources : ∀ v ∈ segs.map source, v ∈ vs := by
    intro v hv
    obtain ⟨s, hs, rfl⟩ := List.mem_map.mp hv
    obtain ⟨v, hE⟩ := h.1.edge_of_mem hs
    exact hvs s v hE
  rw [← List.length_map source]
  exact (h.nodup.subperm hsources).length_le

section
variable {label : V → ℤ} {P : V → Prop} {prev : V → S}

/-- Where every label but that of the start comes from the label of another vertex, the vertices
that these give form a route as long as the label. -/
theorem exists_route_of_labels (h0 : label u = 0) (hnonneg : ∀ v, P v → 0 ≤ label v)
    (hprev : ∀ v, P v → v ≠ u →
      E (prev v) v ∧ P (source (prev v)) ∧ label (source (prev v)) + 1 = label v) (hv : P v) :
    ∃ segs, Route source (fun s w => s = prev w ∧ E s w) u segs v ∧ (segs.length : ℤ) = label v := by
  obtain ⟨n, hn⟩ := Int.eq_ofNat_of_zero_le (hnonneg v hv)
  induction n generalizing v with
  | zero =>
    by_cases hvu : v = u
    · subst hvu
      exact ⟨[], .nil v, hn.symm⟩
    · obtain ⟨-, hP, hlabel⟩ := hprev v hv hvu
      have hle := hnonneg _ hP
      omega
  | succ n ih =>
    have hvu : v ≠ u := by
      rintro rfl
      omega
    obtain ⟨hE, hP, hlabel⟩ := hprev v hv hvu
    obtain ⟨segs, hroute, hlength⟩ := ih hP (by push_cast at hn; omega)
    refine ⟨segs ++ [prev v], hroute.concat ⟨rfl, hE⟩, ?_⟩
    rw [List.length_append, List.length_singleton]
    push_cast
    omega

/-- That route is a shortest one if the labels grow by one at most along every edge. -/
theorem exists_shortest_of_labels (label : V → ℤ) (bound : ℤ) (hu : P u) (h0 : label u = 0)
    (hnonneg : ∀ v, P v → 0 ≤ label v)
    (hprev : ∀ v, P v → v ≠ u →
      E (prev v) v ∧ P (source (prev v)) ∧ label (source (prev v)) + 1 = label v)
    (hE : ∀ s v, P (source s) → E s v → label (source s) < bound →
      P v ∧ label v ≤ label (source s) + 1) (hv : P v) (hbound : label v ≤ bound) :
    ∃ segs, Shortest source E u segs v ∧ Route source (fun s w => s = prev w) u segs v := by
  obtain ⟨segs, hroute, hlength⟩ := exists_route_of_labels h0 hnonneg hprev hv
  refine ⟨segs, ⟨hroute.mono fun _ _ => And.right, fun segs' h' => ?_⟩,
    hroute.mono fun _ _ => And.left⟩
  by_contra hlt
  have hle := h'.label_le label bound hE hu (by omega)
  omega

end

end TsnReconfig.Lib
