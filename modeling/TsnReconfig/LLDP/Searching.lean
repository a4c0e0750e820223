import TsnReconfig.Lib.Routes
import TsnReconfig.LLDP.Edges
import TsnReconfig.LLDP.Forwarding

/-!
# What the two searches share

Distances are 32-bit integers, so that one more than the greatest is the least. A pass relaxes the
edges of a vertex: each gives its end a smaller distance, the segment, and an entry in the queue, or
nothing. Reading off goes along a route that the segments form.
-/

namespace TsnReconfig.LLDP
open Lib OpenFlow

/-! ## Routes of the graph -/

namespace LLDPMibGraph
variable (g : LLDPMibGraph)

/-- The segment names a vertex and the port of an edge from it to `v`. -/
def Edge (s : LLDPPathSegment) (v : String) : Prop :=
  ∃ m ∈ g.mibs s.chassisId, m.srcPort = s.outport ∧ m.dstID = v

abbrev Route : String → List LLDPPathSegment → String → Prop :=
  Lib.Route LLDPPathSegment.chassisId g.Edge

abbrev Shortest : String → List LLDPPathSegment → String → Prop :=
  Lib.Shortest LLDPPathSegment.chassisId g.Edge

abbrev Connected : String → String → Prop := Lib.Connected LLDPPathSegment.chassisId g.Edge

/-- There is a route of fewer segments than the distance `INT_MAX` of the others. -/
def Near (u v : String) : Prop := ∃ segs, g.Route u segs v ∧ segs.length < 2147483647

/-- The vertex is in the map. -/
def IsVertex (v : String) : Prop := (g.verticies.find v).isSome = true

variable {g} {s : LLDPPathSegment} {u v : String}

theorem Inv.edge_symm (h : g.Inv) (hE : g.Edge s v) :
    ∃ s', s'.chassisId = v ∧ g.Edge s' s.chassisId := by
  obtain ⟨m, hm, hport, rfl⟩ := hE
  obtain ⟨hedge, hsrc⟩ := h.mem_mibs.mp hm
  by_cases hids : m.srcID = m.dstID
  · -- an edge of a vertex with itself is its own way back
    exact ⟨s, hsrc.symm.trans hids, m, hm, hport, hids.symm.trans hsrc⟩
  · exact ⟨⟨m.dstID, m.dstPort⟩, rfl, m.reverse, h.mem_mibs.mpr ⟨h.mirrored m hedge hids, rfl⟩,
      rfl, hsrc⟩

theorem isVertex_of_edge (hE : g.Edge s v) : g.IsVertex s.chassisId := by
  obtain ⟨m, hm, -⟩ := hE
  unfold mibs at hm
  unfold IsVertex
  cases hfind : g.verticies.find s.chassisId with
  | none =>
    rw [hfind] at hm
    cases hm
  | some ms => rfl

theorem Inv.isVertex_of_edge (h : g.Inv) (hE : g.Edge s v) : g.IsVertex v := by
  obtain ⟨s', rfl, hE'⟩ := h.edge_symm hE
  exact LLDPMibGraph.isVertex_of_edge hE'

theorem Inv.connected_symm (h : g.Inv) (hconnected : g.Connected u v) : g.Connected v u :=
  hconnected.symm fun _ _ hE => h.edge_symm hE

theorem Inv.isVertex_of_connected (h : g.Inv) (hconnected : g.Connected u v) (hu : g.IsVertex u) :
    g.IsVertex v := by
  obtain ⟨segs, hroute⟩ := hconnected
  exact hroute.closed (fun _ _ hE _ => h.isVertex_of_edge hE) hu

theorem Near.connected (h : g.Near u v) : g.Connected u v := h.imp fun _ => And.left

theorem near_self : g.Near u u := ⟨[], .nil u, by decide⟩

theorem isVertex_iff_mem_keys : g.IsVertex v ↔ v ∈ g.verticies.entries.map Prod.fst := by
  unfold IsVertex
  rw [Option.isSome_iff_exists, List.mem_map]
  constructor
  · rintro ⟨ms, hms⟩
    exact ⟨(v, ms), Table.mem_entries.mpr hms, rfl⟩
  · rintro ⟨e, he, rfl⟩
    exact ⟨e.2, Table.mem_entries.mp he⟩

end LLDPMibGraph

/-! ## Distances -/

theorem toInt_le_max (x : Int32) : x.toInt ≤ 2147483647 := x.toInt_le

theorem min_le_toInt (x : Int32) : -2147483648 ≤ x.toInt := x.le_toInt

theorem toInt_add_one {x : Int32} (h : x.toInt < 2147483647) : (x + 1).toInt = x.toInt + 1 := by
  have hmin := min_le_toInt x
  rw [Int32.toInt_add, Int32.toInt_one, Int.bmod_eq_of_le (by omega) (by omega)]

/-- One more than the greatest number is the least. -/
theorem toInt_add_one_max {x : Int32} (h : x.toInt = 2147483647) :
    (x + 1).toInt = -2147483648 := by
  obtain rfl : x = Int32.maxValue := Int32.toInt_inj.mp h
  rfl

namespace Search

/-- The distance as a number. -/
def label (s : Search) (v : String) : ℤ := (s.dist v).toInt

variable {g : LLDPMibGraph} {s s' s'' : Search} {e : String × Int32} {tie : ℕ → ℕ}

@[simp] theorem dist_pop : (s.pop e).dist = s.dist := rfl

@[simp] theorem label_pop : (s.pop e).label = s.label := rfl

@[simp] theorem prev_pop : (s.pop e).prev = s.prev := rfl

@[simp] theorem q_pop : (s.pop e).q = s.q.erase e := rfl

theorem label_le_max (v : String) : s.label v ≤ 2147483647 := toInt_le_max _

theorem dist_eq_iff_label {v w : String} : s.dist v = s'.dist w ↔ s.label v = s'.label w :=
  Int32.toInt_inj.symm

theorem dist_start_self {src : String} : (start g src).dist src = 0 := if_neg fun h => h.1 rfl

theorem dist_start_of_ne {src v : String} (hne : v ≠ src) (hv : g.IsVertex v) :
    (start g src).dist v = Int32.maxValue :=
  if_pos ⟨hne, hv⟩

theorem label_start_self {src : String} : (start g src).label src = 0 :=
  congrArg Int32.toInt dist_start_self

theorem label_start_of_ne {src v : String} (hne : v ≠ src) (hv : g.IsVertex v) :
    (start g src).label v = 2147483647 :=
  congrArg Int32.toInt (dist_start_of_ne hne hv)

theorem mem_q_start {src : String} (hsrc : g.IsVertex src) :
    e ∈ (start g src).q ↔ g.IsVertex e.1 ∧ e.2 = (start g src).dist e.1 := by
  have hmem : e ∈ (start g src).q ↔ (∃ v, (g.IsVertex v ∧ v ≠ src) ∧ (v, Int32.maxValue) = e) ∨
      e = (src, 0) := by
    simp only [start, List.mem_append, List.mem_map, List.mem_filter, List.mem_singleton,
      decide_eq_true_eq, LLDPMibGraph.isVertex_iff_mem_keys]
  rw [hmem]
  constructor
  · rintro (⟨v, ⟨hv, hne⟩, rfl⟩ | rfl)
    · exact ⟨hv, (dist_start_of_ne hne hv).symm⟩
    · exact ⟨hsrc, dist_start_self.symm⟩
  · rintro ⟨hv, hdist⟩
    by_cases hne : e.1 = src
    · refine .inr (Prod.ext hne ?_)
      rw [hdist, hne]
      exact dist_start_self
    · rw [dist_start_of_ne hne hv] at hdist
      exact .inl ⟨e.1, ⟨hv, hne⟩, Prod.ext rfl hdist.symm⟩

/-- The entry on top is smallest. -/
theorem top_eq_some (h : s.top tie = some e) : e ∈ s.q ∧ ∀ e' ∈ s.q, e.2.toInt ≤ e'.2.toInt := by
  have hmem := List.mem_of_getElem? h
  obtain ⟨he, hall⟩ := List.mem_filter.mp hmem
  refine ⟨he, fun e' he' => Int32.le_iff_toInt_le.mp ?_⟩
  simpa using List.all_eq_true.mp hall e' he'

theorem exists_smallest {q : List (String × Int32)} (h : q ≠ []) :
    ∃ e ∈ q, ∀ e' ∈ q, e.2 ≤ e'.2 := by
  induction q with
  | nil => exact (h rfl).elim
  | cons a q ih =>
    by_cases hq : q = []
    · subst hq
      exact ⟨a, List.mem_cons_self, fun e' he' => by
        rw [List.mem_singleton.mp he']
        exact Int32.le_iff_toInt_le.mpr le_rfl⟩
    · obtain ⟨b, hb, hmin⟩ := ih hq
      by_cases hle : a.2 ≤ b.2
      · refine ⟨a, List.mem_cons_self, fun e' he' => ?_⟩
        rcases List.mem_cons.mp he' with rfl | he'
        · exact Int32.le_iff_toInt_le.mpr le_rfl
        · have hb' := Int32.le_iff_toInt_le.mp (hmin e' he')
          exact Int32.le_iff_toInt_le.mpr ((Int32.le_iff_toInt_le.mp hle).trans hb')
      · refine ⟨b, List.mem_cons_of_mem a hb, fun e' he' => ?_⟩
        rcases List.mem_cons.mp he' with rfl | he'
        · rw [Int32.le_iff_toInt_le] at hle ⊢
          omega
        · exact hmin e' he'

theorem top_eq_none (h : s.top tie = none) : s.q = [] := by
  by_contra hq
  obtain ⟨e, he, hmin⟩ := exists_smallest hq
  have hmem : e ∈ s.q.filter fun e => s.q.all fun e' => e.2 ≤ e'.2 :=
    List.mem_filter.mpr ⟨he, List.all_eq_true.mpr fun e' he' => by simpa using hmin e' he'⟩
  have hlength := List.length_pos_of_mem hmem
  have hlt := Nat.mod_lt (tie s.pops) hlength
  have hle := List.getElem?_eq_none_iff.mp h
  omega

/-! ## Passes -/

section
variable {A : String → Prop} {u v w : String} {seg : LLDPPathSegment} {alt : Int32}

theorem dist_reach : (s.reach w seg alt).dist v = if v = w then alt else s.dist v :=
  Function.update_apply ..

theorem prev_reach : (s.reach w seg alt).prev v = if v = w then seg else s.prev v :=
  Function.update_apply ..

theorem label_reach : (s.reach w seg alt).label v = if v = w then alt.toInt else s.label v := by
  rw [label, dist_reach]
  split_ifs
  · rfl
  · rfl

/-- A relaxation in a pass at `u`: nothing, or an edge of it gives its end, which the search
admits, a smaller distance. -/
def Improves (g : LLDPMibGraph) (A : String → Prop) (u : String) (s s' : Search) : Prop :=
  s' = s ∨ ∃ p v, g.Edge ⟨u, p⟩ v ∧ A v ∧ (s.dist u + 1).toInt < s.label v ∧
    s' = s.reach v ⟨u, p⟩ (s.dist u + 1)

/-- What the relaxations of a pass at `u` have done. -/
structure Pass (g : LLDPMibGraph) (A : String → Prop) (u : String) (s s' : Search) : Prop where
  label_le : ∀ v, s'.label v ≤ s.label v
  changed : ∀ v, (s'.dist v = s.dist v ∧ s'.prev v = s.prev v) ∨
    (A v ∧ s'.label v < s.label v ∧ (v, s'.dist v) ∈ s'.q ∧
      (∃ p, s'.prev v = ⟨u, p⟩ ∧ g.Edge ⟨u, p⟩ v) ∧
      (s.label u < 2147483647 → s'.label v = s.label u + 1))
  queue : ∀ e ∈ s.q, e ∈ s'.q
  entries : ∀ e ∈ s'.q, e ∈ s.q ∨ (∃ p, g.Edge ⟨u, p⟩ e.1) ∧ s'.label e.1 ≤ e.2.toInt
  progress : s'.q = s.q ∨ ∃ p v, g.Edge ⟨u, p⟩ v ∧ s'.label v < s.label v

theorem Pass.refl : Pass g A u s s where
  label_le _ := le_rfl
  changed _ := .inl ⟨rfl, rfl⟩
  queue _ he := he
  entries _ he := .inl he
  progress := .inl rfl

/-- The vertex of the pass keeps its distance, unless one more is the least number. -/
theorem Pass.dist_eq (h : Pass g A u s s') (hlt : s.label u < 2147483647) :
    s'.dist u = s.dist u := by
  rcases h.changed u with ⟨hdist, -⟩ | ⟨-, hless, -, -, heq⟩
  · exact hdist
  · have hlabel := heq hlt
    omega

/-- What a pass does to a vertex, if the distance of the vertex of the pass is known. -/
theorem Pass.changed_of_lt (h : Pass g A u s s') (hlt : s.label u < 2147483647) (v : String) :
    (s'.label v = s.label v ∧ s'.prev v = s.prev v) ∨
    (A v ∧ s'.label v < s.label v ∧ s'.label v = s.label u + 1 ∧
      ∃ p, s'.prev v = ⟨u, p⟩ ∧ g.Edge ⟨u, p⟩ v) := by
  rcases h.changed v with ⟨hdist, hprev⟩ | ⟨hA, hless, -, hprev, heq⟩
  · exact .inl ⟨dist_eq_iff_label.mp hdist, hprev⟩
  · exact .inr ⟨hA, hless, heq hlt, hprev⟩

/-- A vertex at distance zero is not reached again. -/
theorem Pass.eq_of_zero (h : Pass g A u s s') (hlt : s.label u < 2147483647)
    (hnonneg : 0 ≤ s.label u) (hv : s.label v = 0) :
    s'.label v = 0 ∧ s'.prev v = s.prev v := by
  rcases h.changed_of_lt hlt v with ⟨hlabel, hprev⟩ | ⟨-, hless, heq, -⟩
  · exact ⟨hlabel.trans hv, hprev⟩
  · omega

theorem Pass.improves (h : Pass g A u s s') (h' : Improves g A u s' s'') : Pass g A u s s'' := by
  rcases h' with rfl | ⟨p, w, hE, hA, hless, rfl⟩
  · exact h
  have hw := h.label_le w
  refine ⟨fun v => ?_, fun v => ?_, fun e he => ?_, fun e he => ?_, .inr ⟨p, w, hE, ?_⟩⟩
  · rw [label_reach]
    split_ifs with hv
    · subst hv
      omega
    · exact h.label_le v
  · rw [label_reach, dist_reach, prev_reach]
    split_ifs with hv
    · subst hv
      refine .inr ⟨hA, by omega, List.mem_append_right _ (List.mem_singleton_self _), ⟨p, rfl, hE⟩,
        fun hlt => ?_⟩
      rw [h.dist_eq hlt]
      exact toInt_add_one hlt
    · refine (h.changed v).imp_right fun ⟨hAv, hlabel, hq, hrest⟩ => ?_
      exact ⟨hAv, hlabel, List.mem_append_left _ hq, hrest⟩
  · exact List.mem_append_left _ (h.queue e he)
  · rw [label_reach]
    rcases List.mem_append.mp he with he | he
    · refine (h.entries e he).imp_right fun ⟨hedge, hle⟩ => ⟨hedge, ?_⟩
      split_ifs with hv
      · rw [hv] at hle
        omega
      · exact hle
    · obtain rfl := List.mem_singleton.mp he
      exact .inr ⟨⟨p, hE⟩, by rw [if_pos rfl]⟩
  · rw [label_reach, if_pos rfl]
    omega

end

/-! ## Reading off -/

theorem whileLoop_backStep {prev : String → LLDPPathSegment} {u w : String}
    {segs acc : List LLDPPathSegment} {fuel : ℕ}
    (h : Lib.Route LLDPPathSegment.chassisId (fun seg v => seg = prev v) u segs w)
    (hsegs : ∀ seg ∈ segs, seg.chassisId ≠ "") :
    whileLoop (backStep prev) (fuel + segs.length) (w, acc) =
      whileLoop (backStep prev) fuel (u, segs ++ acc) := by
  induction h generalizing fuel with
  | nil v => rfl
  | @cons seg segs v w hseg _ ih =>
    have hrest := @ih (fuel + 1) fun seg hmem => hsegs seg (List.mem_cons_of_mem _ hmem)
    have hstep : backStep prev (v, segs ++ acc) = some (seg.chassisId, seg :: (segs ++ acc)) := by
      have hne := hsegs seg List.mem_cons_self
      rw [hseg] at hne ⊢
      exact if_pos hne
    rw [List.length_cons, ← Nat.add_assoc, Nat.add_right_comm, hrest, whileLoop_of_some hstep]
    rfl

/-- The route that `prev` gives is read off, if none of its vertices is taken for the end. -/
theorem backTrack_route {prev : String → LLDPPathSegment} {src dst : String}
    {segs : List LLDPPathSegment} {fuel : ℕ}
    (h : Lib.Route LLDPPathSegment.chassisId (fun seg v => seg = prev v) src segs dst)
    (hsegs : ∀ seg ∈ segs, seg.chassisId ≠ "") (hend : (prev src).chassisId = "")
    (hfuel : segs.length < fuel) : backTrack prev fuel dst = some (src, segs) := by
  obtain ⟨n, rfl⟩ := Nat.exists_eq_add_of_lt hfuel
  have hstop : backStep prev (src, segs ++ []) = none := if_neg fun hne => hne hend
  rw [backTrack, Nat.add_assoc, Nat.add_comm, whileLoop_backStep h hsegs, whileLoop_of_none hstop,
    List.append_nil]

/-- The segments form a shortest route, and none leads to the source. -/
structure Finds (g : LLDPMibGraph) (prev : String → LLDPPathSegment) (src dst : String) : Prop where
  route : ∃ segs, g.Shortest src segs dst ∧
    Lib.Route LLDPPathSegment.chassisId (fun seg v => seg = prev v) src segs dst
  source : (prev src).chassisId = ""

/-- It is read off if it leads through no vertex without a name. -/
theorem Finds.backTrack {prev : String → LLDPPathSegment} {src dst : String}
    (h : Finds g prev src dst)
    (hnamed : ∀ segs, g.Shortest src segs dst → ∀ seg ∈ segs, seg.chassisId ≠ "") :
    ∃ n segs, backTrack prev n dst = some (src, segs) ∧ g.Shortest src segs dst := by
  obtain ⟨segs, hshortest, hroute⟩ := h.route
  exact ⟨segs.length + 1, segs,
    backTrack_route hroute (hnamed segs hshortest) h.source (Nat.lt_succ_self _), hshortest⟩

end Search

end TsnReconfig.LLDP
