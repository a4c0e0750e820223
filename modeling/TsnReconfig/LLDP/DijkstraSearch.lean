import Mathlib.Data.List.Basic
import Mathlib.Order.WellFounded
import TsnReconfig.LLDP.Searching

/-!
# The search of `LLDPForwarding`

A vertex is visited once. The vertices that are near to the source are visited first, in the order
of their distances, and only then the others, whose distances wrap around. The search ends, near
vertices have shortest routes, and a chain of segments goes back in the order of the visits.
-/

namespace TsnReconfig.LLDP.Dijkstra
open Lib OpenFlow Search

variable {g : LLDPMibGraph} {src u : String} {tie : ℕ → ℕ} {s s' : Dijkstra}

/-! ## A pass -/

theorem improves_relax {visited : List String} {s : Search} {m : LLDPMib} (hm : m ∈ g.mibs u) :
    Improves g (· ∉ visited) u s (relax visited u s m) := by
  unfold relax
  dsimp only
  split_ifs with hvisited hless
  · exact .inl rfl
  · exact .inr ⟨m.srcPort, m.dstID, ⟨m, hm, rfl, rfl⟩, hvisited, Int32.lt_iff_toInt_lt.mp hless, rfl⟩
  · exact .inl rfl

theorem foldl_relax {visited : List String} {s s' : Search} {ms : List LLDPMib}
    (hms : ∀ m ∈ ms, m ∈ g.mibs u) (h : Pass g (· ∉ visited) u s s') :
    Pass g (· ∉ visited) u s (ms.foldl (relax visited u) s') ∧
      (s.label u < 2147483647 → ∀ m ∈ ms, m.dstID ∉ visited →
        label (ms.foldl (relax visited u) s') m.dstID ≤ s.label u + 1) := by
  induction ms generalizing s s' with
  | nil => exact ⟨h, fun _ m hm => by cases hm⟩
  | cons m ms ih =>
    have himproves : Improves g (· ∉ visited) u s' (relax visited u s' m) :=
      improves_relax (hms m List.mem_cons_self)
    have hrest : ∀ m ∈ ms, m ∈ g.mibs u := fun m hm => hms m (List.mem_cons_of_mem _ hm)
    obtain ⟨hpass, hrelaxed⟩ := ih hrest (h.improves himproves)
    refine ⟨hpass, fun hlt m' hm' hnot => ?_⟩
    rcases List.mem_cons.mp hm' with rfl | hm'
    · -- its distance is small enough after its turn, and does not grow any more
      have hlater := (ih hrest .refl).1.label_le (s := relax visited u s' m') m'.dstID
      refine hlater.trans ?_
      have hu : s'.dist u = s.dist u := h.dist_eq hlt
      have halt := toInt_add_one hlt
      unfold relax
      rw [if_neg hnot]
      dsimp only
      split_ifs with hless
      · rw [label_reach, if_pos rfl, hu]
        exact halt.le
      · rw [Int32.lt_iff_toInt_lt, hu, halt, not_lt] at hless
        exact hless
    · exact hrelaxed hlt m' hm' hnot

/-- What a pass does: it drops an entry of a visited vertex, or visits the vertex. -/
theorem next_cases (h : next g tie s = some s') : ∃ e, s.top tie = some e ∧
    ((e.1 ∈ s.visited ∧ s' = ⟨s.pop e, s.visited⟩) ∨
      (e.1 ∉ s.visited ∧ s'.visited = s.visited ++ [e.1] ∧
        Pass g (· ∉ s.visited) e.1 (s.pop e) s'.toSearch ∧
        (s.label e.1 < 2147483647 → ∀ seg v, seg.chassisId = e.1 → g.Edge seg v →
          v ∉ s.visited → s'.label v ≤ s.label e.1 + 1))) := by
  obtain ⟨e, htop, rfl⟩ := Option.map_eq_some_iff.mp h
  refine ⟨e, htop, ?_⟩
  split_ifs with hvisited
  · exact .inl ⟨hvisited, rfl⟩
  · have hstart : Pass g (· ∉ s.visited) e.1 (s.pop e) (s.pop e) := .refl
    obtain ⟨hpass, hrelaxed⟩ := foldl_relax (fun m hm => hm) hstart
    refine .inr ⟨hvisited, rfl, hpass, ?_⟩
    rintro hlt seg v hseg ⟨m, hm, -, rfl⟩ hnot
    exact hrelaxed hlt m (hseg ▸ hm) hnot

/-! ## The queue -/

/-- Vertices that are not visited wait with their distance. -/
structure Queued (g : LLDPMibGraph) (s : Dijkstra) : Prop where
  waiting : ∀ v, g.IsVertex v → v ∉ s.visited → (v, s.dist v) ∈ s.q
  entries : ∀ e ∈ s.q, g.IsVertex e.1 ∧ s.label e.1 ≤ e.2.toInt

/-- The vertex that is visited has the smallest distance of those that wait. -/
theorem Queued.label_le (h : Queued g s) {e : String × Int32} (htop : s.top tie = some e)
    {v : String} (hv : g.IsVertex v) (hnot : v ∉ s.visited) : s.label e.1 ≤ s.label v := by
  obtain ⟨he, hmin⟩ := top_eq_some htop
  exact (h.entries e he).2.trans (hmin _ (h.waiting v hv hnot))

theorem Queued.step (h : Queued g s) (hinv : g.Inv) (hs : next g tie s = some s') : Queued g s' := by
  obtain ⟨e, htop, ⟨hvisited, rfl⟩ | ⟨hnot, hvisited, hpass, -⟩⟩ := next_cases hs
  · refine ⟨fun v hv hnotv => ?_, fun e' he' => h.entries e' (List.mem_of_mem_erase he')⟩
    refine (List.mem_erase_of_ne fun heq => hnotv ?_).mpr (h.waiting v hv hnotv)
    have hve : v = e.1 := congrArg Prod.fst heq
    exact hve ▸ hvisited
  · constructor
    · intro v hv hnotv
      rw [hvisited, List.mem_append, List.mem_singleton, not_or] at hnotv
      rcases hpass.changed v with ⟨hdist, -⟩ | ⟨-, -, hq, -⟩
      · rw [hdist]
        refine hpass.queue _ ((List.mem_erase_of_ne fun heq => ?_).mpr (h.waiting v hv hnotv.1))
        exact hnotv.2 (congrArg Prod.fst heq)
      · exact hq
    · intro e' he'
      rcases hpass.entries e' he' with he' | ⟨⟨p, hE⟩, hle⟩
      · obtain ⟨hvertex, hle⟩ := h.entries e' (List.mem_of_mem_erase he')
        exact ⟨hvertex, (hpass.label_le e'.1).trans hle⟩
      · exact ⟨hinv.isVertex_of_edge hE, hle⟩

theorem queued_start (hsrc : g.IsVertex src) : Queued g ⟨.start g src, []⟩ where
  waiting _ hv _ := (mem_q_start hsrc).mpr ⟨hv, rfl⟩
  entries e he := by
    obtain ⟨hv, hdist⟩ := (mem_q_start hsrc).mp he
    exact ⟨hv, (congrArg Int32.toInt hdist).ge⟩

/-- The vertices that are not visited. -/
def unvisited (g : LLDPMibGraph) (s : Dijkstra) : List String :=
  (g.verticies.entries.map Prod.fst).filter (· ∉ s.visited)

/-- A vertex is visited, or the queue gets shorter. -/
theorem exists_search (tie : ℕ → ℕ) (hinv : g.Inv) (h : Queued g s) :
    ∃ n t, whileLoop (next g tie) n s = some t := by
  have hwf := WellFounded.prod_lex (wellFounded_lt (α := ℕ)) (wellFounded_lt (α := ℕ))
  refine whileLoop_terminates (P := Queued g)
    (InvImage.wf (fun s : Dijkstra => ((unvisited g s).length, s.q.length)) hwf)
    (fun s s' h hs => ⟨h.step hinv hs, ?_⟩) h
  obtain ⟨e, htop, ⟨hvisited, rfl⟩ | ⟨hnot, hvisited, hpass, -⟩⟩ := next_cases hs
  · refine Prod.Lex.right _ ?_
    have hlength := List.length_erase_of_mem (top_eq_some htop).1
    have hpos := List.length_pos_of_mem (top_eq_some htop).1
    change (s.q.erase e).length < s.q.length
    omega
  · refine Prod.Lex.left _ _ ?_
    have hmem : e.1 ∈ g.verticies.entries.map Prod.fst :=
      LLDPMibGraph.isVertex_iff_mem_keys.mp (h.entries e (top_eq_some htop).1).1
    have hfilter : unvisited g s' = (unvisited g s).filter (· ≠ e.1) := by
      rw [unvisited, unvisited, List.filter_filter, hvisited]
      refine List.filter_congr fun v _ => ?_
      simp [not_or, and_comm]
    rw [hfilter, List.length_filter_lt_length_iff_exists]
    exact ⟨e.1, List.mem_filter.mpr ⟨hmem, by simpa using hnot⟩, by simp⟩

/-! ## Chains of segments -/

/-- A vertex has its segment from an edge of a vertex that was visited before it, or of itself. -/
def Backwards (g : LLDPMibGraph) (s : Dijkstra) : Prop :=
  ∀ v, (s.prev v).chassisId = "" ∨ (g.Edge (s.prev v) v ∧
    ((s.prev v).chassisId = v ∨
      s.visited.idxOf (s.prev v).chassisId < s.visited.idxOf v))

theorem Backwards.step (h : Backwards g s) (hs : next g tie s = some s') : Backwards g s' := by
  obtain ⟨e, htop, ⟨hvisited, rfl⟩ | ⟨hnot, hvisited, hpass, -⟩⟩ := next_cases hs
  · exact h
  · intro v
    rw [hvisited]
    rcases hpass.changed v with ⟨-, hprev⟩ | ⟨hnotv, -, -, ⟨p, hprev, hE⟩, -⟩
    · rw [hprev, prev_pop]
      refine (h v).imp_right fun ⟨hE, hindex⟩ => ⟨hE, hindex.imp_right fun hlt => ?_⟩
      have hmem : (s.prev v).chassisId ∈ s.visited :=
        List.idxOf_lt_length_iff.mp (hlt.trans_le List.idxOf_le_length)
      rw [List.idxOf_append_of_mem hmem]
      by_cases hv : v ∈ s.visited
      · rw [List.idxOf_append_of_mem hv]
        exact hlt
      · rw [List.idxOf_append_of_notMem hv]
        exact (List.idxOf_lt_length_of_mem hmem).trans_le (Nat.le_add_right ..)
    · rw [hprev]
      refine .inr ⟨hE, ?_⟩
      by_cases hself : e.1 = v
      · exact .inl hself
      · -- it is the last of the visited, and the other is not among them
        have hnot' : v ∉ s.visited ++ [e.1] := by
          rw [List.mem_append, List.mem_singleton, not_or]
          exact ⟨hnotv, fun heq => hself heq.symm⟩
        rw [List.idxOf_eq_length hnot']
        exact .inr (List.idxOf_lt_length_of_mem (List.mem_append_right _ (List.mem_singleton_self _)))

/-! ## Distances -/

/-- The near vertices have the numbers of segments to them, as far as they are known. They are
visited before the others, which have no distance until then. -/
structure Labelled (g : LLDPMibGraph) (src : String) (s : Dijkstra) : Prop where
  source : s.label src = 0
  sourcePrev : (s.prev src).chassisId = ""
  nonneg : ∀ v, g.Near src v → 0 ≤ s.label v
  prev : ∀ v, g.Near src v → v ≠ src → s.label v < 2147483647 →
    g.Edge (s.prev v) v ∧ (s.prev v).chassisId ∈ s.visited ∧ g.Near src (s.prev v).chassisId ∧
      s.label (s.prev v).chassisId + 1 = s.label v
  reached : ∀ v, g.Near src v → s.label v < 2147483647 →
    ∃ segs, g.Route src segs v ∧ (segs.length : ℤ) = s.label v
  known : ∀ v ∈ s.visited, g.Near src v → s.label v < 2147483647
  relaxed : ∀ seg v, seg.chassisId ∈ s.visited → g.Near src seg.chassisId → g.Edge seg v →
    s.label v ≤ s.label seg.chassisId + 1
  ordered : ∀ u ∈ s.visited, g.Near src u → ∀ w, w ∉ s.visited → g.Near src w →
    s.label u ≤ s.label w
  phase : (∀ v, g.Near src v → v ∈ s.visited) ∨
    ((∀ v ∈ s.visited, g.Near src v) ∧ ∀ v, g.IsVertex v → s.label v < 2147483647 → g.Near src v)

theorem near_of_route {segs : List LLDPPathSegment} {seg : LLDPPathSegment} {v : String}
    (h : g.Route src segs seg.chassisId) (hE : g.Edge seg v) (hlt : segs.length + 1 < 2147483647) :
    g.Near src v :=
  ⟨segs ++ [seg], h.concat hE, by rw [List.length_append, List.length_singleton]; exact hlt⟩

/-- Without a distance that is known there is no near vertex left. -/
theorem Labelled.all_visited (h : Labelled g src s) (hinv : g.Inv) (hsrc : g.IsVertex src)
    (hnear : ∀ v ∈ s.visited, g.Near src v)
    (hunknown : ∀ v, g.IsVertex v → v ∉ s.visited → s.label v = 2147483647) :
    ∀ v, g.Near src v → v ∈ s.visited := by
  have hvisited : ∀ v, g.IsVertex v → s.label v < 2147483647 → v ∈ s.visited := by
    intro v hv hlt
    by_contra hnot
    have hmax := hunknown v hv hnot
    omega
  rintro v ⟨segs, hroute, hlength⟩
  have hle : s.label v ≤ s.label src + segs.length := by
    refine hroute.label_le s.label 2147483646 (P := (· ∈ s.visited)) ?_ ?_ ?_
    · intro seg w hseg hE hlt
      have hle := h.relaxed seg w hseg (hnear _ hseg) hE
      exact ⟨hvisited w (hinv.isVertex_of_edge hE) (by omega), hle⟩
    · refine hvisited src hsrc ?_
      rw [h.source]
      omega
    · rw [h.source]
      omega
  refine hvisited v (hinv.isVertex_of_connected ⟨segs, hroute⟩ hsrc) ?_
  rw [h.source] at hle
  omega

/-- Nothing changes for the near vertices when all have been visited. -/
theorem Labelled.visit_far (h : Labelled g src s) {e : String × Int32}
    (hall : ∀ v, g.Near src v → v ∈ s.visited) (hvisited : s'.visited = s.visited ++ [e.1])
    (hpass : Pass g (· ∉ s.visited) e.1 (s.pop e) s'.toSearch) : Labelled g src s' := by
  -- a pass changes only what is not visited
  have hkept : ∀ v, g.Near src v → s'.label v = s.label v ∧ s'.prev v = s.prev v := by
    intro v hv
    rcases hpass.changed v with ⟨hdist, hprev⟩ | ⟨hnot, -⟩
    · exact ⟨dist_eq_iff_label.mp hdist, hprev⟩
    · exact (hnot (hall v hv)).elim
  have hmem : ∀ v, v ∈ s.visited → v ∈ s'.visited := by
    intro v hv
    rw [hvisited]
    exact List.mem_append_left _ hv
  constructor
  · rw [(hkept src LLDPMibGraph.near_self).1]
    exact h.source
  · rw [(hkept src LLDPMibGraph.near_self).2]
    exact h.sourcePrev
  · intro v hv
    rw [(hkept v hv).1]
    exact h.nonneg v hv
  · intro v hv hne hlt
    rw [(hkept v hv).1] at hlt ⊢
    rw [(hkept v hv).2]
    obtain ⟨hE, hprev, hnear, hlabel⟩ := h.prev v hv hne hlt
    rw [(hkept _ hnear).1]
    exact ⟨hE, hmem _ hprev, hnear, hlabel⟩
  · intro v hv hlt
    rw [(hkept v hv).1] at hlt ⊢
    exact h.reached v hv hlt
  · intro v _ hv
    rw [(hkept v hv).1]
    exact h.known v (hall v hv) hv
  · intro seg v _ hseg hE
    rw [(hkept _ hseg).1]
    exact (hpass.label_le v).trans (h.relaxed seg v (hall _ hseg) hseg hE)
  · exact fun u _ _ w hw hnear => (hw (hmem w (hall w hnear))).elim
  · exact .inl fun v hv => hmem v (hall v hv)

/-- A near vertex is visited, which is the nearest of those that wait. -/
theorem Labelled.visit_near (h : Labelled g src s) (hinv : g.Inv) (hsrc : g.IsVertex src)
    (hq : Queued g s) {e : String × Int32} (htop : s.top tie = some e) (hnot : e.1 ∉ s.visited)
    (hnear : ∀ v ∈ s.visited, g.Near src v)
    (hknown : ∀ v, g.IsVertex v → s.label v < 2147483647 → g.Near src v)
    (hlt : s.label e.1 < 2147483647) (hvisited : s'.visited = s.visited ++ [e.1])
    (hpass : Pass g (· ∉ s.visited) e.1 (s.pop e) s'.toSearch)
    (hrelaxed : ∀ seg v, seg.chassisId = e.1 → g.Edge seg v → v ∉ s.visited →
      s'.label v ≤ s.label e.1 + 1) : Labelled g src s' := by
  have hu : g.Near src e.1 := hknown e.1 (hq.entries e (top_eq_some htop).1).1 hlt
  obtain ⟨segs, hroute, hlength⟩ := h.reached e.1 hu hlt
  have hu0 := h.nonneg e.1 hu
  have hlabelu : s'.label e.1 = s.label e.1 := dist_eq_iff_label.mp (hpass.dist_eq hlt)
  have hsource := hpass.eq_of_zero hlt hu0 h.source
  have hchanged : ∀ v, (s'.label v = s.label v ∧ s'.prev v = s.prev v) ∨
      (v ∉ s.visited ∧ s'.label v < s.label v ∧ s'.label v = s.label e.1 + 1 ∧
        ∃ p, s'.prev v = ⟨e.1, p⟩ ∧ g.Edge ⟨e.1, p⟩ v) :=
    hpass.changed_of_lt hlt
  have hkept : ∀ v ∈ s.visited, s'.label v = s.label v :=
    fun v hv => (hchanged v).elim And.left fun hnew => (hnew.1 hv).elim
  have hmem : ∀ v, v ∈ s'.visited ↔ v ∈ s.visited ∨ v = e.1 := by
    intro v
    rw [hvisited, List.mem_append, List.mem_singleton]
  exact {
    source := hsource.1
    sourcePrev := by
      rw [hsource.2]
      exact h.sourcePrev
    nonneg := fun v hv => by
      rcases hchanged v with ⟨hlabel, -⟩ | ⟨-, -, heq, -⟩
      · rw [hlabel]
        exact h.nonneg v hv
      · omega
    prev := fun v hv hne hltv => by
      rcases hchanged v with ⟨hlabel, hprev⟩ | ⟨-, -, heq, p, hprev, hE⟩
      · rw [hlabel] at hltv ⊢
        rw [hprev]
        obtain ⟨hE, hprevVisited, hprevNear, hprevLabel⟩ := h.prev v hv hne hltv
        rw [hkept _ hprevVisited]
        exact ⟨hE, (hmem _).mpr (.inl hprevVisited), hprevNear, hprevLabel⟩
      · rw [hprev]
        exact ⟨hE, (hmem _).mpr (.inr rfl), hu, by rw [hlabelu, heq]⟩
    reached := fun v hv hltv => by
      rcases hchanged v with ⟨hlabel, -⟩ | ⟨-, -, heq, p, -, hE⟩
      · rw [hlabel] at hltv ⊢
        exact h.reached v hv hltv
      · refine ⟨segs ++ [⟨e.1, p⟩], Route.concat hroute hE, ?_⟩
        rw [List.length_append, List.length_singleton, heq, ← hlength]
        push_cast
        rfl
    known := fun v hv hvNear => by
      rcases (hmem v).mp hv with hv | rfl
      · rw [hkept v hv]
        exact h.known v hv hvNear
      · rw [hlabelu]
        exact hlt
    relaxed := fun seg v hseg hsegNear hE => by
      rcases (hmem _).mp hseg with hseg | hseg
      · rw [hkept _ hseg]
        exact (hpass.label_le v).trans (h.relaxed seg v hseg hsegNear hE)
      · rw [hseg, hlabelu]
        by_cases hv : v ∈ s.visited
        · -- it was nearer
          have hle := h.ordered v hv (hnear v hv) e.1 hnot hu
          rw [hkept v hv]
          omega
        · exact hrelaxed seg v hseg hE hv
    ordered := fun w hw hwNear v hv hvNear => by
      rw [hmem, not_or] at hv
      -- what waits is not nearer than the vertex that is visited
      have hvle : s.label e.1 ≤ s'.label v := by
        rcases hchanged v with ⟨hlabel, -⟩ | ⟨-, -, heq, -⟩
        · rw [hlabel]
          exact hq.label_le htop (hinv.isVertex_of_connected hvNear.connected hsrc) hv.1
        · omega
      rcases (hmem w).mp hw with hw | rfl
      · rw [hkept w hw]
        exact (h.ordered w hw hwNear e.1 hnot hu).trans hvle
      · rw [hlabelu]
        exact hvle
    phase := by
      refine .inr ⟨fun v hv => ?_, fun v hv hltv => ?_⟩
      · rcases (hmem v).mp hv with hv | rfl
        · exact hnear v hv
        · exact hu
      · rcases hchanged v with ⟨hlabel, -⟩ | ⟨-, hless, heq, p, -, hE⟩
        · rw [hlabel] at hltv
          exact hknown v hv hltv
        · exact near_of_route hroute hE (by omega) }

theorem Labelled.step (h : Labelled g src s) (hinv : g.Inv) (hsrc : g.IsVertex src) (hq : Queued g s)
    (hs : next g tie s = some s') : Labelled g src s' := by
  obtain ⟨e, htop, ⟨hvisited, rfl⟩ | ⟨hnot, hvisited, hpass, hrelaxed⟩⟩ := next_cases hs
  · exact {
      source := h.source
      sourcePrev := h.sourcePrev
      nonneg := h.nonneg
      prev := h.prev
      reached := h.reached
      known := h.known
      relaxed := h.relaxed
      ordered := h.ordered
      phase := h.phase }
  · rcases h.phase with hall | ⟨hnear, hknown⟩
    · exact h.visit_far hall hvisited hpass
    · by_cases hlt : s.label e.1 < 2147483647
      · exact h.visit_near hinv hsrc hq htop hnot hnear hknown hlt hvisited hpass (hrelaxed hlt)
      · -- no vertex that waits has a distance
        refine h.visit_far (h.all_visited hinv hsrc hnear fun v hv hnotv => ?_) hvisited hpass
        have hle := hq.label_le htop hv hnotv
        have hmax := s.label_le_max v
        omega

theorem labelled_start (hinv : g.Inv) (hsrc : g.IsVertex src) :
    Labelled g src ⟨.start g src, []⟩ := by
  have hvertex : ∀ v, g.Near src v → g.IsVertex v :=
    fun v hv => hinv.isVertex_of_connected hv.connected hsrc
  -- only the source has a distance
  have honly : ∀ v, g.IsVertex v → (start g src).label v < 2147483647 → v = src := by
    intro v hv hlt
    by_contra hne
    rw [label_start_of_ne hne hv] at hlt
    omega
  exact {
    source := label_start_self
    sourcePrev := rfl
    nonneg := fun v hv => by
      by_cases hne : v = src
      · subst hne
        exact label_start_self.ge
      · change 0 ≤ (start g src).label v
        rw [label_start_of_ne hne (hvertex v hv)]
        omega
    prev := fun v hv hne hlt => (hne (honly v (hvertex v hv) hlt)).elim
    reached := fun v hv hlt => by
      obtain rfl := honly v (hvertex v hv) hlt
      exact ⟨[], .nil v, label_start_self.symm⟩
    known := fun v hv => by cases hv
    relaxed := fun seg v hseg => by cases hseg
    ordered := fun u hu => by cases hu
    phase := by
      refine .inr ⟨fun v hv => ?_, fun v hv hlt => ?_⟩
      · cases hv
      · rw [honly v hv hlt]
        exact LLDPMibGraph.near_self }

/-! ## The whole search -/

theorem search_eq_some {n : ℕ} {prev : String → LLDPPathSegment} :
    search tie n g src = some prev ↔
      ∃ t, whileLoop (next g tie) n ⟨.start g src, []⟩ = some t ∧ t.prev = prev :=
  Option.map_eq_some_iff

/-- What the search leaves. -/
theorem search_spec (tie : ℕ → ℕ) (hinv : g.Inv) (hsrc : g.IsVertex src) :
    ∃ n t, whileLoop (next g tie) n ⟨.start g src, []⟩ = some t ∧
      (∀ v, g.IsVertex v → v ∈ t.visited) ∧ Labelled g src t ∧ Backwards g t := by
  obtain ⟨n, t, ht⟩ := exists_search tie hinv (queued_start hsrc)
  obtain ⟨⟨hq, hlabelled, hback⟩, hnext⟩ := whileLoop_invariant
    (P := fun s => Queued g s ∧ Labelled g src s ∧ Backwards g s)
    (fun s s' ⟨hq, hlabelled, hback⟩ hs =>
      ⟨hq.step hinv hs, hlabelled.step hinv hsrc hq hs, hback.step hs⟩)
    ⟨queued_start hsrc, labelled_start hinv hsrc, fun _ => .inl rfl⟩ ht
  refine ⟨n, t, ht, fun v hv => ?_, hlabelled, hback⟩
  by_contra hnot
  have hempty : t.q = [] := top_eq_none (Option.map_eq_none_iff.mp hnext)
  have hwaiting := hq.waiting v hv hnot
  rw [hempty] at hwaiting
  cases hwaiting

/-- A near vertex gets a shortest route. -/
theorem search_finds (tie : ℕ → ℕ) (hinv : g.Inv) (hsrc : g.IsVertex src) {dst : String}
    (hdst : g.Near src dst) :
    ∃ n prev, search tie n g src = some prev ∧ Finds g prev src dst := by
  obtain ⟨n, t, ht, hall, hlabelled, -⟩ := search_spec tie hinv hsrc
  refine ⟨n, t.prev, search_eq_some.mpr ⟨t, ht, rfl⟩, ?_, hlabelled.sourcePrev⟩
  have hvisited : ∀ v, g.Near src v → v ∈ t.visited :=
    fun v hv => hall v (hinv.isVertex_of_connected hv.connected hsrc)
  have hlt : ∀ v, g.Near src v → t.label v < 2147483647 :=
    fun v hv => hlabelled.known v (hvisited v hv) hv
  refine exists_shortest_of_labels t.label 2147483646 (P := g.Near src)
    LLDPMibGraph.near_self hlabelled.source hlabelled.nonneg ?_ ?_ hdst ?_
  · intro v hv hne
    obtain ⟨hE, -, hnear, hlabel⟩ := hlabelled.prev v hv hne (hlt v hv)
    exact ⟨hE, hnear, hlabel⟩
  · intro seg v hseg hE hbound
    obtain ⟨segs, hroute, hlength⟩ := hlabelled.reached _ hseg (hlt _ hseg)
    exact ⟨near_of_route hroute hE (by omega), hlabelled.relaxed seg v (hvisited _ hseg) hseg hE⟩
  · have hltdst := hlt dst hdst
    omega

/-- A vertex that is not connected, and not behind a vertex with an edge to itself, gets a chain that
ends at another vertex than the source. -/
theorem search_ends (tie : ℕ → ℕ) (hinv : g.Inv) (hsrc : g.IsVertex src) {dst : String}
    (hdst : ¬g.Connected src dst)
    (hself : ∀ seg, g.Connected seg.chassisId dst → ¬g.Edge seg seg.chassisId) :
    ∃ n prev, search tie n g src = some prev ∧
      ∃ m b, backTrack prev m dst = some b ∧ b.1 ≠ src := by
  obtain ⟨n, t, ht, -, -, hback⟩ := search_spec tie hinv hsrc
  refine ⟨n, t.prev, search_eq_some.mpr ⟨t, ht, rfl⟩, ?_⟩
  -- each step back goes to a vertex that was visited before
  have hstep : ∀ b b', g.Connected b.1 dst → backStep t.prev b = some b' →
      g.Connected b'.1 dst ∧ t.visited.idxOf b'.1 < t.visited.idxOf b.1 := by
    intro b b' hb hs
    obtain ⟨hne, hb'⟩ := (Option.ite_none_right_eq_some ..).mp hs
    obtain rfl := Option.some.inj hb'
    obtain ⟨hE, hindex⟩ := (hback b.1).resolve_left hne
    have hconnected := Connected.trans (Connected.edge hE) hb
    refine ⟨hconnected, hindex.resolve_left fun heq => hself _ hconnected ?_⟩
    rw [heq]
    exact hE
  obtain ⟨m, b, hb⟩ := whileLoop_terminates (P := fun b => g.Connected b.1 dst)
    (InvImage.wf (fun b : String × List LLDPPathSegment => t.visited.idxOf b.1) wellFounded_lt) hstep
    (s := (dst, [])) ⟨[], .nil dst⟩
  refine ⟨m, b, hb, fun heq => hdst ?_⟩
  have hconnected := (whileLoop_invariant (fun b b' hb hs => (hstep b b' hb hs).1)
    (s := (dst, [])) (P := fun b => g.Connected b.1 dst) ⟨[], .nil dst⟩ hb).1
  exact heq ▸ hconnected

end TsnReconfig.LLDP.Dijkstra
