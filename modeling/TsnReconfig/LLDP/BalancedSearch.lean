import Mathlib.Algebra.Order.BigOperators.Group.List
import TsnReconfig.LLDP.CachedRoutes

/-!
# `LLDPBalancedMinHop::computeBalancedMinHopPath`

No vertex is marked as visited. The queue is emptied all the same: a pass makes some distance
smaller, or replaces an entry by one for a vertex that is one farther away, at most. Where all that
can be reached is near, the distances are right in the end. What cannot be reached has segments that
go round, so that reading off does not end.
-/

namespace TsnReconfig.LLDP
open Lib OpenFlow Search

namespace Balancing

variable {g : LLDPMibGraph} {src u : String} {tie rand : ℕ → ℕ} {s s' : Search} {b : Balancing}

/-! ## A pass -/

/-- The ties are edges of the vertex whose ends are one farther away. -/
def Ties (g : LLDPMibGraph) (u : String) (b : Balancing) : Prop :=
  ∀ p ∈ b.tempPath, p.2.chassisId = u ∧ g.Edge p.2 p.1 ∧ b.dist p.1 = b.alt ∧ b.alt = b.dist u + 1

theorem improves_relax {m : LLDPMib} (hm : m ∈ g.mibs u) :
    Improves g (fun _ => True) u b.toSearch (relax u b m).toSearch := by
  unfold relax
  dsimp only
  split_ifs with hless htie
  · exact .inr ⟨m.srcPort, m.dstID, ⟨m, hm, rfl, rfl⟩, trivial, Int32.lt_iff_toInt_lt.mp hless, rfl⟩
  · exact .inl rfl
  · exact .inl rfl

theorem Ties.relax {m : LLDPMib} (h : Ties g u b) (hm : m ∈ g.mibs u) : Ties g u (relax u b m) := by
  unfold Balancing.relax
  dsimp only
  split_ifs with hless htie
  · intro p hp
    cases hp
  · intro p hp
    rcases List.mem_append.mp hp with hp | hp
    · obtain ⟨hsource, hE, hdist, halt⟩ := h p hp
      exact ⟨hsource, hE, hdist.trans halt, rfl⟩
    · obtain rfl := List.mem_singleton.mp hp
      exact ⟨rfl, ⟨m, hm, rfl, rfl⟩, htie.symm, rfl⟩
  · intro p hp
    obtain ⟨hsource, hE, hdist, halt⟩ := h p hp
    exact ⟨hsource, hE, hdist.trans halt, rfl⟩

theorem foldl_relax {ms : List LLDPMib} (hms : ∀ m ∈ ms, m ∈ g.mibs u)
    (h : Pass g (fun _ => True) u s b.toSearch) (hties : Ties g u b) :
    Pass g (fun _ => True) u s (ms.foldl (relax u) b).toSearch ∧
      Ties g u (ms.foldl (relax u) b) ∧
      (s.label u < 2147483647 → ∀ m ∈ ms,
        label (ms.foldl (relax u) b).toSearch m.dstID ≤ s.label u + 1) := by
  induction ms generalizing s b with
  | nil => exact ⟨h, hties, fun _ m hm => by cases hm⟩
  | cons m ms ih =>
    have hm : m ∈ g.mibs u := hms m List.mem_cons_self
    have hrest : ∀ m ∈ ms, m ∈ g.mibs u := fun m hm => hms m (List.mem_cons_of_mem _ hm)
    obtain ⟨hpass, hties', hrelaxed⟩ := ih hrest (h.improves (improves_relax hm)) (hties.relax hm)
    refine ⟨hpass, hties', fun hlt m' hm' => ?_⟩
    rcases List.mem_cons.mp hm' with rfl | hm'
    · -- its distance is small enough after its turn, and does not grow any more
      have hlater := (ih hrest .refl (hties.relax hm)).1.label_le m'.dstID
      refine hlater.trans ?_
      have hu : b.dist u = s.dist u := h.dist_eq hlt
      have halt := toInt_add_one hlt
      unfold relax
      dsimp only
      split_ifs with hless htie
      · rw [label_reach, if_pos rfl, hu]
        exact halt.le
      · rw [label, ← htie, hu]
        exact halt.le
      · rw [Int32.lt_iff_toInt_lt, hu, halt, not_lt] at hless
        exact hless
    · exact hrelaxed hlt m' hm'

/-- The choice changes no distance. -/
theorem dist_choose (h : Ties g u b) (r : ℕ) : (b.choose r).dist = b.dist := by
  unfold choose
  cases hp : b.tempPath[r % (b.tempPath.length + 1)]? with
  | none => rfl
  | some p =>
    obtain ⟨-, -, hdist, -⟩ := h p (List.mem_of_getElem? hp)
    funext v
    dsimp only
    rw [dist_reach]
    split_ifs with hv
    · rw [hv, hdist]
    · rfl

/-- It is one of the ties, or none. -/
theorem choose_cases (r : ℕ) : b.choose r = b.toSearch ∨
    ∃ p ∈ b.tempPath, b.choose r = b.reach p.1 p.2 b.alt := by
  unfold choose
  cases hp : b.tempPath[r % (b.tempPath.length + 1)]? with
  | none => exact .inl rfl
  | some p => exact .inr ⟨p, List.mem_of_getElem? hp, rfl⟩

/-- What a pass does. -/
theorem next_cases (h : next g tie rand s = some s') : ∃ e b, s.top tie = some e ∧
    Pass g (fun _ => True) e.1 (s.pop e) b.toSearch ∧ Ties g e.1 b ∧
    (s.label e.1 < 2147483647 → ∀ seg v, seg.chassisId = e.1 → g.Edge seg v →
      b.label v ≤ s.label e.1 + 1) ∧
    s' = b.choose (rand s.pops) := by
  obtain ⟨e, htop, rfl⟩ := Option.map_eq_some_iff.mp h
  obtain ⟨hpass, hties, hrelaxed⟩ := foldl_relax (b := ⟨s.pop e, [], 0⟩) (fun m hm => hm)
    (.refl (g := g) (u := e.1)) (fun p hp => by cases hp)
  refine ⟨e, _, htop, hpass, hties, ?_, rfl⟩
  rintro hlt seg v hseg ⟨m, hm, -, rfl⟩
  exact hrelaxed hlt m (hseg ▸ hm)

/-! ## The queue -/

/-- A vertex with a distance waits with it, or its edges are relaxed. -/
structure Waiting (g : LLDPMibGraph) (s : Search) : Prop where
  entries : ∀ e ∈ s.q, g.IsVertex e.1 ∧ s.label e.1 ≤ e.2.toInt
  pending : ∀ v, g.IsVertex v → s.label v < 2147483647 → (v, s.dist v) ∈ s.q ∨
    ∀ seg w, seg.chassisId = v → g.Edge seg w → s.label w ≤ s.label v + 1

theorem mem_q_choose {e : String × Int32} {r : ℕ} (he : e ∈ b.q) : e ∈ (b.choose r).q := by
  rcases choose_cases (b := b) r with hchoose | ⟨p, -, hchoose⟩
  · rw [hchoose]
    exact he
  · rw [hchoose]
    exact List.mem_append_left _ he

theorem Waiting.step (h : Waiting g s) (hinv : g.Inv) (hs : next g tie rand s = some s') :
    Waiting g s' := by
  obtain ⟨e, b, htop, hpass, hties, hrelaxed, rfl⟩ := next_cases hs
  have hlabel : (b.choose (rand s.pops)).label = b.label := by
    unfold label
    rw [dist_choose hties]
  have hentries : ∀ e' ∈ b.q, g.IsVertex e'.1 ∧ b.label e'.1 ≤ e'.2.toInt := by
    intro e' he'
    rcases hpass.entries e' he' with he' | ⟨⟨p, hE⟩, hle⟩
    · obtain ⟨hvertex, hle⟩ := h.entries e' (List.mem_of_mem_erase he')
      exact ⟨hvertex, (hpass.label_le e'.1).trans hle⟩
    · exact ⟨hinv.isVertex_of_edge hE, hle⟩
  refine ⟨fun e' he' => ?_, fun v hv hlt => ?_⟩
  · rw [hlabel]
    rcases choose_cases (b := b) (rand s.pops) with hchoose | ⟨p, hp, hchoose⟩
    · rw [hchoose] at he'
      exact hentries e' he'
    · rw [hchoose] at he'
      obtain ⟨-, hE, hdist, -⟩ := hties p hp
      rcases List.mem_append.mp he' with he' | he'
      · exact hentries e' he'
      · obtain rfl := List.mem_singleton.mp he'
        exact ⟨hinv.isVertex_of_edge hE, (congrArg Int32.toInt hdist).le⟩
  · rw [hlabel] at hlt ⊢
    rw [dist_choose hties]
    rcases hpass.changed v with ⟨hdist, -⟩ | ⟨-, -, hq, -⟩
    · have hsame : b.label v = s.label v := dist_eq_iff_label.mp hdist
      rw [hsame] at hlt ⊢
      -- all edges of the vertex of the pass are relaxed now
      by_cases hve : v = e.1
      · subst hve
        exact .inr (hrelaxed hlt)
      · refine (h.pending v hv hlt).imp (fun hq => ?_) fun hrel seg w hseg hE => ?_
        · rw [hdist]
          refine mem_q_choose (hpass.queue _ ((List.mem_erase_of_ne fun heq => ?_).mpr hq))
          exact hve (congrArg Prod.fst heq)
        · exact (hpass.label_le w).trans (hrel seg w hseg hE)
    · exact .inl (mem_q_choose hq)

theorem waiting_start (hsrc : g.IsVertex src) : Waiting g (.start g src) where
  entries e he := by
    obtain ⟨hv, hdist⟩ := (mem_q_start hsrc).mp he
    exact ⟨hv, (congrArg Int32.toInt hdist).ge⟩
  pending _ hv _ := .inl ((mem_q_start hsrc).mpr ⟨hv, rfl⟩)

/-- A tie of a vertex with the greatest distance would have the least one: it would be on top, or
its edge back would be relaxed. -/
theorem Waiting.no_wrap (h : Waiting g s) (hinv : g.Inv) {e : String × Int32}
    (htop : s.top tie = some e) {seg : LLDPPathSegment} {v : String} (hseg : seg.chassisId = e.1)
    (hE : g.Edge seg v) (hdist : s.dist v = s.dist e.1 + 1) : s.label e.1 < 2147483647 := by
  by_contra hnot
  obtain ⟨he, hmin⟩ := top_eq_some htop
  have hle := (h.entries e he).2
  have hmax := s.label_le_max e.1
  have hlabel : s.label v = -2147483648 := by
    rw [label, hdist]
    exact toInt_add_one_max (by rw [label] at hnot hmax; omega)
  rcases h.pending v (hinv.isVertex_of_edge hE) (by omega) with hq | hrelaxed
  · have hfirst := hmin _ hq
    change e.2.toInt ≤ s.label v at hfirst
    omega
  · obtain ⟨seg', hseg', hE'⟩ := hinv.edge_symm hE
    have hback := hrelaxed seg' _ hseg' hE'
    rw [hseg] at hback
    omega

/-- The sum of all distances, from the least one on. -/
def distances (g : LLDPMibGraph) (s : Search) : ℕ :=
  ((g.verticies.entries.map Prod.fst).map fun v => (s.label v + 2147483648).toNat).sum

/-- The sum of what the entries lack to the greatest distance. -/
def lacking (s : Search) : ℕ := (s.q.map fun e => (2147483648 - s.label e.1).toNat).sum

theorem distances_lt (hle : ∀ v, s'.label v ≤ s.label v) {v : String} (hv : g.IsVertex v)
    (hlt : s'.label v < s.label v) : distances g s' < distances g s := by
  refine List.sum_lt_sum _ _ (fun w _ => ?_)
    ⟨v, LLDPMibGraph.isVertex_iff_mem_keys.mp hv, ?_⟩
  · have hw := hle w
    omega
  · have hmin := min_le_toInt (s'.dist v)
    change -2147483648 ≤ s'.label v at hmin
    omega

/-- A pass makes a distance smaller, or what the entries lack. -/
theorem measure_lt (h : Waiting g s) (hinv : g.Inv) (hs : next g tie rand s = some s') :
    distances g s' < distances g s ∨ distances g s' = distances g s ∧ lacking s' < lacking s := by
  obtain ⟨e, b, htop, hpass, hties, -, rfl⟩ := next_cases hs
  have hlabel : (b.choose (rand s.pops)).label = b.label := by
    unfold label
    rw [dist_choose hties]
  by_cases hprogress : ∃ p v, g.Edge ⟨e.1, p⟩ v ∧ b.label v < s.label v
  · obtain ⟨p, v, hE, hlt⟩ := hprogress
    refine .inl (distances_lt (v := v) ?_ (hinv.isVertex_of_edge hE) ?_)
    · rw [hlabel]
      exact hpass.label_le
    · rw [hlabel]
      exact hlt
  · -- without a smaller distance the pass only takes an entry away
    have hq : b.q = s.q.erase e := hpass.progress.resolve_right hprogress
    have hdist : b.dist = s.dist := by
      funext v
      rcases hpass.changed v with ⟨hdist, -⟩ | ⟨-, hlt, -, ⟨p, -, hE⟩, -⟩
      · exact hdist
      · exact (hprogress ⟨p, v, hE, hlt⟩).elim
    have hsame : b.label = s.label := by
      unfold label
      rw [hdist]
    have he := (top_eq_some htop).1
    have hsum : (2147483648 - s.label e.1).toNat +
        ((s.q.erase e).map fun e => (2147483648 - s.label e.1).toNat).sum =
          (s.q.map fun e => (2147483648 - s.label e.1).toNat).sum := by
      rw [((List.perm_cons_erase he).map _).sum_eq, List.map_cons, List.sum_cons]
    have hmax := s.label_le_max e.1
    refine .inr ⟨by rw [distances, distances, hlabel, hsame], ?_⟩
    rw [lacking, lacking, hlabel, hsame]
    rcases choose_cases (b := b) (rand s.pops) with hchoose | ⟨p, hp, hchoose⟩
    · rw [hchoose, hq]
      omega
    · -- the entry of the choice lacks less than the one that was on top
      obtain ⟨hseg, hE, htie, halt⟩ := hties p hp
      rw [hdist] at htie halt
      have hlt := h.no_wrap hinv htop hseg hE (htie.trans halt)
      have hnext : s.label p.1 = s.label e.1 + 1 := by
        rw [label, htie, halt]
        exact toInt_add_one hlt
      rw [hchoose]
      change ((b.q ++ [(p.1, b.alt)]).map _).sum < _
      rw [hq, List.map_append, List.sum_append, List.map_singleton, List.sum_singleton]
      dsimp only
      omega

theorem exists_search (tie rand : ℕ → ℕ) (hinv : g.Inv) (h : Waiting g s) :
    ∃ n t, whileLoop (next g tie rand) n s = some t := by
  have hwf := WellFounded.prod_lex (wellFounded_lt (α := ℕ)) (wellFounded_lt (α := ℕ))
  refine whileLoop_terminates (P := Waiting g)
    (InvImage.wf (fun s : Search => (distances g s, lacking s)) hwf)
    (fun s s' h hs => ⟨h.step hinv hs, ?_⟩) h
  exact Prod.lex_def.mpr (measure_lt h hinv hs)

/-! ## Distances -/

/-- The vertices that can be reached have the distances of routes, as far as they are known. -/
structure Labelled (g : LLDPMibGraph) (src : String) (s : Search) : Prop where
  source : s.label src = 0
  sourcePrev : (s.prev src).chassisId = ""
  nonneg : ∀ v, g.Connected src v → 0 ≤ s.label v
  prev : ∀ v, g.Connected src v → v ≠ src → s.label v < 2147483647 →
    g.Edge (s.prev v) v ∧ g.Connected src (s.prev v).chassisId ∧
      s.label (s.prev v).chassisId + 1 ≤ s.label v

/-- Where all vertices wait with the greatest distance or are relaxed, near ones have another. -/
theorem Labelled.lt_max (h : Labelled g src s) (hinv : g.Inv) (hsrc : g.IsVertex src)
    (hrelaxed : ∀ v, g.IsVertex v → s.label v < 2147483647 →
      ∀ seg w, seg.chassisId = v → g.Edge seg w → s.label w ≤ s.label v + 1)
    {v : String} (hv : g.Near src v) : s.label v < 2147483647 := by
  obtain ⟨segs, hroute, hlength⟩ := hv
  have hle := hroute.label_le s.label 2147483646 (P := g.Connected src)
    (fun seg w hseg hE hlt => ⟨hseg.trans (.edge hE),
      hrelaxed _ (hinv.isVertex_of_connected hseg hsrc) (by omega) seg w rfl hE⟩)
    ⟨[], .nil src⟩ (by rw [h.source]; omega)
  rw [h.source] at hle
  omega

/-- The vertex on top has a distance that is known, if it is connected. -/
theorem Labelled.top_lt (h : Labelled g src s) (hinv : g.Inv) (hsrc : g.IsVertex src)
    (hnear : ∀ v, g.Connected src v → g.Near src v) (hw : Waiting g s) {e : String × Int32}
    (htop : s.top tie = some e) (hconnected : g.Connected src e.1) : s.label e.1 < 2147483647 := by
  by_contra hnot
  refine hnot (h.lt_max hinv hsrc (fun v hv hless => ?_) (hnear _ hconnected))
  -- a distance that is known would be on top
  refine (hw.pending v hv hless).resolve_left fun hq => ?_
  have hle := (hw.entries e (top_eq_some htop).1).2
  have hmin := (top_eq_some htop).2 _ hq
  change e.2.toInt ≤ s.label v at hmin
  omega

/-- What a pass at `u` and the choice behind it do to the connected vertices. -/
theorem changed_choose (hinv : g.Inv) (hlt : g.Connected src u → s.label u < 2147483647)
    (hpass : Pass g (fun _ => True) u s b.toSearch) (hties : Ties g u b) (n : ℕ) {v : String}
    (hv : g.Connected src v) :
    (b.label v = s.label v ∧ (b.choose n).prev v = s.prev v) ∨
    (g.Connected src u ∧ b.label v = s.label u + 1 ∧ ((b.choose n).prev v).chassisId = u ∧
      g.Edge ((b.choose n).prev v) v) := by
  have hback : ∀ seg w, seg.chassisId = u → g.Edge seg w → g.Connected src w →
      g.Connected src u :=
    fun seg w hseg hE hw => hw.trans (hinv.connected_symm (hseg ▸ Connected.edge hE))
  have hpassed : (b.label v = s.label v ∧ b.prev v = s.prev v) ∨
      (g.Connected src u ∧ b.label v = s.label u + 1 ∧ (b.prev v).chassisId = u ∧
        g.Edge (b.prev v) v) := by
    rcases hpass.changed v with ⟨hdist, hprev⟩ | ⟨-, -, -, ⟨p, hprev, hE⟩, heq⟩
    · exact .inl ⟨dist_eq_iff_label.mp hdist, hprev⟩
    · have hconnected := hback _ v rfl hE hv
      rw [hprev]
      exact .inr ⟨hconnected, heq (hlt hconnected), rfl, hE⟩
  rcases choose_cases (b := b) n with hchoose | ⟨p, hp, hchoose⟩
  · rw [hchoose]
    exact hpassed
  · rw [hchoose, prev_reach]
    split_ifs with hvp
    · obtain ⟨hseg, hE, hdist, halt⟩ := hties p hp
      subst hvp
      have hconnected := hback _ _ hseg hE hv
      have hu : b.dist u = s.dist u := hpass.dist_eq (hlt hconnected)
      refine .inr ⟨hconnected, ?_, hseg, hE⟩
      rw [label, hdist, halt, hu]
      exact toInt_add_one (hlt hconnected)
    · exact hpassed

theorem Labelled.step (h : Labelled g src s) (hinv : g.Inv) (hsrc : g.IsVertex src)
    (hnear : ∀ v, g.Connected src v → g.Near src v) (hw : Waiting g s)
    (hs : next g tie rand s = some s') : Labelled g src s' := by
  obtain ⟨e, b, htop, hpass, hties, -, rfl⟩ := next_cases hs
  have hlabel : (b.choose (rand s.pops)).label = b.label := by
    unfold label
    rw [dist_choose hties]
  have hchanged : ∀ v, g.Connected src v →
      (b.label v = s.label v ∧ (b.choose (rand s.pops)).prev v = s.prev v) ∨
      (g.Connected src e.1 ∧ b.label v = s.label e.1 + 1 ∧
        ((b.choose (rand s.pops)).prev v).chassisId = e.1 ∧
        g.Edge ((b.choose (rand s.pops)).prev v) v) :=
    fun v hv => changed_choose (s := s.pop e) hinv (h.top_lt hinv hsrc hnear hw htop) hpass hties _ hv
  have hself : g.Connected src src := ⟨[], .nil src⟩
  have hsrc0 := hpass.label_le src
  rw [label_pop, h.source] at hsrc0
  exact {
    source := by
      rw [hlabel]
      rcases hchanged src hself with ⟨hsame, -⟩ | ⟨hconnected, heq, -⟩
      · exact hsame.trans h.source
      · have hnonneg := h.nonneg e.1 hconnected
        omega
    sourcePrev := by
      rcases hchanged src hself with ⟨-, hprev⟩ | ⟨hconnected, heq, -⟩
      · rw [hprev]
        exact h.sourcePrev
      · have hnonneg := h.nonneg e.1 hconnected
        omega
    nonneg := fun v hv => by
      rw [hlabel]
      rcases hchanged v hv with ⟨hsame, -⟩ | ⟨hconnected, heq, -⟩
      · rw [hsame]
        exact h.nonneg v hv
      · have hnonneg := h.nonneg e.1 hconnected
        omega
    prev := fun v hv hne hless => by
      rw [hlabel] at hless ⊢
      rcases hchanged v hv with ⟨hsame, hprev⟩ | ⟨hconnected, heq, hseg, hE⟩
      · rw [hsame] at hless ⊢
        rw [hprev]
        obtain ⟨hE, hprevConnected, hle⟩ := h.prev v hv hne hless
        have hsmaller := hpass.label_le (s.prev v).chassisId
        exact ⟨hE, hprevConnected, le_trans (by rw [label_pop] at hsmaller; omega) hle⟩
      · rw [hseg]
        have hsmaller := hpass.label_le e.1
        exact ⟨hE, hconnected, by rw [label_pop] at hsmaller; omega⟩ }

theorem labelled_start (hinv : g.Inv) (hsrc : g.IsVertex src) : Labelled g src (.start g src) where
  source := label_start_self
  sourcePrev := rfl
  nonneg v hv := by
    by_cases hne : v = src
    · rw [hne]
      exact label_start_self.ge
    · rw [label_start_of_ne hne (hinv.isVertex_of_connected hv hsrc)]
      omega
  prev v hv hne hlt := by
    rw [label_start_of_ne hne (hinv.isVertex_of_connected hv hsrc)] at hlt
    omega

/-! ## The whole search -/

/-- The condition on the graph: the destination can be reached, through vertices with names, and all
that can be reached is near. -/
def Ok (g : LLDPMibGraph) (src dst : String) : Prop :=
  g.Connected src dst ∧ (∀ v, g.Connected src v → g.Near src v) ∧
    ∀ segs, g.Shortest src segs dst → ∀ seg ∈ segs, seg.chassisId ≠ ""

theorem search_eq_some {n : ℕ} {prev : String → LLDPPathSegment} :
    search tie rand n g src = some prev ↔
      ∃ t, whileLoop (next g tie rand) n (.start g src) = some t ∧ t.prev = prev :=
  Option.map_eq_some_iff

theorem search_mono {n m : ℕ} {prev : String → LLDPPathSegment}
    (h : search tie rand n g src = some prev) (hle : n ≤ m) :
    search tie rand m g src = some prev := by
  obtain ⟨t, ht, rfl⟩ := search_eq_some.mp h
  exact search_eq_some.mpr ⟨t, whileLoop_mono ht hle, rfl⟩

/-- Where all that can be reached is near, it gets shortest routes. -/
theorem search_finds (tie rand : ℕ → ℕ) (hinv : g.Inv) (hsrc : g.IsVertex src)
    (hnear : ∀ v, g.Connected src v → g.Near src v) {dst : String} (hdst : g.Connected src dst) :
    ∃ n prev, search tie rand n g src = some prev ∧ Finds g prev src dst := by
  obtain ⟨n, t, ht⟩ := exists_search tie rand hinv (waiting_start hsrc)
  obtain ⟨⟨hw, hlabelled⟩, hnext⟩ := whileLoop_invariant
    (P := fun s => Waiting g s ∧ Labelled g src s)
    (fun s s' ⟨hw, hlabelled⟩ hs => ⟨hw.step hinv hs, hlabelled.step hinv hsrc hnear hw hs⟩)
    ⟨waiting_start hsrc, labelled_start hinv hsrc⟩ ht
  have hempty : t.q = [] := top_eq_none (Option.map_eq_none_iff.mp hnext)
  have hrelaxed : ∀ v, g.IsVertex v → t.label v < 2147483647 →
      ∀ seg w, seg.chassisId = v → g.Edge seg w → t.label w ≤ t.label v + 1 := by
    intro v hv hlt
    refine (hw.pending v hv hlt).resolve_left fun hq => ?_
    rw [hempty] at hq
    cases hq
  have hlt : ∀ v, g.Connected src v → t.label v < 2147483647 :=
    fun v hv => hlabelled.lt_max hinv hsrc hrelaxed (hnear v hv)
  have hedge : ∀ seg v, g.Connected src seg.chassisId → g.Edge seg v →
      t.label v ≤ t.label seg.chassisId + 1 := fun seg v hseg hE =>
    hrelaxed _ (hinv.isVertex_of_connected hseg hsrc) (hlt _ hseg) seg v rfl hE
  refine ⟨n, t.prev, search_eq_some.mpr ⟨t, ht, rfl⟩, ?_, hlabelled.sourcePrev⟩
  refine exists_shortest_of_labels t.label 2147483647
    (P := g.Connected src) ⟨[], .nil src⟩ hlabelled.source hlabelled.nonneg ?_ ?_ hdst
    (t.label_le_max dst)
  · intro v hv hne
    obtain ⟨hE, hconnected, hle⟩ := hlabelled.prev v hv hne (hlt v hv)
    have hge := hedge _ _ hconnected hE
    exact ⟨hE, hconnected, by omega⟩
  · exact fun seg v hseg hE _ => ⟨hseg.trans (.edge hE), hedge seg v hseg hE⟩

theorem sound (tie rand : ℕ → ℕ) : RouteCache.Sound (search tie rand) Ok where
  mono := search_mono
  ends {g src dst} hinv hsrc hok := by
    obtain ⟨hdst, hnear, hnamed⟩ := hok
    obtain ⟨n, prev, hsearch, hfinds⟩ :=
      search_finds tie rand hinv hsrc hnear hdst
    obtain ⟨m, segs, hback, hshortest⟩ := hfinds.backTrack hnamed
    exact ⟨max n m, prev, (src, segs), search_mono hsearch (Nat.le_max_left n m),
      whileLoop_mono hback (Nat.le_max_right n m), .inl ⟨rfl, hshortest⟩⟩

end Balancing

end TsnReconfig.LLDP
