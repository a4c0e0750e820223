import TsnReconfig.Opt.LatencyRows

/-!
# The objective

`minimize_latency_objective` writes the entries of every candidate path over the zeros, so a
variable that no candidate path of its demand uses costs nothing.
-/

namespace TsnReconfig.Opt
open Lib

namespace GD

/-- The demands with their candidate paths. -/
def ownPairs (p : GD) : List (Demand × Path) := p.D.flatMap fun d => (p.paths d).map (d, ·)

variable {p : GD} {s : LatencyState} {done : List Row} {T : Transition} {d : Demand} {q : Path}
  {m : Model} {i : ℕ}

theorem mem_ownPairs : (d, q) ∈ p.ownPairs ↔ d ∈ p.D ∧ q ∈ p.paths d := by
  simp [ownPairs]

theorem mem_of_mem_pathEdges {e : Edge} (he : e ∈ p.pathEdges q) : e ∈ p.G.E := by
  obtain ⟨l, -, hl⟩ := List.mem_filterMap.mp he
  exact List.mem_of_find?_eq_some hl

theorem Covers.mem {e : Edge} (hc : p.Covers T d q) (he : e ∈ p.pathEdges q) :
    (p.xgTuple d q e, zOf T (p.xgTuple d q e)) ∈ T := by
  obtain ⟨z, hz⟩ := Option.isSome_iff_exists.mp (hc e he)
  have hmem := mem_of_lookup hz
  simpa [zOf, hz] using hmem

/-- The loop over the edges of a path. -/
theorem objectiveEdges_eq (hp : p.Linked) (hd : d ∈ p.D) (hq : q ∈ p.paths d) {links : List (ℕ × ℕ)}
    (hlinks : ∀ l ∈ links, l ∈ q.edges)
    (hcov : ∀ e ∈ links.filterMap p.G.getEdge, (T.lookup (p.xgTuple d q e)).isSome)
    (writes : List (ℕ × ℚ)) (total : ℚ) :
    let es := links.filterMap p.G.getEdge
    links.foldlM (p.objectiveEdge T d (p.xIndex d q)) (writes, total) =
      some (writes ++ es.map (fun e => (zOf T (p.xgTuple d q e), -1 / 2)),
        total + (es.map fun e => e.latency + 1 / 2).sum) := by
  induction links generalizing writes total with
  | nil => simp
  | cons l links ih =>
    obtain ⟨e, hget⟩ :=
      Option.isSome_iff_exists.mp (hp d hd q hq l (hlinks l List.mem_cons_self))
    rw [List.filterMap_cons, hget] at hcov
    obtain ⟨z, hz⟩ := Option.isSome_iff_exists.mp (hcov e List.mem_cons_self)
    have hrest := ih (fun l' hl' => hlinks l' (.tail _ hl')) (fun e' he' => hcov e' (.tail _ he'))
      (writes ++ [(z, -1 / 2)]) (total + (e.latency + 1 / 2))
    have hstep : p.objectiveEdge T d (p.xIndex d q) (writes, total) l =
        some (writes ++ [(z, -1 / 2)], total + (e.latency + 1 / 2)) := by
      simp only [xgTuple] at hz
      simp only [objectiveEdge, hget, Option.bind_eq_bind, Option.bind_some, hz, pure]
    have hzOf : zOf T (p.xgTuple d q e) = z := by rw [zOf, hz, Option.getD_some]
    rw [List.foldlM_cons, hstep]
    simp only [Option.bind_eq_bind, Option.bind_some, hrest, List.filterMap_cons, hget,
      List.map_cons, List.sum_cons, hzOf, List.append_assoc, List.singleton_append, add_assoc]

/-- What is written for a path is what its latency row would hold. -/
theorem objectivePath_eq (hp : p.Linked) (hd : d ∈ p.D) (hq : q ∈ p.paths d) (hc : p.Covers T d q) :
    p.objectivePath T d q = some (p.latencyEntries T d q) := by
  simp only [objectivePath, objectiveEdges_eq hp hd hq (fun _ hl => hl) hc [] 0,
    Option.bind_eq_bind, Option.bind_some, List.nil_append, zero_add, latencyEntries, pathEdges,
    totalEdgeDelays, pure]

theorem objectiveWrites_eq (hp : p.Linked)
    (hc : ∀ d ∈ p.D, ∀ q ∈ p.paths d, p.Covers T d q) :
    p.objectiveWrites T = some (p.ownPairs.flatMap fun dq => p.latencyEntries T dq.1 dq.2) := by
  have hmap : p.ownPairs.mapM (fun dq => p.objectivePath T dq.1 dq.2) =
      some (p.ownPairs.map fun dq => p.latencyEntries T dq.1 dq.2) := by
    apply mapM_eq_some_map
    rintro ⟨d, q⟩ hmem
    obtain ⟨hd, hq⟩ := mem_ownPairs.mp hmem
    exact objectivePath_eq hp hd hq (hc d hd q hq)
  unfold objectiveWrites
  show ((p.ownPairs.mapM fun dq => p.objectivePath T dq.1 dq.2).bind fun writes =>
    some writes.flatten) = _
  rw [hmap, Option.bind_some, ← List.flatMap_def]

/-- The variables the rows and the objective speak of: those of the candidate paths, the
gates and the products. -/
def IsOwn (p : GD) (i : ℕ) : Prop :=
  (∃ d ∈ p.D, ∃ q ∈ p.paths d, i = p.xIndex d q) ∨ p.xDpSize ≤ i

theorem Good.entries_own (hs : p.Good s done) (hd : d ∈ p.D) (hq : q ∈ p.paths d)
    (hc : p.Covers s.zTransition d q) :
    ∀ w ∈ p.latencyEntries s.zTransition d q, p.IsOwn w.1 := by
  intro w hw
  rcases List.mem_append.mp hw with hw | hw
  · obtain ⟨e, he, rfl⟩ := List.mem_map.mp hw
    have hle := (hs.allocated.bounds (hc.mem he)).1
    exact .inr (show p.xDpSize ≤ zOf s.zTransition (p.xgTuple d q e) by omega)
  · obtain rfl := List.mem_singleton.mp hw
    exact .inl ⟨d, hd, q, hq, rfl⟩

theorem Good.entries_lt (hp : p.WellFormed) (hs : p.Good s done) (hd : d ∈ p.D)
    (hq : q ∈ p.paths d) (hc : p.Covers s.zTransition d q) :
    ∀ w ∈ p.latencyEntries s.zTransition d q,
      w.1 < p.xDpSize + p.gEsSize + s.zTransition.length := by
  intro w hw
  rcases List.mem_append.mp hw with hw | hw
  · obtain ⟨e, he, rfl⟩ := List.mem_map.mp hw
    exact (hs.allocated.bounds (hc.mem he)).2
  · obtain rfl := List.mem_singleton.mp hw
    have hlt := hp.xIndex_lt hd (mem_paths.mp hq).1
    show p.xIndex d q < _
    omega

/-- The program can be set up exactly when the first demand has a candidate path. -/
theorem addConstraints_isSome_iff (hp : p.WellFormed) :
    p.addConstraints.isSome ↔ ∀ d, p.D.head? = some d → p.paths d ≠ [] := by
  constructor
  · intro hsome d hd hnone
    obtain ⟨m, hm⟩ := Option.isSome_iff_exists.mp hsome
    obtain ⟨latency, hlatency, -⟩ := addConstraints_eq_some hm
    rw [latencyConstraint_eq_none hd hnone] at hlatency
    simp at hlatency
  · intro hfirst
    obtain ⟨s, hs, hgood, hcov⟩ := latencyConstraint_eq_some hp.linked hfirst
    have hwrites := objectiveWrites_eq hp.linked hcov
    have hall : (p.ownPairs.flatMap fun dq => p.latencyEntries s.zTransition dq.1 dq.2).all
        (fun w => w.1 < p.xDpSize + p.gEsSize + s.zTransition.length) = true := by
      rw [List.all_eq_true]
      intro w hw
      obtain ⟨⟨d, q⟩, hmem, hw⟩ := List.mem_flatMap.mp hw
      obtain ⟨hd, hq⟩ := mem_ownPairs.mp hmem
      exact decide_eq_true (hgood.entries_lt hp hd hq (hcov d hd q hq) w hw)
    simp [addConstraints, hs, minimizeLatencyObjective, hwrites, hall]

theorem foldl_update_of_forall_ne {writes : List (ℕ × ℚ)} {objective : ℕ → ℚ}
    (h : ∀ w ∈ writes, w.1 ≠ i) :
    writes.foldl (fun objective w => Function.update objective w.1 w.2) objective i =
      objective i := by
  induction writes generalizing objective with
  | nil => rfl
  | cons w writes ih =>
    rw [List.foldl_cons, ih fun w' hw' => h w' (.tail _ hw'),
      Function.update_of_ne (h w List.mem_cons_self).symm]

/-- The other variables cost nothing. -/
theorem objective_eq_zero (hp : p.WellFormed) (hm : p.addConstraints = some m)
    (hi : ¬p.IsOwn i) : m.objective i = 0 := by
  obtain ⟨s, hs, -, hobjective, -⟩ := addConstraints_eq_some hm
  obtain ⟨hgood, hcov⟩ := good_of_latencyConstraint hs
  obtain ⟨writes, hwrites, hupdate⟩ := Option.bind_eq_some_iff.mp hobjective
  rw [objectiveWrites_eq hp.linked hcov] at hwrites
  obtain rfl := Option.some.inj hwrites
  split_ifs at hupdate
  obtain hupdate := Option.some.inj hupdate
  rw [← hupdate]
  apply foldl_update_of_forall_ne
  rintro w hw rfl
  obtain ⟨⟨d, q⟩, hmem, hw⟩ := List.mem_flatMap.mp hw
  obtain ⟨hd, hq⟩ := mem_ownPairs.mp hmem
  exact hi (hgood.entries_own hd hq (hcov d hd q hq) w hw)

end GD

end TsnReconfig.Opt
