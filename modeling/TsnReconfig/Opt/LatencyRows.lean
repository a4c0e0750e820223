import TsnReconfig.Lib.Lists
import TsnReconfig.Opt.Variables

/-!
# The latency rows

What `latency_constraint` builds: a product variable for every pair of a path variable and a
gate variable that occurs, and one row for every demand. The row of a demand is that of the
last path the loop over its paths went through.
-/

namespace TsnReconfig.Opt
open Lib

namespace GD

/-- The edges of a path. -/
def pathEdges (p : GD) (q : Path) : List Edge := q.edges.filterMap p.G.getEdge

/-- `total_edge_delays` after the loop over the edges of a path. -/
def totalEdgeDelays (p : GD) (q : Path) : ℚ := ((p.pathEdges q).map fun e => e.latency + 1 / 2).sum

/-- The variable of a product, `z_transition[xg_tuple]`. -/
def zOf (T : Transition) (k : ℕ × ℕ) : ℕ := (T.lookup k).getD 0

/-- The pair of a demand on a path and an edge, `xg_tuple`. -/
def xgTuple (p : GD) (d : Demand) (q : Path) (e : Edge) : ℕ × ℕ :=
  (p.xIndex d q, p.gIndex e d.serviceType)

/-- What `var` and `mult` hold after a path. -/
def latencyEntries (p : GD) (T : Transition) (d : Demand) (q : Path) : List (ℕ × ℚ) :=
  ((p.pathEdges q).map fun e => (zOf T (p.xgTuple d q e), -1 / 2)) ++
    [(p.xIndex d q, p.totalEdgeDelays q)]

/-- The last path the loop has been through when the row of the demand is added. -/
def leak (p : GD) (last : Option (Demand × Path)) (d : Demand) : Option (Demand × Path) :=
  ((p.paths d).getLast?.map (d, ·)).or last

/-- The rows of the demands. -/
def demandRows (p : GD) (T : Transition) : Option (Demand × Path) → List Demand → List Row
  | _, [] => []
  | last, d :: D =>
    let last := p.leak last d
    ⟨(last.map fun (d, q) => p.latencyEntries T d q).getD [], .le, d.latency⟩ ::
      demandRows p T last D

/-- Every product on the path has a variable. -/
def Covers (p : GD) (T : Transition) (d : Demand) (q : Path) : Prop :=
  ∀ e ∈ p.pathEdges q, (T.lookup (p.xgTuple d q e)).isSome

/-- The edges of the candidate paths are found. -/
def Linked (p : GD) : Prop :=
  ∀ d ∈ p.D, ∀ q ∈ p.paths d, ∀ l ∈ q.edges, (p.G.getEdge l).isSome

def Extends (T T' : Transition) : Prop := ∀ k z, T.lookup k = some z → T'.lookup k = some z

/-- The pair belongs to a demand, one of its paths and an edge. -/
def IsPair (p : GD) (k : ℕ × ℕ) : Prop :=
  ∃ d ∈ p.D, ∃ q ∈ p.paths d, ∃ e ∈ p.G.E, k = p.xgTuple d q e

/-- The state of `latency_constraint` when the rows `done` of the demands have been added. -/
structure Good (p : GD) (s : LatencyState) (done : List Row) : Prop where
  next : s.zIndex = p.xDpSize + p.gEsSize + s.zTransition.length
  allocated : Allocated (p.xDpSize + p.gEsSize) s.zTransition
  keys : ∀ k ∈ s.zTransition.map Prod.fst, p.IsPair k
  rows : ∀ r, r ∈ s.rows ↔
    (∃ kz ∈ s.zTransition, r ∈ linearization kz.2 kz.1.1 kz.1.2) ∨ r ∈ done

variable {p : GD} {s : LatencyState} {done : List Row} {d : Demand} {q : Path} {T T' T'' : Transition}

theorem WellFormed.linked (hp : p.WellFormed) : p.Linked := by
  intro d _ q hq l hl
  obtain ⟨e, -, hget, -⟩ := hp.exists_getEdge (mem_paths.mp hq).1 hl
  rw [hget]
  rfl

theorem Extends.refl (T : Transition) : Extends T T := fun _ _ h => h

theorem Extends.trans (h : Extends T T') (h' : Extends T' T'') : Extends T T'' :=
  fun k z hk => h' k z (h k z hk)

theorem Extends.zOf_eq {k : ℕ × ℕ} (h : Extends T T') (hk : (T.lookup k).isSome) :
    zOf T' k = zOf T k := by
  obtain ⟨z, hz⟩ := Option.isSome_iff_exists.mp hk
  rw [zOf, zOf, hz, h k z hz]

theorem Covers.mono (hc : p.Covers T d q) (h : Extends T T') : p.Covers T' d q := by
  intro e he
  obtain ⟨z, hz⟩ := Option.isSome_iff_exists.mp (hc e he)
  exact Option.isSome_iff_exists.mpr ⟨z, h _ z hz⟩

/-- Later products do not change the entries of a path. -/
theorem Covers.latencyEntries_eq (hc : p.Covers T d q) (h : Extends T T') :
    p.latencyEntries T' d q = p.latencyEntries T d q := by
  unfold latencyEntries
  congr 1
  apply List.map_congr_left
  intro e he
  rw [h.zOf_eq (hc e he)]

/-- The pair has a variable after `addTransition`, and the others keep theirs. -/
theorem Good.addTransition (hs : p.Good s done) {x g : ℕ} (hk : p.IsPair (x, g)) :
    p.Good (s.addTransition x g) done ∧
      Extends s.zTransition (s.addTransition x g).zTransition ∧
      ((s.addTransition x g).zTransition.lookup (x, g)).isSome ∧
      (s.addTransition x g).entries = s.entries := by
  by_cases hsome : (s.zTransition.lookup (x, g)).isSome
  · have heq : s.addTransition x g = s := by rw [LatencyState.addTransition, if_pos hsome]
    rw [heq]
    exact ⟨hs, .refl _, hsome, rfl⟩
  · have heq : s.addTransition x g = { s with
        zIndex := s.zIndex + 1
        zTransition := ((x, g), s.zIndex) :: s.zTransition
        rows := s.rows ++ linearization s.zIndex x g } := by
      rw [LatencyState.addTransition, if_neg hsome]
    rw [heq]
    refine ⟨⟨?_, ⟨hs.next, ?_, hs.allocated⟩, ?_, ?_⟩, ?_, ?_, rfl⟩
    · show s.zIndex + 1 = _
      rw [hs.next, List.length_cons, Nat.add_assoc]
    · exact fun hmem => hsome (lookup_isSome_iff.mpr hmem)
    · intro k hkey
      rcases List.mem_cons.mp hkey with rfl | hkey
      · exact hk
      · exact hs.keys k hkey
    · intro r
      simp only [List.mem_append, hs.rows, List.exists_mem_cons_iff]
      rw [or_comm, ← or_assoc]
    · intro k z hz
      rw [List.lookup_cons, beq_false_of_ne, hz]
      rintro rfl
      exact hsome (Option.isSome_iff_exists.mpr ⟨z, hz⟩)
    · simp

/-- The loop over the edges of a path. -/
theorem Good.latencyEdges (hp : p.Linked) (hd : d ∈ p.D) (hq : q ∈ p.paths d)
    {links : List (ℕ × ℕ)} (hlinks : ∀ l ∈ links, l ∈ q.edges) (hs : p.Good s done)
    (entries : List (ℕ × ℚ)) (total : ℚ) :
    let es := links.filterMap p.G.getEdge
    ∃ s', links.foldlM (p.latencyEdge d (p.xIndex d q)) (s, entries, total) =
        some (s', entries ++ es.map (fun e => (zOf s'.zTransition (p.xgTuple d q e), -1 / 2)),
          total + (es.map fun e => e.latency + 1 / 2).sum) ∧
      p.Good s' done ∧ Extends s.zTransition s'.zTransition ∧
      (∀ e ∈ es, (s'.zTransition.lookup (p.xgTuple d q e)).isSome) ∧ s'.entries = s.entries := by
  induction links generalizing s entries total with
  | nil => exact ⟨s, by simp, hs, .refl _, by simp, rfl⟩
  | cons l links ih =>
    obtain ⟨e, hget⟩ :=
      Option.isSome_iff_exists.mp (hp d hd q hq l (hlinks l List.mem_cons_self))
    have he := List.mem_of_find?_eq_some hget
    obtain ⟨hs₁, hext₁, hsome, hent₁⟩ := hs.addTransition ⟨d, hd, q, hq, e, he, rfl⟩
    obtain ⟨z, hz⟩ := Option.isSome_iff_exists.mp hsome
    obtain ⟨s', hfold, hs', hext, hcov, hent⟩ := ih (fun l' hl' => hlinks l' (.tail _ hl')) hs₁
      (entries ++ [(z, -1 / 2)]) (total + (e.latency + 1 / 2))
    have hz' : zOf s'.zTransition (p.xgTuple d q e) = z := by
      rw [zOf, xgTuple, hext _ _ hz]
      rfl
    refine ⟨s', ?_, hs', hext₁.trans hext, ?_, hent.trans hent₁⟩
    · have hstep : p.latencyEdge d (p.xIndex d q) (s, entries, total) l =
          some (s.addTransition (p.xIndex d q) (p.gIndex e d.serviceType),
            entries ++ [(z, -1 / 2)], total + (e.latency + 1 / 2)) := by
        simp only [latencyEdge, hget, Option.bind_eq_bind, Option.bind_some, hz, pure]
      rw [List.foldlM_cons, hstep]
      simp only [Option.bind_eq_bind, Option.bind_some, hfold, List.filterMap_cons, hget,
        List.map_cons, List.sum_cons, hz', List.append_assoc, List.singleton_append, add_assoc]
    · intro e' he'
      rw [List.filterMap_cons, hget] at he'
      rcases List.mem_cons.mp he' with rfl | he'
      · exact Option.isSome_iff_exists.mpr ⟨z, hext _ _ hz⟩
      · exact hcov e' he'

/-- A round of the loop over the paths. -/
theorem Good.latencyPath (hp : p.Linked) (hd : d ∈ p.D) (hq : q ∈ p.paths d)
    (hs : p.Good s done) :
    ∃ s', p.latencyPath d s q = some s' ∧ p.Good s' done ∧
      Extends s.zTransition s'.zTransition ∧ p.Covers s'.zTransition d q ∧
      s'.entries = some (p.latencyEntries s'.zTransition d q) := by
  obtain ⟨s₁, hfold, hs₁, hext, hcov, -⟩ := hs.latencyEdges hp hd hq (fun _ hl => hl) [] 0
  refine ⟨{ s₁ with entries := some (p.latencyEntries s₁.zTransition d q) }, ?_,
    ⟨hs₁.next, hs₁.allocated, hs₁.keys, hs₁.rows⟩, hext, hcov, rfl⟩
  simp only [GD.latencyPath, hfold, Option.bind_eq_bind, Option.bind_some, List.nil_append,
    zero_add, latencyEntries, pathEdges, totalEdgeDelays, pure]

/-- The loop over the paths of a demand. -/
theorem Good.latencyPaths (hp : p.Linked) (hd : d ∈ p.D) {ps : List Path}
    (hps : ∀ q ∈ ps, q ∈ p.paths d) (hs : p.Good s done) :
    ∃ s', ps.foldlM (p.latencyPath d) s = some s' ∧ p.Good s' done ∧
      Extends s.zTransition s'.zTransition ∧ (∀ q ∈ ps, p.Covers s'.zTransition d q) ∧
      s'.entries = (ps.getLast?.map (p.latencyEntries s'.zTransition d)).or s.entries := by
  induction ps generalizing s with
  | nil => exact ⟨s, rfl, hs, .refl _, by simp, rfl⟩
  | cons q ps ih =>
    obtain ⟨s₁, hpath, hs₁, hext₁, hcov₁, hent₁⟩ := hs.latencyPath hp hd (hps q List.mem_cons_self)
    obtain ⟨s', hfold, hs', hext, hcov, hent⟩ := ih (fun q' hq' => hps q' (.tail _ hq')) hs₁
    refine ⟨s', ?_, hs', hext₁.trans hext, ?_, ?_⟩
    · rw [List.foldlM_cons, hpath]
      exact hfold
    · intro q' hq'
      rcases List.mem_cons.mp hq' with rfl | hq'
      · exact hcov₁.mono hext
      · exact hcov q' hq'
    · rw [hent, hent₁, ← hcov₁.latencyEntries_eq hext]
      cases hlast : ps.getLast? <;> simp [List.getLast?_cons, hlast]

/-- The entries are those of the last path. -/
def Holding (p : GD) (s : LatencyState) (last : Option (Demand × Path)) : Prop :=
  s.entries = last.map (fun (d, q) => p.latencyEntries s.zTransition d q) ∧
    ∀ d q, last = some (d, q) → p.Covers s.zTransition d q

theorem Good.addRow (hs : p.Good s done) (row : Row) :
    p.Good { s with rows := s.rows ++ [row] } (done ++ [row]) where
  next := hs.next
  allocated := hs.allocated
  keys := hs.keys
  rows r := by
    simp only [List.mem_append, hs.rows]
    exact or_assoc

/-- The loop over the demands, if the first of them finds entries. -/
theorem Good.latencyDemands (hp : p.Linked) {D : List Demand} (hD : ∀ d ∈ D, d ∈ p.D)
    {last : Option (Demand × Path)} (hlast : p.Holding s last)
    (hfirst : ∀ d, D.head? = some d → (p.leak last d).isSome) (hs : p.Good s done) :
    ∃ s', D.foldlM p.latencyDemand s = some s' ∧ Extends s.zTransition s'.zTransition ∧
      p.Good s' (done ++ p.demandRows s'.zTransition last D) ∧
      ∀ d ∈ D, ∀ q ∈ p.paths d, p.Covers s'.zTransition d q := by
  induction D generalizing s done last with
  | nil => exact ⟨s, rfl, .refl _, by simpa [demandRows] using hs, by simp⟩
  | cons d D ih =>
    have hd := hD d List.mem_cons_self
    obtain ⟨s₁, hpaths, hs₁, hext₁, hcov₁, hent₁⟩ := hs.latencyPaths hp hd fun _ hq => hq
    -- a demand without candidates keeps the entries of the one before
    have hhold : p.Holding s₁ (p.leak last d) := by
      unfold leak
      cases hlastq : (p.paths d).getLast? with
      | none =>
        rw [hlastq] at hent₁
        constructor
        · rw [hent₁, Option.map_none, Option.none_or, hlast.1]
          cases hl : last with
          | none => rfl
          | some dq => simp [(hlast.2 dq.1 dq.2 hl).latencyEntries_eq hext₁]
        · intro d' q' hl
          exact (hlast.2 d' q' (by simpa using hl)).mono hext₁
      | some q =>
        rw [hlastq] at hent₁
        constructor
        · rw [hent₁]
          rfl
        · intro d' q' hl
          obtain ⟨rfl, rfl⟩ : d = d' ∧ q = q' := by simpa using hl
          exact hcov₁ q (List.mem_of_getLast? hlastq)
    obtain ⟨⟨d', q'⟩, hleak⟩ := Option.isSome_iff_exists.mp (hfirst d rfl)
    have hent : s₁.entries = some (p.latencyEntries s₁.zTransition d' q') := by
      rw [hhold.1, hleak]
      rfl
    have hdemand : p.latencyDemand s d = some { s₁ with
        rows := s₁.rows ++ [⟨p.latencyEntries s₁.zTransition d' q', .le, d.latency⟩] } := by
      simp only [latencyDemand, hpaths, hent, Option.bind_eq_bind, Option.bind_some, pure]
    have hnext : ∀ d₁, D.head? = some d₁ → (p.leak (p.leak last d) d₁).isSome := by
      intro d₁ _
      rw [leak, hleak]
      cases (p.paths d₁).getLast? <;> rfl
    obtain ⟨s', hfold, hext, hs', hcov⟩ := ih (fun d hd => hD d (.tail _ hd))
      (s := { s₁ with
        rows := s₁.rows ++ [⟨p.latencyEntries s₁.zTransition d' q', .le, d.latency⟩] })
      hhold hnext (hs₁.addRow _)
    refine ⟨s', ?_, hext₁.trans hext, ?_, ?_⟩
    · rw [List.foldlM_cons, hdemand]
      exact hfold
    · have hentries := (hhold.2 d' q' hleak).latencyEntries_eq hext
      simp only [demandRows, hleak, Option.map_some, Option.getD_some, hentries]
      simpa [hleak] using hs'
    · intro d₁ hd₁ q₁ hq₁
      rcases List.mem_cons.mp hd₁ with rfl | hd₁
      · exact (hcov₁ q₁ hq₁).mono hext
      · exact hcov d₁ hd₁ q₁ hq₁

/-- `latency_constraint` gets through if the first demand has a path. -/
theorem latencyConstraint_eq_some (hp : p.Linked)
    (hfirst : ∀ d, p.D.head? = some d → p.paths d ≠ []) :
    ∃ s, p.latencyConstraint = some s ∧ p.Good s (p.demandRows s.zTransition none p.D) ∧
      ∀ d ∈ p.D, ∀ q ∈ p.paths d, p.Covers s.zTransition d q := by
  have hstart : p.Good ⟨p.xDpSize + p.gEsSize, [], [], none⟩ [] :=
    ⟨rfl, trivial, by simp, by simp⟩
  have hhold : p.Holding ⟨p.xDpSize + p.gEsSize, [], [], none⟩ none := ⟨rfl, by simp⟩
  have hleak : ∀ d, p.D.head? = some d → (p.leak none d).isSome := by
    intro d hd
    obtain ⟨q, hq⟩ := Option.isSome_iff_exists.mp (List.getLast?_isSome.mpr (hfirst d hd))
    simp [leak, hq]
  obtain ⟨s, hs, -, hgood, hcov⟩ := hstart.latencyDemands hp (fun _ hd => hd) hhold hleak
  exact ⟨s, hs, by simpa using hgood, hcov⟩

/-- It reads unset variables if the first demand has none. -/
theorem latencyConstraint_eq_none (hd : p.D.head? = some d) (hnone : p.paths d = []) :
    p.latencyConstraint = none := by
  obtain ⟨D, hD⟩ := List.head?_eq_some_iff.mp hd
  rw [latencyConstraint, hD, List.foldlM_cons]
  simp [latencyDemand, hnone]

/-- It has looked every edge up when it gets through. -/
theorem linked_of_latencyConstraint (hs : p.latencyConstraint = some s) : p.Linked := by
  intro d hd q hq l hl
  obtain ⟨s₁, s₂, hdemand⟩ := exists_pass_of_foldlM hs hd
  obtain ⟨s₃, hpaths, -⟩ := Option.bind_eq_some_iff.mp hdemand
  obtain ⟨s₄, s₅, hpath⟩ := exists_pass_of_foldlM hpaths hq
  obtain ⟨r, hedges, -⟩ := Option.bind_eq_some_iff.mp hpath
  obtain ⟨r₁, r₂, hedge⟩ := exists_pass_of_foldlM hedges hl
  obtain ⟨e, hget, -⟩ := Option.bind_eq_some_iff.mp hedge
  rw [hget]
  rfl

/-- What it builds when it gets through. -/
theorem good_of_latencyConstraint (hs : p.latencyConstraint = some s) :
    p.Good s (p.demandRows s.zTransition none p.D) ∧
      ∀ d ∈ p.D, ∀ q ∈ p.paths d, p.Covers s.zTransition d q := by
  have hfirst : ∀ d, p.D.head? = some d → p.paths d ≠ [] := by
    intro d hd hnone
    rw [latencyConstraint_eq_none hd hnone] at hs
    simp at hs
  obtain ⟨s', hs', hgood, hcov⟩ :=
    latencyConstraint_eq_some (linked_of_latencyConstraint hs) hfirst
  obtain rfl := Option.some.inj (hs.symm.trans hs')
  exact ⟨hgood, hcov⟩

/-- The row of a demand is that of its last path, if every demand has a path. -/
theorem mem_demandRows (hpaths : ∀ d ∈ p.D, p.paths d ≠ []) {D : List Demand}
    (hD : ∀ d ∈ D, d ∈ p.D) {last : Option (Demand × Path)} {r : Row} :
    r ∈ p.demandRows T last D ↔ ∃ d ∈ D, ∃ q, (p.paths d).getLast? = some q ∧
      r = ⟨p.latencyEntries T d q, .le, d.latency⟩ := by
  induction D generalizing last with
  | nil => simp [demandRows]
  | cons d D ih =>
    obtain ⟨q, hq⟩ :=
      Option.isSome_iff_exists.mp (List.getLast?_isSome.mpr (hpaths d (hD d List.mem_cons_self)))
    rw [demandRows, List.mem_cons, ih fun d hd => hD d (.tail _ hd), List.exists_mem_cons_iff]
    apply or_congr_left
    simp [leak, hq]

end GD

end TsnReconfig.Opt
