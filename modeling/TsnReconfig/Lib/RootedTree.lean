import Mathlib.Combinatorics.SimpleGraph.Acyclic

/-!
# Trees by parents

A parent for every vertex but one, with ranks that go down, makes a tree. Conversely, in a tree
every vertex has a parent on the way to any other one that is chosen for the root.
-/

namespace TsnReconfig.Lib
open SimpleGraph

variable {V : Type*} {G : SimpleGraph V} {root : V}

section
variable {parent : V → V} {rank : V → ℕ}

theorem connected_of_parent (hrank : ∀ v, v ≠ root → rank (parent v) < rank v)
    (hadj : ∀ v, v ≠ root → G.Adj (parent v) v) : G.Connected := by
  have hroot : ∀ v, G.Reachable root v := by
    intro v
    induction hn : rank v using Nat.strong_induction_on generalizing v with
    | _ n ih =>
      by_cases hv : v = root
      · rw [hv]
      · exact (ih _ (hn ▸ hrank v hv) (parent v) rfl).trans (hadj v hv).reachable
  have : Nonempty V := ⟨root⟩
  exact ⟨fun u v => (hroot u).symm.trans (hroot v)⟩

/-- The edges to the parents, and no others, are a tree. -/
theorem isTree_of_parent [Finite V] (hrank : ∀ v, v ≠ root → rank (parent v) < rank v)
    (hadj : ∀ u v, G.Adj u v ↔ (v ≠ root ∧ parent v = u) ∨ (u ≠ root ∧ parent u = v)) :
    G.IsTree := by
  classical
  have hparent : ∀ v, v ≠ root → G.Adj (parent v) v := fun v hv => (hadj _ _).mpr (.inl ⟨hv, rfl⟩)
  rw [isTree_iff_connected_and_card]
  refine ⟨connected_of_parent hrank hparent, ?_⟩
  -- an edge is that of one vertex to its parent
  let edge (v : { v // v ≠ root }) : G.edgeSet := ⟨s(parent v, v), hparent v v.2⟩
  have hinjective : Function.Injective edge := by
    intro u v huv
    rcases Sym2.eq_iff.mp (congrArg Subtype.val huv) with ⟨-, heq⟩ | ⟨hu, hv⟩
    · exact Subtype.ext heq
    · have hltu := hrank u u.2
      have hltv := hrank v v.2
      rw [hu] at hltu
      rw [← hv] at hltv
      omega
  have hsurjective : Function.Surjective edge := by
    rintro ⟨e, he⟩
    induction e using Sym2.inductionOn with
    | _ u v =>
      rcases (hadj u v).mp he with ⟨hv, rfl⟩ | ⟨hu, rfl⟩
      · exact ⟨⟨v, hv⟩, rfl⟩
      · exact ⟨⟨u, hu⟩, Subtype.ext Sym2.eq_swap⟩
  have := Fintype.ofFinite V
  have hpos : 0 < Fintype.card V := Fintype.card_pos_iff.mpr ⟨root⟩
  rw [← Nat.card_congr (Equiv.ofBijective edge ⟨hinjective, hsurjective⟩),
    Nat.card_eq_fintype_card, Nat.card_eq_fintype_card, Fintype.card_subtype_compl,
    Fintype.card_subtype_eq]
  omega

end

/-- The neighbours of a vertex in a tree are farther away from the root, but for one. -/
theorem existsUnique_closer (h : G.IsTree) {v : V} (hv : v ≠ root) :
    ∃! u, G.Adj u v ∧ G.dist root v = G.dist root u + 1 := by
  obtain ⟨p, hp, hlength⟩ := h.connected.exists_path_of_dist root v
  have hnil : ¬p.Nil := Walk.not_nil_of_ne hv.symm
  refine ⟨p.penultimate, ⟨p.adj_penultimate hnil, ?_⟩, ?_⟩
  · have hle := dist_le p.dropLast
    rw [Walk.length_dropLast] at hle
    rcases h.dist_eq_dist_add_one_of_adj root (p.adj_penultimate hnil) with heq | heq
    · omega
    · exact heq
  · rintro u ⟨hadj, heq⟩
    obtain ⟨q, hq, hqlength⟩ := h.connected.exists_path_of_dist root u
    refine h.isAcyclic.eq_penultimate_of_adj_end hp hadj.symm ?_
    refine h.isAcyclic.mem_support_of_ne_mem_support_of_adj_of_isPath hp hq hadj.symm fun hmem => ?_
    classical
    have hle := dist_le (q.takeUntil v hmem)
    have hshort := q.length_takeUntil_le_length hmem
    omega

/-- The first vertex is a neighbour of the second one on the way to a root. -/
def Closer (G : SimpleGraph V) (root u v : V) : Prop :=
  G.Adj u v ∧ G.dist root v = G.dist root u + 1

section
variable {u u' v : V}

theorem Closer.adj (h : Closer G root u v) : G.Adj u v := h.1

theorem Closer.not_symm (h : Closer G root u v) : ¬Closer G root v u := by
  intro h'
  have hlt := h.2
  have hgt := h'.2
  omega

theorem Closer.ne_root (h : Closer G root u v) : v ≠ root := by
  rintro rfl
  have hdist := h.2
  rw [dist_self] at hdist
  omega

theorem exists_closer (hG : G.IsTree) (hv : v ≠ root) : ∃ u, Closer G root u v :=
  (existsUnique_closer hG hv).exists

theorem Closer.unique (hG : G.IsTree) (h : Closer G root u v) (h' : Closer G root u' v) :
    u = u' :=
  (existsUnique_closer hG h.ne_root).unique h h'

/-- Of two neighbours one is on the way of the other. -/
theorem closer_or_closer (hG : G.IsTree) (root : V) (h : G.Adj u v) :
    Closer G root u v ∨ Closer G root v u := by
  rcases hG.dist_eq_dist_add_one_of_adj root h with heq | heq
  · exact .inr ⟨h.symm, heq⟩
  · exact .inl ⟨h, heq⟩

end

end TsnReconfig.Lib
