import Mathlib.Data.List.Dedup
import TsnReconfig.Opt.Terms

/-!
# An enumeration of simple paths

A depth first search that does what the optimiser takes from outside: the libraries the
results assume exist, and models can be run with it.
-/

namespace TsnReconfig.Opt

/-- The simple paths from `node` to `target` with at most `cutoff` edges that avoid the
visited nodes. -/
def simplePaths (t : Topology) (target : ℕ) : (cutoff : ℕ) → (visited : List ℕ) →
    (node : ℕ) → List (List ℕ)
  | 0, _, node => if node = target then [[node]] else []
  | cutoff + 1, visited, node =>
    if node = target then [[node]]
    else
      ((List.range t.size).filter fun child =>
          t.adjacent node child && child ∉ node :: visited).flatMap fun child =>
        (simplePaths t target cutoff (node :: visited) child).map (node :: ·)

variable {t : Topology} {target cutoff node : ℕ} {visited p : List ℕ}

theorem simplePaths_ends (hp : p ∈ simplePaths t target cutoff visited node) :
    p.head? = some node ∧ p.getLast? = some target := by
  induction cutoff generalizing visited node p with
  | zero =>
    unfold simplePaths at hp
    split_ifs at hp with h
    · obtain rfl := List.mem_singleton.mp hp
      simp [h]
    · simp at hp
  | succ cutoff ih =>
    unfold simplePaths at hp
    split_ifs at hp with h
    · obtain rfl := List.mem_singleton.mp hp
      simp [h]
    · obtain ⟨child, -, hp⟩ := List.mem_flatMap.mp hp
      obtain ⟨rest, hrest, rfl⟩ := List.mem_map.mp hp
      have hlast := (ih hrest).2
      simp [List.getLast?_cons, hlast]

theorem simplePaths_adjacent (hp : p ∈ simplePaths t target cutoff visited node) :
    p.IsChain fun i j => t.adjacent i j = true := by
  induction cutoff generalizing visited node p with
  | zero =>
    unfold simplePaths at hp
    split_ifs at hp with h
    · obtain rfl := List.mem_singleton.mp hp
      exact List.IsChain.singleton _
    · simp at hp
  | succ cutoff ih =>
    unfold simplePaths at hp
    split_ifs at hp with h
    · obtain rfl := List.mem_singleton.mp hp
      exact List.IsChain.singleton _
    · obtain ⟨child, hchild, hp⟩ := List.mem_flatMap.mp hp
      obtain ⟨rest, hrest, rfl⟩ := List.mem_map.mp hp
      have hadj : t.adjacent node child = true := by
        simpa using (Bool.and_eq_true_iff.mp (List.mem_filter.mp hchild).2).1
      apply List.isChain_cons.mpr
      refine ⟨fun j hj => ?_, ih hrest⟩
      obtain rfl : child = j := by simpa [(simplePaths_ends hrest).1] using hj
      exact hadj

/-- The libraries with the depth first search and the sets in the order of their lists. -/
def Libraries.reference (t : Topology) : Libraries t where
  allSimplePaths source target cutoff :=
    if source < t.size ∧ target < t.size then
      some (if source = target then [] else simplePaths t target cutoff [] source)
    else none
  allSimplePaths_isSome source target cutoff := by
    split_ifs with h <;> simp [h]
  ends := by
    intro source target cutoff ps h p hp
    split_ifs at h with hknown heq
    · obtain rfl := Option.some.inj h
      simp at hp
    · obtain rfl := Option.some.inj h
      exact simplePaths_ends hp
  adjacent := by
    intro source target cutoff ps h p hp
    split_ifs at h with hknown heq
    · obtain rfl := Option.some.inj h
      simp at hp
    · obtain rfl := Option.some.inj h
      exact simplePaths_adjacent hp
  setOrder := List.dedup
  setOrder_nodup := List.nodup_dedup
  mem_setOrder _ _ := List.mem_dedup

end TsnReconfig.Opt
