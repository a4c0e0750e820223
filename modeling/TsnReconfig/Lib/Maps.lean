import Mathlib.Tactic.SplitIfs
import Mathlib.Tactic.TypeStar
import Std.Data.TreeMap.Lemmas

/-! # Maps with decidable keys -/

namespace TsnReconfig.Lib

variable {κ α : Type*} {cmp : κ → κ → Ordering} [Std.LawfulEqCmp cmp]
  {m : Std.TreeMap κ α cmp} {k k' : κ}
  {a : α}

theorem compare_eq_iff : cmp k k' = .eq ↔ k' = k := by
  rw [Std.LawfulEqCmp.compare_eq_iff_eq, eq_comm]

variable [Std.TransCmp cmp]

theorem getElem?_insert [DecidableEq κ] :
    (m.insert k a)[k']? = if k' = k then some a else m[k']? := by
  rw [Std.TreeMap.getElem?_insert]
  simp only [compare_eq_iff]

theorem getElem?_erase [DecidableEq κ] :
    (m.erase k)[k']? = if k' = k then none else m[k']? := by
  rw [Std.TreeMap.getElem?_erase]
  simp only [compare_eq_iff]

theorem getElem?_insertIfNew_of_ne (h : k' ≠ k) : (m.insertIfNew k a)[k']? = m[k']? := by
  rw [Std.TreeMap.getElem?_insertIfNew, if_neg]
  rintro ⟨heq, -⟩
  exact h (compare_eq_iff.mp heq)

omit [Std.LawfulEqCmp cmp] in
theorem getElem?_insertIfNew_eq_some {b : α} (h : (m.insertIfNew k a)[k']? = some b) :
    m[k']? = some b ∨ b = a := by
  rw [Std.TreeMap.getElem?_insertIfNew] at h
  split_ifs at h
  · exact .inr (Option.some.inj h).symm
  · exact .inl h

theorem mem_insert : k' ∈ m.insert k a ↔ k' = k ∨ k' ∈ m := by
  rw [Std.TreeMap.mem_insert, compare_eq_iff]

theorem mem_erase : k' ∈ m.erase k ↔ k' ≠ k ∧ k' ∈ m := by
  rw [Std.TreeMap.mem_erase, ne_eq, ne_eq, compare_eq_iff]

/-- The map `m'` has every entry of `m`. -/
def Extends (m m' : Std.TreeMap κ α cmp) : Prop :=
  ∀ ⦃k : κ⦄ ⦃a : α⦄, m[k]? = some a → m'[k]? = some a

omit [Std.LawfulEqCmp cmp] [Std.TransCmp cmp] in
theorem Extends.refl (m : Std.TreeMap κ α cmp) : Extends m m := fun _ _ h => h

omit [Std.LawfulEqCmp cmp] [Std.TransCmp cmp] in
theorem Extends.trans {m' m'' : Std.TreeMap κ α cmp} (h : Extends m m') (h' : Extends m' m'') :
    Extends m m'' :=
  fun _ _ hk => h' (h hk)

omit [Std.LawfulEqCmp cmp] in
theorem extends_insertIfNew : Extends m (m.insertIfNew k a) := by
  intro k' b hb
  rw [Std.TreeMap.getElem?_insertIfNew, if_neg]
  · exact hb
  · rintro ⟨heq, hnot⟩
    rw [Std.TreeMap.mem_congr heq, Std.TreeMap.mem_iff_isSome_getElem?, hb] at hnot
    exact hnot rfl

end TsnReconfig.Lib
