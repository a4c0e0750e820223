import Mathlib.Data.List.Basic

/-!
# Cyclic schedules

Entries with start times in a cycle, in the order of these. An entry is in force from its start to
that of the next one, and the last entry also from the beginning of the cycle.
-/

namespace TsnReconfig.Lib

variable {α : Type*} {f : α → ℕ} {l : List α} {c c' j : ℕ}

/-- The last of the entries that have started, or of all if none has. -/
def inForce (f : α → ℕ) (l : List α) (c : ℕ) : Option α :=
  (l.filter (f · ≤ c)).getLast?.or l.getLast?

/-- The entry before the one at place `j`, in the cycle. -/
def before (l : List α) (j : ℕ) : Option α :=
  if j = 0 then l.getLast? else l[j - 1]?

theorem exists_before (hj : j < l.length) : ∃ x, before l j = some x := by
  unfold before
  split_ifs with h0
  · exact ⟨_, List.getLast?_eq_some_getLast (List.length_pos_iff.mp (Nat.zero_lt_of_lt hj))⟩
  · exact ⟨_, List.getElem?_eq_getElem (by omega)⟩

/-- The entries before a place have started, and the others have not. -/
theorem inForce_eq_before (hj : j ≤ l.length) (hle : ∀ x ∈ l.take j, f x ≤ c)
    (hlt : ∀ x ∈ l.drop j, c < f x) : inForce f l c = before l j := by
  have hfilter : l.filter (f · ≤ c) = l.take j := by
    conv_lhs => rw [← List.take_append_drop j l]
    rw [List.filter_append, List.filter_eq_self.mpr fun x hx => decide_eq_true (hle x hx),
      List.filter_eq_nil_iff.mpr fun x hx => by simpa using hlt x hx, List.append_nil]
  unfold inForce before
  rw [hfilter, List.getLast?_take]
  split_ifs with h0
  · rfl
  · rw [List.getElem?_eq_getElem (by omega)]
    rfl

/-- Until the entry at place `j` starts, the one before it is in force. -/
theorem inForce_of_lt (hsorted : l.Pairwise (f · ≤ f ·)) (hj : j < l.length)
    (hle : ∀ x ∈ l.take j, f x ≤ c) (hc : c ≤ c') (hlt : c' < f l[j]) :
    inForce f l c' = before l j := by
  refine inForce_eq_before (Nat.le_of_lt hj) (fun x hx => Nat.le_trans (hle x hx) hc) fun x hx => ?_
  rw [List.drop_eq_getElem_cons hj] at hx
  have hdrop : (l.drop j).Pairwise (f · ≤ f ·) := hsorted.sublist (List.drop_sublist j l)
  rw [List.drop_eq_getElem_cons hj] at hdrop
  rcases List.mem_cons.mp hx with rfl | hx
  · exact hlt
  · exact Nat.lt_of_lt_of_le hlt ((List.pairwise_cons.mp hdrop).1 x hx)

/-- When all entries have started, the last one is in force. -/
theorem inForce_of_le (hle : ∀ x ∈ l, f x ≤ c) : inForce f l c = before l 0 := by
  unfold inForce before
  rw [List.filter_eq_self.mpr fun x hx => decide_eq_true (hle x hx), Option.or_self, if_pos rfl]

end TsnReconfig.Lib
