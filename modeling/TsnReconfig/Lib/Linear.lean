import Mathlib.Algebra.BigOperators.Group.List.Basic
import Mathlib.Algebra.Order.Ring.Rat
import Mathlib.Algebra.Order.BigOperators.Group.List
import Mathlib.Tactic.Linarith
import Mathlib.Tactic.Ring

/-!
# Linear rows and zero-one choices

Rows of a mixed integer program over the variables `0, 1, 2, …`, and lists of zero-one
variables of which exactly one is chosen.
-/

namespace TsnReconfig.Lib

inductive Sense
  | le | ge | eq
  deriving DecidableEq, Repr

/-- A linear constraint: its variables with their coefficients, its sense and its right hand
side. -/
structure Row where
  entries : List (ℕ × ℚ)
  sense : Sense
  rhs : ℚ
  deriving DecidableEq, Repr

/-- The value of a linear form. -/
def linear (entries : List (ℕ × ℚ)) (x : ℕ → ℚ) : ℚ := (entries.map fun e => e.2 * x e.1).sum

namespace Row

def Holds (r : Row) (x : ℕ → ℚ) : Prop :=
  match r.sense with
  | .le => linear r.entries x ≤ r.rhs
  | .ge => r.rhs ≤ linear r.entries x
  | .eq => linear r.entries x = r.rhs

instance (r : Row) (x : ℕ → ℚ) : Decidable (r.Holds x) := by
  unfold Holds
  cases r.sense <;> infer_instance

end Row

section Linear
variable {x y : ℕ → ℚ}

@[simp] theorem linear_nil : linear [] x = 0 := rfl

@[simp] theorem linear_cons (e : ℕ × ℚ) (es : List (ℕ × ℚ)) :
    linear (e :: es) x = e.2 * x e.1 + linear es x := by
  simp [linear]

@[simp] theorem linear_append (es fs : List (ℕ × ℚ)) :
    linear (es ++ fs) x = linear es x + linear fs x := by
  simp [linear]

theorem linear_flatMap {α : Type*} (l : List α) (f : α → List (ℕ × ℚ)) :
    linear (l.flatMap f) x = (l.map fun a => linear (f a) x).sum := by
  induction l with
  | nil => rfl
  | cons a l ih => simp [ih]

theorem linear_map {α : Type*} (l : List α) (v : α → ℕ) (c : α → ℚ) :
    linear (l.map fun a => (v a, c a)) x = (l.map fun a => c a * x (v a)).sum := by
  simp [linear, Function.comp_def]

/-- A form with the same coefficient on the variables of the chosen elements of a list. -/
theorem linear_filterMap {α : Type*} (l : List α) (p : α → Bool) (v : α → ℕ) (c : ℚ) :
    linear (l.filterMap fun a => if p a then some (v a, c) else none) x =
      (l.map fun a => (if p a then c else 0) * x (v a)).sum := by
  induction l with
  | nil => rfl
  | cons a l ih =>
    rw [List.filterMap_cons, List.map_cons, List.sum_cons, ← ih]
    cases p a <;> simp

/-- Only the variables that occur matter. -/
theorem linear_congr {es : List (ℕ × ℚ)} (h : ∀ e ∈ es, x e.1 = y e.1) :
    linear es x = linear es y := by
  unfold linear
  congr 1
  apply List.map_congr_left
  intro e he
  rw [h e he]

theorem Row.holds_congr {r : Row} (h : ∀ e ∈ r.entries, x e.1 = y e.1) :
    r.Holds x ↔ r.Holds y := by
  unfold Row.Holds
  rw [linear_congr h]

end Linear

section Choice
variable {α : Type*} {l : List α} {x : α → ℚ}

theorem sum_eq_zero_of_zero_one (h01 : ∀ a ∈ l, x a = 0 ∨ x a = 1) (hsum : (l.map x).sum = 0) :
    ∀ a ∈ l, x a = 0 := by
  have hnonneg : ∀ a ∈ l, 0 ≤ x a := by
    intro a ha
    rcases h01 a ha with h | h <;> simp [h]
  induction l with
  | nil => simp
  | cons b l ih =>
    have hb := hnonneg b List.mem_cons_self
    have hrest : 0 ≤ (l.map x).sum := by
      apply List.sum_nonneg
      intro q hq
      obtain ⟨a, ha, rfl⟩ := List.mem_map.mp hq
      exact hnonneg a (List.mem_cons_of_mem _ ha)
    rw [List.map_cons, List.sum_cons] at hsum
    have hb0 : x b = 0 := by linarith
    have hrest0 : (l.map x).sum = 0 := by linarith
    intro a ha
    rcases List.mem_cons.mp ha with rfl | ha
    · exact hb0
    · exact ih (fun a ha => h01 a (List.mem_cons_of_mem _ ha)) hrest0
        (fun a ha => hnonneg a (List.mem_cons_of_mem _ ha)) a ha

/-- The chosen element of a list of zero-one variables. -/
def chosen (x : α → ℚ) (l : List α) : Option α := l.find? fun a => x a = 1

/-- Zero-one variables with the sum one choose one element, and every form over them is its
coefficient there. -/
theorem exists_chosen (h01 : ∀ a ∈ l, x a = 0 ∨ x a = 1) (hsum : (l.map x).sum = 1) :
    ∃ a ∈ l, x a = 1 ∧ chosen x l = some a ∧ l.filter (fun b => x b = 1) = [a] ∧
      ∀ f : α → ℚ, (l.map fun b => f b * x b).sum = f a := by
  induction l with
  | nil => simp at hsum
  | cons b l ih =>
    rw [List.map_cons, List.sum_cons] at hsum
    have h01' : ∀ a ∈ l, x a = 0 ∨ x a = 1 := fun a ha => h01 a (List.mem_cons_of_mem _ ha)
    rcases h01 b List.mem_cons_self with hb | hb
    · obtain ⟨a, ha, hxa, hch, hfilter, hform⟩ := ih h01' (by linarith)
      refine ⟨a, List.mem_cons_of_mem _ ha, hxa, ?_, ?_, ?_⟩
      · simpa [chosen, hb] using hch
      · simpa [hb] using hfilter
      · intro f
        simp [hb, hform f]
    · have hzero := sum_eq_zero_of_zero_one h01' (by linarith)
      refine ⟨b, List.mem_cons_self, hb, ?_, ?_, ?_⟩
      · simp [chosen, hb]
      · have hnone : l.filter (fun b => x b = 1) = [] := by
          rw [List.filter_eq_nil_iff]
          intro a ha
          simp [hzero a ha]
        simp [hb, hnone]
      · intro f
        have hrest : (l.map fun b => f b * x b).sum = 0 := by
          apply List.sum_eq_zero
          intro q hq
          obtain ⟨a, ha, rfl⟩ := List.mem_map.mp hq
          rw [hzero a ha, mul_zero]
        rw [List.map_cons, List.sum_cons, hrest, hb]
        ring

/-- A form over the indicator of a chosen element. -/
theorem sum_indicator [DecidableEq α] {a : α} (hl : l.Nodup) (ha : a ∈ l) (f : α → ℚ) :
    (l.map fun b => f b * if a = b then 1 else 0).sum = f a := by
  induction l with
  | nil => simp at ha
  | cons b l ih =>
    obtain ⟨hb, hl⟩ := List.nodup_cons.mp hl
    rw [List.map_cons, List.sum_cons]
    rcases List.mem_cons.mp ha with rfl | htail
    · have hrest : (l.map fun b => f b * if a = b then 1 else 0).sum = 0 := by
        apply List.sum_eq_zero
        intro q hq
        obtain ⟨c, hc, rfl⟩ := List.mem_map.mp hq
        have hne : a ≠ c := by
          rintro rfl
          exact hb hc
        rw [if_neg hne, mul_zero]
      rw [hrest, if_pos rfl]
      ring
    · have hne : a ≠ b := by
        rintro rfl
        exact hb htail
      rw [ih hl htail, if_neg hne]
      ring

end Choice

end TsnReconfig.Lib
