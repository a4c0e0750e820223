import Mathlib.Data.List.ProdSigma
import Mathlib.Data.List.Sort
import Mathlib.Tactic.SplitIfs

/-!
# Numbered lists

Objects made from the elements of a list with consecutive numbers, the elements of a list in
the order of their first appearance, and tables that number their keys on demand.
-/

namespace TsnReconfig.Lib

variable {α β : Type*}

/-- The objects `mk a i` for the elements `a` of a list, numbered from `start` on. -/
def numbered (mk : α → ℕ → β) (start : ℕ) (l : List α) : List β :=
  (l.zipIdx start).map fun p => mk p.1 p.2

section Numbered
variable {mk : α → ℕ → β} {start : ℕ} {l l' : List α}

@[simp] theorem length_numbered : (numbered mk start l).length = l.length := by
  simp [numbered]

@[simp] theorem numbered_nil : numbered mk start [] = [] := rfl

@[simp] theorem numbered_cons {a : α} :
    numbered mk start (a :: l) = mk a start :: numbered mk (start + 1) l := rfl

theorem numbered_append :
    numbered mk start (l ++ l') = numbered mk start l ++ numbered mk (start + l.length) l' := by
  simp [numbered, List.zipIdx_append]

theorem getElem?_numbered {i : ℕ} :
    (numbered mk start l)[i]? = l[i]?.map fun a => mk a (start + i) := by
  simp [numbered, List.getElem?_zipIdx, Function.comp_def]

theorem map_numbered {γ : Type*} {f : β → γ} {g : α → γ} (h : ∀ a i, f (mk a i) = g a) :
    (numbered mk start l).map f = l.map g := by
  induction l generalizing start with
  | nil => rfl
  | cons a l ih => rw [numbered_cons, List.map_cons, List.map_cons, h, ih]

/-- The numbers go up. -/
theorem pairwise_numbered {index : β → ℕ} (h : ∀ a i, index (mk a i) = i) :
    (numbered mk start l).Pairwise fun b c => index b ≤ index c := by
  induction l generalizing start with
  | nil => exact List.Pairwise.nil
  | cons a l ih =>
    rw [numbered_cons]
    apply List.Pairwise.cons _ ih
    intro b hb
    obtain ⟨⟨c, i⟩, hmem, rfl⟩ := List.mem_map.mp hb
    have hle := List.le_snd_of_mem_zipIdx hmem
    rw [h, h]
    exact (Nat.le_succ start).trans hle

end Numbered

/-- A list whose elements carry their positions. -/
theorem zipIdx_of_index {index : α → ℕ} {l : List α} {start : ℕ}
    (h : ∀ i a, l[i]? = some a → index a = start + i) :
    l.zipIdx start = l.map fun a => (a, index a) := by
  apply List.ext_getElem?
  intro i
  rw [List.getElem?_zipIdx, List.getElem?_map]
  cases ha : l[i]? with
  | none => rfl
  | some a => rw [Option.map_some, Option.map_some, h i a ha]

theorem nodup_of_index {index : α → ℕ} {l : List α} (h : ∀ i a, l[i]? = some a → index a = i) :
    l.Nodup := by
  rw [List.nodup_iff_getElem?_ne_getElem?]
  intro i j hij hj heq
  have hjget : l[j]? = some l[j] := List.getElem?_eq_getElem hj
  have hi := h i _ (heq.trans hjget)
  have hj := h j _ hjget
  omega

/-- The positions in a product of lists whose elements carry their positions. -/
theorem zipIdx_product {index : α → ℕ} {index' : β → ℕ} {l : List α} {l' : List β} {start : ℕ}
    (h : ∀ i a, l[i]? = some a → index a = start + i)
    (h' : ∀ i b, l'[i]? = some b → index' b = i) :
    (l ×ˢ l').zipIdx (start * l'.length) =
      (l ×ˢ l').map fun ab => (ab, index ab.1 * l'.length + index' ab.2) := by
  induction l generalizing start with
  | nil => rfl
  | cons a l ih =>
    have ha : index a = start := h 0 a rfl
    have htail : ∀ i b, l[i]? = some b → index b = start + 1 + i := by
      intro i b hb
      rw [h (i + 1) b hb]
      omega
    have hfirst : (l'.map fun b => (a, b)).zipIdx (start * l'.length) =
        (l'.map fun b => (a, b)).map fun ab => (ab, index ab.1 * l'.length + index' ab.2) := by
      apply zipIdx_of_index
      intro i ab hab
      rw [List.getElem?_map] at hab
      obtain ⟨b, hb, rfl⟩ := Option.map_eq_some_iff.mp hab
      rw [ha, h' i b hb]
    have hlength : start * l'.length + (l'.map fun b => (a, b)).length = (start + 1) * l'.length := by
      rw [List.length_map, Nat.succ_mul]
    rw [List.product_cons, List.zipIdx_append, hfirst, hlength, ih htail, List.map_append]

/-- The element of a product of lists at a mixed radix position. -/
theorem getElem?_product {l : List α} {l' : List β} {i j : ℕ} (hj : j < l'.length) :
    (l ×ˢ l')[i * l'.length + j]? = l[i]?.bind fun a => l'[j]?.map fun b => (a, b) := by
  induction l generalizing i with
  | nil => rfl
  | cons a l ih =>
    rw [List.product_cons]
    cases i with
    | zero =>
      rw [Nat.zero_mul, Nat.zero_add, List.getElem?_append_left (by rwa [List.length_map]),
        List.getElem?_map]
      rfl
    | succ i =>
      have hle : l'.length ≤ (i + 1) * l'.length + j := by
        rw [Nat.succ_mul]
        omega
      have hsub : (i + 1) * l'.length + j - l'.length = i * l'.length + j := by
        rw [Nat.succ_mul]
        omega
      rw [List.getElem?_append_right (by rwa [List.length_map]), List.length_map, hsub, ih]
      rfl

/-- The elements of a list, those of `seen` left out, in the order in which they first
appear. -/
def firsts [DecidableEq α] (seen : List α) : List α → List α
  | [] => []
  | a :: l => if a ∈ seen then firsts seen l else a :: firsts (seen ++ [a]) l

section Firsts
variable [DecidableEq α] {seen l : List α} {a : α}

theorem mem_firsts : a ∈ firsts seen l ↔ a ∈ l ∧ a ∉ seen := by
  induction l generalizing seen with
  | nil => simp [firsts]
  | cons b l ih =>
    unfold firsts
    split_ifs with hb
    · rw [ih, List.mem_cons]
      constructor
      · rintro ⟨ha, hseen⟩
        exact ⟨.inr ha, hseen⟩
      · rintro ⟨rfl | ha, hseen⟩
        · exact absurd hb hseen
        · exact ⟨ha, hseen⟩
    · rw [List.mem_cons, ih, List.mem_cons]
      by_cases hab : a = b
      · simp [hab, hb]
      · simp [hab]

/-- One more element comes last, if it is new. -/
theorem firsts_concat :
    firsts seen (l ++ [a]) = firsts seen l ++ if a ∈ seen ∨ a ∈ l then [] else [a] := by
  induction l generalizing seen with
  | nil => by_cases ha : a ∈ seen <;> simp [firsts, ha]
  | cons b l ih =>
    by_cases hb : b ∈ seen
    · have hiff : a ∈ seen ∨ a ∈ b :: l ↔ a ∈ seen ∨ a ∈ l := by
        by_cases hab : a = b
        · simp [hab, hb]
        · simp [hab]
      simp only [List.cons_append, firsts, if_pos hb, ih, hiff]
    · simp only [List.cons_append, firsts, if_neg hb, ih, List.mem_append, List.mem_cons,
        List.not_mem_nil, false_or, or_assoc]

end Firsts

/-- A table, newest entry first, that has given its keys the numbers from `start` on. -/
def Allocated (start : ℕ) : List (α × ℕ) → Prop
  | [] => True
  | (k, n) :: table => n = start + table.length ∧ k ∉ table.map Prod.fst ∧ Allocated start table

section Allocated
variable {start n : ℕ} {table : List (α × ℕ)} {k k' : α}

theorem Allocated.bounds (h : Allocated start table) (hmem : (k, n) ∈ table) :
    start ≤ n ∧ n < start + table.length := by
  induction table with
  | nil => simp at hmem
  | cons entry table ih =>
    obtain ⟨hn, -, htable⟩ := h
    rw [List.length_cons]
    rcases List.mem_cons.mp hmem with heq | hmem
    · rw [← heq] at hn
      omega
    · have := ih htable hmem
      omega

/-- Different keys have different numbers. -/
theorem Allocated.inj (h : Allocated start table) (hmem : (k, n) ∈ table)
    (hmem' : (k', n) ∈ table) : k = k' := by
  induction table with
  | nil => simp at hmem
  | cons entry table ih =>
    obtain ⟨hn, -, htable⟩ := h
    rcases List.mem_cons.mp hmem with heq | hmem <;> rcases List.mem_cons.mp hmem' with heq' | hmem'
    · exact (Prod.mk.inj (heq.trans heq'.symm)).1
    · have := (htable.bounds hmem').2
      rw [← heq] at hn
      omega
    · have := (htable.bounds hmem).2
      rw [← heq'] at hn
      omega
    · exact ih htable hmem hmem'

theorem Allocated.nodup_keys (h : Allocated start table) : (table.map Prod.fst).Nodup := by
  induction table with
  | nil => exact .nil
  | cons entry table ih =>
    obtain ⟨-, hnot, htable⟩ := h
    exact List.nodup_cons.mpr ⟨hnot, ih htable⟩

/-- The numbers, oldest first, are consecutive. -/
theorem Allocated.numbers (h : Allocated start table) :
    table.reverse.map Prod.snd = List.range' start table.length := by
  induction table with
  | nil => rfl
  | cons entry table ih =>
    obtain ⟨hn, -, htable⟩ := h
    rw [List.reverse_cons, List.map_append, ih htable, List.map_singleton, hn, List.length_cons,
      List.range'_concat, Nat.one_mul]

variable [BEq α] [LawfulBEq α]

theorem mem_of_lookup (h : table.lookup k = some n) : (k, n) ∈ table := by
  induction table with
  | nil => simp at h
  | cons entry table ih =>
    obtain ⟨key, number⟩ := entry
    rw [List.lookup_cons] at h
    by_cases hk : k = key
    · subst hk
      obtain rfl : number = n := by simpa using h
      exact List.mem_cons_self
    · rw [beq_false_of_ne hk] at h
      exact List.mem_cons_of_mem _ (ih h)

theorem lookup_isSome_iff : (table.lookup k).isSome ↔ k ∈ table.map Prod.fst := by
  induction table with
  | nil => simp
  | cons entry table ih =>
    obtain ⟨key, number⟩ := entry
    rw [List.lookup_cons, List.map_cons, List.mem_cons]
    by_cases hk : k = key
    · simp [hk]
    · rw [beq_false_of_ne hk, or_iff_right hk]
      exact ih

end Allocated

end TsnReconfig.Lib
