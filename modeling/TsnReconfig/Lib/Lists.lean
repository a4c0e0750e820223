import Mathlib.Data.List.Sort

/-! # Lists: searching ordered ones, and monadic maps -/

namespace TsnReconfig.Lib

variable {α : Type*} {r : α → α → Prop} {p : α → Bool} {l : List α} {a : α}

/-- In a list in which every element is `r`-before the later ones, the first match is the
match that is `r`-before all others. -/
theorem find?_eq_some_iff_of_pairwise (h : l.Pairwise r) (hr : ∀ a b, r a b → ¬ r b a) :
    l.find? p = some a ↔ a ∈ l ∧ p a = true ∧ ∀ b ∈ l, p b = true → b ≠ a → r a b := by
  induction l with
  | nil => simp
  | cons c l ih =>
    obtain ⟨hc, hl⟩ := List.pairwise_cons.mp h
    cases hp : p c with
    | true =>
      simp only [List.find?_cons, hp, Option.some.injEq]
      constructor
      · rintro rfl
        refine ⟨List.mem_cons_self, hp, fun b hb _ hne => ?_⟩
        exact hc b ((List.mem_cons.mp hb).resolve_left hne)
      · rintro ⟨ha, -, hfirst⟩
        by_contra hne
        have hal : a ∈ l := (List.mem_cons.mp ha).resolve_left fun h => hne h.symm
        exact hr _ _ (hc a hal) (hfirst c List.mem_cons_self hp hne)
    | false =>
      simp only [List.find?_cons, hp, ih hl]
      constructor
      · rintro ⟨ha, hpa, hfirst⟩
        refine ⟨List.mem_cons_of_mem _ ha, hpa, fun b hb hpb => ?_⟩
        rcases List.mem_cons.mp hb with rfl | hb
        · simp [hp] at hpb
        · exact hfirst b hb hpb
      · rintro ⟨ha, hpa, hfirst⟩
        have hne : a ≠ c := by
          rintro rfl
          simp [hp] at hpa
        exact ⟨(List.mem_cons.mp ha).resolve_left hne, hpa, fun b hb =>
          hfirst b (List.mem_cons_of_mem _ hb)⟩

/-- The element with a key that no other element has. -/
theorem find?_key {β : Type*} [DecidableEq β] {key : α → β} {k : β} (ha : a ∈ l) (hk : key a = k)
    (hinj : ∀ b ∈ l, key b = k → b = a) : l.find? (fun b => key b = k) = some a := by
  have hsome : (l.find? fun b => key b = k).isSome := by
    rw [List.find?_isSome]
    exact ⟨a, ha, by simpa using hk⟩
  obtain ⟨b, hb⟩ := Option.isSome_iff_exists.mp hsome
  have hkey : key b = k := by simpa using List.find?_some hb
  rw [hb, hinj b (List.mem_of_find?_eq_some hb) hkey]

/-- The elements of a successful monadic map, one by one. -/
theorem forall₂_of_mapM_eq_some {β : Type*} {f : α → Option β} {l : List α} {l' : List β}
    (h : l.mapM f = some l') : List.Forall₂ (fun a b => f a = some b) l l' := by
  induction l generalizing l' with
  | nil =>
    obtain rfl : l' = [] := by simpa using h.symm
    exact .nil
  | cons a l ih =>
    rw [List.mapM_cons] at h
    obtain ⟨b, hb, h⟩ := Option.bind_eq_some_iff.mp h
    obtain ⟨bs, hbs, h⟩ := Option.bind_eq_some_iff.mp h
    obtain rfl : b :: bs = l' := by simpa using h
    exact .cons hb (ih hbs)

/-- A monadic map that succeeds everywhere. -/
theorem mapM_eq_some_map {β : Type*} {f : α → Option β} {g : α → β} {l : List α}
    (h : ∀ a ∈ l, f a = some (g a)) : l.mapM f = some (l.map g) := by
  induction l with
  | nil => rfl
  | cons a l ih =>
    rw [List.mapM_cons, h a List.mem_cons_self, ih fun b hb => h b (List.mem_cons_of_mem _ hb)]
    rfl

theorem exists_mapM_eq_some {β : Type*} {f : α → Option β} {l : List α}
    (h : ∀ a ∈ l, (f a).isSome) : ∃ l', l.mapM f = some l' := by
  induction l with
  | nil => exact ⟨[], rfl⟩
  | cons a l ih =>
    obtain ⟨b, hb⟩ := Option.isSome_iff_exists.mp (h a List.mem_cons_self)
    obtain ⟨l', hl'⟩ := ih fun b hb => h b (List.mem_cons_of_mem _ hb)
    refine ⟨b :: l', ?_⟩
    rw [List.mapM_cons, hb, hl']
    rfl

/-- What every pass of a loop keeps. -/
theorem foldlM_invariant {σ : Type*} {P : σ → Prop} {f : σ → α → Option σ} {l : List α} {s s' : σ}
    (h : ∀ s s' a, a ∈ l → P s → f s a = some s' → P s') (hs : P s)
    (hfold : l.foldlM f s = some s') : P s' := by
  induction l generalizing s with
  | nil =>
    obtain rfl : s = s' := by simpa using hfold
    exact hs
  | cons a l ih =>
    rw [List.foldlM_cons] at hfold
    obtain ⟨s₁, hs₁, hfold⟩ := Option.bind_eq_some_iff.mp hfold
    exact ih (fun s s' a ha => h s s' a (List.mem_cons_of_mem _ ha))
      (h s s₁ a List.mem_cons_self hs hs₁) hfold

/-- A loop whose passes get through under a condition that they keep. -/
theorem exists_foldlM {σ : Type*} {P : σ → Prop} {f : σ → α → Option σ} {l : List α} {s : σ}
    (h : ∀ s a, a ∈ l → P s → ∃ s', f s a = some s' ∧ P s') (hs : P s) :
    ∃ s', l.foldlM f s = some s' ∧ P s' := by
  induction l generalizing s with
  | nil => exact ⟨s, rfl, hs⟩
  | cons a l ih =>
    obtain ⟨s₁, hs₁, hP⟩ := h s a List.mem_cons_self hs
    obtain ⟨s', hs', hP'⟩ := ih (fun s a ha => h s a (List.mem_cons_of_mem _ ha)) hP
    refine ⟨s', ?_, hP'⟩
    rw [List.foldlM_cons, hs₁]
    exact hs'

/-- A loop that gets through has made a pass for every element. -/
theorem exists_pass_of_foldlM {σ : Type*} {f : σ → α → Option σ} {l : List α} {s s' : σ}
    (hfold : l.foldlM f s = some s') (ha : a ∈ l) : ∃ s₁ s₂, f s₁ a = some s₂ := by
  induction l generalizing s with
  | nil => cases ha
  | cons b l ih =>
    rw [List.foldlM_cons] at hfold
    obtain ⟨s₁, hs₁, hfold⟩ := Option.bind_eq_some_iff.mp hfold
    rcases List.mem_cons.mp ha with rfl | ha
    · exact ⟨s, s₁, hs₁⟩
    · exact ih hfold ha

/-- A loop within a loop. -/
theorem foldlM_flatMap {β σ : Type*} {f : σ → β → Option σ} {g : α → List β} {l : List α} {s : σ} :
    (l.flatMap g).foldlM f s = l.foldlM (fun s a => (g a).foldlM f s) s := by
  induction l generalizing s with
  | nil => rfl
  | cons a l ih =>
    rw [List.flatMap_cons, List.foldlM_append, List.foldlM_cons]
    exact bind_congr fun _ => ih

/-- Only one element contributes. -/
theorem flatMap_eq_of_unique {β : Type*} {f : α → List β} {l : List α} (hl : l.Nodup) (ha : a ∈ l)
    (h : ∀ b ∈ l, b ≠ a → f b = []) : l.flatMap f = f a := by
  induction l with
  | nil => simp at ha
  | cons b l ih =>
    obtain ⟨hb, hl⟩ := List.nodup_cons.mp hl
    rw [List.flatMap_cons]
    rcases List.mem_cons.mp ha with rfl | htail
    · have hrest : l.flatMap f = [] := by
        rw [List.flatMap_eq_nil_iff]
        intro c hc
        apply h c (List.mem_cons_of_mem _ hc)
        rintro rfl
        exact hb hc
      rw [hrest, List.append_nil]
    · have hne : b ≠ a := by
        rintro rfl
        exact hb htail
      rw [h b List.mem_cons_self hne, List.nil_append]
      exact ih hl htail fun c hc => h c (List.mem_cons_of_mem _ hc)

theorem forall₂_comp {β γ : Type*} {R : α → β → Prop} {S : β → γ → Prop} {T : α → γ → Prop}
    (hRST : ∀ a b c, R a b → S b c → T a c) {l₁ : List α} {l₂ : List β} {l₃ : List γ}
    (h₁ : List.Forall₂ R l₁ l₂) (h₂ : List.Forall₂ S l₂ l₃) : List.Forall₂ T l₁ l₃ := by
  induction h₁ generalizing l₃ with
  | nil =>
    cases h₂
    exact .nil
  | cons hR _ ih =>
    cases h₂ with
    | cons hS h₂ => exact .cons (hRST _ _ _ hR hS) (ih h₂)

/-- A relation between the numbered elements of a list and another list, without the
numbers. -/
theorem forall₂_of_zipIdx {β : Type*} {S : α → β → Prop} {l : List α} {l' : List β} {n : ℕ}
    (h : List.Forall₂ (fun (p : α × ℕ) b => S p.1 b) (l.zipIdx n) l') : List.Forall₂ S l l' := by
  have hmap := List.forall₂_map_left_iff (f := Prod.fst).mpr h
  rwa [List.zipIdx_map_fst] at hmap

section Forall₂
variable {β : Type*} {R : α → β → Prop} {l : List α} {l' : List β}

theorem exists_zip_of_mem_left (h : List.Forall₂ R l l') {a : α} (ha : a ∈ l) :
    ∃ b, (a, b) ∈ l.zip l' ∧ R a b := by
  induction h with
  | nil => simp at ha
  | @cons a' b l l' hR _ ih =>
    rcases List.mem_cons.mp ha with rfl | ha
    · exact ⟨b, by simp, hR⟩
    · obtain ⟨b', hzip, hR'⟩ := ih ha
      exact ⟨b', by simp [hzip], hR'⟩

theorem exists_of_mem_right (h : List.Forall₂ R l l') {b : β} (hb : b ∈ l') : ∃ a ∈ l, R a b := by
  induction h with
  | nil => simp at hb
  | @cons a b' l l' hR _ ih =>
    rcases List.mem_cons.mp hb with rfl | hb
    · exact ⟨a, List.mem_cons_self, hR⟩
    · obtain ⟨a', ha', hR'⟩ := ih hb
      exact ⟨a', List.mem_cons_of_mem _ ha', hR'⟩

theorem forall₂_imp_of_mem {S : α → β → Prop} (h : List.Forall₂ R l l')
    (himp : ∀ a ∈ l, ∀ b, R a b → S a b) : List.Forall₂ S l l' := by
  induction h with
  | nil => exact .nil
  | @cons a b l l' hR _ ih =>
    refine .cons (himp a List.mem_cons_self b hR) (ih fun a' ha' => ?_)
    exact himp a' (List.mem_cons_of_mem _ ha')

end Forall₂

theorem getElem?_concat_eq_some {l : List α} {x y : α} {i : ℕ} :
    (l ++ [x])[i]? = some y ↔ l[i]? = some y ∨ i = l.length ∧ x = y := by
  rcases lt_trichotomy i l.length with hi | rfl | hi
  · rw [List.getElem?_append_left hi]
    simp [hi.ne]
  · simp
  · have hlength : (l ++ [x]).length ≤ i := by simpa using Nat.succ_le_of_lt hi
    rw [List.getElem?_eq_none hlength, List.getElem?_eq_none hi.le]
    simp [hi.ne']

/-- In an association list with distinct keys the order does not matter. -/
theorem lookup_eq_some_iff_mem {β : Type*} [DecidableEq α] {l : List (α × β)} {k : α} {v : β}
    (h : (l.map Prod.fst).Nodup) : l.lookup k = some v ↔ (k, v) ∈ l := by
  induction l with
  | nil => simp
  | cons p l ih =>
    obtain ⟨k', v'⟩ := p
    obtain ⟨hp, hl⟩ := List.nodup_cons.mp h
    by_cases hk : k = k'
    · subst hk
      have hnot : (k, v) ∉ l := fun hmem => hp (List.mem_map.mpr ⟨_, hmem, rfl⟩)
      simp [hnot, eq_comm]
    · have hne : (k, v) ≠ (k', v') := fun heq => hk (congrArg Prod.fst heq)
      rw [List.lookup_cons, beq_false_of_ne hk, List.mem_cons, or_iff_right hne]
      exact ih hl

theorem exists_getElem?_of_forall₂ {β : Type*} {R : α → β → Prop} {l : List α} {l' : List β}
    (h : List.Forall₂ R l l') {i : ℕ} {a : α} (ha : l[i]? = some a) :
    ∃ b, l'[i]? = some b ∧ R a b := by
  induction h generalizing i with
  | nil => simp at ha
  | @cons _ b _ _ hR _ ih =>
    cases i with
    | zero =>
      obtain rfl : _ = a := by simpa using ha
      exact ⟨b, rfl, hR⟩
    | succ i => exact ih (by simpa using ha)

/-- What is in the lists that are put together. -/
theorem mem_flatten_of_mapM {β : Type*} {l : List α} {g : α → Option (List β)} {ls : List (List β)}
    (h : l.mapM g = some ls) {b : β} : b ∈ ls.flatten ↔ ∃ a ∈ l, ∃ l', g a = some l' ∧ b ∈ l' := by
  have hall := forall₂_of_mapM_eq_some h
  rw [List.mem_flatten]
  constructor
  · rintro ⟨l', hl', hb⟩
    obtain ⟨a, ha, hg⟩ := exists_of_mem_right hall hl'
    exact ⟨a, ha, l', hg, hb⟩
  · rintro ⟨a, ha, l', hg, hb⟩
    obtain ⟨l'', hzip, hg'⟩ := exists_zip_of_mem_left hall ha
    obtain rfl := Option.some.inj (hg.symm.trans hg')
    exact ⟨l', (List.of_mem_zip hzip).2, hb⟩

theorem mapM_flatten_eq_nil_iff {β : Type*} {l : List α} {g : α → Option (List β)} :
    (l.mapM g).map List.flatten = some [] ↔ ∀ a ∈ l, g a = some [] := by
  induction l with
  | nil => simp
  | cons a l ih =>
    rw [List.forall_mem_cons, ← ih, List.mapM_cons]
    cases g a with
    | none => simp
    | some out =>
      cases l.mapM g with
      | none => simp
      | some outs => simp

/-- What is made of the elements has their keys, in order. -/
theorem map_filterMap_sublist {β κ : Type*} {f : α → Option β} {key : α → κ} {key' : β → κ}
    {l : List α} (h : ∀ a ∈ l, ∀ b, f a = some b → key' b = key a) :
    ((l.filterMap f).map key').Sublist (l.map key) := by
  induction l with
  | nil => exact .slnil
  | cons a l ih =>
    have hl := ih fun a ha => h a (List.mem_cons_of_mem _ ha)
    cases hf : f a with
    | none =>
      rw [List.filterMap_cons_none hf]
      exact hl.cons _
    | some b =>
      rw [List.filterMap_cons_some hf, List.map_cons, List.map_cons, h a List.mem_cons_self b hf]
      exact hl.cons_cons _

/-- Lists of elements with distinct keys have no element in common. -/
theorem nodup_flatMap_of_key {β κ : Type*} {key : α → κ} {f : α → List β} {l : List α}
    (key' : β → κ) (hl : (l.map key).Nodup) (hf : ∀ a ∈ l, (f a).Nodup)
    (hkey : ∀ a ∈ l, ∀ b ∈ f a, key' b = key a) : (l.flatMap f).Nodup := by
  refine List.nodup_flatMap.mpr ⟨hf, ?_⟩
  refine (List.pairwise_map.mp hl).imp_of_mem fun ha ha' hne => ?_
  exact fun b hb hb' => hne ((hkey _ ha b hb).symm.trans (hkey _ ha' b hb'))

/-- Of elements whose times lie a gap apart, the latest first, a window has no more than its width
permits. -/
theorem mul_gap_le_of_pairwise (time : α → ℕ) (start : ℕ) {gap width : ℕ}
    (h : l.Pairwise fun later earlier => time earlier + gap ≤ time later)
    (hwindow : ∀ a ∈ l, start ≤ time a ∧ time a ≤ start + width) :
    (l.length - 1) * gap ≤ width := by
  have hhead : ∀ a ∈ l.head?, start + (l.length - 1) * gap ≤ time a := by
    induction l with
    | nil =>
      intro a ha
      cases ha
    | cons a l ih =>
      intro a' ha'
      obtain rfl : a = a' := Option.some.inj ha'
      obtain ⟨hfirst, hrest⟩ := List.pairwise_cons.mp h
      have ih := ih hrest fun a ha => hwindow a (List.mem_cons_of_mem _ ha)
      cases l with
      | nil => simpa using (hwindow a List.mem_cons_self).1
      | cons c l =>
        have hc := ih c rfl
        have hgap := hfirst c List.mem_cons_self
        simp only [List.length_cons, Nat.add_sub_cancel] at hc ⊢
        rw [Nat.succ_mul]
        omega
  cases l with
  | nil => simp
  | cons a l =>
    have hfirst := hhead a rfl
    have hlast := (hwindow a List.mem_cons_self).2
    omega

/-- An element that is erased stands between the others. -/
theorem exists_eraseIdx {k : ℕ} (h : l[k]? = some a) :
    ∃ l₁ l₂, l = l₁ ++ a :: l₂ ∧ l.eraseIdx k = l₁ ++ l₂ := by
  obtain ⟨hk, rfl⟩ := List.getElem?_eq_some_iff.mp h
  refine ⟨l.take k, l.drop (k + 1), ?_, List.eraseIdx_eq_take_drop_succ ..⟩
  rw [List.getElem_cons_drop, List.take_append_drop]

theorem eq_or_mem_eraseIdx {k : ℕ} {b : α} (h : l[k]? = some a) (hb : b ∈ l) :
    b = a ∨ b ∈ l.eraseIdx k := by
  obtain ⟨l₁, l₂, hl, herase⟩ := exists_eraseIdx h
  rw [hl, List.mem_append, List.mem_cons] at hb
  rw [herase, List.mem_append]
  tauto

end TsnReconfig.Lib
