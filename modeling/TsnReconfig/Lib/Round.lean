import Mathlib.Data.List.Nodup

/-!
# Rounds of requests

A coordinator asks every member of a list and collects the answers in any order: `pending a` is
the request to `a` that has no answer yet. It decides by counting members, and finds the sender
of an answer by a key.
-/

namespace TsnReconfig.Lib

variable {α β γ : Type*}

/-- The requests without an answer, in any order. -/
def Round (pending : α → Option β) (l : List α) (out : List β) : Prop :=
  out.Perm (l.filterMap pending)

namespace Round

variable {pending : α → Option β} {l l₁ l₂ : List α} {out : List β} {a a' : α} {x : β}

theorem exists_of_mem (h : Round pending l out) (hx : x ∈ out) :
    ∃ l₁ a l₂, l = l₁ ++ a :: l₂ ∧ pending a = some x := by
  obtain ⟨a, ha, hp⟩ := List.mem_filterMap.mp (h.mem_iff.mp hx)
  obtain ⟨l₁, l₂, rfl⟩ := List.append_of_mem ha
  exact ⟨l₁, a, l₂, rfl, hp⟩

theorem mem (h : Round pending l out) (ha : a ∈ l) (hp : pending a = some x) : x ∈ out :=
  h.mem_iff.mpr (List.mem_filterMap.mpr ⟨a, ha, hp⟩)

/-- A member answers, and may be asked again. -/
theorem answer [BEq β] [LawfulBEq β] (h : Round pending (l₁ ++ a :: l₂) out)
    (hp : pending a = some x) :
    Round pending (l₁ ++ a' :: l₂) (out.erase x ++ (pending a').toList) := by
  have hout : out.Perm (x :: (l₁ ++ l₂).filterMap pending) := by
    apply List.Perm.trans h
    rw [List.filterMap_append, List.filterMap_cons_some hp, List.filterMap_append]
    exact List.perm_middle
  have herase : (out.erase x).Perm ((l₁ ++ l₂).filterMap pending) := by
    simpa using hout.erase x
  have hlast : ((l₁ ++ l₂).filterMap pending ++ (pending a').toList).Perm
      ((l₁ ++ a' :: l₂).filterMap pending) := by
    cases hp' : pending a' with
    | none => simp [hp']
    | some y =>
      rw [List.filterMap_append, List.filterMap_append, List.filterMap_cons_some hp',
        Option.toList_some, List.append_assoc]
      exact (List.perm_append_singleton _ _).append_left _
  exact (herase.append_right _).trans hlast

/-- The round is over when nobody is waited for. -/
theorem eq_nil_iff (h : Round pending l out) : out = [] ↔ ∀ a ∈ l, pending a = none := by
  rw [← List.filterMap_eq_nil_iff]
  exact ⟨fun ho => by subst ho; exact h.symm.eq_nil, fun ho => (ho ▸ h : out.Perm []).eq_nil⟩

end Round

/-! ## Deciding by counting -/

section Count
variable {l : List α} {p q : α → Bool} {A B C : γ}

theorem length_filter_eq_iff : (l.filter p).length = l.length ↔ ∀ a ∈ l, p a := by
  rw [← List.countP_eq_length_filter, List.countP_eq_length]

theorem length_filter_lt_iff : (l.filter p).length < l.length ↔ ¬∀ a ∈ l, p a := by
  rw [Nat.lt_iff_le_and_ne, and_iff_right (List.length_filter_le p l)]
  exact not_congr length_filter_eq_iff

/-- Members of two disjoint kinds are counted together. -/
theorem length_filter_add (h : ∀ a ∈ l, ¬(p a ∧ q a)) :
    (l.filter p).length + (l.filter q).length = (l.filter fun a => p a || q a).length := by
  induction l with
  | nil => rfl
  | cons a l ih =>
    have := h a (List.mem_cons_self ..)
    have := ih fun b hb => h b (List.mem_cons_of_mem _ hb)
    cases hp : p a <;> cases hq : q a <;> simp_all <;> omega

/-- The decision of a coordinator that waits for all. -/
theorem count_ite :
    (if (l.filter p).length < l.length then A
      else if (l.filter p).length = l.length then B else C) = if l.all p then B else A := by
  by_cases h : ∀ a ∈ l, p a
  · rw [if_neg (by simpa only [length_filter_lt_iff, not_not] using h),
      if_pos (length_filter_eq_iff.mpr h), if_pos (List.all_eq_true.mpr h)]
  · rw [if_pos (length_filter_lt_iff.mpr h), if_neg (by rwa [List.all_eq_true])]

theorem length_filter_pos_iff : 0 < (l.filter p).length ↔ ∃ a ∈ l, p a := by
  rw [← List.countP_eq_length_filter, List.countP_pos_iff]

end Count

/-! ## The member with a key -/

section Key
variable {κ : Type*} [DecidableEq κ] {key : α → κ} {l₁ l₂ : List α} {a : α}

theorem map_key_of_notMem {l : List α} {f : α → α} {k : κ} (h : k ∉ l.map key) :
    (l.map fun b => if key b = k then f b else b) = l := by
  have hid : ∀ b ∈ l, (if key b = k then f b else b) = id b := by
    intro b hb
    apply if_neg
    rintro rfl
    exact h (List.mem_map_of_mem hb)
  rw [List.map_congr_left hid, List.map_id]

omit [DecidableEq κ] in
theorem key_notMem_of_nodup (h : ((l₁ ++ a :: l₂).map key).Nodup) :
    key a ∉ l₁.map key ∧ key a ∉ l₂.map key := by
  simp only [List.map_append, List.map_cons, List.nodup_append, List.nodup_cons] at h
  exact ⟨fun hm => h.2.2 _ hm _ (List.mem_cons_self ..) rfl, h.2.1.1⟩

/-- A change of the entry with a key. -/
theorem map_key (f : α → α) (h : ((l₁ ++ a :: l₂).map key).Nodup) :
    ((l₁ ++ a :: l₂).map fun b => if key b = key a then f b else b) = l₁ ++ f a :: l₂ := by
  have hkey := key_notMem_of_nodup h
  rw [List.map_append, List.map_cons, map_key_of_notMem hkey.1, map_key_of_notMem hkey.2,
    if_pos rfl]

/-- The only entry with a key. -/
theorem filter_key (h : ((l₁ ++ a :: l₂).map key).Nodup) :
    (l₁ ++ a :: l₂).filter (fun b => key b = key a) = [a] := by
  have hkey := key_notMem_of_nodup h
  have hnil : ∀ {l : List α}, key a ∉ l.map key → l.filter (fun b => key b = key a) = [] := by
    intro l hl
    rw [List.filter_eq_nil_iff]
    intro b hb hk
    exact hl (of_decide_eq_true hk ▸ List.mem_map_of_mem hb)
  rw [List.filter_append, List.filter_cons_of_pos (by simp), hnil hkey.1, hnil hkey.2,
    List.nil_append]

end Key

end TsnReconfig.Lib
