import Mathlib.Algebra.BigOperators.Group.List.Basic
import Mathlib.Algebra.Ring.Nat
import TsnReconfig.Lib.Lists

/-!
# Tables

Finite maps with an order of iteration: lists of entries with distinct keys. A new key goes to the
end, and what is found does not depend on the order.
-/

namespace TsnReconfig.Lib

structure Table (κ α : Type*) where
  entries : List (κ × α)
  nodup : (entries.map Prod.fst).Nodup
  deriving DecidableEq

namespace Table
variable {κ α β : Type*}

def empty : Table κ α := ⟨[], .nil⟩

instance : EmptyCollection (Table κ α) := ⟨empty⟩

theorem nodup_filterMap {f : κ → α → Option β} (t : Table κ α) :
    ((t.entries.filterMap fun e => (f e.1 e.2).map (e.1, ·)).map Prod.fst).Nodup := by
  refine t.nodup.sublist (map_filterMap_sublist fun e _ b hb => ?_)
  obtain ⟨b', -, rfl⟩ := Option.map_eq_some_iff.mp hb
  rfl

/-- The values that `f` makes of the entries, if any. -/
def filterMap (f : κ → α → Option β) (t : Table κ α) : Table κ β :=
  ⟨t.entries.filterMap fun e => (f e.1 e.2).map (e.1, ·), t.nodup_filterMap⟩

/-- What weighs nothing may be left out. -/
theorem sum_filterMap {t : Table κ α} {g : κ → α → Option β} {f : α → ℕ} {f' : β → ℕ}
    (h : ∀ k a, (g k a).elim 0 f' = f a) :
    ((t.filterMap g).entries.map fun e => f' e.2).sum = (t.entries.map fun e => f e.2).sum := by
  obtain ⟨entries, hnodup⟩ := t
  change ((entries.filterMap fun e => (g e.1 e.2).map (e.1, ·)).map fun e => f' e.2).sum =
    (entries.map fun e => f e.2).sum
  clear hnodup
  induction entries with
  | nil => rfl
  | cons e rest ih =>
    rw [List.map_cons, List.sum_cons, ← ih, ← h e.1 e.2]
    cases hg : g e.1 e.2 with
    | none => rw [List.filterMap_cons_none (by rw [hg, Option.map_none]), Option.elim_none, zero_add]
    | some b => rw [List.filterMap_cons_some (by rw [hg, Option.map_some]), List.map_cons,
        List.sum_cons, Option.elim_some]

variable [DecidableEq κ]

def find (t : Table κ α) (k : κ) : Option α :=
  t.entries.lookup k

/-- The entry of a key, or an empty one. -/
def get {κ' : Type*} (t : Table κ (Table κ' α)) (k : κ) : Table κ' α :=
  (t.find k).getD ∅

def erase (t : Table κ α) (k : κ) : Table κ α :=
  t.filterMap fun k' a => if k' = k then none else some a

/-- The entries with a new value for a key. -/
def setEntries (entries : List (κ × α)) (k : κ) (a : α) : List (κ × α) :=
  match entries with
  | [] => [(k, a)]
  | e :: rest => if e.1 = k then (k, a) :: rest else e :: setEntries rest k a

theorem mem_keys_setEntries {entries : List (κ × α)} {k k' : κ} {a : α} :
    k' ∈ (setEntries entries k a).map Prod.fst ↔ k' = k ∨ k' ∈ entries.map Prod.fst := by
  induction entries with
  | nil => simp [setEntries]
  | cons e rest ih =>
    unfold setEntries
    split_ifs with he
    · simp only [List.map_cons, List.mem_cons, he]
      tauto
    · simp only [List.map_cons, List.mem_cons, ih]
      tauto

theorem nodup_setEntries {entries : List (κ × α)} (h : (entries.map Prod.fst).Nodup) (k : κ)
    (a : α) : ((setEntries entries k a).map Prod.fst).Nodup := by
  induction entries with
  | nil => simp [setEntries]
  | cons e rest ih =>
    obtain ⟨hnot, hrest⟩ := List.nodup_cons.mp h
    unfold setEntries
    split_ifs with he
    · exact List.nodup_cons.mpr ⟨he ▸ hnot, hrest⟩
    · refine List.nodup_cons.mpr ⟨fun hmem => ?_, ih hrest⟩
      exact (mem_keys_setEntries.mp hmem).elim he hnot

def set (t : Table κ α) (k : κ) (a : α) : Table κ α :=
  ⟨setEntries t.entries k a, nodup_setEntries t.nodup k a⟩

/-- What `operator[]` leaves behind: a key without an entry gets an empty one. -/
def touch {κ' : Type*} (t : Table κ (Table κ' α)) (k : κ) : Table κ (Table κ' α) :=
  t.set k (t.get k)

/-! ## What is found -/

variable {t : Table κ α} {k k' : κ} {a : α}

@[simp] theorem find_empty : (∅ : Table κ α).find k = none := rfl

theorem mem_entries : (k, a) ∈ t.entries ↔ t.find k = some a :=
  (lookup_eq_some_iff_mem t.nodup).symm

theorem lookup_cons_eq {e : κ × α} {rest : List (κ × α)} :
    (e :: rest).lookup k = if k = e.1 then some e.2 else rest.lookup k := by
  rw [List.lookup_cons]
  split_ifs with h
  · simp [h]
  · simp [beq_false_of_ne h]

theorem find_set : (t.set k a).find k' = if k' = k then some a else t.find k' := by
  obtain ⟨entries, hnodup⟩ := t
  change (setEntries entries k a).lookup k' = if k' = k then some a else entries.lookup k'
  clear hnodup
  induction entries with
  | nil => simp only [setEntries, lookup_cons_eq, List.lookup_nil]
  | cons e rest ih =>
    unfold setEntries
    by_cases he : e.1 = k
    · subst he
      rw [if_pos rfl, lookup_cons_eq, lookup_cons_eq]
      split_ifs
      · rfl
      · rfl
    · rw [if_neg he, lookup_cons_eq, lookup_cons_eq, ih]
      by_cases hk : k' = e.1
      · rw [if_pos hk, if_neg (hk ▸ he), if_pos hk]
      · rw [if_neg hk, if_neg hk]

@[simp] theorem find_set_self : (t.set k a).find k = some a := by
  rw [find_set, if_pos rfl]

theorem find_set_of_ne (h : k' ≠ k) : (t.set k a).find k' = t.find k' := by
  rw [find_set, if_neg h]

theorem find_filterMap {f : κ → α → Option β} :
    (t.filterMap f).find k = (t.find k).bind (f k) := by
  apply Option.ext
  intro b
  rw [← mem_entries, Option.bind_eq_some_iff]
  constructor
  · intro h
    obtain ⟨e, he, hb⟩ := List.mem_filterMap.mp h
    obtain ⟨b', hb', heq⟩ := Option.map_eq_some_iff.mp hb
    cases heq
    exact ⟨e.2, mem_entries.mp he, hb'⟩
  · rintro ⟨a, ha, hb⟩
    exact List.mem_filterMap.mpr ⟨(k, a), mem_entries.mpr ha, by simp [hb]⟩

theorem find_erase : (t.erase k).find k' = if k' = k then none else t.find k' := by
  rw [erase, find_filterMap]
  split_ifs with hk
  · simp
  · cases t.find k' <;> rfl

theorem entries_eq_nil_iff : t.entries = [] ↔ ∀ k, t.find k = none := by
  constructor
  · intro h k
    rw [find, h, List.lookup_nil]
  · intro h
    refine List.eq_nil_iff_forall_not_mem.mpr fun e he => ?_
    have hfind := mem_entries.mp he
    rw [h] at hfind
    cases hfind

/-! ## Sums over the entries -/

/-- The sum of what the entries weigh changes by the new one and the one it replaces. -/
theorem sum_set {f : α → ℕ} : ((t.set k a).entries.map fun e => f e.2).sum + ((t.find k).elim 0 f) =
    (t.entries.map fun e => f e.2).sum + f a := by
  obtain ⟨entries, hnodup⟩ := t
  change ((setEntries entries k a).map fun e => f e.2).sum + (entries.lookup k).elim 0 f =
    (entries.map fun e => f e.2).sum + f a
  clear hnodup
  induction entries with
  | nil => simp [setEntries]
  | cons e rest ih =>
    unfold setEntries
    rw [lookup_cons_eq]
    by_cases he : e.1 = k
    · rw [if_pos he, if_pos he.symm, List.map_cons, List.map_cons, List.sum_cons, List.sum_cons,
        Option.elim_some]
      dsimp only
      omega
    · rw [if_neg he, if_neg fun h => he h.symm, List.map_cons, List.map_cons, List.sum_cons,
        List.sum_cons]
      omega

theorem length_set : (t.set k a).entries.length + (t.find k).elim 0 (fun _ => 1) =
    t.entries.length + 1 := by
  have h := sum_set (t := t) (k := k) (a := a) (f := fun _ => 1)
  rwa [List.map_const', List.map_const', List.sum_const_nat, List.sum_const_nat, mul_one,
    mul_one] at h

section
variable {κ' : Type*} {t : Table κ (Table κ' α)}

@[simp] theorem get_empty : (∅ : Table κ (Table κ' α)).get k = ∅ := rfl

theorem get_set {t' : Table κ' α} :
    (t.set k t').get k' = if k' = k then t' else t.get k' := by
  rw [get, find_set]
  split_ifs
  · rfl
  · rfl

theorem get_touch : (t.touch k).get k' = t.get k' := by
  rw [touch, get_set]
  split_ifs with h
  · rw [h]
  · rfl

theorem find_get [DecidableEq κ'] {k₂ : κ'} :
    (t.get k).find k₂ = (t.find k).bind (·.find k₂) := by
  unfold get
  cases t.find k with
  | none => rfl
  | some t' => rfl

end

end Table

end TsnReconfig.Lib
