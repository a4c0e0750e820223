import Mathlib.Data.List.Pairwise
import TsnReconfig.Lib.Lists
import TsnReconfig.OpenFlow.HeldRules
import TsnReconfig.OpenFlow.Priority

/-!
# The first entry of a kind

The first of the entries whose matches are of one kind, which is the one at the highest address.
It stays the first one as long as it has not expired and no entry of this kind is added.
-/

namespace TsnReconfig.OpenFlow.FlowTable

open Lib

variable {t t' : FlowTable} {now : SimTime} {e entry : FlowTableEntry} {p : OxmBasicMatch → Bool}

/-- The first entry of a kind, whether it has expired or not. -/
def first (t : FlowTable) (p : OxmBasicMatch → Bool) : Option FlowTableEntry :=
  t.entries.find? fun e => p e.oxmMatch

theorem first_eq_some_iff (h : t.Sorted) : t.first p = some e ↔
    e ∈ t.entries ∧ p e.oxmMatch ∧
      ∀ e' ∈ t.entries, p e'.oxmMatch → e' ≠ e → e'.addr < e.addr :=
  find?_eq_some_iff_of_pairwise h fun _ _ hab hba => absurd hab (lt_asymm hba)

theorem first_eq_none_iff : t.first p = none ↔ ∀ e ∈ t.entries, ¬p e.oxmMatch :=
  List.find?_eq_none

theorem Sorted.eq_of_addr (h : t.Sorted) {e e' : FlowTableEntry} (he : e ∈ t.entries)
    (he' : e' ∈ t.entries) (haddr : e.addr = e'.addr) : e = e' := by
  by_contra hne
  have : Std.Symm fun a b : FlowTableEntry => a.addr ≠ b.addr := ⟨fun _ _ h => h.symm⟩
  exact (Sorted.ne h).forall he he' hne haddr

/-- A lookup of what only the entries of one kind match finds the first one of them. -/
theorem lookup_first {m : OxmBasicMatch} (hsorted : t.Sorted)
    (hkind : ∀ e ∈ t.entries, e.tryMatch m ↔ p e.oxmMatch) (h : t.first p = some e)
    (hlive : now < e.getTimeOut) : (t.lookup now m).1 = some { e with lastMatched := now } := by
  obtain ⟨he, hp, hfirst⟩ := (first_eq_some_iff hsorted).mp h
  apply lookup_of_find?
  rw [find?_eq_some_iff_of_pairwise (hsorted.removeAgedEntriesIfNeeded now)
    fun _ _ hab hba => absurd hab (lt_asymm hba)]
  refine ⟨mem_removeAgedEntriesIfNeeded he hlive, (hkind e he).mpr hp, fun e' he' hm hne => ?_⟩
  have he' := removeAgedEntriesIfNeeded_subset he'
  exact hfirst e' he' ((hkind e' he').mp hm) hne

theorem lookup_eq_none_of_first {m : OxmBasicMatch}
    (hkind : ∀ e ∈ t.entries, e.tryMatch m ↔ p e.oxmMatch) (h : t.first p = none) :
    (t.lookup now m).1 = none := by
  cases hl : t.lookup now m with
  | mk found t' =>
    cases found with
    | none => rfl
    | some e =>
      obtain ⟨e₀, hfind, -⟩ := lookup_eq_some hl
      have he₀ := removeAgedEntriesIfNeeded_subset (List.mem_of_find?_eq_some hfind)
      have hm := List.find?_some hfind
      exact absurd ((hkind e₀ he₀).mp hm) (first_eq_none_iff.mp h e₀ he₀)

/-! ## What keeps it -/

/-- The same entry, matched later at most. -/
structure LaterMatch (e e' : FlowTableEntry) : Prop where
  addr : e'.addr = e.addr
  oxmMatch : e'.oxmMatch = e.oxmMatch
  instructions : e'.instructions = e.instructions
  getTimeOut : e.getTimeOut ≤ e'.getTimeOut

theorem LaterMatch.refl (e : FlowTableEntry) : LaterMatch e e := ⟨rfl, rfl, rfl, le_refl _⟩

/-- The entries of a kind are old ones, and those that have not expired are still there. -/
structure KeepsEntries (p : OxmBasicMatch → Bool) (now : SimTime) (t t' : FlowTable) : Prop where
  sub : ∀ e' ∈ t'.entries, p e'.oxmMatch → ∃ e ∈ t.entries, LaterMatch e e'
  kept : ∀ e ∈ t.entries, p e.oxmMatch → now < e.getTimeOut → ∃ e' ∈ t'.entries, LaterMatch e e'

theorem KeepsEntries.first_eq_none (h : KeepsEntries p now t t') (hnone : t.first p = none) :
    t'.first p = none := by
  rw [first_eq_none_iff] at hnone ⊢
  intro e' he' hp
  obtain ⟨e, he, hlater⟩ := h.sub e' he' hp
  rw [hlater.oxmMatch] at hp
  exact hnone e he hp

theorem KeepsEntries.first_eq_some (h : KeepsEntries p now t t') (hsorted : t.Sorted)
    (hsorted' : t'.Sorted) (hfirst : t.first p = some e) (hlive : now < e.getTimeOut) :
    ∃ e', t'.first p = some e' ∧ LaterMatch e e' := by
  obtain ⟨he, hp, hhighest⟩ := (first_eq_some_iff hsorted).mp hfirst
  obtain ⟨e', he', hlater⟩ := h.kept e he hp hlive
  refine ⟨e', (first_eq_some_iff hsorted').mpr ⟨he', ?_, fun x' hx' hxp hne => ?_⟩, hlater⟩
  · rw [hlater.oxmMatch]
    exact hp
  · obtain ⟨x, hx, hxlater⟩ := h.sub x' hx' hxp
    rw [hxlater.oxmMatch] at hxp
    have hle : x'.addr ≤ e'.addr := by
      rw [hxlater.addr, hlater.addr]
      by_cases hxe : x = e
      · rw [hxe]
      · exact (hhighest x hx hxp hxe).le
    exact lt_of_le_of_ne hle fun haddr => hne (hsorted'.eq_of_addr hx' he' haddr)

/-- Ageing, a lookup, and a new entry of another kind. -/
theorem keepsEntries_handleAging (p : OxmBasicMatch → Bool) :
    KeepsEntries p now t (t.handleAging now) where
  sub e he _ := ⟨e, (mem_removeAgedEntries.mp he).1, .refl e⟩
  kept e he _ hlive := ⟨e, mem_removeAgedEntries.mpr ⟨he, hlive⟩, .refl e⟩

theorem keepsEntries_addEntry (h : ¬p entry.oxmMatch) :
    KeepsEntries p now t (t.addEntry now entry).2 where
  sub e he hp := by
    rcases mem_addEntry he with he | rfl
    · exact ⟨e, he, .refl e⟩
    · exact absurd hp h
  kept e he _ hlive := ⟨e, mem_addEntry_of_mem he hlive, .refl e⟩

theorem keepsEntries_lookup (p : OxmBasicMatch → Bool) (m : OxmBasicMatch)
    (hmatched : ∀ e ∈ t.entries, e.lastMatched ≤ now) :
    KeepsEntries p now t (t.lookup now m).2 := by
  have hlater : ∀ e ∈ t.entries, LaterMatch e { e with lastMatched := now } := fun e he =>
    ⟨rfl, rfl, rfl, getTimeOut_mono (hmatched e he)⟩
  constructor
  · intro e' he' _
    obtain ⟨e, he, rfl | rfl⟩ := exists_of_mem_lookup he'
    · exact ⟨e', he, .refl e'⟩
    · exact ⟨e, he, hlater e he⟩
  · intro e he _ hlive
    have he' := mem_removeAgedEntriesIfNeeded he hlive
    simp only [lookup]
    split
    · refine ⟨_, List.mem_map_of_mem he', ?_⟩
      split_ifs
      · exact hlater e he
      · exact .refl e
    · exact ⟨e, he', .refl e⟩

/-- A new entry that finds room at a higher address than the others of its kind is the first. -/
theorem first_addEntry (hsorted : t.Sorted) (hp : p entry.oxmMatch) (hnow : now < maxTime)
    (hroom : (t.isFull now).1 = false) (haddr : ∀ e ∈ t.entries, e.addr ≠ entry.addr)
    (hhighest : ∀ e ∈ t.entries, p e.oxmMatch → now < e.getTimeOut → e.addr < entry.addr) :
    (t.addEntry now entry).2.first p =
      some { entry with creationTime := now, lastMatched := now } := by
  rw [first_eq_some_iff (hsorted.addEntry now entry)]
  rcases addEntry_cases t now entry with ⟨hfull, -⟩ | ⟨-, ⟨e, he, hknown⟩, -⟩ | ⟨-, -, -, hmem⟩
  · rw [hroom] at hfull
    cases hfull
  · exact absurd hknown (haddr e (isFull_entries_subset he))
  · refine ⟨(hmem _).mpr ⟨.inr rfl, lt_getTimeOut_of_new rfl rfl hnow⟩, hp,
      fun e he hpe hne => ?_⟩
    obtain ⟨he, hlive⟩ := (hmem e).mp he
    exact hhighest e (isFull_entries_subset (he.resolve_right hne)) hpe hlive

/-- After an entry was added, it is the first of its kind, or the old first one still is. -/
theorem first_addEntry_of_first (entry : FlowTableEntry) (hsorted : t.Sorted)
    (hfirst : t.first p = some e) (hlive : now < e.getTimeOut) (hnow : now < maxTime) :
    ∃ e', (t.addEntry now entry).2.first p = some e' ∧ now < e'.getTimeOut ∧
      (e' = e ∨ e'.instructions = entry.instructions) := by
  obtain ⟨he, hp, hhighest⟩ := (first_eq_some_iff hsorted).mp hfirst
  have hkept : e ∈ (t.addEntry now entry).2.entries := mem_addEntry_of_mem he hlive
  cases hnew : (t.addEntry now entry).2.first p with
  | none => exact absurd hp (first_eq_none_iff.mp hnew e hkept)
  | some e' =>
    obtain ⟨he', hp', hhighest'⟩ := (first_eq_some_iff (hsorted.addEntry now entry)).mp hnew
    refine ⟨e', rfl, ?_⟩
    rcases mem_addEntry he' with hold | rfl
    · have heq : e' = e := by
        by_contra hne
        exact lt_asymm (hhighest e' hold hp' hne) (hhighest' e hkept hp (Ne.symm hne))
      rw [heq]
      exact ⟨hlive, .inl rfl⟩
    · exact ⟨lt_getTimeOut_of_new rfl rfl hnow, .inr rfl⟩

end TsnReconfig.OpenFlow.FlowTable
