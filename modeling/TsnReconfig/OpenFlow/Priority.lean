import Mathlib.Order.MinMax
import TsnReconfig.Lib.Lists
import TsnReconfig.Lib.System
import TsnReconfig.OpenFlow.FlowTable

/-!
# Lookups and priorities

The entries are documented to be in descending order of their priorities, but the addresses decide
which entry a lookup returns.
-/

namespace TsnReconfig.OpenFlow

open Lib

/-- A call of the flow table, or one of its `AGING` messages. A `FLOW_MOD` has the address of a new
entry. -/
inductive TableCall
  | addEntry (entry : FlowTableEntry)
  | handleFlowMod (addr : ℕ) (flowMod : FlowMod)
  | deleteMatchingEntries (m : OxmBasicMatch)
  | lookup (m : OxmBasicMatch)
  | aging
  deriving DecidableEq, Repr

/-- A flow table at a time. -/
structure TimedTable where
  table : FlowTable
  time : SimTime
  deriving DecidableEq, Repr

/-- What a call leaves at the time `now`. -/
def TableCall.run (t : FlowTable) (now : SimTime) : TableCall → Option FlowTable
  | .addEntry entry => some (t.addEntry now entry).2
  | .handleFlowMod addr flowMod => some (t.handleFlowMod now addr flowMod)
  | .deleteMatchingEntries m => some (t.deleteMatchingEntries m)
  | .lookup m => some (t.lookup now m).2
  | .aging => if now ∈ t.agingEvents then some (t.handleAging now) else none

/-- The calls of a flow table, at times that do not go back. -/
def calledTable : System TimedTable (SimTime × TableCall) where
  init s := ∃ maxEntries agingInterval,
    s.table = FlowTable.initTable s.time maxEntries agingInterval
  step s e := if s.time ≤ e.1 then (e.2.run s.table e.1).map (⟨·, e.1⟩) else none

namespace FlowTable

variable {t t' : FlowTable} {now : SimTime} {e : FlowTableEntry} {m : OxmBasicMatch}

/-- A lookup that obeys the priorities of the entries that have not expired. -/
structure RespectsPriority (t : FlowTable) (now : SimTime) (m : OxmBasicMatch) : Prop where
  found : ∀ e t', t.lookup now m = (some e, t') → e.tryMatch m ∧
    ∀ e' ∈ t.entries, now < e'.getTimeOut → e'.tryMatch m → e'.priority ≤ e.priority
  none : ∀ t', t.lookup now m = (none, t') →
    ∀ e' ∈ t.entries, now < e'.getTimeOut → ¬e'.tryMatch m

/-- The entry is there for a lookup: it has not expired, or the table waits for `AGING`. -/
def Present (t : FlowTable) (now : SimTime) (e : FlowTableEntry) : Prop :=
  e ∈ t.entries ∧ (0 < t.agingInterval ∨ now < e.getTimeOut)

/-- Of the matching entries that are there, the one at the highest address. -/
structure Highest (t : FlowTable) (now : SimTime) (m : OxmBasicMatch) (e : FlowTableEntry) :
    Prop where
  present : t.Present now e
  matching : e.tryMatch m
  highest : ∀ e', t.Present now e' → e'.tryMatch m → e' ≠ e → e'.addr < e.addr

/-! ## Ageing -/

/-- No entry expires before the next ageing, and none has been matched later than now. -/
def Aging (t : FlowTable) (now : SimTime) : Prop :=
  ∀ e ∈ t.entries, t.nextAging ≤ e.getTimeOut ∧ e.lastMatched ≤ now

theorem foldl_min_le (l : List FlowTableEntry) (next : SimTime) :
    l.foldl (fun next e => min next e.getTimeOut) next ≤ next ∧
      ∀ e ∈ l, l.foldl (fun next e => min next e.getTimeOut) next ≤ e.getTimeOut := by
  induction l generalizing next with
  | nil => exact ⟨le_refl next, fun e he => (by cases he)⟩
  | cons a l ih =>
    obtain ⟨hnext, hl⟩ := ih (min next a.getTimeOut)
    refine ⟨hnext.trans (min_le_left ..), fun e he => ?_⟩
    rcases List.mem_cons.mp he with rfl | he
    · exact hnext.trans (min_le_right ..)
    · exact hl e he

/-- A later match does not make an entry expire earlier. -/
theorem getTimeOut_mono (h : e.lastMatched ≤ now) :
    e.getTimeOut ≤ ({ e with lastMatched := now } : FlowTableEntry).getTimeOut := by
  have hidle : min maxTime (e.lastMatched + e.idleTimeout * ticksPerSecond) ≤
      min maxTime (now + e.idleTimeout * ticksPerSecond) :=
    min_le_min (le_refl _) (Int.add_le_add_right h _)
  simp only [FlowTableEntry.getTimeOut]
  split_ifs
  · exact min_le_min hidle (le_refl _)
  · exact le_refl _
  · exact hidle
  · exact le_refl _

theorem nextAging_removeAgedEntries (he : e ∈ (t.removeAgedEntries now).entries) :
    (t.removeAgedEntries now).nextAging ≤ e.getTimeOut := by
  have hkept : e ∈ t.entries.filter fun e => decide (now < e.getTimeOut) := by
    rw [List.mem_filter, decide_eq_true_iff]
    exact mem_removeAgedEntries.mp he
  have hle := (foldl_min_le (t.entries.filter fun e => decide (now < e.getTimeOut)) maxTime).2 e hkept
  simp only [removeAgedEntries]
  split_ifs <;> exact hle

theorem Aging.mono (h : t.Aging now) {now' : SimTime} (hle : now ≤ now') : t.Aging now' :=
  fun e he => ⟨(h e he).1, (h e he).2.trans hle⟩

theorem aging_removeAgedEntries (h : ∀ e ∈ t.entries, e.lastMatched ≤ now) :
    (t.removeAgedEntries now).Aging now :=
  fun e he => ⟨nextAging_removeAgedEntries he, h e (mem_removeAgedEntries.mp he).1⟩

theorem Aging.removeAgedEntriesIfNeeded (h : t.Aging now) :
    (t.removeAgedEntriesIfNeeded now).Aging now := by
  unfold FlowTable.removeAgedEntriesIfNeeded
  split_ifs
  · exact h
  · exact aging_removeAgedEntries fun e he => (h e he).2
  · exact h

theorem Aging.isFull (h : t.Aging now) : (t.isFull now).2.Aging now := by
  unfold FlowTable.isFull
  split_ifs
  · exact h.removeAgedEntriesIfNeeded
  · exact h

theorem Aging.addEntry (h : t.Aging now) (entry : FlowTableEntry) :
    (t.addEntry now entry).2.Aging now := by
  have hfull := h.isFull
  simp only [FlowTable.addEntry]
  split_ifs
  · exact hfull
  · exact hfull
  · intro e he
    refine aging_removeAgedEntries ?_ e (mem_sortEntries.mp he)
    intro e he
    rcases List.mem_append.mp he with he | he
    · exact (hfull e he).2
    · obtain rfl := List.mem_singleton.mp he
      exact le_refl now

theorem Aging.handleFlowMod (h : t.Aging now) (addr : ℕ) (flowMod : FlowMod) :
    (t.handleFlowMod now addr flowMod).Aging now := by
  unfold FlowTable.handleFlowMod
  split
  · exact h.addEntry _
  · exact fun e he => h e (List.mem_of_mem_filter he)
  · exact fun e he => h e (List.mem_of_mem_filter he)
  · exact fun e he => h e (List.mem_of_mem_filter he)
  · exact h

theorem Aging.lookup (h : t.Aging now) (m : OxmBasicMatch) : (t.lookup now m).2.Aging now := by
  have hneeded := h.removeAgedEntriesIfNeeded
  simp only [FlowTable.lookup]
  split
  · rename_i found hfind
    intro e he
    obtain ⟨e₀, he₀, rfl⟩ := List.mem_map.mp he
    obtain ⟨hnext, hmatched⟩ := hneeded e₀ he₀
    by_cases haddr : e₀.addr = found.addr
    · rw [if_pos haddr]
      exact ⟨hnext.trans (getTimeOut_mono hmatched), le_refl now⟩
    · rw [if_neg haddr]
      exact ⟨hnext, hmatched⟩
  · exact hneeded

/-- After the ageing that a lookup begins with, what is left is what was there. -/
theorem mem_removeAgedEntriesIfNeeded_iff (h : t.Aging now) :
    e ∈ (t.removeAgedEntriesIfNeeded now).entries ↔ t.Present now e := by
  unfold FlowTable.removeAgedEntriesIfNeeded Present
  split_ifs with hskip hdue
  · rw [Bool.or_eq_true, List.isEmpty_iff, decide_eq_true_iff] at hskip
    constructor
    · intro he
      exact ⟨he, .inl (hskip.resolve_left (List.ne_nil_of_mem he))⟩
    · exact fun he => he.1
  · rw [Bool.or_eq_true, decide_eq_true_iff, not_or] at hskip
    rw [mem_removeAgedEntries]
    exact and_congr_right fun _ => (or_iff_right hskip.2).symm
  · constructor
    · intro he
      exact ⟨he, .inr (lt_of_lt_of_le (lt_of_not_ge hdue) (h e he).1)⟩
    · exact fun he => he.1

/-! ## The entry that a lookup returns -/

theorem aging_of_reachable {s : TimedTable} (h : calledTable.Reachable s) :
    s.table.Sorted ∧ s.table.Aging s.time := by
  apply h.invariant (P := fun s => s.table.Sorted ∧ s.table.Aging s.time)
  · rintro s ⟨n, i, hs⟩
    rw [hs]
    refine ⟨sorted_initTable s.time n i, fun e he => ?_⟩
    rw [initTable_entries] at he
    cases he
  · rintro s ⟨now, call⟩ s' ⟨hsorted, haging⟩ hs
    simp only [calledTable] at hs
    split_ifs at hs with hle
    obtain ⟨t, ht, rfl⟩ := Option.map_eq_some_iff.mp hs
    have haging := haging.mono hle
    cases call with
    | addEntry entry =>
      cases ht
      exact ⟨hsorted.addEntry now entry, haging.addEntry entry⟩
    | handleFlowMod addr flowMod =>
      cases ht
      exact ⟨hsorted.handleFlowMod now addr flowMod, haging.handleFlowMod addr flowMod⟩
    | deleteMatchingEntries m =>
      cases ht
      exact ⟨List.Pairwise.filter _ hsorted, fun e he => haging e (List.mem_of_mem_filter he)⟩
    | lookup m =>
      cases ht
      exact ⟨hsorted.lookup now m, haging.lookup m⟩
    | aging =>
      simp only [TableCall.run] at ht
      split_ifs at ht
      cases ht
      exact ⟨hsorted.handleAging now, aging_removeAgedEntries fun e he => (haging e he).2⟩

/-- A lookup returns the matching entry at the highest address. -/
theorem find?_eq_some_iff_highest (hsorted : t.Sorted) (haging : t.Aging now) :
    (t.removeAgedEntriesIfNeeded now).entries.find? (·.tryMatch m) = some e ↔
      t.Highest now m e := by
  rw [find?_eq_some_iff_of_pairwise (hsorted.removeAgedEntriesIfNeeded now)
    fun a b hab hba => absurd hab (lt_asymm hba)]
  constructor
  · intro ⟨he, hm, hhighest⟩
    exact ⟨(mem_removeAgedEntriesIfNeeded_iff haging).mp he, hm, fun e' he' =>
      hhighest e' ((mem_removeAgedEntriesIfNeeded_iff haging).mpr he')⟩
  · intro h
    exact ⟨(mem_removeAgedEntriesIfNeeded_iff haging).mpr h.present, h.matching, fun e' he' =>
      h.highest e' ((mem_removeAgedEntriesIfNeeded_iff haging).mp he')⟩

theorem lookup_eq_none (h : t.lookup now m = (none, t')) :
    (t.removeAgedEntriesIfNeeded now).entries.find? (·.tryMatch m) = none := by
  simp only [lookup] at h
  split at h
  · cases h
  · assumption

/-- A lookup obeys the priorities exactly when the matching entry at the highest address does. -/
theorem respectsPriority_iff {s : TimedTable} (h : calledTable.Reachable s) {now : SimTime}
    (hnow : s.time ≤ now) (m : OxmBasicMatch) :
    s.table.RespectsPriority now m ↔
      ∀ e, s.table.Highest now m e →
        ∀ e' ∈ s.table.entries, now < e'.getTimeOut → e'.tryMatch m → e'.priority ≤ e.priority := by
  obtain ⟨hsorted, haging⟩ := aging_of_reachable h
  have haging := haging.mono hnow
  constructor
  · intro hrespects e he
    have hfind := lookup_of_find? ((find?_eq_some_iff_highest hsorted haging).mpr he)
    exact (hrespects.found _ _ (Prod.ext hfind rfl)).2
  · intro hhighest
    refine ⟨fun e t' hl => ?_, fun t' hl e' he' hlive hm => ?_⟩
    · obtain ⟨e₀, hfind, rfl⟩ := lookup_eq_some hl
      have he₀ := (find?_eq_some_iff_highest hsorted haging).mp hfind
      exact ⟨he₀.matching, hhighest e₀ he₀⟩
    · have hmem := (mem_removeAgedEntriesIfNeeded_iff haging).mpr ⟨he', .inr hlive⟩
      exact List.find?_eq_none.mp (lookup_eq_none hl) e' hmem hm

/-- A reachable table with two entries that match everything. -/
def twoPriorities (first second : Int) : List (SimTime × TableCall) :=
  [(0, .addEntry ⟨1, 0, 0, 0, 0, 1, first, 0, { OxmBasicMatch.zero with wildcards := ofpfwAll }, []⟩),
    (0, .addEntry
      ⟨2, 0, 0, 0, 0, 2, second, 0, { OxmBasicMatch.zero with wildcards := ofpfwAll }, []⟩)]

theorem respectsPriority_iff_twoPriorities :
    ∃ s, calledTable.runFrom ⟨initTable 0 0 0, 0⟩ (twoPriorities 5 10) = some s ∧
      (s.table.RespectsPriority 1 .zero ↔ ∀ e, s.table.Highest 1 .zero e →
        ∀ e' ∈ s.table.entries, 1 < e'.getTimeOut → e'.tryMatch .zero →
          e'.priority ≤ e.priority) := by
  obtain ⟨s, hrun, htime⟩ : ∃ s,
      calledTable.runFrom ⟨initTable 0 0 0, 0⟩ (twoPriorities 5 10) = some s ∧ s.time = 0 :=
    ⟨_, rfl, rfl⟩
  have hreachable : calledTable.Reachable s := System.reachable_of_runFrom ⟨0, 0, rfl⟩ hrun
  exact ⟨s, hrun, respectsPriority_iff hreachable (by rw [htime]; decide) .zero⟩

/-- The entry with the lower priority is at the higher address, and it is the one that is found. -/
theorem twoPriorities_not_respectsPriority :
    ¬∀ (s : TimedTable) now m, calledTable.Reachable s → s.time ≤ now →
      s.table.RespectsPriority now m := by
  intro h
  obtain ⟨s, hrun, htime, e, t', hl, hlow, e', he', hlive, hm, hhigh⟩ : ∃ s,
      calledTable.runFrom ⟨initTable 0 0 0, 0⟩ (twoPriorities 10 5) = some s ∧ s.time = 0 ∧
      ∃ e t', s.table.lookup 1 .zero = (some e, t') ∧ e.priority = 5 ∧
        ∃ e' ∈ s.table.entries, 1 < e'.getTimeOut ∧ e'.tryMatch .zero ∧ e'.priority = 10 :=
    ⟨_, rfl, rfl, _, _, rfl, rfl, _, List.mem_cons_of_mem _ (List.mem_cons_self ..), by decide,
      by decide, rfl⟩
  have hreachable : calledTable.Reachable s := System.reachable_of_runFrom ⟨0, 0, rfl⟩ hrun
  have hle := ((h s 1 .zero hreachable (by rw [htime]; decide)).found e t' hl).2 e' he' hlive hm
  omega

end FlowTable

end TsnReconfig.OpenFlow
