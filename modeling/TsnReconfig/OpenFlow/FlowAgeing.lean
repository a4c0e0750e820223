import TsnReconfig.OpenFlow.HeldRules
import TsnReconfig.OpenFlow.Priority

/-!
# Ageing of the flow table

Without an interval the table ages when it is called and `_nextAging` has come. With one it ages
for its `AGING` messages, and `removeAgedEntries` schedules the next of them whoever calls it.
-/

namespace TsnReconfig.OpenFlow

open Lib

variable {t : FlowTable} {now : SimTime} {e : FlowTableEntry}

namespace FlowTable

/-- `getNumEntries`. -/
def getNumEntries (t : FlowTable) (now : SimTime) : ℕ × FlowTable :=
  let t := t.removeAgedEntriesIfNeeded now
  (t.entries.length, t)

@[simp] theorem removeAgedEntries_agingInterval (t : FlowTable) (now : SimTime) :
    (t.removeAgedEntries now).agingInterval = t.agingInterval := by
  simp only [removeAgedEntries]
  split_ifs <;> rfl

@[simp] theorem removeAgedEntriesIfNeeded_agingInterval (t : FlowTable) (now : SimTime) :
    (t.removeAgedEntriesIfNeeded now).agingInterval = t.agingInterval := by
  unfold removeAgedEntriesIfNeeded
  split_ifs <;> simp

@[simp] theorem isFull_agingInterval (t : FlowTable) (now : SimTime) :
    (t.isFull now).2.agingInterval = t.agingInterval := by
  unfold isFull
  split_ifs <;> simp

@[simp] theorem addEntry_agingInterval (t : FlowTable) (now : SimTime) (entry : FlowTableEntry) :
    (t.addEntry now entry).2.agingInterval = t.agingInterval := by
  simp only [addEntry]
  split_ifs <;> simp

@[simp] theorem lookup_agingInterval (t : FlowTable) (now : SimTime) (m : OxmBasicMatch) :
    (t.lookup now m).2.agingInterval = t.agingInterval := by
  simp only [lookup]
  split <;> simp

end FlowTable

/-! ## Without an interval -/

/-- The calls of a flow table that may age it. -/
inductive AgeingCall
  | addEntry (entry : FlowTableEntry)
  | lookup (m : OxmBasicMatch)
  | deleteMatchingEntries (m : OxmBasicMatch)
  | getNumEntries
  deriving DecidableEq, Repr

/-- What a call leaves at the time `now`. -/
def AgeingCall.run (t : FlowTable) (now : SimTime) : AgeingCall → FlowTable
  | .addEntry entry => (t.addEntry now entry).2
  | .lookup m => (t.lookup now m).2
  | .deleteMatchingEntries m => t.deleteMatchingEntries m
  | .getNumEntries => (t.getNumEntries now).2

/-- The calls of a flow table with the interval 0, at times that do not go back. -/
def lazyTable : System TimedTable (SimTime × AgeingCall) where
  init s := ∃ maxEntries, s.table = FlowTable.initTable s.time maxEntries 0
  step s e := if s.time ≤ e.1 then some ⟨e.2.run s.table e.1, e.1⟩ else none

/-- The table ages in time, and not too soon: `_nextAging` is not after the timeout of an entry, a
lookup at any later time returns an entry that has not expired, and no call loses such an entry,
unless it deletes it. -/
structure AgesRight (s : TimedTable) : Prop where
  nextAging : ∀ e ∈ s.table.entries, s.table.nextAging ≤ e.getTimeOut
  found : ∀ now m e t', s.time ≤ now → s.table.lookup now m = (some e, t') →
    ∃ e₀ ∈ s.table.entries, e₀.tryMatch m ∧ now < e₀.getTimeOut ∧
      e = { e₀ with lastMatched := now } ∧ now < e.getTimeOut
  kept : ∀ now (call : AgeingCall), ∀ e ∈ s.table.entries, s.time ≤ now → now < e.getTimeOut →
    (∃ e' ∈ (call.run s.table now).entries, e' = e ∨ e' = { e with lastMatched := now }) ∨
      ∃ m, call = .deleteMatchingEntries m ∧ e.tryMatchWith m m.wildcards

namespace FlowTable

/-- What a table without an interval keeps. -/
structure Lazy (t : FlowTable) (now : SimTime) : Prop where
  interval : t.agingInterval = 0
  aging : t.Aging now

theorem lazy_initTable (now : SimTime) (maxEntries : ℕ) :
    (initTable now maxEntries 0).Lazy now where
  interval := rfl
  aging e he := by
    rw [initTable_entries] at he
    cases he

theorem Lazy.run (h : t.Lazy now) (call : AgeingCall) : (call.run t now).Lazy now := by
  cases call with
  | addEntry entry => exact ⟨by simp [AgeingCall.run, h.interval], h.aging.addEntry entry⟩
  | lookup m => exact ⟨by simp [AgeingCall.run, h.interval], h.aging.lookup m⟩
  | deleteMatchingEntries m =>
    exact ⟨h.interval, fun e he => h.aging e (List.mem_of_mem_filter he)⟩
  | getNumEntries =>
    exact ⟨by simp [AgeingCall.run, getNumEntries, h.interval],
      h.aging.removeAgedEntriesIfNeeded⟩

/-- A lookup finds nothing that has expired. -/
theorem Lazy.lookup (h : t.Lazy now) {m : OxmBasicMatch} {t' : FlowTable}
    (hlookup : t.lookup now m = (some e, t')) :
    ∃ e₀ ∈ t.entries, e₀.tryMatch m ∧ now < e₀.getTimeOut ∧
      e = { e₀ with lastMatched := now } ∧ now < e.getTimeOut := by
  obtain ⟨e₀, hfind, rfl⟩ := lookup_eq_some hlookup
  have hpresent := (mem_removeAgedEntriesIfNeeded_iff h.aging).mp (List.mem_of_find?_eq_some hfind)
  have hlive : now < e₀.getTimeOut := by
    apply hpresent.2.resolve_left
    rw [h.interval]
    exact lt_irrefl 0
  have hmatch : e₀.tryMatch m := by simpa using List.find?_some hfind
  refine ⟨e₀, hpresent.1, hmatch, hlive, rfl, ?_⟩
  exact hlive.trans_le (getTimeOut_mono (h.aging e₀ hpresent.1).2)

/-- Only `deleteMatchingEntries` loses entries that have not expired. -/
theorem exists_mem_run (call : AgeingCall) (he : e ∈ t.entries) (hlive : now < e.getTimeOut) :
    (∃ e' ∈ (call.run t now).entries, e' = e ∨ e' = { e with lastMatched := now }) ∨
      ∃ m, call = .deleteMatchingEntries m ∧ e.tryMatchWith m m.wildcards := by
  cases call with
  | addEntry entry => exact .inl ⟨e, mem_addEntry_of_mem he hlive, .inl rfl⟩
  | lookup m =>
    left
    have he' := mem_removeAgedEntriesIfNeeded he hlive
    change ∃ e' ∈ (t.lookup now m).2.entries, _
    simp only [lookup]
    split
    · refine ⟨_, List.mem_map_of_mem he', ?_⟩
      split_ifs
      · exact .inr rfl
      · exact .inl rfl
    · exact ⟨e, he', .inl rfl⟩
  | deleteMatchingEntries m =>
    by_cases hm : e.tryMatchWith m m.wildcards
    · exact .inr ⟨m, rfl, hm⟩
    · refine .inl ⟨e, List.mem_filter.mpr ⟨he, ?_⟩, .inl rfl⟩
      rw [Bool.eq_false_iff.mpr hm]
      rfl
  | getNumEntries => exact .inl ⟨e, mem_removeAgedEntriesIfNeeded he hlive, .inl rfl⟩

theorem lazy_of_reachable {s : TimedTable} (h : lazyTable.Reachable s) : s.table.Lazy s.time := by
  apply h.invariant (P := fun s => s.table.Lazy s.time)
  · rintro s ⟨n, hs⟩
    rw [hs]
    exact lazy_initTable s.time n
  · rintro s ⟨now, call⟩ s' hlazy hs
    simp only [lazyTable] at hs
    split_ifs at hs with hle
    cases hs
    exact Lazy.run ⟨hlazy.interval, hlazy.aging.mono hle⟩ call

end FlowTable

/-- No expired rule is used, and none is lost before it expires. -/
theorem agesRight_of_reachable {s : TimedTable} (h : lazyTable.Reachable s) : AgesRight s := by
  have hlazy := FlowTable.lazy_of_reachable h
  constructor
  · exact fun e he => (hlazy.aging e he).1
  · intro now m e t' hle hlookup
    have hlater : s.table.Lazy now := ⟨hlazy.interval, hlazy.aging.mono hle⟩
    exact hlater.lookup hlookup
  · intro now call e he _ hlive
    exact FlowTable.exists_mem_run call he hlive

/-- An entry that matches everything, with an idle timeout of one second. -/
def idleEntry : FlowTableEntry :=
  ⟨1, 0, 0, 0, 1, 1, 0, 0, { OxmBasicMatch.zero with wildcards := ofpfwAll }, []⟩

theorem agesRight_idleEntry : ∃ s : TimedTable, s.table.entries.length = 1 ∧ AgesRight s := by
  obtain ⟨s, hs, hlength⟩ : ∃ s : TimedTable, lazyTable.runFrom ⟨FlowTable.initTable 0 0 0, 0⟩
      [(0, .addEntry idleEntry), (5, .lookup .zero)] = some s ∧ s.table.entries.length = 1 :=
    ⟨_, rfl, rfl⟩
  exact ⟨s, hlength, agesRight_of_reachable (System.reachable_of_runFrom ⟨0, rfl⟩ hs)⟩

/-! ## With an interval -/

/-- The call adds an entry. -/
def TableCall.adds : TableCall → Bool
  | .addEntry _ => true
  | .handleFlowMod _ flowMod => flowMod.command = .add
  | .deleteMatchingEntries _ => false
  | .lookup _ => false
  | .aging => false

namespace FlowTable

variable {call : TableCall} {t' : FlowTable}

theorem removeAgedEntriesIfNeeded_of_pos (h : 0 < t.agingInterval) (now : SimTime) :
    t.removeAgedEntriesIfNeeded now = t := by
  rw [removeAgedEntriesIfNeeded, if_pos]
  rw [Bool.or_eq_true, decide_eq_true_iff]
  exact .inr h

theorem isFull_of_pos (h : 0 < t.agingInterval) (now : SimTime) :
    t.isFull now = (decide (t.maxEntries ≠ 0 ∧ t.maxEntries ≤ t.entries.length), t) := by
  rw [isFull]
  by_cases hmax : t.maxEntries = 0
  · simp [hmax]
  · simp [hmax, removeAgedEntriesIfNeeded_of_pos h]

/-- Ageing schedules one message more. -/
theorem length_agingEvents_removeAgedEntries (h : 0 < t.agingInterval) (now : SimTime) :
    (t.removeAgedEntries now).agingEvents.length = t.agingEvents.length + 1 := by
  simp only [removeAgedEntries, if_pos h, scheduleNextAging, List.length_append,
    List.length_singleton]

/-- A message is handled, and the next one is scheduled. -/
theorem length_agingEvents_handleAging (h : 0 < t.agingInterval) (hmem : now ∈ t.agingEvents) :
    (t.handleAging now).agingEvents.length = t.agingEvents.length := by
  have hpos := List.length_pos_of_mem hmem
  have hlength := length_agingEvents_removeAgedEntries
    (t := { t with agingEvents := t.agingEvents.erase now }) h now
  rw [List.length_erase_of_mem hmem] at hlength
  rw [handleAging, hlength]
  omega

/-- An entry that is refused changes nothing, one that is added schedules one message more. -/
theorem addEntry_of_pos (h : 0 < t.agingInterval) (now : SimTime) (entry : FlowTableEntry) :
    t.addEntry now entry = (false, t) ∨ (t.addEntry now entry).1 = true ∧
      (t.addEntry now entry).2.agingEvents.length = t.agingEvents.length + 1 := by
  rw [addEntry, isFull_of_pos h]
  dsimp only
  split_ifs
  · exact .inl rfl
  · exact .inl rfl
  · right
    refine ⟨rfl, ?_⟩
    exact length_agingEvents_removeAgedEntries (t := { t with entries := t.entries ++
      [{ entry with creationTime := now, lastMatched := now }] }) h now

/-- The first entry is not refused. -/
theorem addEntry_of_empty (h : 0 < t.agingInterval) (hempty : t.entries = []) (now : SimTime)
    (entry : FlowTableEntry) : (t.addEntry now entry).1 = true := by
  have hroom : ¬(t.maxEntries ≠ 0 ∧ t.maxEntries ≤ t.entries.length) := by
    rw [hempty, List.length_nil]
    omega
  have hnew : t.entries.any (·.addr == entry.addr) = false := by
    rw [hempty]
    rfl
  simp only [addEntry, isFull_of_pos h, hroom, hnew, decide_false, Bool.false_eq_true, if_false]

@[simp] theorem lookup_agingEvents (h : 0 < t.agingInterval) (m : OxmBasicMatch) :
    (t.lookup now m).2.agingEvents = t.agingEvents := by
  rw [lookup, removeAgedEntriesIfNeeded_of_pos h]
  dsimp only
  split <;> rfl

/-- The interval stays, and messages become no fewer. -/
theorem length_agingEvents_run (h : 0 < t.agingInterval) (hcall : call.run t now = some t') :
    t'.agingInterval = t.agingInterval ∧ t.agingEvents.length ≤ t'.agingEvents.length := by
  have hadd (entry : FlowTableEntry) : t.agingEvents.length ≤
      (t.addEntry now entry).2.agingEvents.length := by
    rcases addEntry_of_pos h now entry with hrefused | ⟨-, hadded⟩
    · rw [hrefused]
    · omega
  cases call with
  | addEntry entry =>
    cases hcall
    exact ⟨addEntry_agingInterval t now entry, hadd entry⟩
  | handleFlowMod addr flowMod =>
    cases hcall
    unfold handleFlowMod
    split
    · exact ⟨addEntry_agingInterval t now _, hadd _⟩
    all_goals exact ⟨rfl, le_refl _⟩
  | deleteMatchingEntries m =>
    cases hcall
    exact ⟨rfl, le_refl _⟩
  | lookup m =>
    cases hcall
    exact ⟨lookup_agingInterval t now m, (congrArg _ (lookup_agingEvents h m)).ge⟩
  | aging =>
    simp only [TableCall.run] at hcall
    split_ifs at hcall with hmem
    cases hcall
    exact ⟨removeAgedEntries_agingInterval _ now, (length_agingEvents_handleAging h hmem).ge⟩

/-- In an empty table a call schedules a message more if it adds an entry. Else the table stays
empty, with as many messages. -/
theorem run_of_empty (h : 0 < t.agingInterval) (hempty : t.entries = [])
    (hcall : call.run t now = some t') :
    if call.adds then t'.agingEvents.length = t.agingEvents.length + 1
    else t'.entries = [] ∧ t'.agingEvents.length = t.agingEvents.length := by
  have hadd (entry : FlowTableEntry) : (t.addEntry now entry).2.agingEvents.length =
      t.agingEvents.length + 1 := by
    rcases addEntry_of_pos h now entry with hrefused | ⟨-, hadded⟩
    · -- an empty table refuses no entry
      have hfirst := addEntry_of_empty h hempty now entry
      rw [hrefused] at hfirst
      cases hfirst
    · exact hadded
  have hdelete (m : OxmBasicMatch) : (t.deleteMatchingEntries m).entries = [] := by
    rw [deleteMatchingEntries, hempty, List.filter_nil]
  cases call with
  | addEntry entry =>
    cases hcall
    exact hadd entry
  | handleFlowMod addr flowMod =>
    cases hcall
    obtain ⟨_, _, command, _, _, _, _, oxmMatch, _⟩ := flowMod
    cases command with
    | add => exact hadd _
    | modify => exact ⟨hdelete _, rfl⟩
    | modifyStrict => exact ⟨hdelete _, rfl⟩
    | delete => exact ⟨hdelete _, rfl⟩
    | deleteStrict => exact ⟨hempty, rfl⟩
  | deleteMatchingEntries m =>
    cases hcall
    exact ⟨hdelete m, rfl⟩
  | lookup m =>
    cases hcall
    refine ⟨?_, congrArg _ (lookup_agingEvents h m)⟩
    rw [lookup, removeAgedEntriesIfNeeded_of_pos h, hempty]
    exact hempty
  | aging =>
    simp only [TableCall.run] at hcall
    split_ifs at hcall with hmem
    cases hcall
    refine ⟨List.eq_nil_iff_forall_not_mem.mpr fun e he => ?_,
      length_agingEvents_handleAging h hmem⟩
    have he' := (mem_removeAgedEntries.mp he).1
    rw [hempty] at he'
    exact List.not_mem_nil he'

end FlowTable

/-- One step of a table that is called. -/
theorem calledTable_step {s s' : TimedTable} {e : SimTime × TableCall}
    (hs : calledTable.step s e = some s') : e.2.run s.table e.1 = some s'.table := by
  simp only [calledTable] at hs
  split_ifs at hs
  obtain ⟨t, ht, rfl⟩ := Option.map_eq_some_iff.mp hs
  exact ht

theorem length_agingEvents_runFrom {s s' : TimedTable} {es : List (SimTime × TableCall)}
    (h : 0 < s.table.agingInterval) (hrun : calledTable.runFrom s es = some s') :
    s.table.agingEvents.length ≤ s'.table.agingEvents.length := by
  induction es generalizing s with
  | nil =>
    cases hrun
    exact le_refl _
  | cons e es ih =>
    obtain ⟨s₁, hs, hrun⟩ := Option.bind_eq_some_iff.mp hrun
    obtain ⟨hinterval, hle⟩ := FlowTable.length_agingEvents_run h (calledTable_step hs)
    exact hle.trans (ih (hinterval ▸ h) hrun)

/-- From an empty table on, no message is added exactly as long as no entry is. -/
theorem length_agingEvents_eq_iff {s s' : TimedTable} {es : List (SimTime × TableCall)}
    (h : 0 < s.table.agingInterval) (hempty : s.table.entries = [])
    (hrun : calledTable.runFrom s es = some s') :
    s'.table.agingEvents.length = s.table.agingEvents.length ↔ ∀ e ∈ es, e.2.adds = false := by
  induction es generalizing s with
  | nil =>
    cases hrun
    exact ⟨fun _ e he => absurd he List.not_mem_nil, fun _ => rfl⟩
  | cons e es ih =>
    obtain ⟨s₁, hs, hrun⟩ := Option.bind_eq_some_iff.mp hrun
    have hcall := calledTable_step hs
    have hinterval := (FlowTable.length_agingEvents_run h hcall).1
    have hfirst := FlowTable.run_of_empty h hempty hcall
    cases hadds : e.2.adds with
    | true =>
      rw [if_pos hadds] at hfirst
      have hle := length_agingEvents_runFrom (hinterval ▸ h) hrun
      constructor
      · intro hlength
        omega
      · intro hall
        rw [hall e (List.mem_cons_self ..)] at hadds
        cases hadds
    | false =>
      rw [if_neg (Bool.eq_false_iff.mp hadds)] at hfirst
      rw [← hfirst.2, ih (hinterval ▸ h) hfirst.1 hrun, List.forall_mem_cons]
      exact (and_iff_right hadds).symm

/-- One ageing message is scheduled after a run exactly when no entry was added in it. -/
theorem oneTimer_iff {s s' : TimedTable} {es : List (SimTime × TableCall)}
    (hinit : calledTable.init s) (h : 0 < s.table.agingInterval)
    (hrun : calledTable.runFrom s es = some s') :
    s'.table.agingEvents.length = 1 ↔ ∀ e ∈ es, e.2.adds = false := by
  obtain ⟨n, i, hs⟩ := hinit
  have hempty : s.table.entries = [] := by rw [hs, FlowTable.initTable_entries]
  have hone : s.table.agingEvents.length = 1 := by
    have hpos : i > 0 := by
      rw [hs, FlowTable.initTable] at h
      split_ifs at h with hi
      · exact hi
      · exact absurd h hi
    rw [hs, FlowTable.initTable, if_pos hpos]
    rfl
  rw [← hone]
  exact length_agingEvents_eq_iff h hempty hrun

theorem oneTimer_iff_aging : ∃ s',
    calledTable.runFrom ⟨FlowTable.initTable 0 0 5, 0⟩ [(5, .aging)] = some s' ∧
      (s'.table.agingEvents.length = 1 ↔
        ∀ e ∈ [((5 : SimTime), TableCall.aging)], e.2.adds = false) := by
  obtain ⟨s', hs⟩ : ∃ s',
      calledTable.runFrom ⟨FlowTable.initTable 0 0 5, 0⟩ [(5, .aging)] = some s' := ⟨_, rfl⟩
  exact ⟨s', hs, oneTimer_iff ⟨0, 5, rfl⟩ (by decide) hs⟩

/-- An entry that is added at the time 1 is aged at 5 and at 6, and so on. -/
theorem not_oneTimer : ¬∀ (s s' : TimedTable) (es : List (SimTime × TableCall)),
    calledTable.init s → 0 < s.table.agingInterval → calledTable.runFrom s es = some s' →
      s'.table.agingEvents.length = 1 := by
  intro h
  obtain ⟨s', hs, hevents⟩ : ∃ s', calledTable.runFrom ⟨FlowTable.initTable 0 0 5, 0⟩
      [(1, .addEntry idleEntry)] = some s' ∧ s'.table.agingEvents = [5, 6] :=
    ⟨_, rfl, rfl⟩
  have hone := h _ s' _ ⟨0, 5, rfl⟩ (by decide) hs
  rw [hevents] at hone
  cases hone

end TsnReconfig.OpenFlow
