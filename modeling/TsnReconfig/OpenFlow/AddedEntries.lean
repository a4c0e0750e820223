import TsnReconfig.OpenFlow.FirstEntry
import TsnReconfig.OpenFlow.TableXml

/-!
# Added entries

Entries that are added by a caller, for a `FLOW_MOD`, and from a file. `addEntry` documents that it
does not add an entry that exists, but it compares the addresses, and most entries are new objects.
-/

namespace TsnReconfig.OpenFlow

open Lib

/-- The entries have the same match, priority and instructions. -/
def SameRule (e e' : FlowTableEntry) : Prop :=
  e.oxmMatch = e'.oxmMatch ∧ e.priority = e'.priority ∧ e.instructions = e'.instructions

instance (e e' : FlowTableEntry) : Decidable (SameRule e e') := instDecidableAnd

theorem SameRule.symm {e e' : FlowTableEntry} (h : SameRule e e') : SameRule e' e :=
  ⟨h.1.symm, h.2.1.symm, h.2.2.symm⟩

/-- A call of `addEntry` and what came of it. -/
structure AddRecord where
  now : SimTime
  before : FlowTable
  entry : FlowTableEntry
  added : Bool
  after : FlowTable

/-- A flow table at a time, with the entries that were added up to then. -/
structure AddRun where
  time : SimTime
  table : FlowTable
  adds : List AddRecord := []

/-- An entry from a file is one `flowEntry` of `importFromXML`, with the memory of its object. -/
inductive AddEvent
  | advance (t : SimTime)
  | addEntry (entry : FlowTableEntry)
  | handleFlowMod (addr : ℕ) (flowMod : FlowMod)
  | importEntry (memory : FlowTableEntry) (xmlFlow : XMLElement)
  | aging

namespace AddRun

def add (s : AddRun) (entry : FlowTableEntry) : AddRun :=
  let r := s.table.addEntry s.time entry
  { s with table := r.2, adds := ⟨s.time, s.table, entry, r.1, r.2⟩ :: s.adds }

/-- A new object is at an address at which there is none. -/
def isFresh (s : AddRun) (addr : ℕ) : Bool := s.table.entries.all (·.addr ≠ addr)

/-- The entry of a call may be an object of the table. -/
def step (s : AddRun) : AddEvent → Option AddRun
  | .advance t => if s.time ≤ t then some { s with time := t } else none
  | .addEntry entry =>
    if s.isFresh entry.addr ∨ entry ∈ s.table.entries then some (s.add entry) else none
  | .handleFlowMod addr flowMod =>
    if s.isFresh addr ∧ flowMod.command = .add then some (s.add (.ofFlowMod s.time addr flowMod))
    else none
  | .importEntry memory xmlFlow =>
    if s.isFresh memory.addr then (FlowTableEntry.ofXML s.time memory xmlFlow).map s.add else none
  | .aging =>
    if s.time ∈ s.table.agingEvents then some { s with table := s.table.handleAging s.time }
    else none

def runs : System AddRun AddEvent where
  init s := s.adds = [] ∧
    ∃ maxEntries agingInterval, s.table = FlowTable.initTable s.time maxEntries agingInterval
  step := step

/-- The entries that have not expired. -/
def live (t : FlowTable) (now : SimTime) : List FlowTableEntry :=
  t.entries.filter fun e => now < e.getTimeOut

end AddRun

/-- A rule that is in the table is not added again, and an entry is refused only if the table is
full of entries that have not expired, or has its rule. Expired entries may go. -/
structure AddRecord.Right (r : AddRecord) : Prop where
  unchanged : (∃ e ∈ AddRun.live r.before r.now, SameRule e r.entry) →
    ∀ e, r.now < e.getTimeOut → (e ∈ r.after.entries ↔ e ∈ r.before.entries)
  refused : r.added = false →
    (r.before.maxEntries ≠ 0 ∧ r.before.maxEntries ≤ (AddRun.live r.before r.now).length) ∨
      ∃ e ∈ r.before.entries, SameRule e r.entry

namespace AddRun

/-- No two entries of the table have the same rule. -/
structure NoDuplicates (s : AddRun) : Prop where
  table : s.table.entries.Pairwise fun e e' => ¬SameRule e e'
  adds : ∀ r ∈ s.adds, r.Right

/-- A full table has no expired entries, or the rule. Otherwise no other object of the table has the
rule, if it has not expired. -/
def addsOnce (s : AddRun) (entry : FlowTableEntry) : Bool :=
  if (s.table.isFull s.time).1 then
    s.table.agingInterval ≤ 0 || s.table.maxEntries ≤ (live s.table s.time).length ||
      s.table.entries.any (SameRule · entry)
  else (live s.table s.time).all fun e => ¬SameRule e entry ∨ e.addr = entry.addr

/-- The condition on the entry of an event. -/
def addsNew (s : AddRun) : AddEvent → Bool
  | .addEntry entry => s.addsOnce entry
  | .handleFlowMod addr flowMod => s.addsOnce (.ofFlowMod s.time addr flowMod)
  | .importEntry memory xmlFlow => (FlowTableEntry.ofXML s.time memory xmlFlow).all s.addsOnce
  | .advance _ => true
  | .aging => true

variable {s s' : AddRun} {e : AddEvent} {entry : FlowTableEntry}

theorem mem_live {t : FlowTable} {now : SimTime} {e : FlowTableEntry} :
    e ∈ live t now ↔ e ∈ t.entries ∧ now < e.getTimeOut := by
  rw [live, List.mem_filter, decide_eq_true_iff]

theorem maxEntries_removeAgedEntries {t : FlowTable} {now : SimTime} :
    (t.removeAgedEntries now).maxEntries = t.maxEntries := by
  simp only [FlowTable.removeAgedEntries]
  split_ifs <;> rfl

/-- A full table without ageing messages is full of entries that have not expired. -/
theorem le_length_live_of_isFull {t : FlowTable} {now : SimTime} (haging : t.Aging now)
    (hsorted : t.Sorted) (hinterval : t.agingInterval ≤ 0) (hfull : (t.isFull now).1 = true) :
    t.maxEntries ≠ 0 ∧ t.maxEntries ≤ (live t now).length := by
  unfold FlowTable.isFull at hfull
  by_cases hmax : t.maxEntries ≠ 0
  · rw [if_pos hmax] at hfull
    refine ⟨hmax, ?_⟩
    have hlength := of_decide_eq_true hfull
    have hmaxEntries : (t.removeAgedEntriesIfNeeded now).maxEntries = t.maxEntries := by
      unfold FlowTable.removeAgedEntriesIfNeeded
      split_ifs
      · rfl
      · exact maxEntries_removeAgedEntries
      · rfl
    rw [hmaxEntries] at hlength
    refine hlength.trans (List.Subperm.length_le ?_)
    have hnodup : (t.removeAgedEntriesIfNeeded now).entries.Nodup :=
      (FlowTable.Sorted.ne (hsorted.removeAgedEntriesIfNeeded now)).imp fun hne heq =>
        hne (congrArg _ heq)
    refine List.subperm_of_subset hnodup fun e he => ?_
    obtain ⟨hmem, hlive⟩ := (FlowTable.mem_removeAgedEntriesIfNeeded_iff haging).mp he
    exact mem_live.mpr ⟨hmem, hlive.resolve_left (not_lt.mpr hinterval)⟩
  · rw [if_neg hmax] at hfull
    cases hfull

structure Inv (s : AddRun) : Prop where
  sorted : s.table.Sorted
  aging : s.table.Aging s.time
  unique : ∀ e ∈ s.table.entries, ∀ e' ∈ s.table.entries, SameRule e e' → e = e'
  adds : ∀ r ∈ s.adds, r.Right

theorem Inv.noDuplicates (h : s.Inv) : s.NoDuplicates where
  table := by
    refine List.Pairwise.imp_of_mem (fun {e e'} he he' haddr hsame => ?_) h.sorted
    rw [h.unique e he e' he' hsame] at haddr
    exact lt_irrefl _ haddr
  adds := h.adds

theorem inv_init (h : runs.init s) : s.Inv := by
  obtain ⟨hadds, n, i, htable⟩ := h
  have hentries : s.table.entries = [] := by rw [htable, FlowTable.initTable_entries]
  refine ⟨?_, fun e he => ?_, fun e he => ?_, fun r hr => ?_⟩
  · rw [htable]
    exact FlowTable.sorted_initTable s.time n i
  · rw [hentries] at he
    cases he
  · rw [hentries] at he
    cases he
  · rw [hadds] at hr
    cases hr

/-- What a call of `addEntry` leaves, and what came of it. -/
theorem Inv.add (h : s.Inv) (hok : s.addsOnce entry = true)
    (hobject : ∀ e ∈ s.table.entries, e.addr = entry.addr → e = entry) : (s.add entry).Inv := by
  suffices hcall : (∀ e ∈ (s.add entry).table.entries, ∀ e' ∈ (s.add entry).table.entries,
      SameRule e e' → e = e') ∧
      AddRecord.Right ⟨s.time, s.table, entry, (s.table.addEntry s.time entry).1,
        (s.add entry).table⟩ by
    refine ⟨h.sorted.addEntry s.time entry, h.aging.addEntry entry, hcall.1, fun r hr => ?_⟩
    rcases List.mem_cons.mp hr with rfl | hr
    · exact hcall.2
    · exact h.adds r hr
  have hkept : ∀ e, s.time < e.getTimeOut →
      (e ∈ (s.table.isFull s.time).2.entries ↔ e ∈ s.table.entries) := fun e hlive =>
    ⟨FlowTable.isFull_entries_subset, fun he => FlowTable.mem_isFull_entries he hlive⟩
  change (∀ e ∈ (s.table.addEntry s.time entry).2.entries,
    ∀ e' ∈ (s.table.addEntry s.time entry).2.entries, SameRule e e' → e = e') ∧
      AddRecord.Right ⟨s.time, s.table, entry, (s.table.addEntry s.time entry).1,
        (s.table.addEntry s.time entry).2⟩
  unfold addsOnce at hok
  rcases FlowTable.addEntry_cases s.table s.time entry with
    ⟨hfull, hr⟩ | ⟨hfull, ⟨e, he, haddr⟩, hr⟩ | ⟨hfull, haddr, hadded, hmem⟩
  · rw [hr]
    rw [if_pos hfull] at hok
    refine ⟨fun e he e' he' => h.unique e (FlowTable.isFull_entries_subset he) e'
      (FlowTable.isFull_entries_subset he'), fun _ => hkept, fun _ => ?_⟩
    simp only [Bool.or_eq_true, decide_eq_true_eq, List.any_eq_true] at hok
    rcases hok with (hinterval | hlive) | hsame
    · exact .inl (le_length_live_of_isFull h.aging h.sorted hinterval hfull)
    · refine .inl ⟨fun hzero => ?_, hlive⟩
      rw [FlowTable.isFull, if_neg (not_not.mpr hzero)] at hfull
      cases hfull
    · exact .inr hsame
  · rw [hr]
    have he := FlowTable.isFull_entries_subset he
    refine ⟨fun e he e' he' => h.unique e (FlowTable.isFull_entries_subset he) e'
      (FlowTable.isFull_entries_subset he'), fun _ => hkept, fun _ => .inr ⟨e, he, ?_⟩⟩
    rw [hobject e he haddr]
    exact ⟨rfl, rfl, rfl⟩
  · rw [if_neg (Bool.eq_false_iff.mp hfull), List.all_eq_true] at hok
    -- no old entry that has not expired has the rule of the new one
    have hnew : ∀ e ∈ s.table.entries, s.time < e.getTimeOut → ¬SameRule e entry := by
      intro e he hlive hsame
      rcases of_decide_eq_true (hok e (mem_live.mpr ⟨he, hlive⟩)) with hne | hsameAddr
      · exact hne hsame
      · exact haddr e ((hkept e hlive).mpr he) hsameAddr
    refine ⟨fun e he e' he' hsame => ?_, fun ⟨e, he, hsame⟩ => ?_, fun hrefused => ?_⟩
    · obtain ⟨he, hlive⟩ := (hmem e).mp he
      obtain ⟨he', hlive'⟩ := (hmem e').mp he'
      rcases he with he | rfl
      · have hold := FlowTable.isFull_entries_subset he
        rcases he' with he' | rfl
        · exact h.unique e hold e' (FlowTable.isFull_entries_subset he') hsame
        · exact absurd hsame (hnew e hold hlive)
      · rcases he' with he' | rfl
        · exact absurd hsame.symm (hnew e' (FlowTable.isFull_entries_subset he') hlive')
        · rfl
    · obtain ⟨he, hlive⟩ := mem_live.mp he
      exact absurd hsame (hnew e he hlive)
    · rw [hadded] at hrefused
      cases hrefused

theorem eq_of_isFresh {addr : ℕ} (h : s.isFresh addr = true) {P : FlowTableEntry → Prop} :
    ∀ e ∈ s.table.entries, e.addr = addr → P e := fun e he haddr =>
  absurd haddr (of_decide_eq_true (List.all_eq_true.mp h e he))

theorem ofXML_addr {now : SimTime} {memory : FlowTableEntry} {xml : XMLElement}
    (h : FlowTableEntry.ofXML now memory xml = some entry) : entry.addr = memory.addr := by
  obtain ⟨oxmMatch, -, h⟩ := Option.bind_eq_some_iff.mp h
  obtain ⟨xmlInstructions, -, h⟩ := Option.bind_eq_some_iff.mp h
  obtain ⟨instructions, -, h⟩ := Option.bind_eq_some_iff.mp h
  cases h
  rfl

theorem Inv.step (h : s.Inv) (hok : s.addsNew e = true) (hs : step s e = some s') : s'.Inv := by
  cases e with
  | advance t =>
    change (if _ then _ else none) = _ at hs
    split_ifs at hs with hle
    cases hs
    exact ⟨h.sorted, h.aging.mono hle, h.unique, h.adds⟩
  | addEntry entry =>
    change (if _ then _ else none) = _ at hs
    split_ifs at hs with hobject
    cases hs
    refine h.add hok fun e he haddr => ?_
    rcases hobject with hfresh | hmem
    · exact eq_of_isFresh (P := fun e => e = entry) hfresh e he haddr
    · exact FlowTable.Sorted.eq_of_addr h.sorted he hmem haddr
  | handleFlowMod addr flowMod =>
    change (if _ then _ else none) = _ at hs
    split_ifs at hs with hadd
    cases hs
    exact h.add hok (eq_of_isFresh hadd.1)
  | importEntry memory xmlFlow =>
    change (if _ then _ else none) = _ at hs
    split_ifs at hs with hfresh
    obtain ⟨entry, hentry, rfl⟩ := Option.map_eq_some_iff.mp hs
    rw [addsNew, hentry, Option.all_some] at hok
    refine h.add hok ?_
    rw [ofXML_addr hentry]
    exact eq_of_isFresh hfresh
  | aging =>
    change (if _ then _ else none) = _ at hs
    split_ifs at hs
    cases hs
    refine ⟨h.sorted.handleAging s.time,
      FlowTable.aging_removeAgedEntries fun e he => (h.aging e he).2, fun e he e' he' => ?_, h.adds⟩
    exact h.unique e (FlowTable.mem_removeAgedEntries.mp he).1 e'
      (FlowTable.mem_removeAgedEntries.mp he').1

/-- The table has no duplicates in every run in which every entry is new. -/
theorem noDuplicates_of_addsNew (h : runs.ReachableUnder (addsNew · ·) s) : s.NoDuplicates := by
  have hinv : s.Inv := h.invariant (fun _ => inv_init) fun _ _ _ _ hs hok hstep =>
    hs.step hok hstep
  exact hinv.noDuplicates

/-- A `FLOW_MOD` that adds an entry to match everything. -/
def addAll (priority : UInt16) : FlowMod :=
  ⟨0, 0, .add, 0, 0, priority, 0, { OxmBasicMatch.zero with wildcards := ofpfwAll }, [1]⟩

def emptyTable : AddRun := ⟨0, .initTable 0 0 0, []⟩

theorem noDuplicates_addAll : ∃ s : AddRun, s.table.entries.length = 2 ∧ s.NoDuplicates := by
  obtain ⟨s, hs, hlength⟩ : ∃ s : AddRun, runs.runUnder (addsNew · ·) emptyTable
      [.handleFlowMod 1 (addAll 5), .handleFlowMod 2 (addAll 6)] = some s ∧
        s.table.entries.length = 2 :=
    ⟨_, rfl, rfl⟩
  have hinit : runs.init emptyTable := ⟨rfl, 0, 0, rfl⟩
  exact ⟨s, hlength, noDuplicates_of_addsNew (System.ReachableUnder.run (.init hinit) hs)⟩

/-- The same `FLOW_MOD` twice. -/
theorem not_noDuplicates : ¬∀ s : AddRun, runs.Reachable s → s.NoDuplicates := by
  intro h
  obtain ⟨s, hs, hentries⟩ : ∃ s : AddRun, runs.runFrom emptyTable
      [.handleFlowMod 1 (addAll 5), .handleFlowMod 2 (addAll 5)] = some s ∧
        s.table.entries = [.ofFlowMod 0 2 (addAll 5), .ofFlowMod 0 1 (addAll 5)] :=
    ⟨_, rfl, rfl⟩
  have hinit : runs.init emptyTable := ⟨rfl, 0, 0, rfl⟩
  have hpairwise := (h s (System.reachable_of_runFrom hinit hs)).table
  rw [hentries, List.pairwise_pair] at hpairwise
  exact hpairwise ⟨rfl, rfl, rfl⟩

/-! ## Whole calls -/

theorem add_ofFlowMod {addr : ℕ} {flowMod : FlowMod} (h : flowMod.command = .add) :
    (s.add (.ofFlowMod s.time addr flowMod)).table =
      s.table.handleFlowMod s.time addr flowMod := by
  rw [FlowTable.handleFlowMod, h]
  rfl

/-- The events of the loop of `importFromXML`. -/
def importEvents (heap : Heap) : ℕ → List XMLElement → List AddEvent
  | _, [] => []
  | i, xml :: xmlFlows => .importEntry (heap.object i) xml :: importEvents heap (i + 1) xmlFlows

theorem runFrom_importEvents {heap : Heap} {i : ℕ} {xmlFlows : List XMLElement} {t : FlowTable}
    (hfresh : ∀ j, i ≤ j → s.isFresh (heap.object j).addr = true)
    (h : FlowTable.importEntries s.time heap i xmlFlows s.table = some t) :
    ∃ s', runs.runFrom s (importEvents heap i xmlFlows) = some s' ∧ s'.table = t := by
  induction xmlFlows generalizing s i with
  | nil =>
    cases h
    exact ⟨s, rfl, rfl⟩
  | cons xml xmlFlows ih =>
    obtain ⟨entry, hentry, h⟩ := Option.bind_eq_some_iff.mp h
    have hstep : step s (.importEntry (heap.object i) xml) = some (s.add entry) := by
      rw [step, if_pos (hfresh i (le_refl i)), hentry, Option.map_some]
    have hrest : ∀ j, i + 1 ≤ j → (s.add entry).isFresh (heap.object j).addr = true := by
      intro j hj
      refine List.all_eq_true.mpr fun e he => decide_eq_true ?_
      rcases FlowTable.mem_addEntry he with he | rfl
      · exact of_decide_eq_true (List.all_eq_true.mp (hfresh j (by omega)) e he)
      · intro haddr
        have hi := heap.distinct i j ((ofXML_addr hentry).symm.trans haddr)
        omega
    obtain ⟨s', hs', htable⟩ := ih hrest h
    refine ⟨s', ?_, htable⟩
    rw [importEvents, System.runFrom]
    exact Option.bind_eq_some_iff.mpr ⟨_, hstep, hs'⟩

/-- `importFromXML` is a run, or it does nothing. -/
theorem importFromXML_run {heap : Heap} {tableIndex : Int32} {xmlDoc : XMLElement} {t : FlowTable}
    (hfresh : ∀ j, s.isFresh (heap.object j).addr = true)
    (h : s.table.importFromXML tableIndex s.time heap xmlDoc = some t) :
    t = s.table ∨ ∃ s', runs.runFrom s
      (importEvents heap 0 (xmlDoc.getChildrenByTagName "flowEntry")) = some s' ∧ s'.table = t := by
  unfold FlowTable.importFromXML at h
  split at h
  · split_ifs at h
    · exact .inl (Option.some.inj h).symm
    · exact .inr (runFrom_importEvents (fun j _ => hfresh j) h)
  · exact .inl (Option.some.inj h).symm

end AddRun

end TsnReconfig.OpenFlow
