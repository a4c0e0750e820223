import Mathlib.Algebra.Group.Int.Defs
import Mathlib.Data.List.Sort
import TsnReconfig.OpenFlow.Match

/-!
# The flow table

`OF_FlowTable` with its `OF100_FlowTableEntry` entries. An entry is a heap object, and
`addr` is its address: `addEntry` compares addresses, and `sortEntries` sorts a vector of
pointers, so it orders by address as well.
-/

namespace TsnReconfig.OpenFlow

/-- `simtime_t` as its raw number of ticks. -/
abbrev SimTime := Int

/-- `simtime_t::getMaxTime()`. -/
def maxTime : SimTime := 2 ^ 63 - 1

def ticksPerSecond : Int := 10 ^ 12

/-- `ofp_flow_mod_command`. -/
inductive FlowModCommand
  | add | modify | modifyStrict | delete | deleteStrict
  deriving DecidableEq, Repr

/-- `OFP_Flow_Mod`, the members the switch reads. -/
structure FlowMod where
  cookie : UInt64
  tableId : UInt8
  command : FlowModCommand
  idleTimeout : UInt16
  hardTimeout : UInt16
  priority : UInt16
  flags : UInt16
  oxmMatch : OxmBasicMatch
  actions : List UInt32
  deriving DecidableEq, Repr

/-- `OF100_FlowTableEntry` with the members of `OF_FlowTableEntry`. -/
structure FlowTableEntry where
  addr : ℕ
  creationTime : SimTime
  lastMatched : SimTime
  hardTimeout : Int
  idleTimeout : Int
  cookie : UInt64
  priority : Int
  flags : UInt32
  oxmMatch : OxmBasicMatch
  instructions : List UInt32
  deriving DecidableEq, Repr

namespace FlowTableEntry

/-- `OF_FlowTableEntry::createEntryForOFVersion(OFP_Flow_Mod *)`. -/
def ofFlowMod (now : SimTime) (addr : ℕ) (flowMod : FlowMod) : FlowTableEntry where
  addr := addr
  creationTime := now
  lastMatched := now
  hardTimeout := flowMod.hardTimeout.toNat
  idleTimeout := flowMod.idleTimeout.toNat
  cookie := flowMod.cookie
  priority := flowMod.priority.toNat
  flags := flowMod.flags.toUInt32
  oxmMatch := flowMod.oxmMatch
  instructions := flowMod.actions

/-- `OF_FlowTableEntry::getTimeOut`. -/
def getTimeOut (e : FlowTableEntry) : SimTime :=
  let timeout := maxTime
  let timeout :=
    if e.idleTimeout > 0 then min timeout (e.lastMatched + e.idleTimeout * ticksPerSecond)
    else timeout
  if e.hardTimeout > 0 then min timeout (e.creationTime + e.hardTimeout * ticksPerSecond)
  else timeout

/-- `OF100_FlowTableEntry::tryMatch(other, wildcards)`. -/
def tryMatchWith (e : FlowTableEntry) (other : OxmBasicMatch) (wildcards : UInt32) : Bool :=
  (wildcarded wildcards ofpfwInPort || e.oxmMatch.ofbInPort == other.ofbInPort) &&
  (wildcarded wildcards ofpfwDlType || e.oxmMatch.ofbEthType == other.ofbEthType) &&
  (wildcarded wildcards ofpfwDlSrc || e.oxmMatch.ofbEthSrc.compareTo other.ofbEthSrc == 0) &&
  (wildcarded wildcards ofpfwDlDst || e.oxmMatch.ofbEthDst.compareTo other.ofbEthDst == 0) &&
  (wildcarded wildcards ofpfwDlVlan || e.oxmMatch.ofbVlanVid == other.ofbVlanVid) &&
  (wildcarded wildcards ofpfwDlVlanPcp || e.oxmMatch.ofbVlanPcp == other.ofbVlanPcp) &&
  (wildcarded wildcards ofpfwNwProto || e.oxmMatch.ofbIpProto == other.ofbIpProto) &&
  (wildcarded wildcards ofpfwNwSrcAll || e.oxmMatch.ofbIpv4Src == other.ofbIpv4Src) &&
  (wildcarded wildcards ofpfwNwDstAll || e.oxmMatch.ofbIpv4Dst == other.ofbIpv4Dst) &&
  (wildcarded wildcards ofpfwTpSrc || e.oxmMatch.ofbTpSrc == other.ofbTpSrc) &&
  -- the last comparison reads `OFB_TP_SRC` again, and none reads `OFB_TAG`
  (wildcarded wildcards ofpfwTpDst || e.oxmMatch.ofbTpSrc == other.ofbTpSrc)

/-- `OF100_FlowTableEntry::tryMatch(other)`. -/
def tryMatch (e : FlowTableEntry) (other : OxmBasicMatch) : Bool :=
  e.tryMatchWith other e.oxmMatch.wildcards

end FlowTableEntry

/-- `OF_FlowTable`; `agingEvents` are the times of its pending `AGING` self messages. -/
structure FlowTable where
  entries : List FlowTableEntry
  maxEntries : ℕ
  nextAging : SimTime
  agingInterval : SimTime
  agingEvents : List SimTime
  deriving DecidableEq, Repr

namespace FlowTable

/-- `scheduleNextAging`. -/
def scheduleNextAging (t : FlowTable) (now : SimTime) : FlowTable :=
  { t with agingEvents := t.agingEvents ++ [now + t.agingInterval] }

/-- `initialize`. -/
def initTable (now : SimTime) (maxEntries : ℕ) (agingInterval : SimTime) : FlowTable :=
  let t : FlowTable := ⟨[], maxEntries, maxTime, agingInterval, []⟩
  if agingInterval > 0 then t.scheduleNextAging now else t

/-- `sortEntries`: `std::sort(_entries.rbegin(), _entries.rend())` over pointers leaves the
vector in descending order of addresses. -/
def sortEntries (entries : List FlowTableEntry) : List FlowTableEntry :=
  entries.insertionSort fun a b => b.addr ≤ a.addr

/-- `removeAgedEntries`. -/
def removeAgedEntries (t : FlowTable) (now : SimTime) : FlowTable :=
  let kept := t.entries.filter fun e => now < e.getTimeOut
  let updated := kept.length < t.entries.length
  let t : FlowTable := { t with
    entries := if updated then sortEntries kept else kept
    nextAging := kept.foldl (fun next e => min next e.getTimeOut) maxTime }
  if t.agingInterval > 0 then t.scheduleNextAging now else t

/-- `removeAgedEntriesIfNeeded`. -/
def removeAgedEntriesIfNeeded (t : FlowTable) (now : SimTime) : FlowTable :=
  if t.entries.isEmpty || t.agingInterval > 0 then t
  else if t.nextAging ≤ now then t.removeAgedEntries now
  else t

/-- `handleMessage` of an `AGING` self message. -/
def handleAging (t : FlowTable) (now : SimTime) : FlowTable :=
  { t with agingEvents := t.agingEvents.erase now }.removeAgedEntries now

/-- The condition `_maxEntries != 0 && getNumEntries() >= _maxEntries` of `addEntry`:
`getNumEntries` ages the table, and is only called when there is a maximum. -/
def isFull (t : FlowTable) (now : SimTime) : Bool × FlowTable :=
  if t.maxEntries ≠ 0 then
    let t := t.removeAgedEntriesIfNeeded now
    (t.maxEntries ≤ t.entries.length, t)
  else (false, t)

/-- `addEntry`, with its result. -/
def addEntry (t : FlowTable) (now : SimTime) (entry : FlowTableEntry) : Bool × FlowTable :=
  let (full, t) := t.isFull now
  if full then (false, t)
  else if t.entries.any (·.addr == entry.addr) then (false, t)
  else
    let entry := { entry with creationTime := now, lastMatched := now }
    let t := { t with entries := t.entries ++ [entry] }.removeAgedEntries now
    (true, { t with entries := sortEntries t.entries })

/-- `deleteMatchingEntries`. -/
def deleteMatchingEntries (t : FlowTable) (m : OxmBasicMatch) : FlowTable :=
  { t with entries := t.entries.filter fun e => !e.tryMatchWith m m.wildcards }

/-- `handleFlowMod`; `addr` is where the new entry is allocated. -/
def handleFlowMod (t : FlowTable) (now : SimTime) (addr : ℕ) (flowMod : FlowMod) : FlowTable :=
  match flowMod.command with
  | .add => (t.addEntry now (.ofFlowMod now addr flowMod)).2
  -- the cases of the modify commands fall through to the one of `OFPFC_DELETE`
  | .modify | .modifyStrict | .delete => t.deleteMatchingEntries flowMod.oxmMatch
  | .deleteStrict => t

/-- `lookup`: the first entry that matches, which is marked as matched now. -/
def lookup (t : FlowTable) (now : SimTime) (m : OxmBasicMatch) :
    Option FlowTableEntry × FlowTable :=
  let t := t.removeAgedEntriesIfNeeded now
  match t.entries.find? (·.tryMatch m) with
  | some e =>
    let touch := fun e' : FlowTableEntry =>
      if e'.addr = e.addr then { e' with lastMatched := now } else e'
    (some (touch e), { t with entries := t.entries.map touch })
  | none => (none, t)

/-! ## What the operations do to the entries -/

variable {t : FlowTable} {now : SimTime} {e : FlowTableEntry}

@[simp] theorem mem_sortEntries {l : List FlowTableEntry} : e ∈ sortEntries l ↔ e ∈ l := by
  simp [sortEntries]

@[simp] theorem scheduleNextAging_entries (t : FlowTable) (now : SimTime) :
    (t.scheduleNextAging now).entries = t.entries := rfl

@[simp] theorem initTable_entries (now : SimTime) (n : ℕ) (i : SimTime) :
    (initTable now n i).entries = [] := by
  unfold initTable
  split_ifs <;> rfl

theorem mem_removeAgedEntries :
    e ∈ (t.removeAgedEntries now).entries ↔ e ∈ t.entries ∧ now < e.getTimeOut := by
  simp only [removeAgedEntries]
  split_ifs <;> simp

theorem removeAgedEntriesIfNeeded_subset (he : e ∈ (t.removeAgedEntriesIfNeeded now).entries) :
    e ∈ t.entries := by
  unfold removeAgedEntriesIfNeeded at he
  split_ifs at he
  · exact he
  · exact (mem_removeAgedEntries.mp he).1
  · exact he

theorem mem_removeAgedEntriesIfNeeded (he : e ∈ t.entries) (hlive : now < e.getTimeOut) :
    e ∈ (t.removeAgedEntriesIfNeeded now).entries := by
  unfold removeAgedEntriesIfNeeded
  split_ifs
  · exact he
  · exact mem_removeAgedEntries.mpr ⟨he, hlive⟩
  · exact he

theorem isFull_entries_subset (he : e ∈ (t.isFull now).2.entries) : e ∈ t.entries := by
  unfold isFull at he
  split_ifs at he
  · exact removeAgedEntriesIfNeeded_subset he
  · exact he

theorem mem_isFull_entries (he : e ∈ t.entries) (hlive : now < e.getTimeOut) :
    e ∈ (t.isFull now).2.entries := by
  unfold isFull
  split_ifs
  · exact mem_removeAgedEntriesIfNeeded he hlive
  · exact he

theorem mem_addEntry {entry : FlowTableEntry} (he : e ∈ (t.addEntry now entry).2.entries) :
    e ∈ t.entries ∨ e = { entry with creationTime := now, lastMatched := now } := by
  simp only [addEntry] at he
  split_ifs at he
  · exact .inl (isFull_entries_subset he)
  · exact .inl (isFull_entries_subset he)
  · simp only [mem_sortEntries, mem_removeAgedEntries, List.mem_append,
      List.mem_singleton] at he
    exact he.1.imp_left isFull_entries_subset

/-- An entry that has not expired stays. -/
theorem mem_addEntry_of_mem {entry : FlowTableEntry} (he : e ∈ t.entries)
    (hlive : now < e.getTimeOut) : e ∈ (t.addEntry now entry).2.entries := by
  have he' := mem_isFull_entries he hlive
  simp only [addEntry]
  split_ifs
  · exact he'
  · exact he'
  · simp [mem_removeAgedEntries, he', hlive]

/-- The table is in descending order of the addresses of its entries, which are distinct. -/
def Sorted (t : FlowTable) : Prop := t.entries.Pairwise fun a b => b.addr < a.addr

theorem sorted_initTable (now : SimTime) (n : ℕ) (i : SimTime) : (initTable now n i).Sorted := by
  simp [Sorted]

theorem sorted_sortEntries {l : List FlowTableEntry} (h : l.Pairwise fun a b => a.addr ≠ b.addr) :
    (sortEntries l).Pairwise fun a b => b.addr < a.addr := by
  let r : FlowTableEntry → FlowTableEntry → Prop := fun a b => b.addr ≤ a.addr
  have : Std.Total r := ⟨fun a b => Nat.le_total b.addr a.addr⟩
  have : IsTrans FlowTableEntry r := ⟨fun a b c hab hbc => Nat.le_trans hbc hab⟩
  have hle : (sortEntries l).Pairwise r := List.pairwise_insertionSort r l
  have hne : (sortEntries l).Pairwise fun a b => a.addr ≠ b.addr :=
    (List.Perm.pairwise_iff (fun h => h.symm) (List.perm_insertionSort _ l)).mpr h
  exact (hle.and hne).imp fun h => lt_of_le_of_ne h.1 h.2.symm

theorem Sorted.ne {l : List FlowTableEntry} (h : l.Pairwise fun a b => b.addr < a.addr) :
    l.Pairwise fun a b => a.addr ≠ b.addr :=
  h.imp fun h => h.ne'

theorem removeAgedEntries_entries_pairwise (h : t.entries.Pairwise fun a b => a.addr ≠ b.addr) :
    (t.removeAgedEntries now).entries.Pairwise fun a b => a.addr ≠ b.addr := by
  have hk := h.filter fun e => decide (now < e.getTimeOut)
  simp only [removeAgedEntries]
  split_ifs
  · exact Sorted.ne (sorted_sortEntries hk)
  · exact hk
  · exact Sorted.ne (sorted_sortEntries hk)
  · exact hk

theorem Sorted.removeAgedEntries (h : t.Sorted) (now : SimTime) :
    (t.removeAgedEntries now).Sorted := by
  have hk := List.Pairwise.filter (fun e => decide (now < e.getTimeOut)) h
  simp only [Sorted, FlowTable.removeAgedEntries]
  split_ifs
  · exact sorted_sortEntries (Sorted.ne hk)
  · exact hk
  · exact sorted_sortEntries (Sorted.ne hk)
  · exact hk

theorem Sorted.removeAgedEntriesIfNeeded (h : t.Sorted) (now : SimTime) :
    (t.removeAgedEntriesIfNeeded now).Sorted := by
  unfold FlowTable.removeAgedEntriesIfNeeded
  split_ifs
  · exact h
  · exact h.removeAgedEntries now
  · exact h

theorem Sorted.handleAging (h : t.Sorted) (now : SimTime) : (t.handleAging now).Sorted :=
  Sorted.removeAgedEntries (t := { t with agingEvents := t.agingEvents.erase now }) h now

theorem Sorted.isFull (h : t.Sorted) (now : SimTime) : (t.isFull now).2.Sorted := by
  unfold FlowTable.isFull
  split_ifs
  · exact h.removeAgedEntriesIfNeeded now
  · exact h

theorem Sorted.addEntry (h : t.Sorted) (now : SimTime) (entry : FlowTableEntry) :
    (t.addEntry now entry).2.Sorted := by
  have hs := h.isFull now
  simp only [FlowTable.addEntry]
  split_ifs with hfull hold
  · exact hs
  · exact hs
  · refine sorted_sortEntries (removeAgedEntries_entries_pairwise ?_)
    simp only [List.pairwise_append, List.pairwise_singleton, List.mem_singleton, true_and]
    refine ⟨Sorted.ne hs, fun a ha b hb => ?_⟩
    subst hb
    simp only [List.any_eq_true, beq_iff_eq, not_exists, not_and] at hold
    exact hold a ha

theorem Sorted.handleFlowMod (h : t.Sorted) (now : SimTime) (addr : ℕ) (flowMod : FlowMod) :
    (t.handleFlowMod now addr flowMod).Sorted := by
  unfold FlowTable.handleFlowMod
  split
  · exact h.addEntry _ _
  · exact List.Pairwise.filter _ h
  · exact List.Pairwise.filter _ h
  · exact List.Pairwise.filter _ h
  · exact h

/-- The entry a lookup returns is the first match of the aged table, marked as matched now. -/
theorem lookup_eq_some {m : OxmBasicMatch} {t' : FlowTable}
    (h : t.lookup now m = (some e, t')) :
    ∃ e₀, (t.removeAgedEntriesIfNeeded now).entries.find? (·.tryMatch m) = some e₀ ∧
      e = { e₀ with lastMatched := now } := by
  simp only [lookup] at h
  split at h
  · rename_i e₀ hfind
    obtain ⟨he, -⟩ := Prod.mk.inj h
    exact ⟨e₀, hfind, by simpa using (Option.some.inj he).symm⟩
  · cases h

theorem lookup_of_find? {m : OxmBasicMatch}
    (h : (t.removeAgedEntriesIfNeeded now).entries.find? (·.tryMatch m) = some e) :
    (t.lookup now m).1 = some { e with lastMatched := now } := by
  simp [lookup, h]

/-- A lookup changes no entry but for the time of its last match. -/
theorem exists_of_mem_lookup {m : OxmBasicMatch} (he : e ∈ (t.lookup now m).2.entries) :
    ∃ e₀ ∈ t.entries, e = e₀ ∨ e = { e₀ with lastMatched := now } := by
  simp only [lookup] at he
  split at he
  · obtain ⟨e₀, he₀, rfl⟩ := List.mem_map.mp he
    refine ⟨e₀, removeAgedEntriesIfNeeded_subset he₀, ?_⟩
    split_ifs
    · exact .inr rfl
    · exact .inl rfl
  · exact ⟨e, removeAgedEntriesIfNeeded_subset he, .inl rfl⟩

theorem mem_lookup {m : OxmBasicMatch} (he : e ∈ (t.lookup now m).2.entries) :
    ∃ e₀ ∈ t.entries, e.oxmMatch = e₀.oxmMatch := by
  obtain ⟨e₀, he₀, rfl | rfl⟩ := exists_of_mem_lookup he
  · exact ⟨e, he₀, rfl⟩
  · exact ⟨e₀, he₀, rfl⟩

theorem Sorted.lookup (h : t.Sorted) (now : SimTime) (m : OxmBasicMatch) :
    (t.lookup now m).2.Sorted := by
  have hs := h.removeAgedEntriesIfNeeded now
  simp only [FlowTable.lookup]
  split
  · refine List.Pairwise.map _ (fun a b hab => ?_) hs
    split_ifs <;> exact hab
  · exact hs

end FlowTable

end TsnReconfig.OpenFlow
