import TsnReconfig.Avb.Bandwidth
import TsnReconfig.Lib.Table
import TsnReconfig.OpenFlow.FlowTable

/-!
# The SRP table

`SRPTable` of a switch or of the controller, for modules of any type. The entries are without
their copies of the keys under which they are stored. A function returns `none` where the source
throws or dereferences a null pointer.
-/

namespace TsnReconfig.Avb

open Lib OpenFlow

/-- `SRPTable::TalkerEntry`. -/
structure TalkerEntry (M : Type*) where
  srClass : SRClass
  address : MACAddress
  module : M
  framesize : UInt64
  intervalFrames : UInt16
  pcp : UInt8
  insertionTime : SimTime
  isStatic : Bool
  deriving DecidableEq

/-- `SRPTable::ListenerEntry`. -/
structure ListenerEntry where
  insertionTime : SimTime
  isStatic : Bool
  deriving DecidableEq

/-- `SRPTable`: the talkers by VLAN and stream, and the listeners by VLAN, stream and module. -/
structure SRPTable (M : Type*) where
  talkerTables : Table UInt16 (Table UInt64 (TalkerEntry M)) := ∅
  listenerTables : Table UInt16 (Table UInt64 (Table M ListenerEntry)) := ∅
  nextAging : SimTime := 0
  deriving DecidableEq

/-- The time at which an entry is no longer valid. -/
def ListenerEntry.aging (agingTime : SimTime) (e : ListenerEntry) : SimTime :=
  e.insertionTime + agingTime

/-- An entry that ageing removes. -/
def ListenerEntry.expired (agingTime now : SimTime) (e : ListenerEntry) : Bool :=
  !e.isStatic && e.aging agingTime ≤ now

namespace SRPTable
variable {M : Type*} [DecidableEq M] (t : SRPTable M)

/-! ## Ageing -/

/-- The entries of a list that have not expired. -/
def sweepList (agingTime now : SimTime) (list : Table M ListenerEntry) : Table M ListenerEntry :=
  list.filterMap fun _ e => if e.expired agingTime now then none else some e

/-- The lists of a VLAN without their expired entries, and without the empty ones. -/
def sweepTable (agingTime now : SimTime) (table : Table UInt64 (Table M ListenerEntry)) :
    Table UInt64 (Table M ListenerEntry) :=
  table.filterMap fun _ list =>
    let list := sweepList agingTime now list
    if list.entries = [] then none else some list

omit [DecidableEq M] in
/-- All entries for listeners, in the order of the iteration. -/
def listenerEntries (tables : Table UInt16 (Table UInt64 (Table M ListenerEntry))) :
    List ListenerEntry :=
  tables.entries.flatMap fun table => table.2.entries.flatMap fun list => list.2.entries.map (·.2)

/-- `removeAgedEntries`. The next ageing is looked for from zero on. -/
def removeAgedEntries (agingTime now : SimTime) : SRPTable M :=
  if agingTime = 0 then t
  else
    let listenerTables := t.listenerTables.filterMap fun _ table =>
      some (sweepTable agingTime now table)
    { t with
      listenerTables
      nextAging := (listenerEntries listenerTables).foldl
        (fun nextAging e => if !e.isStatic && e.aging agingTime < nextAging then e.aging agingTime
          else nextAging) 0 }

def removeAgedEntriesIfNeeded (agingTime now : SimTime) : SRPTable M :=
  if t.nextAging ≠ 0 ∧ t.nextAging ≤ now then t.removeAgedEntries agingTime now else t

/-! ## Queries -/

def containsStream (address : MACAddress) (vid : UInt16) : Bool × SRPTable M :=
  ((t.talkerTables.get vid).entries.any (·.2.address = address),
    { t with talkerTables := t.talkerTables.touch vid })

def getListenersForStreamId (agingTime now : SimTime) (streamId : UInt64) (vid : UInt16) :
    List M × SRPTable M :=
  let t := t.removeAgedEntriesIfNeeded agingTime now
  (((t.listenerTables.get vid).get streamId).entries.map (·.1),
    { t with listenerTables := t.listenerTables.touch vid })

/-- `getTalkerEntryForStreamId`. -/
def getTalkerEntryForStreamId (agingTime now : SimTime) (streamId : UInt64) (vid : UInt16) :
    Option (TalkerEntry M) × SRPTable M :=
  let t := t.removeAgedEntriesIfNeeded agingTime now
  ((t.talkerTables.get vid).find streamId, { t with talkerTables := t.talkerTables.touch vid })

def getTalkerForStreamId (agingTime now : SimTime) (streamId : UInt64) (vid : UInt16) :
    Option M × SRPTable M :=
  let r := t.getTalkerEntryForStreamId agingTime now streamId vid
  (r.1.map (·.module), r.2)

def getVidsForStreamId (agingTime now : SimTime) (streamId : UInt64) : List UInt16 × SRPTable M :=
  let t := t.removeAgedEntriesIfNeeded agingTime now
  ((t.talkerTables.entries.filter fun table => (table.2.find streamId).isSome).map (·.1), t)

/-- The bandwidth of a talker, with the safety byte. -/
def bandwidth (w : ObservationWindows) (e : TalkerEntry M) : ℕ :=
  bandwidthFromSizeAndInterval (e.framesize.toNat + srpSafetyByte) e.intervalFrames.toNat
    (w.getIntervalForClass e.srClass)

omit [DecidableEq M] in
/-- The keys of the entries for listeners, in the order of the iteration. -/
def listenerKeys (tables : Table UInt16 (Table UInt64 (Table M ListenerEntry))) :
    List (UInt16 × UInt64 × M) :=
  tables.entries.flatMap fun table => table.2.entries.flatMap fun list =>
    list.2.entries.map fun e => (table.1, list.1, e.1)

/-- The sum of `getBandwidthForModule`, for one class if it is given. -/
def bandwidthForModule (w : ObservationWindows) (module : M) (srClass : Option SRClass) :
    Option ℕ :=
  let keys := (listenerKeys t.listenerTables).filter (·.2.2 = module)
  (keys.mapM fun key => (t.talkerTables.get key.1).find key.2.1).map fun talkers =>
    ((talkers.filter fun e => srClass.all (e.srClass = ·)).map (bandwidth w)).sum

def getBandwidthForModule (w : ObservationWindows) (agingTime now : SimTime) (module : M) :
    Option (ℕ × SRPTable M) :=
  let t := t.removeAgedEntriesIfNeeded agingTime now
  (t.bandwidthForModule w module none).map (·, t)

def getBandwidthForModuleAndSRClass (w : ObservationWindows) (agingTime now : SimTime) (module : M)
    (srClass : SRClass) : Option (ℕ × SRPTable M) :=
  let t := t.removeAgedEntriesIfNeeded agingTime now
  (t.bandwidthForModule w module (some srClass)).map (·, t)

def getBandwidthForStream (w : ObservationWindows) (agingTime now : SimTime) (streamId : UInt64)
    (vid : UInt16) : Option (ℕ × SRPTable M) :=
  let t := t.removeAgedEntriesIfNeeded agingTime now
  ((t.talkerTables.get vid).find streamId).map fun e =>
    (bandwidth w e, { t with talkerTables := t.talkerTables.touch vid })

/-! ## Updates -/

/-- `updateTalkerWithStreamId`. -/
def updateTalkerWithStreamId (now : SimTime) (streamId : UInt64) (module : M)
    (address : MACAddress) (srClass : SRClass) (framesize : UInt64) (intervalFrames : UInt16)
    (vid : UInt16) (pcp : UInt8) (isStatic : Bool) : Option (Bool × SRPTable M) :=
  let talkerTable := t.talkerTables.get vid
  match talkerTable.find streamId with
  | none =>
    if framesize = 0 ∨ intervalFrames = 0 then none
    else
      let e := ⟨srClass, address, module, framesize, intervalFrames, pcp, now, isStatic⟩
      some (false, { t with
        talkerTables := t.talkerTables.set vid (talkerTable.set streamId e) })
  | some old =>
    if old.module ≠ module then none
    else
      let e := ⟨srClass, address, module, if 0 < framesize then framesize else old.framesize,
        if 0 < intervalFrames then intervalFrames else old.intervalFrames, pcp, now, isStatic⟩
      some (true, { t with
        talkerTables := t.talkerTables.set vid (talkerTable.set streamId e) })

/-- `removeTalkerWithStreamId`. -/
def removeTalkerWithStreamId (streamId : UInt64) (module : M) (vid : UInt16) :
    Option (Bool × SRPTable M) :=
  let talkerTable := t.talkerTables.get vid
  match talkerTable.find streamId with
  | none => some (false, { t with talkerTables := t.talkerTables.touch vid })
  | some e =>
    if e.module ≠ module then none
    else some (true, { t with
      talkerTables := t.talkerTables.set vid (talkerTable.erase streamId) })

/-- `updateListenerWithStreamId`. -/
def updateListenerWithStreamId (agingTime now : SimTime) (streamId : UInt64) (module : M)
    (vid : UInt16) (isStatic : Bool) : Option (Bool × SRPTable M) :=
  if ((t.talkerTables.get vid).find streamId).isNone then none
  else
    let listenerTable := t.listenerTables.get vid
    let list := listenerTable.get streamId
    some ((list.find module).isSome, { t with
      talkerTables := t.talkerTables.touch vid
      listenerTables := t.listenerTables.set vid
        (listenerTable.set streamId (list.set module ⟨now, isStatic⟩))
      nextAging := if t.nextAging = 0 then now + agingTime else t.nextAging })

/-- `removeListenerWithStreamId`. -/
def removeListenerWithStreamId (streamId : UInt64) (module : M) (vid : UInt16) :
    Bool × SRPTable M :=
  let listenerTable := t.listenerTables.get vid
  let list := listenerTable.get streamId
  if (list.find module).isSome then
    let list := list.erase module
    (true, { t with
      listenerTables := t.listenerTables.set vid
        (if list.entries = [] then listenerTable.erase streamId
        else listenerTable.set streamId list) })
  else (false, { t with listenerTables := t.listenerTables.touch vid })

/-! ## What is in the table -/

def talker (vid : UInt16) (streamId : UInt64) : Option (TalkerEntry M) :=
  (t.talkerTables.get vid).find streamId

def listener (vid : UInt16) (streamId : UInt64) (module : M) : Option ListenerEntry :=
  ((t.listenerTables.get vid).get streamId).find module

section
variable {t} {t' : SRPTable M} {agingTime now : SimTime} {streamId sid : UInt64} {vid v : UInt16}
  {module m : M} {updated : Bool}

/-- The two tables have the same entries. -/
structure SameEntries (t t' : SRPTable M) : Prop where
  talker : ∀ v sid, t'.talker v sid = t.talker v sid
  listener : ∀ v sid m, t'.listener v sid m = t.listener v sid m
  nextAging : t'.nextAging = t.nextAging

theorem sameEntries_touchTalkers (t : SRPTable M) (vid : UInt16) :
    SameEntries t { t with talkerTables := t.talkerTables.touch vid } where
  talker _ _ := by rw [talker, Table.get_touch, talker]
  listener _ _ _ := rfl
  nextAging := rfl

theorem sameEntries_touchListeners (t : SRPTable M) (vid : UInt16) :
    SameEntries t { t with listenerTables := t.listenerTables.touch vid } where
  talker _ _ := rfl
  listener _ _ _ := by rw [listener, Table.get_touch, listener]
  nextAging := rfl

/-- A new table for a VLAN that has `list` for a stream and the old lists for the others. -/
theorem listener_set {table : Table UInt64 (Table M ListenerEntry)} {list : Table M ListenerEntry}
    {nextAging : SimTime} {talkerTables : Table UInt16 (Table UInt64 (TalkerEntry M))}
    (htable : ∀ sid m, (table.get sid).find m =
      if sid = streamId then list.find m else t.listener vid sid m) :
    listener ⟨talkerTables, t.listenerTables.set vid table, nextAging⟩ v sid m =
      if v = vid ∧ sid = streamId then list.find m else t.listener v sid m := by
  change (((t.listenerTables.set vid table).get v).get sid).find m = _
  rw [Table.get_set]
  by_cases hv : v = vid
  · subst hv
    rw [if_pos rfl, htable]
    simp only [true_and]
  · rw [if_neg hv, if_neg fun h => hv h.1]
    rfl

theorem find_sweepList {list : Table M ListenerEntry} :
    (sweepList agingTime now list).find m =
      (list.find m).filter fun e => !e.expired agingTime now := by
  rw [sweepList, Table.find_filterMap]
  cases list.find m with
  | none => rfl
  | some e =>
    rw [Option.bind_some, Option.filter_some]
    cases e.expired agingTime now with
    | true => rfl
    | false => rfl

theorem get_sweepTable {table : Table UInt64 (Table M ListenerEntry)} :
    ((sweepTable agingTime now table).get sid).find m =
      (sweepList agingTime now (table.get sid)).find m := by
  rw [Table.find_get, sweepTable, Table.find_filterMap, find_sweepList, Table.find_get]
  cases table.find sid with
  | none => rfl
  | some list =>
    simp only [Option.bind_some]
    rw [← find_sweepList]
    split_ifs with hempty
    · exact (Table.entries_eq_nil_iff.mp hempty m).symm
    · rfl

theorem listener_removeAgedEntries (hagingTime : agingTime ≠ 0) :
    (t.removeAgedEntries agingTime now).listener v sid m =
      (t.listener v sid m).filter fun e => !e.expired agingTime now := by
  unfold removeAgedEntries listener
  rw [if_neg hagingTime]
  dsimp only
  rw [← find_sweepList, ← get_sweepTable]
  congr 2
  unfold Table.get
  rw [Table.find_filterMap]
  cases t.listenerTables.find v with
  | none => rfl
  | some table => rfl

theorem mem_listenerEntries {e : ListenerEntry} :
    e ∈ listenerEntries t.listenerTables ↔ ∃ v sid m, t.listener v sid m = some e := by
  unfold listenerEntries listener
  simp only [List.mem_flatMap, List.mem_map, Table.find_get, Option.bind_eq_some_iff,
    ← Table.mem_entries]
  constructor
  · rintro ⟨⟨v, table⟩, htable, ⟨sid, list⟩, hlist, ⟨m, e⟩, he, rfl⟩
    exact ⟨v, sid, m, list, ⟨table, htable, hlist⟩, he⟩
  · rintro ⟨v, sid, m, list, ⟨table, htable, hlist⟩, he⟩
    exact ⟨(v, table), htable, (sid, list), hlist, (m, e), he, rfl⟩

theorem mem_listenerKeys :
    (v, sid, m) ∈ listenerKeys t.listenerTables ↔ (t.listener v sid m).isSome := by
  unfold listenerKeys listener
  simp only [List.mem_flatMap, List.mem_map, Prod.mk.injEq, Table.find_get,
    Option.isSome_iff_exists, Option.bind_eq_some_iff, ← Table.mem_entries]
  constructor
  · rintro ⟨⟨v', table⟩, htable, ⟨sid', list⟩, hlist, ⟨m', e⟩, he, rfl, rfl, rfl⟩
    exact ⟨e, list, ⟨table, htable, hlist⟩, he⟩
  · rintro ⟨e, list, ⟨table, htable, hlist⟩, he⟩
    exact ⟨(v, table), htable, (sid, list), hlist, (m, e), he, rfl, rfl, rfl⟩

omit [DecidableEq M] in
theorem nodup_listenerKeys (t : SRPTable M) : (listenerKeys t.listenerTables).Nodup := by
  refine nodup_flatMap_of_key (·.1) t.listenerTables.nodup (fun table _ => ?_) fun table _ k hk => ?_
  · refine nodup_flatMap_of_key (·.2.1) table.2.nodup (fun list _ => ?_) fun list _ k hk => ?_
    · have hmap : list.2.entries.map (fun e => (table.1, list.1, e.1)) =
          (list.2.entries.map Prod.fst).map fun m => (table.1, list.1, m) := by
        rw [List.map_map]
        rfl
      rw [hmap]
      exact list.2.nodup.map fun m m' h => by simpa using h
    · obtain ⟨e, -, rfl⟩ := List.mem_map.mp hk
      rfl
  · obtain ⟨list, -, hk⟩ := List.mem_flatMap.mp hk
    obtain ⟨e, -, rfl⟩ := List.mem_map.mp hk
    rfl

/-- No entry of the loop is before the zero from which it starts. -/
theorem nextAging_removeAgedEntries (hagingTime : agingTime ≠ 0)
    (h : ∀ e ∈ listenerEntries t.listenerTables, 0 ≤ e.aging agingTime) :
    (t.removeAgedEntries agingTime now).nextAging = 0 := by
  have hsub : ∀ e ∈ listenerEntries (t.removeAgedEntries agingTime now).listenerTables,
      0 ≤ e.aging agingTime := by
    intro e he
    obtain ⟨v, sid, m, hm⟩ := mem_listenerEntries.mp he
    rw [listener_removeAgedEntries hagingTime, Option.filter_eq_some_iff] at hm
    exact h e (mem_listenerEntries.mpr ⟨v, sid, m, hm.1⟩)
  unfold removeAgedEntries at hsub ⊢
  rw [if_neg hagingTime] at hsub ⊢
  dsimp only at hsub ⊢
  generalize listenerEntries _ = entries at hsub ⊢
  induction entries with
  | nil => rfl
  | cons e entries ih =>
    have he : ¬e.aging agingTime < 0 := not_lt.mpr (hsub e (List.mem_cons_self ..))
    rw [List.foldl_cons, if_neg (by simp [he])]
    exact ih fun e' he' => hsub e' (List.mem_cons_of_mem _ he')

omit [DecidableEq M] in
theorem talker_removeAgedEntries :
    (t.removeAgedEntries agingTime now).talker v sid = t.talker v sid := by
  unfold removeAgedEntries talker
  split_ifs
  · rfl
  · rfl

/-- What a sweep, if it is needed, leaves of an entry. -/
theorem listener_removeAgedEntriesIfNeeded :
    (t.removeAgedEntriesIfNeeded agingTime now).listener v sid m =
      if agingTime ≠ 0 ∧ t.nextAging ≠ 0 ∧ t.nextAging ≤ now then
        (t.listener v sid m).filter fun e => !e.expired agingTime now
      else t.listener v sid m := by
  unfold removeAgedEntriesIfNeeded
  by_cases hagingTime : agingTime = 0
  · have hkept : t.removeAgedEntries agingTime now = t := if_pos hagingTime
    rw [hkept, ite_self, if_neg fun h => h.1 hagingTime]
  · by_cases hneeded : t.nextAging ≠ 0 ∧ t.nextAging ≤ now
    · rw [if_pos hneeded, if_pos ⟨hagingTime, hneeded⟩, listener_removeAgedEntries hagingTime]
    · rw [if_neg hneeded, if_neg fun h => hneeded h.2]

omit [DecidableEq M] in
theorem talker_removeAgedEntriesIfNeeded :
    (t.removeAgedEntriesIfNeeded agingTime now).talker v sid = t.talker v sid := by
  unfold removeAgedEntriesIfNeeded
  split_ifs
  · exact talker_removeAgedEntries
  · rfl

theorem updateListener_eq {isStatic : Bool}
    (h : t.updateListenerWithStreamId agingTime now streamId module vid isStatic =
      some (updated, t')) :
    (t.talker vid streamId).isSome ∧ updated = (t.listener vid streamId module).isSome ∧
      t' = { t with
        talkerTables := t.talkerTables.touch vid
        listenerTables := t.listenerTables.set vid ((t.listenerTables.get vid).set streamId
          (((t.listenerTables.get vid).get streamId).set module ⟨now, isStatic⟩))
        nextAging := if t.nextAging = 0 then now + agingTime else t.nextAging } := by
  unfold updateListenerWithStreamId at h
  by_cases htalker : ((t.talkerTables.get vid).find streamId).isNone
  · rw [if_pos htalker] at h
    cases h
  · rw [if_neg htalker] at h
    cases h
    refine ⟨?_, rfl, rfl⟩
    rw [← Option.not_isNone]
    exact Bool.not_eq_true' _ ▸ Bool.eq_false_iff.mpr htalker

theorem listener_updateListener {isStatic : Bool}
    (h : t.updateListenerWithStreamId agingTime now streamId module vid isStatic =
      some (updated, t')) :
    t'.listener v sid m = if v = vid ∧ sid = streamId ∧ m = module then some ⟨now, isStatic⟩
      else t.listener v sid m := by
  obtain ⟨-, -, rfl⟩ := updateListener_eq h
  have htable : ∀ sid' m', ((((t.listenerTables.get vid).set streamId
      (((t.listenerTables.get vid).get streamId).set module ⟨now, isStatic⟩)).get sid').find m') =
      if sid' = streamId then
        (((t.listenerTables.get vid).get streamId).set module ⟨now, isStatic⟩).find m'
      else t.listener vid sid' m' := by
    intro sid' m'
    rw [Table.get_set]
    split_ifs
    · rfl
    · rfl
  rw [listener_set htable, Table.find_set]
  by_cases hkey : v = vid ∧ sid = streamId
  · obtain ⟨rfl, rfl⟩ := hkey
    simp only [true_and, and_self, if_true]
    rfl
  · rw [if_neg hkey, if_neg fun h => hkey ⟨h.1, h.2.1⟩]

theorem talker_updateListener {isStatic : Bool}
    (h : t.updateListenerWithStreamId agingTime now streamId module vid isStatic =
      some (updated, t')) : t'.talker v sid = t.talker v sid := by
  obtain ⟨-, -, rfl⟩ := updateListener_eq h
  exact (sameEntries_touchTalkers t vid).talker v sid

theorem removeListener_eq (t : SRPTable M) (streamId : UInt64) (module : M) (vid : UInt16) :
    ∃ tables, (t.removeListenerWithStreamId streamId module vid).2 =
      { t with listenerTables := tables } := by
  unfold removeListenerWithStreamId
  by_cases hfound : (((t.listenerTables.get vid).get streamId).find module).isSome
  · simp only [if_pos hfound]
    exact ⟨_, rfl⟩
  · rw [if_neg hfound]
    exact ⟨_, rfl⟩

theorem listener_removeListener :
    (t.removeListenerWithStreamId streamId module vid).2.listener v sid m =
      if v = vid ∧ sid = streamId ∧ m = module then none else t.listener v sid m := by
  unfold removeListenerWithStreamId
  by_cases hfound : (((t.listenerTables.get vid).get streamId).find module).isSome
  · simp only [if_pos hfound]
    have htable : ∀ sid' m', ((if (((t.listenerTables.get vid).get streamId).erase module).entries = []
        then (t.listenerTables.get vid).erase streamId
        else (t.listenerTables.get vid).set streamId
          (((t.listenerTables.get vid).get streamId).erase module)).get sid').find m' =
        if sid' = streamId then (((t.listenerTables.get vid).get streamId).erase module).find m'
        else t.listener vid sid' m' := by
      intro sid' m'
      split_ifs with hempty hsid hsid
      · rw [Table.find_get, Table.find_erase, if_pos hsid]
        exact (Table.entries_eq_nil_iff.mp hempty m').symm
      · rw [Table.find_get, Table.find_erase, if_neg hsid, ← Table.find_get]
        rfl
      · rw [Table.get_set, if_pos hsid]
      · rw [Table.get_set, if_neg hsid]
        rfl
    rw [listener_set htable, Table.find_erase]
    by_cases hkey : v = vid ∧ sid = streamId
    · obtain ⟨rfl, rfl⟩ := hkey
      simp only [true_and, and_self, if_true]
      rfl
    · rw [if_neg hkey, if_neg fun h => hkey ⟨h.1, h.2.1⟩]
  · rw [if_neg hfound]
    dsimp only
    rw [(sameEntries_touchListeners t vid).listener]
    split_ifs with hkey
    · obtain ⟨rfl, rfl, rfl⟩ := hkey
      exact Option.not_isSome_iff_eq_none.mp hfound
    · rfl

/-- An update or a removal of a talker leaves the listeners alone. -/
theorem updateTalker_listenerTables {address : MACAddress} {srClass : SRClass}
    {framesize : UInt64} {intervalFrames : UInt16} {pcp : UInt8} {isStatic : Bool}
    (h : t.updateTalkerWithStreamId now streamId module address srClass framesize intervalFrames vid
      pcp isStatic = some (updated, t')) :
    t'.listenerTables = t.listenerTables ∧ t'.nextAging = t.nextAging := by
  unfold updateTalkerWithStreamId at h
  dsimp only at h
  split at h
  · split_ifs at h
    cases h
    exact ⟨rfl, rfl⟩
  · rename_i old _
    by_cases hmodule : old.module ≠ module
    · rw [if_pos hmodule] at h
      cases h
    · rw [if_neg hmodule] at h
      cases h
      exact ⟨rfl, rfl⟩

/-- The talker of the stream is a new one, with what was known before where the update is zero. -/
theorem talker_updateTalker {address : MACAddress} {srClass : SRClass}
    {framesize : UInt64} {intervalFrames : UInt16} {pcp : UInt8} {isStatic : Bool}
    (h : t.updateTalkerWithStreamId now streamId module address srClass framesize intervalFrames vid
      pcp isStatic = some (updated, t')) :
    ∃ framesize' intervalFrames',
      (∀ v sid, t'.talker v sid = if v = vid ∧ sid = streamId then
        some ⟨srClass, address, module, framesize', intervalFrames', pcp, now, isStatic⟩
        else t.talker v sid) ∧
      (∀ old, t.talker vid streamId = some old →
        framesize' = (if 0 < framesize then framesize else old.framesize) ∧
        intervalFrames' = if 0 < intervalFrames then intervalFrames else old.intervalFrames) ∧
      (t.talker vid streamId = none → framesize ≠ 0 ∧ intervalFrames ≠ 0 ∧
        framesize' = framesize ∧ intervalFrames' = intervalFrames) := by
  have hset : ∀ (e : TalkerEntry M) v sid, (((t.talkerTables.set vid
      ((t.talkerTables.get vid).set streamId e)).get v).find sid) =
      if v = vid ∧ sid = streamId then some e else t.talker v sid := by
    intro e v sid
    rw [Table.get_set]
    by_cases hv : v = vid
    · subst hv
      rw [if_pos rfl, Table.find_set]
      simp only [true_and]
      rfl
    · rw [if_neg hv, if_neg fun h => hv h.1]
      rfl
  unfold updateTalkerWithStreamId at h
  dsimp only at h
  split at h
  · rename_i hnone
    split_ifs at h with hzero
    cases h
    obtain ⟨hframesize, hintervalFrames⟩ := not_or.mp hzero
    refine ⟨_, _, hset _, fun old hold => ?_, fun _ => ⟨hframesize, hintervalFrames, rfl, rfl⟩⟩
    cases hnone.symm.trans hold
  · rename_i old hfound
    by_cases hmodule : old.module ≠ module
    · rw [if_pos hmodule] at h
      cases h
    · rw [if_neg hmodule] at h
      cases h
      refine ⟨_, _, hset _, fun old' hold => ?_, fun hnone => ?_⟩
      · cases hfound.symm.trans hold
        exact ⟨rfl, rfl⟩
      · cases hfound.symm.trans hnone

theorem removeTalker_listenerTables
    (h : t.removeTalkerWithStreamId streamId module vid = some (updated, t')) :
    t'.listenerTables = t.listenerTables ∧ t'.nextAging = t.nextAging := by
  unfold removeTalkerWithStreamId at h
  dsimp only at h
  split at h
  · cases h
    exact ⟨rfl, rfl⟩
  · split_ifs at h
    cases h
    exact ⟨rfl, rfl⟩

theorem talker_removeTalker
    (h : t.removeTalkerWithStreamId streamId module vid = some (updated, t')) :
    t'.talker v sid = if v = vid ∧ sid = streamId then none else t.talker v sid := by
  unfold removeTalkerWithStreamId at h
  dsimp only at h
  split at h
  · rename_i hnone
    cases h
    rw [(sameEntries_touchTalkers t vid).talker]
    split_ifs with hkey
    · obtain ⟨rfl, rfl⟩ := hkey
      exact hnone
    · rfl
  · rename_i e _
    by_cases hmodule : e.module ≠ module
    · rw [if_pos hmodule] at h
      cases h
    · rw [if_neg hmodule] at h
      cases h
      change ((t.talkerTables.set vid ((t.talkerTables.get vid).erase streamId)).get v).find sid = _
      rw [Table.get_set]
      by_cases hv : v = vid
      · subst hv
        rw [if_pos rfl, Table.find_erase]
        simp only [true_and]
        rfl
      · rw [if_neg hv, if_neg fun h => hv h.1]
        rfl

theorem isSome_updateTalker_iff {address : MACAddress} {srClass : SRClass} {framesize : UInt64}
    {intervalFrames : UInt16} {pcp : UInt8} {isStatic : Bool} :
    (t.updateTalkerWithStreamId now streamId module address srClass framesize intervalFrames vid
      pcp isStatic).isSome ↔
    (t.talker vid streamId = none → framesize ≠ 0 ∧ intervalFrames ≠ 0) ∧
      ∀ old, t.talker vid streamId = some old → old.module = module := by
  unfold updateTalkerWithStreamId talker
  dsimp only
  cases (t.talkerTables.get vid).find streamId with
  | none =>
    by_cases hzero : framesize = 0 ∨ intervalFrames = 0
    · simp [hzero, not_or.symm]
    · simp [not_or.mp hzero]
  | some old =>
    by_cases hmodule : old.module = module
    · simp [hmodule]
    · simp [hmodule]

theorem isSome_updateListener_iff {isStatic : Bool} :
    (t.updateListenerWithStreamId agingTime now streamId module vid isStatic).isSome ↔
      (t.talker vid streamId).isSome := by
  unfold updateListenerWithStreamId talker
  cases (t.talkerTables.get vid).find streamId with
  | none => simp
  | some e => simp

/-- What a removal of a talker returns, if it does not throw. -/
theorem removeTalker_iff :
    (∃ t', t.removeTalkerWithStreamId streamId module vid = some (updated, t')) ↔
      updated = (t.talker vid streamId).isSome ∧
        ∀ old, t.talker vid streamId = some old → old.module = module := by
  unfold removeTalkerWithStreamId talker
  dsimp only
  cases (t.talkerTables.get vid).find streamId with
  | none => simp [eq_comm]
  | some old =>
    by_cases hmodule : old.module = module
    · simp [hmodule, eq_comm]
    · simp [hmodule]

theorem removeListener_fst :
    (t.removeListenerWithStreamId streamId module vid).1 =
      (t.listener vid streamId module).isSome := by
  unfold removeListenerWithStreamId listener
  by_cases hfound : (((t.listenerTables.get vid).get streamId).find module).isSome
  · rw [if_pos hfound, hfound]
  · rw [if_neg hfound]
    exact (Bool.eq_false_iff.mpr hfound).symm

end

end SRPTable

end TsnReconfig.Avb
