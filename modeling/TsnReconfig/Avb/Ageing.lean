import Mathlib.Tactic.Linarith
import TsnReconfig.Avb.SRPTable
import TsnReconfig.Lib.System

/-!
# The ageing of reservations

Runs of an SRP table: its queries, updates and removals at any times. A sweep that leaves a
listener behind forgets the next ageing, and from then on nothing expires.
-/

namespace TsnReconfig.Avb

open Lib OpenFlow

/-- A query of the table. All but the first remove aged entries if needed. -/
inductive TableQuery (M : Type*)
  | containsStream (address : MACAddress) (vid : UInt16)
  | getListenersForStreamId (streamId : UInt64) (vid : UInt16)
  | getTalkerEntryForStreamId (streamId : UInt64) (vid : UInt16)
  | getVidsForStreamId (streamId : UInt64)
  | getBandwidthForModule (w : ObservationWindows) (module : M)
  | getBandwidthForModuleAndSRClass (w : ObservationWindows) (module : M) (srClass : SRClass)
  | getBandwidthForStream (w : ObservationWindows) (streamId : UInt64) (vid : UInt16)

inductive TableEvent (M : Type*)
  | advance (t : SimTime)
  | query (q : TableQuery M)
  | updateTalker (streamId : UInt64) (module : M) (address : MACAddress) (srClass : SRClass)
      (framesize : UInt64) (intervalFrames : UInt16) (vid : UInt16) (pcp : UInt8) (isStatic : Bool)
  | removeTalker (streamId : UInt64) (module : M) (vid : UInt16)
  | updateListener (streamId : UInt64) (module : M) (vid : UInt16) (isStatic : Bool)
  | removeListener (streamId : UInt64) (module : M) (vid : UInt16)

/-- A table with the time. -/
structure TimedTable (M : Type*) where
  now : SimTime := 0
  table : SRPTable M := {}

namespace TimedTable
variable {M : Type*} [DecidableEq M]

/-- The queries that remove aged entries if needed. -/
def sweeps : TableQuery M → Bool
  | .containsStream _ _ => false
  | _ => true

/-- The table after a query. -/
def runQuery (t : SRPTable M) (agingTime now : SimTime) : TableQuery M → Option (SRPTable M)
  | .containsStream address vid => some (t.containsStream address vid).2
  | .getListenersForStreamId streamId vid =>
    some (t.getListenersForStreamId agingTime now streamId vid).2
  | .getTalkerEntryForStreamId streamId vid =>
    some (t.getTalkerEntryForStreamId agingTime now streamId vid).2
  | .getVidsForStreamId streamId => some (t.getVidsForStreamId agingTime now streamId).2
  | .getBandwidthForModule w module =>
    (t.getBandwidthForModule w agingTime now module).map (·.2)
  | .getBandwidthForModuleAndSRClass w module srClass =>
    (t.getBandwidthForModuleAndSRClass w agingTime now module srClass).map (·.2)
  | .getBandwidthForStream w streamId vid =>
    (t.getBandwidthForStream w agingTime now streamId vid).map (·.2)

def step (agingTime : SimTime) (s : TimedTable M) : TableEvent M → Option (TimedTable M)
  | .advance t => if s.now ≤ t then some { s with now := t } else none
  | .query q => (runQuery s.table agingTime s.now q).map ({ s with table := · })
  | .updateTalker streamId module address srClass framesize intervalFrames vid pcp isStatic =>
    (s.table.updateTalkerWithStreamId s.now streamId module address srClass framesize
      intervalFrames vid pcp isStatic).map ({ s with table := ·.2 })
  | .removeTalker streamId module vid =>
    (s.table.removeTalkerWithStreamId streamId module vid).map ({ s with table := ·.2 })
  | .updateListener streamId module vid isStatic =>
    (s.table.updateListenerWithStreamId agingTime s.now streamId module vid isStatic).map
      ({ s with table := ·.2 })
  | .removeListener streamId module vid =>
    some { s with table := (s.table.removeListenerWithStreamId streamId module vid).2 }

/-- The runs of an empty table. -/
def runs (M : Type*) [DecidableEq M] (agingTime : SimTime) :
    System (TimedTable M) (TableEvent M) where
  init s := 0 ≤ s.now ∧ s.table = {}
  step := step agingTime

/-- The cached time is not after the ageing of any listener. -/
def NextAging (agingTime : SimTime) (s : TimedTable M) : Prop :=
  ∀ v sid m e, s.table.listener v sid m = some e → e.isStatic = false →
    s.table.nextAging ≠ 0 ∧ s.table.nextAging ≤ e.aging agingTime

/-- Reservations expire, and neither early nor if they are static. -/
structure Expires (agingTime : SimTime) (s : TimedTable M) : Prop where
  returned : ∀ sid v, ∀ m ∈ (s.table.getListenersForStreamId agingTime s.now sid v).1,
    ∃ e, s.table.listener v sid m = some e ∧ (e.isStatic = false → s.now < e.aging agingTime)
  kept : ∀ v sid m e, s.table.listener v sid m = some e →
    (e.isStatic = true ∨ s.now < e.aging agingTime) →
    (s.table.removeAgedEntriesIfNeeded agingTime s.now).listener v sid m = some e
  nextAging : s.NextAging agingTime

/-- A sweep leaves no listener that can expire. -/
def leavesNone (agingTime : SimTime) (s : TimedTable M) : TableEvent M → Bool
  | .query q => !sweeps q || s.table.nextAging = 0 || s.now < s.table.nextAging ||
    (SRPTable.listenerEntries s.table.listenerTables).all fun e =>
      e.isStatic || e.expired agingTime s.now
  | _ => true

/-! ## Invariants -/

section
variable {agingTime : SimTime} {s s' : TimedTable M} {e : TableEvent M}

/-- The entries are from the past, and the cached time is not more than one ageing away. -/
structure Timely (agingTime : SimTime) (s : TimedTable M) : Prop where
  now : 0 ≤ s.now
  inserted : ∀ v sid m e, s.table.listener v sid m = some e →
    0 ≤ e.insertionTime ∧ e.insertionTime ≤ s.now
  nextAging : s.table.nextAging ≤ s.now + agingTime

open SRPTable

theorem runQuery_same {t t' : SRPTable M} {now : SimTime} {q : TableQuery M}
    (h : runQuery t agingTime now q = some t') :
    SameEntries (if sweeps q then t.removeAgedEntriesIfNeeded agingTime now else t) t' := by
  have hself : ∀ t : SRPTable M, SameEntries t t := fun t =>
    ⟨fun _ _ => rfl, fun _ _ _ => rfl, rfl⟩
  cases q with
  | containsStream address vid =>
    cases h
    exact sameEntries_touchTalkers t vid
  | getListenersForStreamId streamId vid =>
    cases h
    exact sameEntries_touchListeners _ vid
  | getTalkerEntryForStreamId streamId vid =>
    cases h
    exact sameEntries_touchTalkers _ vid
  | getVidsForStreamId streamId =>
    cases h
    exact hself _
  | getBandwidthForModule w module =>
    obtain ⟨r, hr, rfl⟩ := Option.map_eq_some_iff.mp h
    obtain ⟨b, -, rfl⟩ := Option.map_eq_some_iff.mp hr
    exact hself _
  | getBandwidthForModuleAndSRClass w module srClass =>
    obtain ⟨r, hr, rfl⟩ := Option.map_eq_some_iff.mp h
    obtain ⟨b, -, rfl⟩ := Option.map_eq_some_iff.mp hr
    exact hself _
  | getBandwidthForStream w streamId vid =>
    obtain ⟨r, hr, rfl⟩ := Option.map_eq_some_iff.mp h
    obtain ⟨e, -, rfl⟩ := Option.map_eq_some_iff.mp hr
    exact sameEntries_touchTalkers _ vid

theorem listener_removeAgedIfNeeded (hagingTime : 0 < agingTime) {t : SRPTable M} {now : SimTime}
    {v : UInt16} {sid : UInt64} {m : M} :
    (t.removeAgedEntriesIfNeeded agingTime now).listener v sid m =
      if t.nextAging ≠ 0 ∧ t.nextAging ≤ now then
        (t.listener v sid m).filter fun e => !e.expired agingTime now
      else t.listener v sid m := by
  rw [listener_removeAgedEntriesIfNeeded]
  simp only [ne_eq, hagingTime.ne', not_false_eq_true, true_and]

theorem aging_nonneg (hagingTime : 0 < agingTime) (h : s.Timely agingTime) {e : ListenerEntry}
    (he : e ∈ listenerEntries s.table.listenerTables) : 0 ≤ e.aging agingTime := by
  obtain ⟨v, sid, m, hm⟩ := mem_listenerEntries.mp he
  have hinserted := (h.inserted v sid m e hm).1
  exact Int.add_nonneg hinserted hagingTime.le

/-- A sweep, if it is needed, keeps every entry that it finds. -/
theorem Timely.removeAged (hagingTime : 0 < agingTime) (h : s.Timely agingTime) :
    Timely agingTime
      { s with table := s.table.removeAgedEntriesIfNeeded agingTime s.now } where
  now := h.now
  inserted v sid m e he := by
    dsimp only at he ⊢
    rw [listener_removeAgedIfNeeded hagingTime] at he
    split_ifs at he
    · exact h.inserted v sid m e (Option.filter_eq_some_iff.mp he).1
    · exact h.inserted v sid m e he
  nextAging := by
    have hnow := h.now
    have hnext := h.nextAging
    dsimp only
    unfold removeAgedEntriesIfNeeded
    split_ifs
    · rw [nextAging_removeAgedEntries hagingTime.ne' fun e he => aging_nonneg hagingTime h he]
      exact Int.add_nonneg hnow hagingTime.le
    · exact hnext

theorem Timely.same {t : SRPTable M} (h : s.Timely agingTime) (hsame : SameEntries s.table t) :
    Timely agingTime { s with table := t } where
  now := h.now
  inserted v sid m e he := h.inserted v sid m e (hsame.listener v sid m ▸ he)
  nextAging := hsame.nextAging ▸ h.nextAging

theorem Timely.step (hagingTime : 0 < agingTime) (h : s.Timely agingTime)
    (hs : step agingTime s e = some s') : s'.Timely agingTime := by
  cases e with
  | advance t =>
    change (if s.now ≤ t then _ else none) = _ at hs
    split_ifs at hs with ht
    cases hs
    refine ⟨h.now.trans ht, fun v sid m e he => ?_, ?_⟩
    · exact ⟨(h.inserted v sid m e he).1, (h.inserted v sid m e he).2.trans ht⟩
    · exact h.nextAging.trans (Int.add_le_add_right ht agingTime)
  | query q =>
    obtain ⟨t, ht, rfl⟩ := Option.map_eq_some_iff.mp hs
    have hsame := runQuery_same ht
    split_ifs at hsame
    · exact (h.removeAged hagingTime).same hsame
    · exact h.same hsame
  | updateTalker streamId module address srClass framesize intervalFrames vid pcp isStatic =>
    obtain ⟨r, hr, rfl⟩ := Option.map_eq_some_iff.mp hs
    obtain ⟨hlisteners, hnext⟩ := updateTalker_listenerTables hr
    refine ⟨h.now, fun v sid m e he => h.inserted v sid m e ?_, hnext ▸ h.nextAging⟩
    unfold listener at he ⊢
    rw [← hlisteners]
    exact he
  | removeTalker streamId module vid =>
    obtain ⟨r, hr, rfl⟩ := Option.map_eq_some_iff.mp hs
    obtain ⟨hlisteners, hnext⟩ := removeTalker_listenerTables hr
    refine ⟨h.now, fun v sid m e he => h.inserted v sid m e ?_, hnext ▸ h.nextAging⟩
    unfold listener at he ⊢
    rw [← hlisteners]
    exact he
  | updateListener streamId module vid isStatic =>
    obtain ⟨⟨updated, t⟩, hr, rfl⟩ := Option.map_eq_some_iff.mp hs
    refine ⟨h.now, fun v sid m e he => ?_, ?_⟩
    · dsimp only at he ⊢
      rw [listener_updateListener hr] at he
      split_ifs at he
      · cases he
        exact ⟨h.now, le_refl _⟩
      · exact h.inserted v sid m e he
    · -- an update may move the next ageing to one interval from now
      obtain ⟨-, -, rfl⟩ := updateListener_eq hr
      dsimp only
      split_ifs
      · exact le_refl _
      · exact h.nextAging
  | removeListener streamId module vid =>
    cases hs
    refine ⟨h.now, fun v sid m e he => ?_, ?_⟩
    · dsimp only at he ⊢
      rw [listener_removeListener] at he
      split_ifs at he
      exact h.inserted v sid m e he
    · obtain ⟨tables, htables⟩ := removeListener_eq s.table streamId module vid
      dsimp only
      rw [htables]
      exact h.nextAging

theorem timely_of_reachable (hagingTime : 0 < agingTime)
    (h : (runs M agingTime).Reachable s) : s.Timely agingTime := by
  refine h.invariant (fun s hs => ?_) fun _ _ _ hs hstep => hs.step hagingTime hstep
  obtain ⟨hnow, htable⟩ := hs
  refine ⟨hnow, fun v sid m e he => ?_, ?_⟩
  · rw [htable] at he
    cases he
  · rw [htable]
    exact Int.add_nonneg hnow hagingTime.le

/-- The cached time stays in front of the listeners if the listeners are among those before. -/
theorem NextAging.sub {t : SRPTable M} (h : s.NextAging agingTime)
    (hlistener : ∀ v sid m e, t.listener v sid m = some e → s.table.listener v sid m = some e)
    (hnext : t.nextAging = s.table.nextAging) : NextAging agingTime { s with table := t } := by
  intro v sid m e he hstatic
  dsimp only
  rw [hnext]
  exact h v sid m e (hlistener v sid m e he) hstatic

/-- A sweep that is not needed changes nothing, and another one has to leave no listener that can
expire. -/
theorem NextAging.removeAged (hagingTime : 0 < agingTime) (h : s.NextAging agingTime)
    (hall : s.table.nextAging = 0 ∨ s.now < s.table.nextAging ∨
      ∀ e ∈ listenerEntries s.table.listenerTables, e.isStatic = false →
        e.expired agingTime s.now = true) :
    NextAging agingTime
      { s with table := s.table.removeAgedEntriesIfNeeded agingTime s.now } := by
  by_cases hneeded : s.table.nextAging ≠ 0 ∧ s.table.nextAging ≤ s.now
  · intro v sid m e he hstatic
    dsimp only at he
    rw [listener_removeAgedIfNeeded hagingTime, if_pos hneeded, Option.filter_eq_some_iff] at he
    rcases hall with hzero | hlater | hall
    · exact absurd hzero hneeded.1
    · exact absurd hneeded.2 (not_le.mpr hlater)
    · have hexpired := hall e (mem_listenerEntries.mpr ⟨v, sid, m, he.1⟩) hstatic
      rw [hexpired] at he
      exact absurd he.2 (by simp)
  · unfold removeAgedEntriesIfNeeded
    rw [if_neg hneeded]
    exact h

theorem NextAging.step (hagingTime : 0 < agingTime) (htimely : s.Timely agingTime)
    (h : s.NextAging agingTime) (hok : leavesNone agingTime s e = true)
    (hs : TimedTable.step agingTime s e = some s') : s'.NextAging agingTime := by
  cases e with
  | advance t =>
    change (if s.now ≤ t then _ else none) = _ at hs
    split_ifs at hs
    cases hs
    exact h
  | query q =>
    obtain ⟨t, ht, rfl⟩ := Option.map_eq_some_iff.mp hs
    have hsame := runQuery_same ht
    by_cases hsweeps : sweeps q
    · rw [if_pos hsweeps] at hsame
      have hall : s.table.nextAging = 0 ∨ s.now < s.table.nextAging ∨
          ∀ e ∈ listenerEntries s.table.listenerTables, e.isStatic = false →
            e.expired agingTime s.now = true := by
        simp only [leavesNone, hsweeps, Bool.not_true, Bool.false_or, Bool.or_eq_true,
          decide_eq_true_eq, List.all_eq_true, or_assoc] at hok
        refine hok.imp_right (Or.imp_right fun hok e he hstatic => ?_)
        exact (hok e he).resolve_left (by simp [hstatic])
      exact (h.removeAged hagingTime hall).sub
        (fun v sid m e he => hsame.listener v sid m ▸ he) hsame.nextAging
    · rw [if_neg hsweeps] at hsame
      exact h.sub (fun v sid m e he => hsame.listener v sid m ▸ he) hsame.nextAging
  | updateTalker streamId module address srClass framesize intervalFrames vid pcp isStatic =>
    obtain ⟨r, hr, rfl⟩ := Option.map_eq_some_iff.mp hs
    obtain ⟨hlisteners, hnext⟩ := updateTalker_listenerTables hr
    refine h.sub (fun v sid m e he => ?_) hnext
    unfold listener at he ⊢
    rw [← hlisteners]
    exact he
  | removeTalker streamId module vid =>
    obtain ⟨r, hr, rfl⟩ := Option.map_eq_some_iff.mp hs
    obtain ⟨hlisteners, hnext⟩ := removeTalker_listenerTables hr
    refine h.sub (fun v sid m e he => ?_) hnext
    unfold listener at he ⊢
    rw [← hlisteners]
    exact he
  | updateListener streamId module vid isStatic =>
    obtain ⟨⟨updated, t⟩, hr, rfl⟩ := Option.map_eq_some_iff.mp hs
    intro v sid m e he hstatic
    have hnow := htimely.now
    dsimp only at he ⊢
    have hlistener : t.listener v sid m = _ := listener_updateListener hr
    obtain ⟨-, -, ht⟩ := updateListener_eq hr
    have hnext : t.nextAging = if s.table.nextAging = 0 then s.now + agingTime
        else s.table.nextAging := by rw [ht]
    rw [hlistener] at he
    rw [hnext]
    split_ifs at he with hkey
    · -- the entry is new or refreshed, and ages last
      cases he
      split_ifs with hzero
      · exact ⟨(Int.add_pos_of_nonneg_of_pos hnow hagingTime).ne', le_refl _⟩
      · exact ⟨hzero, htimely.nextAging⟩
    · obtain ⟨hne, hle⟩ := h v sid m e he hstatic
      rw [if_neg hne]
      exact ⟨hne, hle⟩
  | removeListener streamId module vid =>
    cases hs
    obtain ⟨tables, htables⟩ := removeListener_eq s.table streamId module vid
    refine h.sub (fun v sid m e he => ?_) (by rw [htables])
    rw [listener_removeListener] at he
    split_ifs at he
    exact he

theorem nextAging_of_leavesNone (hagingTime : 0 < agingTime)
    (h : (runs M agingTime).ReachableUnder (leavesNone agingTime · ·) s) :
    s.NextAging agingTime := by
  refine h.invariant (fun s hs => ?_) fun s e s' hr hs hok hstep =>
    hs.step hagingTime (timely_of_reachable hagingTime hr.reachable) hok hstep
  intro v sid m e he
  rw [hs.2] at he
  cases he

/-- What is returned has not expired, if the cached time is in front of it. -/
theorem NextAging.returned (hagingTime : 0 < agingTime) (h : s.NextAging agingTime)
    {sid : UInt64} {v : UInt16} {m : M}
    (hm : m ∈ (s.table.getListenersForStreamId agingTime s.now sid v).1) :
    ∃ e, s.table.listener v sid m = some e ∧ (e.isStatic = false → s.now < e.aging agingTime) := by
  obtain ⟨⟨m', e⟩, he, rfl⟩ := List.mem_map.mp hm
  have hfind : (s.table.removeAgedEntriesIfNeeded agingTime s.now).listener v sid m' = some e :=
    Table.mem_entries.mp he
  rw [listener_removeAgedIfNeeded hagingTime] at hfind
  split_ifs at hfind with hneeded
  · obtain ⟨hfound, hexpired⟩ := Option.filter_eq_some_iff.mp hfind
    refine ⟨e, hfound, fun hstatic => ?_⟩
    simpa [ListenerEntry.expired, hstatic] using hexpired
  · refine ⟨e, hfind, fun hstatic => ?_⟩
    obtain ⟨hne, hle⟩ := h v sid m' e hfind hstatic
    exact (not_le.mp fun hnow => hneeded ⟨hne, hnow⟩).trans_le hle

theorem kept (hagingTime : 0 < agingTime) {v : UInt16} {sid : UInt64} {m : M} {e : ListenerEntry}
    (he : s.table.listener v sid m = some e) (hvalid : e.isStatic = true ∨ s.now < e.aging agingTime) :
    (s.table.removeAgedEntriesIfNeeded agingTime s.now).listener v sid m = some e := by
  have hexpired : e.expired agingTime s.now = false := by
    rcases hvalid with hstatic | hlater
    · simp [ListenerEntry.expired, hstatic]
    · simp [ListenerEntry.expired, hlater]
  rw [listener_removeAgedIfNeeded hagingTime, he, Option.filter_some, hexpired, Bool.not_false,
    if_pos rfl, ite_self]

/-- A sweep that leaves a listener which can expire forgets the next ageing. -/
theorem not_nextAging_step (hagingTime : 0 < agingTime) (htimely : s.Timely agingTime)
    (hbad : leavesNone agingTime s e = false) (hs : TimedTable.step agingTime s e = some s') :
    ¬s'.NextAging agingTime := by
  cases e with
  | query q =>
    simp only [leavesNone, Bool.or_eq_false_iff, Bool.not_eq_false', decide_eq_false_iff_not,
      List.all_eq_false] at hbad
    obtain ⟨⟨⟨hsweeps, hne⟩, hle⟩, e, he, hleft⟩ := hbad
    simp only [Bool.or_eq_true, not_or, Bool.not_eq_true] at hleft
    obtain ⟨t, ht, rfl⟩ := Option.map_eq_some_iff.mp hs
    have hsame := runQuery_same ht
    rw [if_pos hsweeps] at hsame
    have hneeded : s.table.nextAging ≠ 0 ∧ s.table.nextAging ≤ s.now := ⟨hne, not_lt.mp hle⟩
    obtain ⟨v, sid, m, hm⟩ := mem_listenerEntries.mp he
    have hkept : t.listener v sid m = some e := by
      rw [hsame.listener, listener_removeAgedIfNeeded hagingTime, if_pos hneeded, hm,
        Option.filter_some, hleft.2, Bool.not_false, if_pos rfl]
    have hzero : t.nextAging = 0 := by
      rw [hsame.nextAging]
      unfold removeAgedEntriesIfNeeded
      rw [if_pos hneeded]
      exact nextAging_removeAgedEntries hagingTime.ne' fun e he =>
        aging_nonneg hagingTime htimely he
    exact fun h => (h v sid m e hkept hleft.1).1 hzero
  | advance t => cases hbad
  | updateTalker => cases hbad
  | removeTalker => cases hbad
  | updateListener => cases hbad
  | removeListener => cases hbad

/-- Reservations expire in every run in which no sweep leaves a listener that can expire. -/
theorem expires_of_leavesNone (hagingTime : 0 < agingTime)
    (h : (runs M agingTime).ReachableUnder (leavesNone agingTime · ·) s) :
    s.Expires agingTime := by
  have hnext := nextAging_of_leavesNone hagingTime h
  exact ⟨fun _ _ _ hm => hnext.returned hagingTime hm,
    fun _ _ _ _ he hvalid => kept hagingTime he hvalid, hnext⟩

end

/-- Two listeners of a stream, the second one three time units later. -/
def twoListeners : List (TableEvent ℕ) :=
  [.updateTalker 1 0 5 .A 100 1 2 6 false, .updateListener 1 1 2 false, .advance 3,
    .updateListener 1 2 2 false]

theorem expires_twoListeners :
    ∃ s : TimedTable ℕ, s.table.nextAging = 7 ∧ s.Expires 7 := by
  obtain ⟨s, hs, hnext⟩ : ∃ s : TimedTable ℕ,
      (runs ℕ 7).runUnder (leavesNone 7 · ·) {} twoListeners = some s ∧
        s.table.nextAging = 7 :=
    ⟨_, rfl, rfl⟩
  have hinit : (runs ℕ 7).init {} := ⟨le_refl _, rfl⟩
  have hreach := System.ReachableUnder.run (.init hinit) hs
  exact ⟨s, hnext, expires_of_leavesNone (by decide) hreach⟩

/-- The first listener ages at 7, and the second one is still there at 20. -/
theorem not_expires : ¬∀ s : TimedTable ℕ, (runs ℕ 7).Reachable s → s.Expires 7 := by
  intro h
  obtain ⟨s, hs, hm, hnow, hlistener⟩ : ∃ s : TimedTable ℕ, (runs ℕ 7).runFrom {}
      (twoListeners ++ [.advance 7, .query (.getListenersForStreamId 1 2), .advance 20]) = some s ∧
        (s.table.getListenersForStreamId 7 s.now 1 2).1 = [2] ∧ s.now = 20 ∧
        s.table.listener 2 1 2 = some ⟨3, false⟩ :=
    ⟨_, rfl, rfl, rfl, rfl⟩
  have hinit : (runs ℕ 7).init {} := ⟨le_refl _, rfl⟩
  have hmem : 2 ∈ (s.table.getListenersForStreamId 7 s.now 1 2).1 := by
    rw [hm]
    exact List.mem_singleton_self 2
  obtain ⟨e, he, hlater⟩ := (h s (System.reachable_of_runFrom hinit hs)).returned 1 2 2 hmem
  rw [hlistener] at he
  cases he
  have hlt := hlater rfl
  rw [hnow] at hlt
  revert hlt
  decide

end TimedTable

end TsnReconfig.Avb
