import TsnReconfig.Avb.SRProtocol

/-!
# Reservations and their talkers

The queries for a bandwidth read the talker of every listener without a check. Listeners are only
added for a stream with a talker, but the talker can be removed before them.
-/

namespace TsnReconfig.Avb

open Lib OpenFlow

variable {M : Type*} [DecidableEq M]

namespace SRPTable

/-- The bandwidth is a sum over listeners at the port, each of which counts once, and none that has
not expired is missing. -/
def CountsEachOnce (t : SRPTable M) (w : ObservationWindows) (agingTime now : SimTime) (port : M)
    (srClass : Option SRClass) (bandwidth : ℕ) : Prop :=
  ∃ keys ⊆ t.reservations port,
    (∀ v sid e, t.listener v sid port = some e → e.expired agingTime now = false →
      (v, sid, port) ∈ keys) ∧
    bandwidth = ∑ key ∈ keys with t.ofClass srClass key, t.cost w key

/-- Every listener has a talker, and the queries for the bandwidth of a module return it. -/
structure ReservationsKnown (t : SRPTable M) (agingTime now : SimTime) : Prop where
  talkersKnown : t.TalkersKnown
  forModule : ∀ w port, ∃ b t', t.getBandwidthForModule w agingTime now port = some (b, t') ∧
    t.CountsEachOnce w agingTime now port none b
  forModuleAndSRClass : ∀ w port srClass, ∃ b t',
    t.getBandwidthForModuleAndSRClass w agingTime now port srClass = some (b, t') ∧
      t.CountsEachOnce w agingTime now port (some srClass) b

variable {t t' : SRPTable M} {w : ObservationWindows} {agingTime now : SimTime} {port module : M}
  {streamId : UInt64} {vid : UInt16}

/-- The sum after a sweep, in terms of the table before it. -/
theorem countsEachOnce_sweep (t : SRPTable M) (w : ObservationWindows) (agingTime now : SimTime)
    (port : M) (srClass : Option SRClass) :
    let swept := t.removeAgedEntriesIfNeeded agingTime now
    t.CountsEachOnce w agingTime now port srClass
      (∑ key ∈ swept.reservations port with swept.ofClass srClass key, swept.cost w key) := by
  intro swept
  have hsub : t.Sub swept := sub_sweep t agingTime now
  refine ⟨swept.reservations port, hsub.reservations_subset port, fun v sid e he hlive => ?_, ?_⟩
  · rw [mem_reservations]
    refine ⟨rfl, ?_⟩
    change ((t.removeAgedEntriesIfNeeded agingTime now).listener v sid port).isSome
    rw [listener_removeAgedEntriesIfNeeded, he]
    split_ifs
    · rw [Option.filter_some, hlive]
      rfl
    · rfl
  · have hclass : ∀ key, swept.ofClass srClass key = t.ofClass srClass key := fun key => by
      rw [ofClass, ofClass, hsub.talker]
    simp only [hclass]
    exact Finset.sum_congr rfl fun _ _ => hsub.cost_eq

theorem TalkersKnown.reservationsKnown (h : t.TalkersKnown) (agingTime now : SimTime) :
    t.ReservationsKnown agingTime now := by
  have hswept := (sub_sweep t agingTime now).talkersKnown h
  refine ⟨h, fun w port => ?_, fun w port srClass => ?_⟩
  · refine ⟨_, t.removeAgedEntriesIfNeeded agingTime now, ?_,
      countsEachOnce_sweep t w agingTime now port none⟩
    unfold getBandwidthForModule
    dsimp only
    rw [bandwidthForModule_ofClass hswept, Option.map_some]
  · refine ⟨_, t.removeAgedEntriesIfNeeded agingTime now, ?_,
      countsEachOnce_sweep t w agingTime now port (some srClass)⟩
    unfold getBandwidthForModuleAndSRClass
    dsimp only
    rw [bandwidthForModule_ofClass hswept, Option.map_some]

/-! ## One lemma for each kind of update -/

theorem TalkersKnown.updateTalker {address : MACAddress} {srClass : SRClass} {framesize : UInt64}
    {intervalFrames : UInt16} {pcp : UInt8} {isStatic updated : Bool} (h : t.TalkersKnown)
    (hupdate : t.updateTalkerWithStreamId now streamId module address srClass framesize
      intervalFrames vid pcp isStatic = some (updated, t')) : t'.TalkersKnown := by
  obtain ⟨_, _, htalker, -, -⟩ := talker_updateTalker hupdate
  intro v sid m hm
  rw [listener, (updateTalker_listenerTables hupdate).1] at hm
  rw [htalker]
  split_ifs
  · rfl
  · exact h v sid m hm

/-- A talker can go exactly when its stream has no listener in the VLAN. -/
theorem TalkersKnown.removeTalker_iff {updated : Bool} (h : t.TalkersKnown)
    (hremove : t.removeTalkerWithStreamId streamId module vid = some (updated, t')) :
    t'.TalkersKnown ↔ ∀ m, t.listener vid streamId m = none := by
  have hlistener : ∀ v sid m, t'.listener v sid m = t.listener v sid m := fun v sid m => by
    rw [listener, (removeTalker_listenerTables hremove).1, listener]
  constructor
  · intro h' m
    by_contra hsome
    have hm := h' vid streamId m (by rw [hlistener]; exact Option.isSome_iff_ne_none.mpr hsome)
    rw [talker_removeTalker hremove, if_pos ⟨rfl, rfl⟩] at hm
    cases hm
  · intro hnone v sid m hm
    rw [hlistener] at hm
    rw [talker_removeTalker hremove]
    split_ifs with hkey
    · rw [hkey.1, hkey.2, hnone m] at hm
      cases hm
    · exact h v sid m hm

theorem TalkersKnown.updateListener {isStatic updated : Bool} (h : t.TalkersKnown)
    (hupdate : t.updateListenerWithStreamId agingTime now streamId module vid isStatic =
      some (updated, t')) : t'.TalkersKnown := by
  obtain ⟨htalker, -, -⟩ := updateListener_eq hupdate
  intro v sid m hm
  rw [talker_updateListener hupdate]
  rw [listener_updateListener hupdate] at hm
  split_ifs at hm with hkey
  · rw [hkey.1, hkey.2.1]
    exact htalker
  · exact h v sid m hm

theorem TalkersKnown.removeListener (h : t.TalkersKnown) (streamId : UInt64) (module : M)
    (vid : UInt16) : (t.removeListenerWithStreamId streamId module vid).2.TalkersKnown := by
  obtain ⟨tables, htables⟩ := removeListener_eq t streamId module vid
  intro v sid m hm
  rw [listener_removeListener] at hm
  have htalker : (t.removeListenerWithStreamId streamId module vid).2.talker v sid =
      t.talker v sid := by
    rw [htables]
    rfl
  rw [htalker]
  split_ifs at hm
  · cases hm
  · exact h v sid m hm

end SRPTable

/-! ## Runs -/

namespace TimedTable

variable {agingTime : SimTime} {s s' : TimedTable M} {e : TableEvent M}

open SRPTable

/-- A talker is removed when its stream has no listener in the VLAN. -/
def listenersGone (s : TimedTable M) : TableEvent M → Bool
  | .removeTalker streamId _ vid =>
    ((s.table.listenerTables.get vid).get streamId).entries.isEmpty
  | _ => true

theorem talkersKnown_step (h : s.table.TalkersKnown) (hok : listenersGone s e = true)
    (hs : step agingTime s e = some s') : s'.table.TalkersKnown := by
  cases e with
  | advance t =>
    change (if s.now ≤ t then _ else none) = _ at hs
    split_ifs at hs
    cases hs
    exact h
  | query q =>
    obtain ⟨t, ht, rfl⟩ := Option.map_eq_some_iff.mp hs
    have hsub := (runQuery_same ht).sub
    split_ifs at hsub
    · exact hsub.talkersKnown ((sub_sweep s.table agingTime s.now).talkersKnown h)
    · exact hsub.talkersKnown h
  | updateTalker streamId module address srClass framesize intervalFrames vid pcp isStatic =>
    obtain ⟨r, hr, rfl⟩ := Option.map_eq_some_iff.mp hs
    exact h.updateTalker hr
  | removeTalker streamId module vid =>
    obtain ⟨r, hr, rfl⟩ := Option.map_eq_some_iff.mp hs
    exact (h.removeTalker_iff hr).mpr (Table.entries_eq_nil_iff.mp (List.isEmpty_iff.mp hok))
  | updateListener streamId module vid isStatic =>
    obtain ⟨r, hr, rfl⟩ := Option.map_eq_some_iff.mp hs
    exact h.updateListener hr
  | removeListener streamId module vid =>
    cases hs
    exact h.removeListener streamId module vid

theorem talkersKnown_of_listenersGone
    (h : (runs M agingTime).ReachableUnder (listenersGone · ·) s) : s.table.TalkersKnown := by
  refine h.invariant (fun s hs => ?_) fun _ _ _ _ hknown hok hstep =>
    talkersKnown_step hknown hok hstep
  rw [hs.2]
  intro v sid m hm
  cases hm

/-- Every reservation has its talker in every run in which no talker is removed before the
listeners of its stream. -/
theorem reservationsKnown_of_listenersGone
    (h : (runs M agingTime).ReachableUnder (listenersGone · ·) s) :
    s.table.ReservationsKnown agingTime s.now :=
  (talkersKnown_of_listenersGone h).reservationsKnown agingTime s.now

/-- A stream with a listener. -/
def oneListener : List (TableEvent ℕ) :=
  [.updateTalker 1 0 5 .A 100 1 2 6 false, .updateListener 1 1 2 false]

theorem reservationsKnown_oneListener :
    ∃ s : TimedTable ℕ, (runs ℕ 7).runFrom {} oneListener = some s ∧
      s.table.ReservationsKnown 7 s.now := by
  obtain ⟨s, hs, hrun⟩ : ∃ s : TimedTable ℕ,
      (runs ℕ 7).runUnder (listenersGone · ·) {} oneListener = some s ∧
        (runs ℕ 7).runFrom {} oneListener = some s := ⟨_, rfl, rfl⟩
  have hinit : (runs ℕ 7).init {} := ⟨le_refl _, rfl⟩
  exact ⟨s, hrun, reservationsKnown_of_listenersGone (System.ReachableUnder.run (.init hinit) hs)⟩

/-- The talker is removed and the listener stays. -/
theorem not_reservationsKnown : ¬∀ s : TimedTable ℕ, (runs ℕ 7).Reachable s →
    s.table.ReservationsKnown 7 s.now := by
  intro h
  obtain ⟨s, hs, hquery⟩ : ∃ s : TimedTable ℕ,
      (runs ℕ 7).runFrom {} (oneListener ++ [.removeTalker 1 0 2]) = some s ∧
        s.table.getBandwidthForModule {} 7 s.now 1 = none := ⟨_, rfl, rfl⟩
  have hinit : (runs ℕ 7).init {} := ⟨le_refl _, rfl⟩
  obtain ⟨b, t', hb, -⟩ := (h s (System.reachable_of_runFrom hinit hs)).forModule {} 1
  rw [hquery] at hb
  cases hb

end TimedTable

end TsnReconfig.Avb
