import Mathlib.Data.Set.Insert
import TsnReconfig.Avb.SRPNode

/-!
# What a node does to its reservations

Each message and each signal leaves the listeners of a table alone, but for those that it updates
and those that have aged. A source streams as long as there is a listener for its stream.
-/

namespace TsnReconfig.Avb

open Lib OpenFlow SRPTable

/-! ## Tables -/

namespace SRPTable
variable {M : Type*} [DecidableEq M] {t t' t'' : SRPTable M} {agingTime now : SimTime}
  {K K' : Set (UInt16 × UInt64 × M)} {v vid : UInt16} {sid streamId : UInt64} {m module : M}

/-- What happens to a table at one time: new listeners have keys of `K`, and old ones are removed
only when they have aged. -/
structure Refreshed (agingTime now : SimTime) (K : Set (UInt16 × UInt64 × M)) (t t' : SRPTable M) :
    Prop where
  talker : ∀ v sid, t'.talker v sid = t.talker v sid
  listener : ∀ v sid m e, t'.listener v sid m = some e →
    t.listener v sid m = some e ∨ (v, sid, m) ∈ K ∧ e = ⟨now, false⟩
  kept : ∀ v sid m e, t.listener v sid m = some e →
    (agingTime ≠ 0 ∧ e.aging agingTime ≤ now) ∨ t'.listener v sid m = some e ∨
      t'.listener v sid m = some ⟨now, false⟩
  swept : ∀ v sid m, ((t'.removeAgedEntriesIfNeeded agingTime now).listener v sid m).isSome →
    ((t.removeAgedEntriesIfNeeded agingTime now).listener v sid m).isSome ∨ (v, sid, m) ∈ K

theorem Refreshed.mono (h : Refreshed agingTime now K t t') (hK : K ⊆ K') :
    Refreshed agingTime now K' t t' where
  talker := h.talker
  listener v sid m e he := (h.listener v sid m e he).imp_right fun hnew => ⟨hK hnew.1, hnew.2⟩
  kept := h.kept
  swept v sid m hm := (h.swept v sid m hm).imp_right fun hnew => hK hnew

/-- A listener of the present time is not removed. -/
theorem Refreshed.kept_new (h : Refreshed agingTime now K t t') (hagingTime : 0 ≤ agingTime)
    (hm : t.listener v sid m = some ⟨now, false⟩) : t'.listener v sid m = some ⟨now, false⟩ := by
  rcases h.kept v sid m _ hm with ⟨hne, haged⟩ | hsame | hnew
  · have hpos : 0 < agingTime := lt_of_le_of_ne hagingTime hne.symm
    have haged' : now + agingTime ≤ now := haged
    exact absurd haged' (not_le.mpr (Int.lt_add_of_pos_right now hpos))
  · exact hsame
  · exact hnew

theorem Refreshed.trans (h : Refreshed agingTime now K t t') (h' : Refreshed agingTime now K t' t'')
    (hagingTime : 0 ≤ agingTime) : Refreshed agingTime now K t t'' where
  talker v sid := (h'.talker v sid).trans (h.talker v sid)
  listener v sid m e he := by
    rcases h'.listener v sid m e he with hold | hnew
    · exact h.listener v sid m e hold
    · exact .inr hnew
  kept v sid m e he := by
    rcases h.kept v sid m e he with haged | hsame | hnew
    · exact .inl haged
    · exact h'.kept v sid m e hsame
    · exact .inr (.inr (h'.kept_new hagingTime hnew))
  swept v sid m hm := by
    rcases h'.swept v sid m hm with hold | hnew
    · exact h.swept v sid m hold
    · exact .inr hnew

/-- The next ageing may be set if it was not. -/
theorem refreshed_of_same (htalker : ∀ v sid, t'.talker v sid = t.talker v sid)
    (hlistener : ∀ v sid m, t'.listener v sid m = t.listener v sid m)
    (hnext : t'.nextAging = t.nextAging ∨ t.nextAging = 0) : Refreshed agingTime now K t t' where
  talker := htalker
  listener v sid m e he := .inl (hlistener v sid m ▸ he)
  kept v sid m e he := .inr (.inl ((hlistener v sid m).trans he))
  swept v sid m hm := by
    left
    rcases hnext with hnext | hzero
    · rw [listener_removeAgedEntriesIfNeeded, hnext, hlistener] at hm
      rw [listener_removeAgedEntriesIfNeeded]
      exact hm
    · have hsub := (sub_sweep t' agingTime now).listener v sid m hm
      rw [listener_removeAgedEntriesIfNeeded, if_neg fun hneeded => hneeded.2.1 hzero,
        ← hlistener]
      exact hsub

theorem SameEntries.refreshed (h : SameEntries t t') : Refreshed agingTime now K t t' :=
  refreshed_of_same h.talker h.listener (.inl h.nextAging)

theorem refreshed_sweep (t : SRPTable M) (agingTime now : SimTime) :
    Refreshed agingTime now K t (t.removeAgedEntriesIfNeeded agingTime now) where
  talker _ _ := talker_removeAgedEntriesIfNeeded
  listener v sid m e he := by
    rw [listener_removeAgedEntriesIfNeeded] at he
    split_ifs at he
    · exact .inl (Option.filter_eq_some_iff.mp he).1
    · exact .inl he
  kept v sid m e he := by
    rw [listener_removeAgedEntriesIfNeeded, he]
    split_ifs with hneeded
    · by_cases hexpired : e.expired agingTime now = true
      · rw [ListenerEntry.expired, Bool.and_eq_true, decide_eq_true_eq] at hexpired
        exact .inl ⟨hneeded.1, hexpired.2⟩
      · exact .inr (.inl (Option.filter_eq_some_iff.mpr ⟨rfl, by simpa using hexpired⟩))
    · exact .inr (.inl rfl)
  swept v sid m hm := .inl ((sub_sweep _ agingTime now).listener v sid m hm)

/-- Nothing is left for another sweep at the same time. -/
theorem listener_sweep_sweep : ((t.removeAgedEntriesIfNeeded agingTime now).removeAgedEntriesIfNeeded
      agingTime now).listener v sid m =
    (t.removeAgedEntriesIfNeeded agingTime now).listener v sid m := by
  rw [listener_removeAgedEntriesIfNeeded]
  split_ifs with hagain
  · by_cases hneeded : t.nextAging ≠ 0 ∧ t.nextAging ≤ now
    · rw [listener_removeAgedEntriesIfNeeded, if_pos ⟨hagain.1, hneeded⟩, Option.filter_filter]
      simp only [Bool.and_self]
    · have hself : t.removeAgedEntriesIfNeeded agingTime now = t := if_neg hneeded
      rw [hself] at hagain
      exact absurd hagain.2 hneeded
  · rfl

/-- A sweep removes nothing. -/
def Settled (agingTime now : SimTime) (t : SRPTable M) : Prop :=
  ∀ v sid m, (t.removeAgedEntriesIfNeeded agingTime now).listener v sid m = t.listener v sid m

theorem settled_sweep (t : SRPTable M) (agingTime now : SimTime) :
    Settled agingTime now (t.removeAgedEntriesIfNeeded agingTime now) :=
  fun _ _ _ => listener_sweep_sweep

theorem SameEntries.settled (h : SameEntries t t') (hsettled : Settled agingTime now t) :
    Settled agingTime now t' := by
  intro v sid m
  rw [listener_removeAgedEntriesIfNeeded, h.listener, h.nextAging,
    ← listener_removeAgedEntriesIfNeeded]
  exact hsettled v sid m

/-- An update of a listener before the next ageing is set. -/
theorem refreshed_updateListener {updated : Bool}
    (h : t.updateListenerWithStreamId agingTime now streamId module vid false = some (updated, t')) :
    Refreshed agingTime now {(vid, streamId, module)} t { t' with nextAging := t.nextAging } := by
  have hlistener : ∀ v sid m, ({ t' with nextAging := t.nextAging } : SRPTable M).listener v sid m =
      if v = vid ∧ sid = streamId ∧ m = module then some ⟨now, false⟩ else t.listener v sid m := by
    intro v sid m
    exact (listener_updateListener h : t'.listener v sid m = _)
  refine ⟨fun v sid => (talker_updateListener h : t'.talker v sid = _), fun v sid m e he => ?_,
    fun v sid m e he => ?_, fun v sid m hm => ?_⟩
  · rw [hlistener] at he
    split_ifs at he with hkey
    · obtain ⟨rfl, rfl, rfl⟩ := hkey
      exact .inr ⟨rfl, (Option.some.inj he).symm⟩
    · exact .inl he
  · rw [hlistener]
    split_ifs
    · exact .inr (.inr rfl)
    · exact .inr (.inl he)
  · rw [listener_removeAgedEntriesIfNeeded, hlistener] at hm
    by_cases hkey : v = vid ∧ sid = streamId ∧ m = module
    · obtain ⟨rfl, rfl, rfl⟩ := hkey
      exact .inr rfl
    · rw [if_neg hkey] at hm
      rw [listener_removeAgedEntriesIfNeeded]
      exact .inl hm

/-- What is left of a stream's listeners. -/
theorem isEmpty_entries_iff :
    ((t.listenerTables.get v).get sid).entries.isEmpty = true ↔
      ∀ m, t.listener v sid m = none := by
  rw [List.isEmpty_iff]
  exact Table.entries_eq_nil_iff

end SRPTable

/-! ## Nodes -/

namespace SRPNodeState
variable {c : SRPNode} {now : SimTime} {s s' s'' : SRPNodeState}
  {K K' : Set (UInt16 × UInt64 × SRPModule)} {v vid : UInt16} {sid streamId : UInt64}
  {m module : SRPModule} {d : Dispatch}

/-- What is for the port of a talker. -/
def ToTalker (s : SRPNodeState) (m : ListenerReady) (d : Dispatch) : Prop :=
  ∃ e i, s.table.talker m.vlanIdentifier m.streamID = some e ∧ e.module = .phy i ∧
    d.switchPort = some i

/-- What a node sends: advertisements of the talkers that it knows, and messages about listeners to
the ports of talkers. When it sends a `ListenerReady`, it has a listener that is new. -/
def OutOk (c : SRPNode) (now : SimTime) (s : SRPNodeState) (d : Dispatch) : Prop :=
  match d.message with
  | .talkerAdvertise m => d.switchPort = none ∧
    ∃ e, s.table.talker m.vlanIdentifier m.streamID = some e ∧
      d.notSwitchPort = e.module.portIndex ∧
      m = c.protocol.advertisement m.vlanIdentifier m.streamID e
  | .listenerReady m => s.ToTalker m d ∧
    ∃ module, s.table.listener m.vlanIdentifier m.streamID module = some ⟨now, false⟩
  | .listenerReadyFailed m | .listenerAskingFailed m => s.ToTalker m d

/-- What an event does to a node, apart from its talkers. -/
structure Effect (c : SRPNode) (now : SimTime) (K : Set (UInt16 × UInt64 × SRPModule))
    (s s' : SRPNodeState) : Prop where
  table : Refreshed c.protocol.agingTime now K s.table s'.table
  started : s'.started = s.started
  out : ∀ d ∈ s'.out, d ∈ s.out ∨ OutOk c now s' d
  sent : s.out ⊆ s'.out

theorem OutOk.refreshed (h : OutOk c now s d)
    (hr : Refreshed c.protocol.agingTime now K s.table s'.table) : OutOk c now s' d := by
  have htalker : ∀ m, s.ToTalker m d → s'.ToTalker m d := by
    rintro m ⟨e, i, he, hmodule, hport⟩
    exact ⟨e, i, (hr.talker _ _).trans he, hmodule, hport⟩
  unfold OutOk at h ⊢
  split at h
  · obtain ⟨hport, e, he, hnot, hm⟩ := h
    exact ⟨hport, e, (hr.talker _ _).trans he, hnot, hm⟩
  · obtain ⟨hto, module, hnew⟩ := h
    exact ⟨htalker _ hto, module, hr.kept_new c.agingTime_nonneg hnew⟩
  · exact htalker _ h
  · exact htalker _ h

theorem Effect.trans (h : Effect c now K s s') (h' : Effect c now K s' s'') :
    Effect c now K s s'' where
  table := h.table.trans h'.table c.agingTime_nonneg
  started := h'.started.trans h.started
  out d hd := by
    rcases h'.out d hd with hd | hok
    · exact (h.out d hd).imp_right fun hok => hok.refreshed h'.table
    · exact .inr hok
  sent := List.Subset.trans h.sent h'.sent

theorem Effect.mono (h : Effect c now K s s') (hK : K ⊆ K') : Effect c now K' s s' :=
  { h with table := h.table.mono hK }

/-- What a node knows of its applications: a listener that is a sink is for the stream of the sink,
and the talkers of sinks with a self-message are known, as are those of all listeners. -/
structure Inv (c : SRPNode) (s : SRPNodeState) : Prop where
  known : s.table.TalkersKnown
  sink : ∀ v sid k, (s.table.listener v sid (.sink k)).isSome →
    ∃ app, c.sinks[k]? = some app ∧ app.isFor v sid = true
  source : ∀ v sid k, s.table.listener v sid (.source k) = none
  selfMessages : ∀ x ∈ s.selfMessages, ∃ app, c.sinks[x.1]? = some app ∧
    (s.table.talker app.vlanId app.streamID).isSome
  started : ∀ v sid e k, s.table.talker v sid = some e → e.module = .source k → k ∈ s.started

/-- A source streams exactly while there is a listener. -/
def Streams (c : SRPNode) (s : SRPNodeState) : Prop :=
  ∀ k app, c.sources[k]? = some app → (s.isStreaming k = true ↔
    k ∈ s.started ∧ ∃ m, (s.table.listener app.vlanId app.streamID m).isSome)

/-- Where nothing but the table changes, and the listeners that are new are ports or right sinks. -/
theorem Inv.refreshed (h : s.Inv c) {now : SimTime}
    (hr : Refreshed c.protocol.agingTime now K s.table s'.table)
    (hK : ∀ v sid m, (v, sid, m) ∈ K → (s.table.talker v sid).isSome ∧ (∀ k, m ≠ .source k) ∧
      ∀ k, m = .sink k → ∃ app, c.sinks[k]? = some app ∧ app.isFor v sid = true)
    (hself : ∀ x ∈ s'.selfMessages, ∃ app, c.sinks[x.1]? = some app ∧
      (s.table.talker app.vlanId app.streamID).isSome)
    (hstarted : s'.started = s.started) : s'.Inv c where
  known v sid m hm := by
    obtain ⟨e, he⟩ := Option.isSome_iff_exists.mp hm
    rw [hr.talker]
    rcases hr.listener v sid m e he with hold | ⟨hmem, -⟩
    · exact h.known v sid m (Option.isSome_iff_exists.mpr ⟨e, hold⟩)
    · exact (hK v sid m hmem).1
  sink v sid k hm := by
    obtain ⟨e, he⟩ := Option.isSome_iff_exists.mp hm
    rcases hr.listener v sid _ e he with hold | ⟨hmem, -⟩
    · exact h.sink v sid k (Option.isSome_iff_exists.mpr ⟨e, hold⟩)
    · exact (hK v sid _ hmem).2.2 k rfl
  source v sid k := by
    rw [← Option.not_isSome_iff_eq_none]
    intro hm
    obtain ⟨e, he⟩ := Option.isSome_iff_exists.mp hm
    rcases hr.listener v sid _ e he with hold | ⟨hmem, -⟩
    · rw [h.source] at hold
      cases hold
    · exact (hK v sid _ hmem).2.1 k rfl
  selfMessages x hx := by
    obtain ⟨app, happ, htalker⟩ := hself x hx
    exact ⟨app, happ, (hr.talker _ _).symm ▸ htalker⟩
  started v sid e k he hmodule := by
    rw [hstarted]
    exact h.started v sid e k ((hr.talker v sid).symm.trans he) hmodule

/-! ## Sweeps -/

/-- A listener that is removed stops a source if it was the last one. -/
def stops (c : SRPNode) (s : SRPNodeState) (k : ℕ) (key : UInt16 × UInt64 × SRPModule) : Bool :=
  ((s.table.listenerTables.get key.1).get key.2.1).entries.isEmpty &&
    c.sources[k]?.any (·.isFor key.1 key.2.1)

theorem foldl_listenerTimeout (keys : List (UInt16 × UInt64 × SRPModule)) :
    keys.foldl (listenerTimeout c now) s = { s with
      isStreaming := fun k => s.isStreaming k && keys.all fun key => !stops c s k key
      selfMessages := s.selfMessages ++ keys.flatMap (retries c now) } := by
  induction keys generalizing s with
  | nil =>
    have hstreaming : (fun k => s.isStreaming k && true) = s.isStreaming :=
      funext fun k => Bool.and_true _
    rw [List.foldl_nil, List.flatMap_nil, List.append_nil]
    simp only [List.all_nil, hstreaming]
  | cons key keys ih =>
    rw [List.foldl_cons, ih]
    simp only [listenerTimeout, List.all_cons, List.flatMap_cons, List.append_assoc,
      Bool.and_assoc]
    rfl

theorem removeAged_eq (c : SRPNode) (now : SimTime) (s : SRPNodeState) :
    ∃ keys : List (UInt16 × UInt64 × SRPModule),
      (∀ v sid m, (v, sid, m) ∈ keys ↔ (s.table.listener v sid m).isSome ∧
        (s.table.removeAgedEntriesIfNeeded c.protocol.agingTime now).listener v sid m = none) ∧
      s.removeAgedEntriesIfNeeded c now = { s with
        table := s.table.removeAgedEntriesIfNeeded c.protocol.agingTime now
        isStreaming := fun k => s.isStreaming k && keys.all fun key => !stops c
          { s with table := s.table.removeAgedEntriesIfNeeded c.protocol.agingTime now } k key
        selfMessages := s.selfMessages ++ keys.flatMap (retries c now) } := by
  refine ⟨_, fun v sid m => ?_, foldl_listenerTimeout _⟩
  rw [List.mem_filter, mem_listenerKeys, Option.isNone_iff_eq_none]

theorem table_removeAged (c : SRPNode) (now : SimTime) (s : SRPNodeState) :
    (s.removeAgedEntriesIfNeeded c now).table =
      s.table.removeAgedEntriesIfNeeded c.protocol.agingTime now := by
  obtain ⟨keys, -, heq⟩ := removeAged_eq c now s
  rw [heq]

theorem out_removeAged : (s.removeAgedEntriesIfNeeded c now).out = s.out := by
  obtain ⟨keys, -, heq⟩ := removeAged_eq c now s
  rw [heq]

theorem started_removeAged : (s.removeAgedEntriesIfNeeded c now).started = s.started := by
  obtain ⟨keys, -, heq⟩ := removeAged_eq c now s
  rw [heq]

theorem effect_removeAged (c : SRPNode) (now : SimTime) (s : SRPNodeState) :
    Effect c now K s (s.removeAgedEntriesIfNeeded c now) where
  table := by
    rw [table_removeAged]
    exact refreshed_sweep s.table c.protocol.agingTime now
  started := started_removeAged
  out d hd := by
    rw [out_removeAged] at hd
    exact .inl hd
  sent := by rw [out_removeAged]; exact List.Subset.refl _

theorem Inv.removeAged (h : s.Inv c) (now : SimTime) :
    (s.removeAgedEntriesIfNeeded c now).Inv c := by
  have heffect := effect_removeAged (K := ∅) c now s
  refine h.refreshed heffect.table (fun _ _ _ hm => hm.elim) (fun x hx => ?_) heffect.started
  obtain ⟨keys, hkeys, heq⟩ := removeAged_eq c now s
  rw [heq] at hx
  rcases List.mem_append.mp hx with hx | hx
  · exact h.selfMessages x hx
  · -- a sink tries again only after it was a listener
    obtain ⟨⟨v, sid, m⟩, hkey, hx⟩ := List.mem_flatMap.mp hx
    unfold retries at hx
    split at hx
    · obtain ⟨app, happ, rfl⟩ := List.mem_map.mp hx
      rw [Option.mem_toList, Option.filter_eq_some_iff, Bool.and_eq_true] at happ
      obtain ⟨hsink, hfor, -⟩ := happ
      rw [AVBTrafficSinkApp.isFor, decide_eq_true_eq] at hfor
      refine ⟨app, hsink, ?_⟩
      rw [hfor.1, hfor.2]
      exact h.known v sid m ((hkeys v sid m).mp hkey).1
    · cases hx

theorem Streams.congr (h : s.Streams c)
    (hlistener : ∀ v sid m, s'.table.listener v sid m = s.table.listener v sid m)
    (hstreaming : s'.isStreaming = s.isStreaming) (hstarted : s'.started = s.started) :
    s'.Streams c := by
  intro k app happ
  rw [hstreaming, hstarted]
  simp only [hlistener]
  exact h k app happ

/-- A sweep stops the sources that are left without listeners, and starts none. -/
theorem isStreaming_removeAged {k : ℕ} {app : AVBTrafficSourceApp} (happ : c.sources[k]? = some app)
    (hlistener : s.isStreaming k = true → ∃ m,
      (s.table.listener app.vlanId app.streamID m).isSome) :
    (s.removeAgedEntriesIfNeeded c now).isStreaming k = true ↔ s.isStreaming k = true ∧
      ∃ m, ((s.removeAgedEntriesIfNeeded c now).table.listener app.vlanId app.streamID m).isSome := by
  obtain ⟨keys, hkeys, heq⟩ := removeAged_eq c now s
  rw [heq]
  simp only [Bool.and_eq_true, List.all_eq_true, Bool.not_eq_true']
  refine and_congr_right fun hstreaming => ?_
  constructor
  · intro hall
    by_contra hnone
    obtain ⟨m, hm⟩ := hlistener hstreaming
    have hgone := fun m => Option.not_isSome_iff_eq_none.mp fun hsome => hnone ⟨m, hsome⟩
    have hstop := hall (app.vlanId, app.streamID, m) ((hkeys _ _ _).mpr ⟨hm, hgone m⟩)
    rw [stops, isEmpty_entries_iff.mpr hgone, happ, Bool.true_and] at hstop
    simp [AVBTrafficSourceApp.isFor] at hstop
  · rintro ⟨m, hm⟩ ⟨v, sid, m'⟩ hkey
    rw [stops, Bool.and_eq_false_iff]
    by_cases hfor : app.isFor v sid = true
    · rw [AVBTrafficSourceApp.isFor, decide_eq_true_eq] at hfor
      left
      rw [← Bool.not_eq_true, isEmpty_entries_iff]
      intro hnone
      rw [hfor.1, hfor.2, hnone] at hm
      cases hm
    · right
      rw [happ]
      simpa using hfor

theorem Streams.removeAged (h : s.Streams c) (now : SimTime) :
    (s.removeAgedEntriesIfNeeded c now).Streams c := by
  intro k app happ
  rw [isStreaming_removeAged happ fun hstreaming => ((h k app happ).mp hstreaming).2,
    started_removeAged, h k app happ]
  constructor
  · rintro ⟨⟨hstarted, -⟩, hleft⟩
    exact ⟨hstarted, hleft⟩
  · rintro ⟨hstarted, m, hm⟩
    refine ⟨⟨hstarted, m, ?_⟩, m, hm⟩
    rw [table_removeAged] at hm
    exact (sub_sweep s.table c.protocol.agingTime now).listener _ _ _ hm

/-! ## Messages to talkers -/

/-- The table is that after a sweep. -/
theorem sameEntries_sendToTalker (message : SRPMessage) :
    SameEntries ((s.removeAgedEntriesIfNeeded c now).table.removeAgedEntriesIfNeeded
        c.protocol.agingTime now)
      (s.sendToTalker c now message vid streamId).table :=
  sameEntries_touchTalkers _ vid

theorem refreshed_sendToTalker (message : SRPMessage) :
    Refreshed c.protocol.agingTime now K (s.removeAgedEntriesIfNeeded c now).table
      (s.sendToTalker c now message vid streamId).table :=
  (refreshed_sweep _ _ _).trans (sameEntries_sendToTalker message).refreshed c.agingTime_nonneg

theorem out_sendToTalker {message : SRPMessage}
    (hd : d ∈ (s.sendToTalker c now message vid streamId).out) :
    d ∈ s.out ∨ d.message = message ∧ d.notSwitchPort = none ∧
      (s.sendToTalker c now message vid streamId).ToTalker ⟨streamId, vid⟩ d := by
  rcases List.mem_append.mp hd with hd | hd
  · rw [out_removeAged] at hd
    exact .inl hd
  · right
    obtain ⟨i, hi, rfl⟩ := List.mem_map.mp hd
    rw [Option.mem_toList, c.portIndex_eq] at hi
    obtain ⟨module, hmodule, hport⟩ := Option.bind_eq_some_iff.mp hi
    obtain ⟨e, he, rfl⟩ := Option.map_eq_some_iff.mp hmodule
    refine ⟨rfl, rfl, e, i, ?_, ?_, rfl⟩
    · rw [(sameEntries_sendToTalker message).talker]
      exact he
    · cases hphy : e.module with
      | phy j =>
        rw [hphy] at hport
        cases hport
        rfl
      | source k =>
        rw [hphy] at hport
        cases hport
      | sink k =>
        rw [hphy] at hport
        cases hport

theorem subset_out_sendToTalker (message : SRPMessage) :
    s.out ⊆ (s.sendToTalker c now message vid streamId).out := by
  intro d hd
  rw [← out_removeAged] at hd
  exact List.mem_append_left _ hd

/-- A failure that is passed on to the talker. -/
theorem effect_sendFailed {message : SRPMessage}
    (hmessage : message = .listenerReadyFailed ⟨streamId, vid⟩ ∨
      message = .listenerAskingFailed ⟨streamId, vid⟩) :
    Effect c now K s (s.sendToTalker c now message vid streamId) where
  table := (effect_removeAged c now s).table.trans (refreshed_sendToTalker message)
    c.agingTime_nonneg
  started := started_removeAged
  out d hd := by
    refine (out_sendToTalker hd).imp_right ?_
    rintro ⟨hd, -, hto⟩
    unfold OutOk
    rw [hd]
    rcases hmessage with rfl | rfl
    · exact hto
    · exact hto
  sent := subset_out_sendToTalker message

/-- A `ListenerReady` for a new listener. -/
theorem effect_sendReady (hnew : s.table.listener vid streamId module = some ⟨now, false⟩) :
    Effect c now K s (s.sendToTalker c now (.listenerReady ⟨streamId, vid⟩) vid streamId) where
  table := (effect_removeAged c now s).table.trans (refreshed_sendToTalker _) c.agingTime_nonneg
  started := started_removeAged
  out d hd := by
    refine (out_sendToTalker hd).imp_right ?_
    rintro ⟨hd, -, hto⟩
    unfold OutOk
    rw [hd]
    have htable : Refreshed c.protocol.agingTime now ∅ s.table
        (s.sendToTalker c now (.listenerReady ⟨streamId, vid⟩) vid streamId).table :=
      (effect_removeAged c now s).table.trans (refreshed_sendToTalker _) c.agingTime_nonneg
    exact ⟨hto, module, htable.kept_new c.agingTime_nonneg hnew⟩
  sent := subset_out_sendToTalker _

theorem Inv.same (h : s.Inv c) {now : SimTime} (heffect : Effect c now ∅ s s')
    (hself : s'.selfMessages = s.selfMessages) : s'.Inv c :=
  h.refreshed heffect.table (fun _ _ _ hm => hm.elim) (hself ▸ h.selfMessages) heffect.started

theorem Inv.sendToTalker (h : s.Inv c) (message : SRPMessage) :
    (s.sendToTalker c now message vid streamId).Inv c := by
  refine (h.removeAged now).refreshed (refreshed_sendToTalker (K := ∅) message)
    (fun _ _ _ hm => hm.elim) (h.removeAged now).selfMessages rfl

theorem Streams.sendToTalker (h : s.Streams c) (message : SRPMessage) :
    (s.sendToTalker c now message vid streamId).Streams c := by
  refine (h.removeAged now).congr (fun v sid m => ?_) rfl rfl
  rw [(sameEntries_sendToTalker message).listener, table_removeAged, listener_sweep_sweep]

/-! ## New listeners -/

/-- The steps of an update: the table has the listener, then `SRProtocol` and the sources get the
signal, and then the next ageing is set. -/
theorem updateListener_steps (h : s.updateListener c now vid streamId module = some s') :
    ∃ updated table s₁ s₂, s.table.updateListenerWithStreamId c.protocol.agingTime now streamId
        module vid false = some (updated, table) ∧
      s₁ = { s with table := { table with nextAging := s.table.nextAging } } ∧
      s₂ = s₁.sendToTalker c now (.listenerReady ⟨streamId, vid⟩) vid streamId ∧
      s'.started = s₂.started ∧ s'.selfMessages = s₂.selfMessages ∧ s'.out = s₂.out ∧
      (∀ v sid m, s'.table.listener v sid m = s₂.table.listener v sid m) ∧
      (∀ {K}, Refreshed c.protocol.agingTime now K s₂.table s'.table) ∧
      s'.isStreaming = if updated then s₂.isStreaming
        else (s₂.listenerRegistered c vid streamId).isStreaming := by
  obtain ⟨⟨updated, table⟩, hupdate, rfl⟩ := Option.map_eq_some_iff.mp h
  refine ⟨updated, table, _, _, hupdate, rfl, rfl, ?_⟩
  have hnext : ∀ {K} (t : SRPTable SRPModule), Refreshed c.protocol.agingTime now K t
      { t with nextAging := if t.nextAging = 0 then now + c.protocol.agingTime
        else t.nextAging } := by
    intro K t
    refine refreshed_of_same (fun _ _ => rfl) (fun _ _ _ => rfl) ?_
    by_cases hzero : t.nextAging = 0
    · exact .inr hzero
    · exact .inl (if_neg hzero)
  cases updated with
  | true => exact ⟨rfl, rfl, rfl, fun _ _ _ => rfl, fun {K} => hnext _, (if_pos rfl).symm⟩
  | false =>
    exact ⟨rfl, rfl, rfl, fun _ _ _ => rfl, fun {K} => hnext _, (if_neg Bool.false_ne_true).symm⟩

theorem updateListener_isSome_iff :
    (s.updateListener c now vid streamId module).isSome ↔ (s.table.talker vid streamId).isSome := by
  unfold updateListener
  rw [Option.isSome_map, isSome_updateListener_iff]

theorem updateListener_spec (h : s.updateListener c now vid streamId module = some s') :
    Effect c now {(vid, streamId, module)} s s' ∧
      s'.table.listener vid streamId module = some ⟨now, false⟩ := by
  obtain ⟨updated, table, s₁, s₂, hupdate, h₁, h₂, hstarted, -, hout, -, htable, -⟩ :=
    updateListener_steps h
  have hnew : s₁.table.listener vid streamId module = some ⟨now, false⟩ := by
    have hlistener : table.listener vid streamId module = _ := listener_updateListener hupdate
    rw [if_pos ⟨rfl, rfl, rfl⟩] at hlistener
    rw [h₁]
    exact hlistener
  have heffect₁ : Effect c now {(vid, streamId, module)} s s₁ := by
    rw [h₁]
    exact ⟨refreshed_updateListener hupdate, rfl, fun d hd => .inl hd, List.Subset.refl _⟩
  have heffect₂ : Effect c now {(vid, streamId, module)} s₁ s₂ := h₂ ▸ effect_sendReady hnew
  have heffect : Effect c now {(vid, streamId, module)} s₂ s' :=
    ⟨htable, hstarted, fun d hd => .inl (hout ▸ hd), hout ▸ List.Subset.refl _⟩
  refine ⟨(heffect₁.trans heffect₂).trans heffect, ?_⟩
  exact heffect.table.kept_new c.agingTime_nonneg
    (heffect₂.table.kept_new c.agingTime_nonneg hnew)

/-- The module of a new listener: a port, or a sink for the stream. -/
def MayListen (c : SRPNode) (vid : UInt16) (streamId : UInt64) (module : SRPModule) : Prop :=
  (∀ k, module ≠ .source k) ∧
    ∀ k, module = .sink k → ∃ app, c.sinks[k]? = some app ∧ app.isFor vid streamId = true

theorem Inv.updateListener (hinv : s.Inv c) (hmay : MayListen c vid streamId module)
    (h : s.updateListener c now vid streamId module = some s') : s'.Inv c := by
  have hknown := updateListener_isSome_iff.mp (Option.isSome_iff_exists.mpr ⟨s', h⟩)
  obtain ⟨updated, table, s₁, s₂, hupdate, h₁, h₂, hstarted, hself, -, -, htable, -⟩ :=
    updateListener_steps h
  have hrefreshed : Refreshed c.protocol.agingTime now {(vid, streamId, module)}
      s.table s₁.table := by
    rw [h₁]
    exact refreshed_updateListener hupdate
  have hinv₁ : s₁.Inv c := by
    refine hinv.refreshed hrefreshed ?_ ?_ ?_
    · rintro v sid m hm
      obtain ⟨rfl, rfl, rfl⟩ : v = vid ∧ sid = streamId ∧ m = module := by simpa using hm
      exact ⟨hknown, hmay⟩
    · rw [h₁]
      exact hinv.selfMessages
    · rw [h₁]
  have hinv₂ : s₂.Inv c := h₂ ▸ hinv₁.sendToTalker _
  exact hinv₂.refreshed (htable (K := ∅)) (fun _ _ _ hm => hm.elim)
    (hself ▸ hinv₂.selfMessages) hstarted

/-- The sources of the stream stream from then on, if they have started. -/
theorem Streams.updateListener (hstreams : s.Streams c)
    (h : s.updateListener c now vid streamId module = some s') : s'.Streams c := by
  obtain ⟨heffect, hnew'⟩ := updateListener_spec h
  obtain ⟨updated, table, s₁, s₂, hupdate, h₁, h₂, hstarted, -, -, hentries, -, hstreaming⟩ :=
    updateListener_steps h
  have hlistener : ∀ v sid m, s₁.table.listener v sid m =
      if v = vid ∧ sid = streamId ∧ m = module then some ⟨now, false⟩
      else s.table.listener v sid m := by
    intro v sid m
    rw [h₁]
    exact (listener_updateListener hupdate : table.listener v sid m = _)
  have hstarted' : s'.started = s.started := heffect.started
  have hstarted₂ : s₂.started = s.started := hstarted ▸ hstarted'
  have hstreaming₁ : ∀ k app, c.sources[k]? = some app → s.isStreaming k = true →
      ∃ m, (s₁.table.listener app.vlanId app.streamID m).isSome := by
    intro k app happ hk
    obtain ⟨m, hm⟩ := ((hstreams k app happ).mp hk).2
    refine ⟨m, ?_⟩
    rw [hlistener]
    split_ifs
    · rfl
    · exact hm
  have hsame : ∀ v sid m, s'.table.listener v sid m =
      (s₁.removeAgedEntriesIfNeeded c now).table.listener v sid m := by
    intro v sid m
    rw [hentries, h₂, (sameEntries_sendToTalker _).listener, table_removeAged,
      listener_sweep_sweep]
  -- the sweep at `SRProtocol` stops the sources of streams that have lost their last listener
  have hswept : ∀ k app, c.sources[k]? = some app → (s₂.isStreaming k = true ↔
      s.isStreaming k = true ∧ ∃ m, (s'.table.listener app.vlanId app.streamID m).isSome) := by
    intro k app happ
    have hstreaming₂ : s₂.isStreaming = (s₁.removeAgedEntriesIfNeeded c now).isStreaming := by
      rw [h₂]
      rfl
    have hself : s₁.isStreaming = s.isStreaming := by rw [h₁]
    rw [hstreaming₂, isStreaming_removeAged happ (hself ▸ hstreaming₁ k app happ), hself]
    simp only [hsame]
  intro k app happ
  have hbefore := hstreams k app happ
  rw [hstarted', hstreaming]
  by_cases hfor : app.isFor vid streamId = true
  · have hkey := hfor
    rw [AVBTrafficSourceApp.isFor, decide_eq_true_eq] at hkey
    obtain ⟨rfl, rfl⟩ := hkey
    have hnow : ∃ m, (s'.table.listener app.vlanId app.streamID m).isSome :=
      ⟨module, Option.isSome_iff_exists.mpr ⟨_, hnew'⟩⟩
    rw [and_iff_left hnow]
    split_ifs with hupdated
    · -- the source has streamed for this listener before
      rw [hswept k app happ, and_iff_left hnow, hbefore]
      obtain ⟨-, hold, -⟩ := updateListener_eq hupdate
      rw [hupdated] at hold
      exact and_iff_left ⟨module, hold.symm⟩
    · unfold listenerRegistered
      rw [Bool.or_eq_true, Bool.and_eq_true, decide_eq_true_eq, hstarted₂, happ,
        Option.any_some, hfor, hswept k app happ, and_iff_left hnow, and_iff_left rfl]
      exact or_iff_right_of_imp fun hk => (hbefore.mp hk).1
  · have hother : (if updated = true then s₂.isStreaming
        else (s₂.listenerRegistered c vid streamId).isStreaming) k = s₂.isStreaming k := by
      split_ifs
      · rfl
      · unfold listenerRegistered
        dsimp only
        rw [happ, Option.any_some, Bool.eq_false_iff.mpr hfor, Bool.and_false, Bool.or_false]
    rw [hother, hswept k app happ, hbefore, and_assoc]
    refine and_congr_right fun _ => and_iff_right_of_imp ?_
    rintro ⟨m, hm⟩
    have hsub := (sub_sweep s₁.table c.protocol.agingTime now).listener app.vlanId app.streamID m
    rw [← table_removeAged, ← hsame, hlistener, if_neg] at hsub
    · exact ⟨m, hsub hm⟩
    · rintro ⟨hv, hsid, -⟩
      exact hfor (by rw [AVBTrafficSourceApp.isFor, hv, hsid]; simp)

/-- An update of a listener for a stream that has a talker. -/
theorem exists_updateListener (now : SimTime) (hinv : s.Inv c) (hstreams : s.Streams c)
    (hknown : (s.table.talker vid streamId).isSome) (hmay : MayListen c vid streamId module) :
    ∃ s', s.updateListener c now vid streamId module = some s' ∧
      Effect c now {(vid, streamId, module)} s s' ∧ s'.Inv c ∧ s'.Streams c := by
  obtain ⟨s', hs'⟩ := Option.isSome_iff_exists.mp (updateListener_isSome_iff.mpr hknown)
  exact ⟨s', hs', (updateListener_spec hs').1, hinv.updateListener hmay hs',
    hstreams.updateListener hs'⟩

end SRPNodeState

end TsnReconfig.Avb
