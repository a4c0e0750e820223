import TsnReconfig.Avb.NodeTalkers

/-!
# Admission at a node

A `ListenerReady` is admitted when the stream fits on the port in addition to what is reserved
there, so the reservations of a port always fit.
-/

namespace TsnReconfig.Avb

open Lib OpenFlow SRPTable

namespace SRPTable
variable {M : Type*} [DecidableEq M] {t t' : SRPTable M} {agingTime now : SimTime}
  {K : Set (UInt16 × UInt64 × M)} {w : ObservationWindows} {port : M}

/-- A port gets no more than the new listeners. -/
theorem Refreshed.utilized_le (h : Refreshed agingTime now K t t')
    (l : Finset (UInt16 × UInt64 × M))
    (hl : ∀ key, key.2.2 = port → key ∈ K ∨
      key ∈ (t.removeAgedEntriesIfNeeded agingTime now).reservations port → key ∈ l) :
    (t'.removeAgedEntriesIfNeeded agingTime now).utilized w port ≤
      ∑ key ∈ l, (t.removeAgedEntriesIfNeeded agingTime now).cost w key := by
  have hcost : ∀ key, (t'.removeAgedEntriesIfNeeded agingTime now).cost w key =
      (t.removeAgedEntriesIfNeeded agingTime now).cost w key := by
    intro key
    rw [cost, cost, talker_removeAgedEntriesIfNeeded, talker_removeAgedEntriesIfNeeded, h.talker]
  calc
    _ = ∑ key ∈ (t'.removeAgedEntriesIfNeeded agingTime now).reservations port,
        (t.removeAgedEntriesIfNeeded agingTime now).cost w key :=
      Finset.sum_congr rfl fun key _ => hcost key
    _ ≤ _ := by
      refine Finset.sum_le_sum_of_subset fun key hkey => ?_
      obtain ⟨hport, hlistener⟩ := mem_reservations.mp hkey
      refine hl key hport ?_
      rcases h.swept _ _ _ hlistener with hold | hnew
      · exact .inr (mem_reservations.mpr ⟨hport, hold⟩)
      · exact .inl hnew

end SRPTable

namespace SRProtocol
variable {M : Type*} [DecidableEq M] {p : SRProtocol M} {t : SRPTable M} {now : SimTime}
  {m : ListenerReady}

/-- A listener that is registered was there before, or its stream fits. -/
theorem exists_admits (port : M) (hagingTime : 0 ≤ p.agingTime) (hsettled : Settled p.agingTime now t)
    (hknown : t.TalkersKnown) (htalker : (t.talker m.vlanIdentifier m.streamID).isSome) :
    ∃ b t', p.admits t now port m = some (b, t') ∧
      (∀ {K}, Refreshed p.agingTime now K t t') ∧ Settled p.agingTime now t' ∧
      (∀ v sid module, t'.listener v sid module = t.listener v sid module) ∧
      (b = true → (t.listener m.vlanIdentifier m.streamID port).isSome ∨
        ((t.utilized p.windows port + p.higherPriorityBandwidth port +
          t.cost p.windows (m.vlanIdentifier, m.streamID, port) : ℕ) : ℚ) ≤ p.reservable port) := by
  let t₁ := (t.getListenersForStreamId p.agingTime now m.streamID m.vlanIdentifier).2
  let t₂ := t₁.removeAgedEntriesIfNeeded p.agingTime now
  let t₃ := t₂.removeAgedEntriesIfNeeded p.agingTime now
  let t₄ : SRPTable M := { t₃ with talkerTables := t₃.talkerTables.touch m.vlanIdentifier }
  have h₁ : SameEntries (t.removeAgedEntriesIfNeeded p.agingTime now) t₁ :=
    sameEntries_touchListeners _ m.vlanIdentifier
  have h₄ : SameEntries t₃ t₄ := sameEntries_touchTalkers t₃ m.vlanIdentifier
  have hknown₁ : t₁.TalkersKnown := h₁.sub.talkersKnown ((sub_sweep _ _ _).talkersKnown hknown)
  -- no query finds anything to remove
  have hlistener₂ : ∀ v sid module, t₂.listener v sid module = t.listener v sid module := by
    intro v sid module
    rw [h₁.settled (settled_sweep t p.agingTime now), h₁.listener, hsettled]
  have hlistener₃ : ∀ v sid module, t₃.listener v sid module = t.listener v sid module := by
    intro v sid module
    rw [settled_sweep t₁ p.agingTime now, hlistener₂]
  have htalker₂ : ∀ v sid, t₂.talker v sid = t.talker v sid := by
    intro v sid
    rw [talker_removeAgedEntriesIfNeeded, h₁.talker, talker_removeAgedEntriesIfNeeded]
  obtain ⟨e, he⟩ := Option.isSome_iff_exists.mp htalker
  have he₃ : t₃.talker m.vlanIdentifier m.streamID = some e := by
    rw [talker_removeAgedEntriesIfNeeded, htalker₂, he]
  have hstream : t₂.getBandwidthForStream p.windows p.agingTime now m.streamID m.vlanIdentifier =
      some (bandwidth p.windows e, t₄) := by
    unfold getBandwidthForStream
    exact Option.map_eq_some_iff.mpr ⟨e, he₃, rfl⟩
  have hadmits : p.admits t now port m = some (decide
      (port ∈ (t.getListenersForStreamId p.agingTime now m.streamID m.vlanIdentifier).1 ∨
        ((t₂.utilized p.windows port + p.higherPriorityBandwidth port + bandwidth p.windows e : ℕ) :
          ℚ) ≤ p.reservable port), t₄) := by
    unfold admits
    change (t₁.getBandwidthForModule p.windows p.agingTime now port).bind _ = _
    rw [getBandwidthForModule_eq hknown₁, Option.bind_some]
    change (t₂.getBandwidthForStream p.windows p.agingTime now m.streamID m.vlanIdentifier).map _ = _
    rw [hstream, Option.map_some]
    simp only [decide_eq_true_eq]
    rfl
  refine ⟨_, _, hadmits, fun {K} => ?_, h₄.settled (settled_sweep t₂ p.agingTime now),
    fun v sid module => (h₄.listener v sid module).trans (hlistener₃ v sid module), fun hb => ?_⟩
  · have h₂ := (refreshed_sweep (K := K) t p.agingTime now).trans h₁.refreshed hagingTime
    have h₃ := h₂.trans (refreshed_sweep t₁ p.agingTime now) hagingTime
    exact (h₃.trans (refreshed_sweep t₂ p.agingTime now) hagingTime).trans h₄.refreshed hagingTime
  · rcases of_decide_eq_true hb with hmem | hfits
    · left
      rw [← hsettled]
      exact mem_listeners.mp hmem
    · right
      have hcost : t.cost p.windows (m.vlanIdentifier, m.streamID, port) = bandwidth p.windows e := by
        rw [cost, he, Option.elim_some]
      have hsub : t₂.Sub t := ⟨fun v sid => (htalker₂ v sid).symm,
        fun v sid module hm => (hlistener₂ v sid module).symm ▸ hm⟩
      have hle := hsub.utilized_le (w := p.windows) port
      rw [hcost]
      refine le_trans (Nat.cast_le.mpr ?_) hfits
      omega

end SRProtocol

namespace SRPNodeState
variable {c : SRPNode} {now : SimTime} {s s' : SRPNodeState} {vid : UInt16} {streamId : UInt64}
  {port : ℕ} {m : ListenerReady} {message : SRPMessage}

/-- The listeners at the ports fit, those that have aged apart. -/
def Fits (c : SRPNode) (now : SimTime) (s : SRPNodeState) : Prop :=
  ∀ i, (((s.table.removeAgedEntriesIfNeeded c.protocol.agingTime now).utilized c.protocol.windows
    (.phy i) + c.protocol.higherPriorityBandwidth (.phy i) : ℕ) : ℚ) ≤ c.protocol.reservable (.phy i)

theorem Fits.of_le (h : s.Fits c now) {now' : SimTime}
    (hle : ∀ i, (s'.table.removeAgedEntriesIfNeeded c.protocol.agingTime now').utilized
        c.protocol.windows (.phy i) ≤
      (s.table.removeAgedEntriesIfNeeded c.protocol.agingTime now).utilized c.protocol.windows
        (.phy i)) : s'.Fits c now' :=
  fun i => (Nat.cast_le.mpr (Nat.add_le_add_right (hle i) _)).trans (h i)

/-- Listeners that are not at ports need no bandwidth of a port. -/
theorem Fits.effect_sinks (h : s.Fits c now) (heffect : Effect c now sinkKeys s s') :
    s'.Fits c now := by
  refine h.of_le fun i => heffect.table.utilized_le _ fun key hport hkey => ?_
  refine hkey.resolve_left ?_
  rintro ⟨k, hsink⟩
  rw [hport] at hsink
  cases hsink

theorem Fits.advance {now' : SimTime} (h : s.Fits c now) (hle : now ≤ now') : s.Fits c now' :=
  h.of_le fun _ => Sub.utilized_le (sub_sweep_of_le hle) _

/-- A talker that is new, or known with the same bandwidth. -/
theorem Fits.setTalker (h : s.Fits c now) (hinv : s.Inv c) {e : TalkerEntry SRPModule}
    {t : SRPTable SRPModule} (hknown : Known vid streamId e s.table t)
    (hsame : ∀ old, s.table.talker vid streamId = some old →
      bandwidth c.protocol.windows e = bandwidth c.protocol.windows old) :
    ({ s with table := t } : SRPNodeState).Fits c now := by
  refine h.of_le fun i => ?_
  have hreservations : (t.removeAgedEntriesIfNeeded c.protocol.agingTime now).reservations (.phy i) =
      (s.table.removeAgedEntriesIfNeeded c.protocol.agingTime now).reservations (.phy i) := by
    ext key
    rw [mem_reservations, mem_reservations, listener_removeAgedEntriesIfNeeded,
      listener_removeAgedEntriesIfNeeded, hknown.listener, hknown.nextAging]
  refine le_of_eq (Finset.sum_congr hreservations fun key hkey => ?_)
  obtain ⟨v, sid, m⟩ := key
  have hlistener := (sub_sweep _ _ _).listener _ _ _ (mem_reservations.mp hkey).2
  obtain ⟨old, hold⟩ := Option.isSome_iff_exists.mp (hinv.known v sid m hlistener)
  rw [cost, cost, talker_removeAgedEntriesIfNeeded, talker_removeAgedEntriesIfNeeded,
    hknown.talker, hold]
  split_ifs with hkey'
  · obtain ⟨rfl, rfl⟩ := hkey'
    exact hsame old hold
  · rfl

/-- A listener at a port that was there before, or whose stream fits. -/
theorem Fits.addListener (h : s.Fits c now)
    (heffect : Effect c now {(vid, streamId, .phy port)} s s')
    (hok : ((s.removeAgedEntriesIfNeeded c now).table.listener vid streamId (.phy port)).isSome ∨
      (((s.removeAgedEntriesIfNeeded c now).table.utilized c.protocol.windows (.phy port) +
        c.protocol.higherPriorityBandwidth (.phy port) +
        (s.removeAgedEntriesIfNeeded c now).table.cost c.protocol.windows
          (vid, streamId, .phy port) : ℕ) : ℚ) ≤ c.protocol.reservable (.phy port)) :
    s'.Fits c now := by
  rw [table_removeAged] at hok
  intro i
  by_cases hi : i = port
  · subst hi
    rcases hok with hold | hfits
    · refine le_trans (Nat.cast_le.mpr (Nat.add_le_add_right ?_ _)) (h i)
      refine heffect.table.utilized_le _ fun key hport hkey => ?_
      rcases hkey with rfl | hkey
      · exact mem_reservations.mpr ⟨rfl, hold⟩
      · exact hkey
    · have hle := heffect.table.utilized_le (w := c.protocol.windows) (insert
        (vid, streamId, SRPModule.phy i) ((s.table.removeAgedEntriesIfNeeded c.protocol.agingTime
          now).reservations (.phy i))) fun key hport hkey => Finset.mem_insert.mpr hkey
      have hinsert := SRProtocol.sum_insert_le
        ((s.table.removeAgedEntriesIfNeeded c.protocol.agingTime now).cost c.protocol.windows)
        (vid, streamId, SRPModule.phy i)
        ((s.table.removeAgedEntriesIfNeeded c.protocol.agingTime now).reservations (.phy i))
      refine le_trans (Nat.cast_le.mpr ?_) hfits
      unfold utilized at hle ⊢
      omega
  · refine le_trans (Nat.cast_le.mpr (Nat.add_le_add_right ?_ _)) (h i)
    refine heffect.table.utilized_le _ fun key hport hkey => hkey.resolve_left ?_
    rintro rfl
    cases hport
    exact hi rfl

/-- A `ListenerReady`, or a `ListenerReadyFailed`, for a stream that has a talker. -/
theorem exists_handleListenerReady (now : SimTime) (port : ℕ)
    (hmessage : message = .listenerReady m ∨ message = .listenerReadyFailed m) (hinv : s.Inv c)
    (hstreams : s.Streams c) (htalker : (s.table.talker m.vlanIdentifier m.streamID).isSome) :
    ∃ s', s.handleMessage c now port message = some s' ∧
      Effect c now {(m.vlanIdentifier, m.streamID, .phy port)} s s' ∧ s'.Inv c ∧ s'.Streams c ∧
      (s.Fits c now → s'.Fits c now) := by
  have heq : s.handleMessage c now port message = s.handleMessage c now port (.listenerReady m) := by
    rcases hmessage with rfl | rfl
    · rfl
    · rfl
  let s₁ := s.removeAgedEntriesIfNeeded c now
  have heffect₁ : Effect c now {(m.vlanIdentifier, m.streamID, .phy port)} s s₁ :=
    effect_removeAged c now s
  have hinv₁ : s₁.Inv c := hinv.removeAged now
  have hstreams₁ : s₁.Streams c := hstreams.removeAged now
  have hsettled : Settled c.protocol.agingTime now s₁.table := by
    have hsweep := settled_sweep s.table c.protocol.agingTime now
    rwa [← table_removeAged] at hsweep
  have htalker₁ : (s₁.table.talker m.vlanIdentifier m.streamID).isSome := by
    rw [heffect₁.table.talker]
    exact htalker
  obtain ⟨admitted, t, hadmits, htable, hsettled', hlistener, hfits⟩ :=
    SRProtocol.exists_admits (.phy port) c.agingTime_nonneg hsettled hinv₁.known htalker₁
  let s₂ : SRPNodeState := { s₁ with table := t }
  have heffect₂ : ∀ {K}, Effect c now K s₁ s₂ := fun {K} =>
    ⟨htable, rfl, fun d hd => .inl hd, List.Subset.refl _⟩
  have hinv₂ : s₂.Inv c := hinv₁.same heffect₂ rfl
  have hstreams₂ : s₂.Streams c := hstreams₁.congr hlistener rfl rfl
  rw [heq]
  change ∃ s', (c.protocol.admits s₁.table now (.phy port) m).bind _ = _ ∧ _
  rw [hadmits, Option.bind_some]
  cases admitted with
  | true =>
    have htalker₂ : (s₂.table.talker m.vlanIdentifier m.streamID).isSome := by
      rw [(heffect₂ (K := ∅)).table.talker]
      exact htalker₁
    have hmay : MayListen c m.vlanIdentifier m.streamID (.phy port) :=
      ⟨fun k h => (nomatch h), fun k h => (nomatch h)⟩
    obtain ⟨s', hs', heffect₃, hinv', hstreams'⟩ :=
      exists_updateListener now hinv₂ hstreams₂ htalker₂ hmay
    have heffect := (heffect₁.trans heffect₂).trans heffect₃
    exact ⟨s', hs', heffect, hinv', hstreams', fun h => h.addListener heffect (hfits rfl)⟩
  | false =>
    -- the queries for the answer change nothing
    let t' := (t.getListenersForStreamId c.protocol.agingTime now m.streamID m.vlanIdentifier).2
    have hsame : SameEntries (t.removeAgedEntriesIfNeeded c.protocol.agingTime now) t' :=
      sameEntries_touchListeners _ m.vlanIdentifier
    let s₃ : SRPNodeState := { s₂ with table := t' }
    have heffect₃ : ∀ {K}, Effect c now K s₂ s₃ := fun {K} =>
      ⟨(refreshed_sweep _ _ _).trans hsame.refreshed c.agingTime_nonneg, rfl, fun d hd => .inl hd,
        List.Subset.refl _⟩
    have hinv₃ : s₃.Inv c := hinv₂.same heffect₃ rfl
    have hstreams₃ : s₃.Streams c := by
      refine hstreams₂.congr (fun v sid module => ?_) rfl rfl
      exact (hsame.listener v sid module).trans (hsettled' v sid module)
    let reply : SRPMessage := if 0 < (t.getListenersForStreamId c.protocol.agingTime now m.streamID
      m.vlanIdentifier).1.length then .listenerReadyFailed m else .listenerAskingFailed m
    have hreply : reply = .listenerReadyFailed ⟨m.streamID, m.vlanIdentifier⟩ ∨
        reply = .listenerAskingFailed ⟨m.streamID, m.vlanIdentifier⟩ := by
      by_cases hpos : 0 < (t.getListenersForStreamId c.protocol.agingTime now m.streamID
        m.vlanIdentifier).1.length
      · exact .inl (if_pos hpos)
      · exact .inr (if_neg hpos)
    have heffect : ∀ {K}, Effect c now K s
        (s₃.sendToTalker c now reply m.vlanIdentifier m.streamID) := fun {K} =>
      (((effect_removeAged c now s).trans heffect₂).trans heffect₃).trans (effect_sendFailed hreply)
    exact ⟨_, rfl, heffect, hinv₃.sendToTalker reply, hstreams₃.sendToTalker reply,
      fun h => h.effect_sinks heffect⟩

/-- A `ListenerAskingFailed` is passed on. -/
theorem effect_handleAskingFailed (hinv : s.Inv c) (hstreams : s.Streams c) :
    ∃ s', s.handleMessage c now port (.listenerAskingFailed m) = some s' ∧
      (∀ {K}, Effect c now K s s') ∧ s'.Inv c ∧ s'.Streams c :=
  ⟨_, rfl, fun {_} => effect_sendFailed (.inr rfl), hinv.sendToTalker _, hstreams.sendToTalker _⟩

/-- The self-message of a sink. -/
theorem exists_handleSelfMessage {i k : ℕ} {time : SimTime} (hinv : s.Inv c)
    (hstreams : s.Streams c) (hi : s.selfMessages[i]? = some (k, time)) (htime : time ≤ now) :
    ∃ s', s.handleSelfMessage c now i = some s' ∧ Effect c now sinkKeys s s' ∧ s'.Inv c ∧
      s'.Streams c := by
  obtain ⟨app, happ, htalker⟩ := hinv.selfMessages _ (List.mem_of_getElem? hi)
  let s₁ : SRPNodeState := { s with selfMessages := s.selfMessages.eraseIdx i }
  have hinv₁ : s₁.Inv c :=
    { hinv with selfMessages := fun x hx => hinv.selfMessages x (List.mem_of_mem_eraseIdx hx) }
  have hstreams₁ : s₁.Streams c := hstreams.congr (fun _ _ _ => rfl) rfl rfl
  have hmay : MayListen c app.vlanId app.streamID (.sink k) :=
    mayListen_sink happ (by simp [AVBTrafficSinkApp.isFor])
  obtain ⟨s₂, hs₂, heffect, hinv₂, hstreams₂⟩ := exists_updateListener now hinv₁ hstreams₁ htalker hmay
  have hkeys : ({(app.vlanId, app.streamID, .sink k)} : Set (UInt16 × UInt64 × SRPModule)) ⊆
      sinkKeys := by
    rintro key rfl
    exact ⟨k, rfl⟩
  have heffect' : Effect c now sinkKeys s s₂ := { heffect.mono hkeys with }
  have hhandled : s.handleSelfMessage c now i = some (if 0 < app.updateInterval then
      { s₂ with selfMessages := s₂.selfMessages ++ [(k, now + app.updateInterval)] } else s₂) := by
    unfold handleSelfMessage
    rw [hi, Option.filter_some, if_pos (decide_eq_true htime), Option.bind_some]
    dsimp only
    rw [happ, Option.bind_some]
    change (s₁.updateListener c now app.vlanId app.streamID (.sink k)).map _ = _
    rw [hs₂, Option.map_some]
  refine ⟨_, hhandled, ?_⟩
  split_ifs
  · refine ⟨{ heffect' with }, hinv₂.addSelfMessage happ ?_, hstreams₂⟩
    rw [heffect.table.talker]
    exact htalker
  · exact ⟨heffect', hinv₂, hstreams₂⟩

end SRPNodeState

end TsnReconfig.Avb
