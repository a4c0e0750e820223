import TsnReconfig.Avb.NodeReservations

/-!
# What a node does about new talkers

`SRProtocol` advertises a talker that the table gets to know, and the sinks for its stream register
as listeners.
-/

namespace TsnReconfig.Avb

open Lib OpenFlow SRPTable

namespace SRPNodeState
variable {c : SRPNode} {now : SimTime} {s s' s'' : SRPNodeState}
  {K K' : Set (UInt16 × UInt64 × SRPModule)} {v vid : UInt16} {sid streamId : UInt64}
  {m module : SRPModule} {d : Dispatch}

/-- The keys of listeners that are sinks. -/
def sinkKeys : Set (UInt16 × UInt64 × SRPModule) := {key | ∃ k, key.2.2 = .sink k}

theorem mayListen_sink {k : ℕ} {app : AVBTrafficSinkApp} (happ : c.sinks[k]? = some app)
    (hfor : app.isFor vid streamId = true) : MayListen c vid streamId (.sink k) := by
  refine ⟨fun k' h => (nomatch h), fun k' h => ?_⟩
  cases h
  exact ⟨app, happ, hfor⟩

theorem Inv.addSelfMessage (hinv : s.Inv c) {k : ℕ} {app : AVBTrafficSinkApp} {time : SimTime}
    (happ : c.sinks[k]? = some app) (hknown : (s.table.talker app.vlanId app.streamID).isSome) :
    ({ s with selfMessages := s.selfMessages ++ [(k, time)] } : SRPNodeState).Inv c := by
  refine { hinv with selfMessages := fun x hx => ?_ }
  rcases List.mem_append.mp hx with hx | hx
  · exact hinv.selfMessages x hx
  · rw [List.mem_singleton.mp hx]
    exact ⟨app, happ, hknown⟩

/-- A new talker at the sinks. -/
theorem exists_talkerRegistered (hinv : s.Inv c) (hstreams : s.Streams c)
    (hknown : (s.table.talker vid streamId).isSome) :
    ∃ s', c.sinks.zipIdx.foldlM (talkerRegistered c now vid streamId) s = some s' ∧
      Effect c now sinkKeys s s' ∧ s'.Inv c ∧ s'.Streams c := by
  refine exists_foldlM (P := fun s' => Effect c now sinkKeys s s' ∧ s'.Inv c ∧ s'.Streams c)
    (fun s₁ sink hsink hP => ?_) ⟨⟨?_, rfl, fun d hd => .inl hd, List.Subset.refl _⟩, hinv, hstreams⟩
  · obtain ⟨heffect, hinv₁, hstreams₁⟩ := hP
    obtain ⟨app, k⟩ := sink
    have happ : c.sinks[k]? = some app := List.mem_zipIdx_iff_getElem?.mp hsink
    unfold talkerRegistered
    dsimp only
    by_cases hfor : app.isFor vid streamId = true
    · rw [if_pos hfor]
      have hknown₁ : (s₁.table.talker vid streamId).isSome := by
        rw [heffect.table.talker]
        exact hknown
      obtain ⟨s₂, hs₂, heffect₂, hinv₂, hstreams₂⟩ :=
        exists_updateListener now hinv₁ hstreams₁ hknown₁ (mayListen_sink happ hfor)
      have hkeys : ({(vid, streamId, .sink k)} : Set (UInt16 × UInt64 × SRPModule)) ⊆ sinkKeys := by
        rintro key rfl
        exact ⟨k, rfl⟩
      have heffect' := heffect.trans (heffect₂.mono hkeys)
      rw [hs₂, Option.map_some]
      refine ⟨_, rfl, ?_⟩
      split_ifs
      · refine ⟨{ heffect' with }, hinv₂.addSelfMessage happ ?_, hstreams₂⟩
        rw [AVBTrafficSinkApp.isFor, decide_eq_true_eq] at hfor
        rw [hfor.1, hfor.2, heffect₂.table.talker]
        exact hknown₁
      · exact ⟨heffect', hinv₂, hstreams₂⟩
    · rw [if_neg hfor]
      exact ⟨s₁, rfl, heffect, hinv₁, hstreams₁⟩
  · exact refreshed_of_same (fun _ _ => rfl) (fun _ _ _ => rfl) (.inl rfl)

/-- A table in which one talker is known, or known anew. -/
structure Known (vid : UInt16) (streamId : UInt64) (e : TalkerEntry SRPModule)
    (t t' : SRPTable SRPModule) : Prop where
  talker : ∀ v sid, t'.talker v sid =
    if v = vid ∧ sid = streamId then some e else t.talker v sid
  listener : ∀ v sid m, t'.listener v sid m = t.listener v sid m
  nextAging : t'.nextAging = t.nextAging

theorem Known.isSome {e : TalkerEntry SRPModule} {t t' : SRPTable SRPModule}
    (h : Known vid streamId e t t') (hm : (t.talker v sid).isSome) : (t'.talker v sid).isSome := by
  rw [h.talker]
  split_ifs
  · rfl
  · exact hm

theorem Known.self {e : TalkerEntry SRPModule} {t t' : SRPTable SRPModule}
    (h : Known vid streamId e t t') : t'.talker vid streamId = some e := by
  rw [h.talker, if_pos ⟨rfl, rfl⟩]

theorem exists_updateTalkerWithStreamId {t : SRPTable SRPModule} {e : TalkerEntry SRPModule}
    (htime : e.insertionTime = now) (hstatic : e.isStatic = false) (hframesize : e.framesize ≠ 0)
    (hintervalFrames : e.intervalFrames ≠ 0)
    (hold : ∀ old, t.talker vid streamId = some old → old.module = e.module) :
    ∃ t', t.updateTalkerWithStreamId now streamId e.module e.address e.srClass e.framesize
        e.intervalFrames vid e.pcp false = some ((t.talker vid streamId).isSome, t') ∧
      Known vid streamId e t t' := by
  have hsome : (t.updateTalkerWithStreamId now streamId e.module e.address e.srClass e.framesize
      e.intervalFrames vid e.pcp false).isSome :=
    isSome_updateTalker_iff.mpr ⟨fun _ => ⟨hframesize, hintervalFrames⟩, hold⟩
  obtain ⟨⟨updated, t'⟩, ht'⟩ := Option.isSome_iff_exists.mp hsome
  obtain ⟨framesize', intervalFrames', htalker, hcases, hcases'⟩ := talker_updateTalker ht'
  obtain ⟨hlisteners, hnext⟩ := updateTalker_listenerTables ht'
  have hupdated : updated = (t.talker vid streamId).isSome := by
    unfold updateTalkerWithStreamId at ht'
    unfold talker
    dsimp only at ht'
    split at ht'
    · rename_i hnone
      split_ifs at ht'
      cases ht'
      rw [hnone]
      rfl
    · rename_i old hfound
      split_ifs at ht'
      all_goals
        cases ht'
        rw [hfound]
        rfl
  have hfields : framesize' = e.framesize ∧ intervalFrames' = e.intervalFrames := by
    cases hfound : t.talker vid streamId with
    | none =>
      obtain ⟨-, -, hsize, hframes⟩ := hcases' hfound
      exact ⟨hsize, hframes⟩
    | some old =>
      obtain ⟨hsize, hframes⟩ := hcases old hfound
      rw [hsize, hframes, if_pos (UInt64.pos_iff_ne_zero.mpr hframesize),
        if_pos (UInt16.pos_iff_ne_zero.mpr hintervalFrames)]
      exact ⟨rfl, rfl⟩
  rw [hfields.1, hfields.2, ← htime, ← hstatic] at htalker
  refine ⟨t', hupdated ▸ ht', htalker, fun v sid m => ?_, hnext⟩
  unfold listener
  rw [hlisteners]

theorem Inv.setTalker (h : s.Inv c) {e : TalkerEntry SRPModule} {t : SRPTable SRPModule}
    (hknown : Known vid streamId e s.table t)
    (hsource : ∀ k, e.module = .source k → k ∈ s.started) :
    ({ s with table := t } : SRPNodeState).Inv c where
  known v sid m hm := hknown.isSome (h.known v sid m (hknown.listener v sid m ▸ hm))
  sink v sid k hm := h.sink v sid k (hknown.listener v sid _ ▸ hm)
  source v sid k := (hknown.listener v sid _).trans (h.source v sid k)
  selfMessages x hx := by
    obtain ⟨app, happ, htalker⟩ := h.selfMessages x hx
    exact ⟨app, happ, hknown.isSome htalker⟩
  started v sid e' k he' hmodule := by
    dsimp only at he'
    rw [hknown.talker] at he'
    split_ifs at he'
    · cases he'
      exact hsource k hmodule
    · exact h.started v sid e' k he' hmodule

theorem Streams.setTalker (h : s.Streams c) {e : TalkerEntry SRPModule} {t : SRPTable SRPModule}
    (hknown : Known vid streamId e s.table t) :
    ({ s with table := t } : SRPNodeState).Streams c :=
  h.congr hknown.listener rfl rfl

/-- A talker that a node gets to know, or knows already from the same module. -/
theorem exists_updateTalker {e : TalkerEntry SRPModule} (hinv : s.Inv c) (hstreams : s.Streams c)
    (htime : e.insertionTime = now) (hstatic : e.isStatic = false) (hframesize : e.framesize ≠ 0)
    (hintervalFrames : e.intervalFrames ≠ 0)
    (hold : ∀ old, s.table.talker vid streamId = some old → old.module = e.module)
    (hsource : ∀ k, e.module = .source k → k ∈ s.started) :
    ∃ s' t, s.updateTalker c now vid streamId e.module e.address e.srClass e.framesize
        e.intervalFrames e.pcp = some s' ∧ Known vid streamId e s.table t ∧
      Effect c now sinkKeys { s with table := t } s' ∧ s'.Inv c ∧ s'.Streams c ∧
      (s.table.talker vid streamId = none →
        ⟨.talkerAdvertise (c.protocol.advertisement vid streamId e), none, e.module.portIndex⟩ ∈
          s'.out) := by
  obtain ⟨t, ht, hknown⟩ :=
    exists_updateTalkerWithStreamId htime hstatic hframesize hintervalFrames hold
  have hinv₁ := hinv.setTalker hknown hsource
  have hstreams₁ := hstreams.setTalker hknown
  have hself := hknown.self
  unfold updateTalker
  rw [ht, Option.bind_some]
  dsimp only
  cases hfound : s.table.talker vid streamId with
  | some old =>
    rw [Option.isSome_some, if_pos rfl]
    refine ⟨_, t, rfl, hknown, ⟨?_, rfl, fun d hd => .inl hd, List.Subset.refl _⟩, hinv₁,
      hstreams₁, fun hnone => nomatch hnone⟩
    exact refreshed_of_same (fun _ _ => rfl) (fun _ _ _ => rfl) (.inl rfl)
  | none =>
    rw [Option.isSome_none, if_neg Bool.false_ne_true, hself, Option.bind_some]
    have hadvertised : (({ s with table := t } : SRPNodeState).advertise c vid streamId e).Inv c :=
      { hinv₁ with }
    have hsome : (t.talker vid streamId).isSome := Option.isSome_iff_exists.mpr ⟨e, hself⟩
    obtain ⟨s', hs', heffect, hinv', hstreams'⟩ :=
      exists_talkerRegistered hadvertised hstreams₁ hsome
    refine ⟨s', t, hs', hknown, ⟨heffect.table, heffect.started, fun d hd => ?_, ?_⟩, hinv',
      hstreams', fun _ => ?_⟩
    · rcases heffect.out d hd with hd | hok
      · rcases List.mem_append.mp hd with hd | hd
        · exact .inl hd
        · rw [List.mem_singleton.mp hd]
          exact .inr ⟨rfl, e, (heffect.table.talker vid streamId).trans hself, rfl, rfl⟩
      · exact .inr hok
    · exact List.Subset.trans (List.subset_append_left _ _) heffect.sent
    · exact heffect.sent (List.mem_append_right _ (List.mem_singleton_self _))

end SRPNodeState

end TsnReconfig.Avb
