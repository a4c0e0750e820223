import TsnReconfig.Avb.SRPNetwork

/-!
# Setting up streams

Every event that can come about is handled, the talkers get known everywhere, sources stream while
they have listeners, and no port is over-reserved.
-/

namespace TsnReconfig.Avb

open Lib OpenFlow SRPNodeState

/-- The size of a frame is not zero. -/
theorem TalkerEntry.Describes.framesize_ne {e : TalkerEntry SRPModule} {app : AVBTrafficSourceApp}
    (he : e.Describes app) : e.framesize ≠ 0 := by
  intro hzero
  have hpos := app.frameSize_pos
  have hlt := app.frameSize_lt
  have hsize := congrArg UInt64.toNat (he.framesize.symm.trans hzero)
  rw [UInt64.toNat_ofNat', Nat.mod_eq_of_lt (hlt.trans (by decide))] at hsize
  exact absurd hsize hpos.ne'

theorem TalkerEntry.Describes.bandwidth_eq {e e' : TalkerEntry SRPModule}
    {app : AVBTrafficSourceApp} {windows : ObservationWindows} (he : e.Describes app)
    (he' : e'.Describes app) : SRPTable.bandwidth windows e = SRPTable.bandwidth windows e' := by
  unfold SRPTable.bandwidth
  rw [he.framesize, he.intervalFrames, he.srClass, he'.framesize, he'.intervalFrames, he'.srClass]

namespace SRPNetwork
variable {V : Type*} {w : Wiring V} {c : V → SRPNode} {n n' : SRPNetwork V} {u v r : V}
  {vid : UInt16} {sid : UInt64} {e : TalkerEntry SRPModule} {app : AVBTrafficSourceApp}
  {f : LinkFrame V} {s' : SRPNodeState}

/-! ## Steps -/

theorem notMem_sinkKeys {i : ℕ} : (vid, sid, .phy i) ∉ sinkKeys := by
  rintro ⟨k, hk⟩
  cases hk

/-- The talker that a node has is that of the stream. -/
theorem Inv.describes_of_known (hn : n.Inv w c) (hc : Configured w c) {k : ℕ}
    {e : TalkerEntry SRPModule} (he : (n.node v).table.talker vid sid = some e)
    (hr : IsTalker c vid sid r k app) : e.Describes app := by
  obtain ⟨r', k', app', ⟨hr', -⟩, hdescribes, -⟩ := hn.talkers v vid sid e he
  obtain ⟨rfl, rfl⟩ := hc.unique _ _ _ _ _ _ _ _ hr hr'
  obtain rfl := Option.some.inj (hr.1.symm.trans hr'.1)
  exact hdescribes

/-- A talker is at one module of a node. -/
theorem Inv.module_unique (hn : n.Inv w c) (hc : Configured w c) {k : ℕ} {e : TalkerEntry SRPModule}
    (he : (n.node v).table.talker vid sid = some e) (hr : IsTalker c vid sid r k app) :
    k ∈ (n.node r).started ∧ (v = r ∧ e.module = .source k ∨
      ∃ u i, Closer w.graph r u v ∧ (w.ports v)[i]? = some u ∧ e.module = .phy i) := by
  obtain ⟨r', k', app', ⟨hr', hk'⟩, -, hplace⟩ := hn.talkers v vid sid e he
  obtain ⟨rfl, rfl⟩ := hc.unique _ _ _ _ _ _ _ _ hr hr'
  refine ⟨hk', hplace.imp_right ?_⟩
  rintro ⟨u, i, hcloser, hport, hmodule, -⟩
  exact ⟨u, i, hcloser, hport, hmodule⟩

section
variable [DecidableEq V]

/-- An event that leaves the talkers of the node as they are. -/
theorem Inv.exists_passed_same (hn : n.Inv w c) (hc : Configured w c) {frames : List (LinkFrame V)}
    {K : Set (UInt16 × UInt64 × SRPModule)} (hframes : ∀ f ∈ frames, f ∈ n.frames)
    (heffect : Effect (c v) n.now K (n.node v) s')
    (hK : ∀ vid sid i, (vid, sid, .phy i) ∈ K → ListenerOk w c v vid sid i ∧
      ∃ f ∈ n.frames, f.dst = v ∧ (w.ports v)[i]? = some f.src ∧ f.AsksFor vid sid)
    (hinv' : s'.Inv (c v)) (hstreams' : s'.Streams (c v))
    (hfits : (n.node v).Fits (c v) n.now → s'.Fits (c v) n.now)
    (hdelivered : ∀ f ∈ n.frames, f ∈ frames ∨ ∀ vid sid, ¬f.Advertises vid sid) :
    ∃ n', ({ n with frames := frames } : SRPNetwork V).settle w v s' = some n' ∧
      Passed w c n n' := by
  have hlater : Later n { n with
      node := Function.update n.node v (n.node v), frames := frames } :=
    later_setNode _ _ (fun _ _ hm => hm) (List.Subset.refl _)
  refine hn.exists_passed hc hframes hlater (hn.node v) (hn.streams v) (hn.out v)
    (fun vid sid e he => hlater.talkerOk (hn.talkers v vid sid e he)) (fun _ _ _ => rfl) heffect hK
    hinv' hstreams' (fun _ _ hm => .inl hm) (fun f hf => ?_) (fun _ _ _ _ _ _ _ hk => .inl hk) hfits
  exact (hdelivered f hf).imp_right fun hnot vid sid had => (hnot vid sid had).elim

theorem Inv.exists_query (hn : n.Inv w c) (hc : Configured w c) (v : V) :
    ∃ n', n.step w c (.query v) = some n' ∧ Passed w c n n' := by
  have heffect := effect_removeAged (K := sinkKeys) (c v) n.now (n.node v)
  exact hn.exists_passed_same hc (fun _ hf => hf) heffect (fun _ _ _ hm => (notMem_sinkKeys hm).elim)
    ((hn.node v).removeAged n.now) ((hn.streams v).removeAged n.now)
    (fun hfits => hfits.effect_sinks heffect) fun _ hf => .inl hf

theorem Inv.exists_selfMessage (hn : n.Inv w c) (hc : Configured w c) {i : ℕ} {x : ℕ × SimTime}
    (hi : (n.node v).selfMessages[i]? = some x) (hx : x.2 ≤ n.now) :
    ∃ n', n.step w c (.selfMessage v i) = some n' ∧ Passed w c n n' := by
  obtain ⟨s', hs', heffect, hinv', hstreams'⟩ :=
    exists_handleSelfMessage (hn.node v) (hn.streams v) hi hx
  obtain ⟨n', hn', hpassed⟩ := hn.exists_passed_same hc (fun _ hf => hf) heffect
    (fun _ _ _ hm => (notMem_sinkKeys hm).elim) hinv' hstreams'
    (fun hfits => hfits.effect_sinks heffect) fun _ hf => .inl hf
  exact ⟨n', by rw [step, hs', Option.bind_some]; exact hn', hpassed⟩

/-- What a node does with a source that starts or a talker that is advertised. -/
theorem Inv.exists_passed_talker (hn : n.Inv w c) (hc : Configured w c)
    {frames : List (LinkFrame V)} {s : SRPNodeState} {k : ℕ} (hframes : ∀ f ∈ frames, f ∈ n.frames)
    (htalker : IsTalker c vid sid r k app) (htime : e.insertionTime = n.now)
    (hdescribes : e.Describes app)
    (htable : s.table = (n.node v).table) (hout : s.out = []) (hinv : s.Inv (c v))
    (hstreams : s.Streams (c v)) (hsub : (n.node v).started ⊆ s.started)
    (hold : ∀ old, (n.node v).table.talker vid sid = some old → old.module = e.module)
    (hsource : ∀ k, e.module = .source k → k ∈ s.started)
    (hok : ∀ n₁ : SRPNetwork V, Later n n₁ → (n₁.node v).started = s.started →
      TalkerOk w c n₁ v vid sid e)
    (hdelivered : ∀ f ∈ n.frames, f ∈ frames ∨ f.dst = v ∧ ∀ vid' sid', f.Advertises vid' sid' →
      vid' = vid ∧ sid' = sid)
    (hnew : ∀ k ∈ s.started, k ∈ (n.node v).started ∨ ∀ vid' sid' app',
      IsTalker c vid' sid' v k app' → vid' = vid ∧ sid' = sid) :
    ∃ s' n', s.updateTalker (c v) n.now vid sid e.module e.address e.srClass e.framesize
        e.intervalFrames e.pcp = some s' ∧
      ({ n with frames := frames } : SRPNetwork V).settle w v s' = some n' ∧ Passed w c n n' := by
  have hinterval : e.intervalFrames ≠ 0 := hdescribes.intervalFrames ▸ app.intervalFrames_ne
  obtain ⟨s', t, hs', hknown, heffect, hinv', hstreams', hadvertised⟩ :=
    exists_updateTalker hinv hstreams htime hdescribes.isStatic hdescribes.framesize_ne hinterval
      (htable ▸ hold) hsource
  have hinv₁ := hinv.setTalker hknown hsource
  have hstreams₁ := hstreams.setTalker hknown
  rw [htable] at hknown hadvertised
  have hlater : Later n { n with node := Function.update n.node v { s with table := t }, frames } :=
    later_setNode _ frames (fun _ _ hm => hknown.isSome hm) hsub
  have htalkers : ∀ vid' sid' e', t.talker vid' sid' = some e' → TalkerOk w c
      { n with node := Function.update n.node v { s with table := t }, frames } v vid' sid' e' := by
    intro vid' sid' e' he'
    rw [hknown.talker] at he'
    split_ifs at he' with hkey
    · cases he'
      rw [hkey.1, hkey.2]
      refine hok _ hlater ?_
      dsimp only
      rw [Function.update_self]
    · exact hlater.talkerOk (hn.talkers v vid' sid' e' he')
  have hknows : ∀ vid' sid', (t.talker vid' sid').isSome → n.Knows vid' sid' v ∨
      ∃ d ∈ s'.out, ∃ m, d.message = .talkerAdvertise m ∧ m.vlanIdentifier = vid' ∧
        m.streamID = sid' := by
    intro vid' sid' hm
    cases hfound : (n.node v).table.talker vid' sid' with
    | some old => exact .inl (Option.isSome_iff_exists.mpr ⟨old, hfound⟩)
    | none =>
      rw [hknown.talker] at hm
      split_ifs at hm with hkey
      · obtain ⟨rfl, rfl⟩ := hkey
        exact .inr ⟨_, hadvertised hfound, _, rfl, rfl, rfl⟩
      · rw [hfound] at hm
        cases hm
  have hfits : (n.node v).Fits (c v) n.now → s'.Fits (c v) n.now := by
    intro hfits
    have hknown' : Known vid sid e s.table t := htable ▸ hknown
    have hfits₀ : s.Fits (c v) n.now := by
      unfold Fits at hfits ⊢
      rwa [htable]
    refine (hfits₀.setTalker hinv hknown' fun old hold => ?_).effect_sinks heffect
    rw [htable] at hold
    exact hdescribes.bandwidth_eq (hn.describes_of_known hc hold htalker)
  have hself : (t.talker vid sid).isSome := Option.isSome_iff_exists.mpr ⟨e, hknown.self⟩
  obtain ⟨n', hn', hpassed⟩ := hn.exists_passed hc hframes hlater hinv₁ hstreams₁ hout htalkers
    hknown.listener heffect (fun _ _ _ hm => (notMem_sinkKeys hm).elim) hinv' hstreams' hknows
    (fun f hf => (hdelivered f hf).imp_right fun hall vid' sid' had => by
      obtain ⟨rfl, rfl⟩ := hall.2 vid' sid' had
      exact ⟨hall.1, hself⟩)
    (fun vid' sid' r k app' htalker hr hk => (hnew k hk).imp_right fun hall => by
      subst hr
      obtain ⟨rfl, rfl⟩ := hall vid' sid' app' htalker
      exact hself) hfits
  exact ⟨s', n', hs', hn', hpassed⟩

/-- A source starts, whose stream nobody knows yet. -/
theorem Inv.exists_start (hn : n.Inv w c) (hc : Configured w c) {k : ℕ}
    (hk : k < (c v).sources.length) (hnot : k ∉ (n.node v).started) :
    ∃ n', n.step w c (.start v k) = some n' ∧ Passed w c n n' := by
  let app := (c v).sources[k]
  have happ : (c v).sources[k]? = some app := List.getElem?_eq_getElem hk
  have htalker : IsTalker c app.vlanId app.streamID v k app := ⟨happ, rfl, rfl⟩
  have hunknown : (n.node v).table.talker app.vlanId app.streamID = none := by
    by_contra hne
    obtain ⟨old, hold⟩ := Option.ne_none_iff_exists'.mp hne
    exact hnot (hn.module_unique hc hold htalker).1
  have hnone : ∀ m, (n.node v).table.listener app.vlanId app.streamID m = none := by
    intro m
    by_contra hne
    have hsome := (hn.node v).known _ _ m (Option.isSome_iff_ne_none.mpr hne)
    rw [hunknown] at hsome
    cases hsome
  let s : SRPNodeState := { n.node v with started := k :: (n.node v).started }
  have hinv : s.Inv (c v) := by
    refine { hn.node v with started := fun vid' sid' e' k' he' hmodule => ?_ }
    exact List.mem_cons_of_mem k ((hn.node v).started vid' sid' e' k' he' hmodule)
  have hstreams : s.Streams (c v) := by
    intro k' app' happ'
    refine (hn.streams v k' app' happ').trans (and_congr_left ?_)
    rintro ⟨m, hm⟩
    refine (List.mem_cons.trans (or_iff_right fun heq => ?_)).symm
    subst heq
    obtain rfl : app = app' := Option.some.inj (happ.symm.trans happ')
    rw [hnone m] at hm
    cases hm
  let e : TalkerEntry SRPModule := ⟨app.srClass, app.multicastMAC, .source k, .ofNat app.frameSize,
    app.intervalFrames, app.pcp, n.now, false⟩
  have hdescribes : e.Describes app := ⟨rfl, rfl, rfl, rfl, rfl⟩
  have hnew : ∀ k' ∈ s.started, k' ∈ (n.node v).started ∨ ∀ vid' sid' app',
      IsTalker c vid' sid' v k' app' → vid' = app.vlanId ∧ sid' = app.streamID := by
    intro k' hk'
    refine (List.mem_cons.mp hk').symm.imp_right ?_
    rintro rfl vid' sid' app' ⟨happ', rfl, rfl⟩
    obtain rfl : app = app' := Option.some.inj (happ.symm.trans happ')
    exact ⟨rfl, rfl⟩
  have hmem : k ∈ s.started := List.mem_cons_self
  obtain ⟨s', n', hs', hn', hpassed⟩ := hn.exists_passed_talker hc (s := s) (fun _ hf => hf)
    htalker rfl hdescribes rfl (hn.out v) hinv hstreams (List.subset_cons_self _ _)
    (fun old hold => nomatch hunknown.symm.trans hold) (fun k' hk' => by cases hk'; exact hmem)
    (fun n₁ hlater hstarted => ⟨v, k, app, ⟨htalker, hstarted ▸ hmem⟩, hdescribes, .inl ⟨rfl, rfl⟩⟩)
    (fun _ hf => .inl hf) hnew
  refine ⟨n', ?_, hpassed⟩
  rw [step, SRPNodeState.start, if_neg hnot, happ, Option.bind_some]
  exact Option.bind_eq_some_iff.mpr ⟨s', hs', hn'⟩

/-- An advertisement comes from the way to the talker. -/
theorem Inv.exists_advertised (hn : n.Inv w c) (hc : Configured w c) {k : ℕ} {m : TalkerAdvertise}
    (hk : n.frames[k]? = some f) (hm : f.message = .talkerAdvertise m) :
    ∃ n', n.step w c (.deliver k) = some n' ∧ Passed w c n n' := by
  obtain ⟨hadj, -, hmessage⟩ := hn.frames f (List.mem_of_getElem? hk)
  rw [hm] at hmessage
  obtain ⟨r, k', app, e, hs, hdescribes, hadvertisement, hcloser, hknows⟩ := hmessage
  let i := (w.ports f.dst).idxOf f.src
  have hport : (w.ports f.dst)[i]? = some f.src :=
    List.getElem?_idxOf (hc.tree.mem_ports.mpr hadj.symm)
  let e' : TalkerEntry SRPModule := {
    srClass := (c f.dst).protocol.srClassOf m.priorityAndRank
    address := m.destinationAddress
    module := .phy i
    framesize := .ofNat m.maxFrameSize.toNat
    intervalFrames := m.maxIntervalFrames
    pcp := (m.priorityAndRank &&& 0xE0) >>> 5
    insertionTime := n.now
    isStatic := false }
  have hdescribes' : e'.Describes app := by
    have hreceived := @Configured.describes V w c m.vlanIdentifier m.streamID e app hc hdescribes
      f.src f.dst i n.now
    rwa [← hadvertisement] at hreceived
  have hold : ∀ old, (n.node f.dst).table.talker m.vlanIdentifier m.streamID = some old →
      old.module = e'.module := by
    intro old hold
    rcases (hn.module_unique hc hold hs.1).2 with ⟨hr, -⟩ | ⟨u, j, hcloser', hj, hmodule⟩
    · exact (hcloser.ne_root hr).elim
    · obtain rfl := hcloser'.unique hc.tree.isTree hcloser
      rw [hmodule, hc.tree.port_unique hj hport]
  have hok : ∀ n₁ : SRPNetwork V, Later n n₁ →
      (n₁.node f.dst).started = (n.node f.dst).started →
      TalkerOk w c n₁ f.dst m.vlanIdentifier m.streamID e' := fun n₁ hlater _ =>
    ⟨r, k', app, hlater.startedTalker hs, hdescribes', .inr ⟨f.src, i, hcloser, hport, rfl,
      hlater.knows _ _ _ hknows⟩⟩
  have hdelivered : ∀ f' ∈ n.frames, f' ∈ n.frames.eraseIdx k ∨ f'.dst = f.dst ∧ ∀ vid sid,
      f'.Advertises vid sid → vid = m.vlanIdentifier ∧ sid = m.streamID := by
    intro f' hf'
    refine (eq_or_mem_eraseIdx hk hf').symm.imp_right ?_
    rintro rfl
    refine ⟨rfl, ?_⟩
    rintro vid sid ⟨m', hm', rfl, rfl⟩
    rw [hm] at hm'
    cases hm'
    exact ⟨rfl, rfl⟩
  obtain ⟨s', n', hs', hn', hpassed⟩ := hn.exists_passed_talker hc
    (fun _ hf => List.mem_of_mem_eraseIdx hf) hs.1 rfl hdescribes' rfl (hn.out f.dst) (hn.node f.dst)
    (hn.streams f.dst) (List.Subset.refl _) hold (fun _ hk' => nomatch hk') hok hdelivered
    fun _ hk' => .inl hk'
  refine ⟨n', ?_, hpassed⟩
  rw [step, hk, Option.bind_some, receive, hm]
  exact Option.bind_eq_some_iff.mpr ⟨s', hs', hn'⟩

/-- A message that is no advertisement leaves the talkers as they are. -/
theorem Inv.exists_delivered (hn : n.Inv w c) (hc : Configured w c) {k : ℕ}
    {K : Set (UInt16 × UInt64 × SRPModule)} (hk : n.frames[k]? = some f)
    (hs' : n.receive w c f = some s') (hnot : ∀ vid sid, ¬f.Advertises vid sid)
    (heffect : Effect (c f.dst) n.now K (n.node f.dst) s') (hinv' : s'.Inv (c f.dst))
    (hstreams' : s'.Streams (c f.dst))
    (hfits : (n.node f.dst).Fits (c f.dst) n.now → s'.Fits (c f.dst) n.now)
    (hK : ∀ vid sid i, (vid, sid, .phy i) ∈ K → ListenerOk w c f.dst vid sid i ∧
      ∃ f' ∈ n.frames, f'.dst = f.dst ∧ (w.ports f.dst)[i]? = some f'.src ∧ f'.AsksFor vid sid) :
    ∃ n', n.step w c (.deliver k) = some n' ∧ Passed w c n n' := by
  obtain ⟨n', hn', hpassed⟩ := hn.exists_passed_same hc (fun _ hf => List.mem_of_mem_eraseIdx hf)
    heffect hK hinv' hstreams' hfits fun f' hf' =>
      (eq_or_mem_eraseIdx hk hf').symm.imp_right fun (heq : f' = f) => heq ▸ hnot
  refine ⟨n', ?_, hpassed⟩
  rw [step, hk, Option.bind_some]
  exact Option.bind_eq_some_iff.mpr ⟨s', hs', hn'⟩

/-- A listener comes from behind the node, which knows the talker. -/
theorem Inv.exists_ready (hn : n.Inv w c) (hc : Configured w c) {k : ℕ} {m : ListenerReady}
    (hk : n.frames[k]? = some f)
    (hm : f.message = .listenerReady m ∨ f.message = .listenerReadyFailed m) :
    ∃ n', n.step w c (.deliver k) = some n' ∧ Passed w c n n' := by
  have hf := List.mem_of_getElem? hk
  obtain ⟨hadj, -, hmessage⟩ := hn.frames f hf
  have hport : (w.ports f.dst)[(w.ports f.dst).idxOf f.src]? = some f.src :=
    List.getElem?_idxOf (hc.tree.mem_ports.mpr hadj.symm)
  have hto : n.Knows m.vlanIdentifier m.streamID f.dst ∧ ∃ r k app,
      IsTalker c m.vlanIdentifier m.streamID r k app ∧ Closer w.graph r f.dst f.src := by
    rcases hm with hm | hm
    · rwa [hm] at hmessage
    · rwa [hm] at hmessage
  obtain ⟨hknows, r, k', app, htalker, hcloser⟩ := hto
  obtain ⟨s', hs', heffect, hinv', hstreams', hfits⟩ := exists_handleListenerReady n.now
    ((w.ports f.dst).idxOf f.src) hm (hn.node f.dst) (hn.streams f.dst) hknows
  refine hn.exists_delivered hc hk hs' ?_ heffect hinv' hstreams' hfits ?_
  · rintro vid sid ⟨m', hm', -⟩
    rcases hm with hm | hm
    · rw [hm] at hm'
      cases hm'
    · rw [hm] at hm'
      cases hm'
  · intro vid sid i hkey
    cases hkey
    exact ⟨⟨f.src, r, k', app, hport, htalker, hcloser⟩, f, hf, rfl, hport, hm⟩

theorem Inv.exists_deliver (hn : n.Inv w c) (hc : Configured w c) {k : ℕ}
    (hk : n.frames[k]? = some f) :
    ∃ n', n.step w c (.deliver k) = some n' ∧ Passed w c n n' := by
  cases hm : f.message with
  | talkerAdvertise m => exact hn.exists_advertised hc hk hm
  | listenerReady m => exact hn.exists_ready hc hk (.inl hm)
  | listenerReadyFailed m => exact hn.exists_ready hc hk (.inr hm)
  | listenerAskingFailed m =>
    have hasking : ∃ s', n.receive w c f = some s' ∧
        (∀ {K}, Effect (c f.dst) n.now K (n.node f.dst) s') ∧ s'.Inv (c f.dst) ∧
        s'.Streams (c f.dst) := by
      rw [receive, hm]
      exact effect_handleAskingFailed (hn.node f.dst) (hn.streams f.dst)
    obtain ⟨s', hs', heffect, hinv', hstreams'⟩ := hasking
    refine hn.exists_delivered hc hk hs' ?_ heffect hinv' hstreams'
      (fun hfits => hfits.effect_sinks heffect) fun _ _ _ hkey => (notMem_sinkKeys hkey).elim
    rintro vid sid ⟨m', hm', -⟩
    rw [hm] at hm'
    cases hm'

/-- Every possible event is handled. -/
theorem Inv.exists_step (hn : n.Inv w c) (hc : Configured w c) {event : SRPEvent V}
    (h : n.Possible c event) : ∃ n', n.step w c event = some n' ∧
      (Passed w c n n' ∨ ∃ time, n.now ≤ time ∧ n' = { n with now := time }) := by
  cases event with
  | advance time => exact ⟨_, if_pos h, .inr ⟨time, h, rfl⟩⟩
  | start v k =>
    obtain ⟨n', hn', hpassed⟩ := hn.exists_start hc h.1 h.2
    exact ⟨n', hn', .inl hpassed⟩
  | deliver k =>
    obtain ⟨n', hn', hpassed⟩ := hn.exists_deliver hc (List.getElem?_eq_getElem h)
    exact ⟨n', hn', .inl hpassed⟩
  | selfMessage v i =>
    obtain ⟨x, hi, hx⟩ := h
    obtain ⟨n', hn', hpassed⟩ := hn.exists_selfMessage hc hi hx
    exact ⟨n', hn', .inl hpassed⟩
  | query v =>
    obtain ⟨n', hn', hpassed⟩ := hn.exists_query hc v
    exact ⟨n', hn', .inl hpassed⟩

theorem possible_of_step {event : SRPEvent V} (h : n.step w c event = some n') :
    n.Possible c event := by
  cases event with
  | advance time =>
    exact (Option.ite_none_right_eq_some.mp h).1
  | start v k =>
    obtain ⟨s', hs', -⟩ := Option.bind_eq_some_iff.mp h
    unfold SRPNodeState.start at hs'
    split_ifs at hs' with hk
    obtain ⟨app, happ, -⟩ := Option.bind_eq_some_iff.mp hs'
    exact ⟨(List.getElem?_eq_some_iff.mp happ).1, hk⟩
  | deliver k =>
    obtain ⟨f, hf, -⟩ := Option.bind_eq_some_iff.mp h
    exact (List.getElem?_eq_some_iff.mp hf).1
  | selfMessage v i =>
    obtain ⟨s', hs', -⟩ := Option.bind_eq_some_iff.mp h
    obtain ⟨x, hx, -⟩ := Option.bind_eq_some_iff.mp hs'
    obtain ⟨hi, hdue⟩ := Option.filter_eq_some_iff.mp hx
    exact ⟨x, hi, of_decide_eq_true hdue⟩
  | query v => trivial

end

/-! ## Runs -/

/-- A source that has started is known at its node, and behind a node that knows a talker the next
one knows it or an advertisement is on its way. -/
structure Spread (w : Wiring V) (c : V → SRPNode) (n : SRPNetwork V) : Prop where
  started : ∀ vid sid r k app, Started c n vid sid r k app → n.Knows vid sid r
  behind : ∀ vid sid r k app v x, IsTalker c vid sid r k app → n.Knows vid sid v →
    Closer w.graph r v x → n.Knows vid sid x ∨
      ∃ f ∈ n.frames, f.src = v ∧ f.dst = x ∧ f.Advertises vid sid

theorem Spread.passed (hn : Spread w c n) (h : Passed w c n n') : Spread w c n' where
  started vid sid r k app hs := by
    rcases h.started vid sid r k app hs with hold | hknows
    · exact h.later.knows _ _ _ (hn.started vid sid r k app hold)
    · exact hknows
  behind vid sid r k app v x hr hv hx := by
    rcases h.known vid sid v hv with hold | hnew
    · rcases hn.behind vid sid r k app v x hr hold hx with hknows | ⟨f, hf, hsrc, hdst, had⟩
      · exact .inl (h.later.knows _ _ _ hknows)
      · rcases h.delivered f hf with hf | hknows
        · exact .inr ⟨f, hf, hsrc, hdst, had⟩
        · exact .inl (hdst ▸ hknows vid sid had)
    · exact .inr (hnew r k app x hr hx)

theorem Inv.advance (hn : n.Inv w c) {time : SimTime} (hle : n.now ≤ time) :
    Inv w c { n with now := time } := by
  have hlater : Later n { n with now := time } :=
    ⟨hle, fun _ _ _ h => h, fun _ => List.Subset.refl _⟩
  exact { hn with
    talkers := fun v vid sid e he => hlater.talkerOk (hn.talkers v vid sid e he)
    frames := fun f hf => hlater.frameOk (hn.frames f hf) }

theorem inv_init : Inv w c ({} : SRPNetwork V) where
  node _ := {
    known := fun _ _ _ h => nomatch h
    sink := fun _ _ _ h => nomatch h
    source := fun _ _ _ => rfl
    selfMessages := fun _ h => nomatch h
    started := fun _ _ _ _ h => nomatch h }
  streams _ _ _ _ := ⟨fun h => (nomatch h), fun h => nomatch h.1⟩
  out _ := rfl
  talkers _ _ _ _ h := nomatch h
  listeners _ _ _ _ h := nomatch h
  frames _ h := nomatch h

section
variable [DecidableEq V]

theorem Inv.step_cases (hn : n.Inv w c) (hc : Configured w c) {event : SRPEvent V}
    (h : n.step w c event = some n') :
    Passed w c n n' ∨ ∃ time, n.now ≤ time ∧ n' = { n with now := time } := by
  obtain ⟨n₁, hn₁, hcases⟩ := hn.exists_step hc (possible_of_step h)
  obtain rfl : n₁ = n' := Option.some.inj (hn₁.symm.trans h)
  exact hcases

theorem inv_of_reachable (hc : Configured w c) (h : (system w c).Reachable n) :
    n.Inv w c ∧ Spread w c n := by
  refine h.invariant (P := fun n => n.Inv w c ∧ Spread w c n) (fun n hinit => ?_)
    fun n event n' hP hstep => ?_
  · obtain rfl : n = {} := hinit
    exact ⟨inv_init, fun _ _ _ _ _ hs => (nomatch hs.2), fun _ _ _ _ _ _ _ _ hv => nomatch hv⟩
  · rcases hP.1.step_cases hc hstep with hpassed | ⟨time, hle, rfl⟩
    · exact ⟨hpassed.inv, hP.2.passed hpassed⟩
    · exact ⟨hP.1.advance hle, { hP.2 with }⟩

/-- In an empty table nothing is reserved. -/
theorem fits_init {c : SRPNode} {now : SimTime}
    (hconfig : ∀ i, (c.protocol.higherPriorityBandwidth (.phy i) : ℚ) ≤
      c.protocol.reservable (.phy i)) : ({} : SRPNodeState).Fits c now := by
  intro i
  have hzero : (({} : SRPTable SRPModule).removeAgedEntriesIfNeeded
      c.protocol.agingTime now).utilized c.protocol.windows (.phy i) = 0 := rfl
  dsimp only
  rw [hzero, Nat.zero_add]
  exact hconfig i

theorem fits_of_reachable (hc : Configured w c)
    (hconfig : ∀ v i, ((c v).protocol.higherPriorityBandwidth (.phy i) : ℚ) ≤
      (c v).protocol.reservable (.phy i)) (h : (system w c).Reachable n) :
    ∀ v, (n.node v).Fits (c v) n.now := by
  have hfits : n.Inv w c ∧ ∀ v, (n.node v).Fits (c v) n.now := by
    refine h.invariant (P := fun n => n.Inv w c ∧ ∀ v, (n.node v).Fits (c v) n.now)
      (fun n hinit => ?_) fun n event n' hP hstep => ?_
    · obtain rfl : n = {} := hinit
      exact ⟨inv_init, fun v => fits_init (hconfig v)⟩
    · rcases hP.1.step_cases hc hstep with hpassed | ⟨time, hle, rfl⟩
      · exact ⟨hpassed.inv, fun v => hpassed.now ▸ hpassed.fits v (hP.2 v)⟩
      · exact ⟨hP.1.advance hle, fun v => (hP.2 v).advance hle⟩
  exact hfits.2

/-! ## A line of nodes -/

/-- A talker and a listener with two switches between them. -/
inductive LineNode
  | talker
  | left
  | right
  | listener
  deriving DecidableEq

instance : Fintype LineNode where
  elems := {.talker, .left, .right, .listener}
  complete v := by cases v <;> decide

def lineWiring : Wiring LineNode where
  ports
    | .talker => [.left]
    | .left => [.talker, .right]
    | .right => [.left, .listener]
    | .listener => [.right]
  isSwitch v := v = .left ∨ v = .right

def lineRank : LineNode → ℕ
  | .talker => 0
  | .left => 1
  | .right => 2
  | .listener => 3

def lineParent : LineNode → LineNode
  | .talker | .left => .talker
  | .right => .left
  | .listener => .right

theorem treeNetwork_lineWiring : lineWiring.TreeNetwork where
  symm := by decide
  irrefl := by decide
  nodup := by decide
  station := by decide
  isTree := by
    have hrank : ∀ v, v ≠ .talker → lineRank (lineParent v) < lineRank v := by decide
    refine isTree_of_parent hrank fun u v => ?_
    rw [Wiring.graph, SimpleGraph.fromRel_adj]
    revert u v
    decide

/-- Stream 1 in VLAN 2, with 300 bytes in each frame. -/
def lineSource : AVBTrafficSourceApp where
  payload := 300
  streamID := 1
  srClass := .A
  intervalFrames := 1
  vlanId := 2
  pcp := 6
  multicastMAC := 5
  payload_le := by decide
  intervalFrames_ne := by decide

def lineNode (v : LineNode) : SRPNode where
  protocol := { nominalDatarate := fun _ => 100000000, portIndex := SRPModule.portIndex }
  sources := if v = .talker then [lineSource] else []
  sinks := if v = .listener then [{ streamID := 1, vlanId := 2 }] else []
  portIndex_eq := rfl
  agingTime_nonneg := by decide

theorem isTalker_lineNode : IsTalker lineNode 2 1 .talker 0 lineSource := ⟨rfl, rfl, rfl⟩

theorem configured_line : Configured lineWiring lineNode where
  tree := treeNetwork_lineWiring
  unique vid sid u v k k' app app' hu hv := by
    have honly : ∀ u k app, IsTalker lineNode vid sid u k app → u = .talker ∧ k = 0 := by
      rintro u k app ⟨happ, -, -⟩
      cases u with
      | talker => exact ⟨rfl, Nat.lt_one_iff.mp (List.getElem?_eq_some_iff.mp happ).1⟩
      | left => cases happ
      | right => cases happ
      | listener => cases happ
    obtain ⟨rfl, rfl⟩ := honly u k app hu
    obtain ⟨rfl, rfl⟩ := honly v k' app' hv
    exact ⟨rfl, rfl⟩
  pcpSRClassA _ _ := rfl
  pcpSRClassB _ _ := rfl
  pcp_lt _ := by
    change (6 : UInt8) < 8 ∧ (5 : UInt8) < 8
    decide
  pcp_ne _ := by
    change (6 : UInt8) ≠ 5
    decide

/-- The stream is advertised to the listener, whose answer comes back. -/
def lineEvents : List (SRPEvent LineNode) := .start .talker 0 :: List.replicate 6 (.deliver 0)

theorem exists_reachable_line : ∃ n, (system lineWiring lineNode).Reachable n ∧ n.frames = [] ∧
    0 ∈ (n.node .talker).started ∧ (n.node .talker).isStreaming 0 = true ∧
    ((n.node .left).table.listener 2 1 (.phy 1)).isSome = true := by
  have hrun : ((system lineWiring lineNode).runFrom {} lineEvents).any (fun n =>
      n.frames = [] ∧ 0 ∈ (n.node .talker).started ∧ (n.node .talker).isStreaming 0 = true ∧
        ((n.node .left).table.listener 2 1 (.phy 1)).isSome = true) = true := by
    decide +kernel
  obtain ⟨n, hn, h⟩ := (Option.any_eq_true _ _).mp hrun
  have hinit : (system lineWiring lineNode).init {} := rfl
  exact ⟨n, System.reachable_of_runFrom hinit hn, of_decide_eq_true h⟩

/-! ## Results -/

/-- No node throws: an event is handled if it can come about. -/
theorem handled_iff_possible (hc : Configured w c) (h : (system w c).Reachable n)
    (event : SRPEvent V) :
    (∃ n', (system w c).step n event = some n') ↔ n.Possible c event := by
  constructor
  · rintro ⟨n', hn'⟩
    exact possible_of_step hn'
  · intro hpossible
    obtain ⟨n', hn', -⟩ := (inv_of_reachable hc h).1.exists_step hc hpossible
    exact ⟨n', hn'⟩

theorem handled_iff_possible_line : ∃ n : SRPNetwork LineNode, 0 ∈ (n.node .talker).started ∧
    ∃ n', (system lineWiring lineNode).step n (.query .left) = some n' := by
  obtain ⟨n, hn, -, hstarted, -⟩ := exists_reachable_line
  exact ⟨n, hstarted, (handled_iff_possible configured_line hn _).mpr trivial⟩

/-- A talker is right wherever it is known: it has the data of its source and is at the port on the
way to it. When no advertisement of its stream is left, a source that has started is known
everywhere. -/
theorem talkers_known (hc : Configured w c) (h : (system w c).Reachable n) {k : ℕ}
    (hr : IsTalker c vid sid r k app) :
    (∀ v e, (n.node v).table.talker vid sid = some e → k ∈ (n.node r).started ∧ e.Describes app ∧
      (v = r ∧ e.module = .source k ∨
        ∃ u i, Closer w.graph r u v ∧ (w.ports v)[i]? = some u ∧ e.module = .phy i)) ∧
    (k ∈ (n.node r).started → (∀ f ∈ n.frames, ¬f.Advertises vid sid) →
      ∀ v, n.Knows vid sid v) := by
  obtain ⟨hinv, hspread⟩ := inv_of_reachable hc h
  refine ⟨fun v e he => ?_, fun hk hnone v => ?_⟩
  · obtain ⟨hk, hplace⟩ := hinv.module_unique hc he hr
    exact ⟨hk, hinv.describes_of_known hc he hr, hplace⟩
  · -- from the source outwards
    induction hd : w.graph.dist r v using Nat.strong_induction_on generalizing v with
    | _ d ih =>
      by_cases hv : v = r
      · exact hv ▸ hspread.started vid sid r k app ⟨hr, hk⟩
      · obtain ⟨u, hu⟩ := exists_closer hc.tree.isTree hv
        have hlt : w.graph.dist r u < d := by
          have hdist := hu.2
          omega
        have hknows := ih _ hlt u rfl
        rcases hspread.behind vid sid r k app u v hr hknows hu with hv | ⟨f, hf, -, -, had⟩
        · exact hv
        · exact (hnone f hf had).elim

theorem talkers_known_line : ∃ n : SRPNetwork LineNode, (n.node .talker).isStreaming 0 = true ∧
    ∀ v, n.Knows 2 1 v := by
  obtain ⟨n, hn, hframes, hstarted, hstreaming, -⟩ := exists_reachable_line
  refine ⟨n, hstreaming, (talkers_known configured_line hn isTalker_lineNode).2 hstarted ?_⟩
  rw [hframes]
  exact fun f hf => nomatch hf

/-- A source streams exactly while its node has a listener. A listener is at a port that leads away
from the source, or a sink for the stream. -/
theorem streams_iff_listener (hc : Configured w c) (h : (system w c).Reachable n) {k : ℕ}
    (hr : IsTalker c vid sid r k app) :
    ((n.node r).isStreaming k = true ↔ ∃ m, ((n.node r).table.listener vid sid m).isSome) ∧
    ∀ v m, ((n.node v).table.listener vid sid m).isSome →
      (∃ i u, m = .phy i ∧ (w.ports v)[i]? = some u ∧ Closer w.graph r v u) ∨
      ∃ j sink, m = .sink j ∧ (c v).sinks[j]? = some sink ∧ sink.isFor vid sid = true := by
  obtain ⟨hinv, -⟩ := inv_of_reachable hc h
  obtain ⟨happ, rfl, rfl⟩ := hr
  have hr : IsTalker c app.vlanId app.streamID r k app := ⟨happ, rfl, rfl⟩
  refine ⟨(hinv.streams r k app happ).trans (and_iff_right_of_imp ?_), fun v m hm => ?_⟩
  · rintro ⟨m, hm⟩
    obtain ⟨e, he⟩ := Option.isSome_iff_exists.mp ((hinv.node r).known _ _ m hm)
    exact (hinv.module_unique hc he hr).1
  · cases m with
    | phy i =>
      obtain ⟨u, r', k', app', hu, hr', hcloser⟩ := hinv.listeners v _ _ i hm
      obtain ⟨rfl, rfl⟩ := hc.unique _ _ _ _ _ _ _ _ hr hr'
      exact .inl ⟨i, u, rfl, hu, hcloser⟩
    | source j =>
      rw [(hinv.node v).source] at hm
      cases hm
    | sink j =>
      obtain ⟨sink, hsink, hfor⟩ := (hinv.node v).sink _ _ j hm
      exact .inr ⟨j, sink, rfl, hsink, hfor⟩

theorem streams_iff_listener_line : ∃ n : SRPNetwork LineNode, n.frames = [] ∧
    ∃ m, ((n.node .talker).table.listener 2 1 m).isSome := by
  obtain ⟨n, hn, hframes, -, hstreaming, -⟩ := exists_reachable_line
  exact ⟨n, hframes, (streams_iff_listener configured_line hn isTalker_lineNode).1.mp hstreaming⟩

/-- No port of any node is over-reserved. -/
theorem ports_not_overReserved (hc : Configured w c)
    (hconfig : ∀ v i, ((c v).protocol.higherPriorityBandwidth (.phy i) : ℚ) ≤
      (c v).protocol.reservable (.phy i)) (h : (system w c).Reachable n) (v : V) (i : ℕ) :
    ∃ b t, (n.node v).table.getBandwidthForModule (c v).protocol.windows
        (c v).protocol.agingTime n.now (.phy i) = some (b, t) ∧
      ((b + (c v).protocol.higherPriorityBandwidth (.phy i) : ℕ) : ℚ) ≤
        (c v).protocol.reservable (.phy i) := by
  obtain ⟨hinv, -⟩ := inv_of_reachable hc h
  have hfits := fits_of_reachable hc hconfig h v i
  exact ⟨_, _, SRProtocol.getBandwidthForModule_eq (hinv.node v).known _, hfits⟩

theorem ports_not_overReserved_line : ∃ n : SRPNetwork LineNode,
    ((n.node .left).table.listener 2 1 (.phy 1)).isSome = true ∧
    ∃ b t, (n.node .left).table.getBandwidthForModule {} 7 n.now (.phy 1) = some (b, t) ∧
      ((b + 0 : ℕ) : ℚ) ≤ ((100000000 : ℕ) : ℚ) * (3 / 4) := by
  obtain ⟨n, hn, -, -, -, hlistener⟩ := exists_reachable_line
  have hconfig : ∀ v i, ((lineNode v).protocol.higherPriorityBandwidth (.phy i) : ℚ) ≤
      (lineNode v).protocol.reservable (.phy i) := by
    intro v i
    change ((0 : ℕ) : ℚ) ≤ ((100000000 : ℕ) : ℚ) * (3 / 4)
    norm_num
  exact ⟨n, hlistener, ports_not_overReserved configured_line hconfig hn .left 1⟩

end

end SRPNetwork

end TsnReconfig.Avb
