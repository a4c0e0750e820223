import TsnReconfig.Network.Activation

/-!
# The ListenerReady arrives first

`configureDataPlane` sends the `ListenerReady` of a new stream right behind its flow rules.
The activation of the version follows later on the same channel, so the relay does not have
the version of the stream when it hands the `ListenerReady` to the talker.
-/

namespace TsnReconfig.Network
open OpenFlow Switch Controller Lib

variable {c : ControllerTables} {s : NetworkState}

/-- The relay at `k` tags the stream with the version of its installed path, and every switch
on that path holds its rule. -/
def NetworkState.ReadyWhenInstalled (c : ControllerTables) (s : NetworkState) (k : ℕ)
    (sid : UInt64) : Prop :=
  ∃ i, latestInstall sid s.history = some i ∧
    (s.switches k).streamActiveMatchVersionMap[sid]? = some i.matchVersion ∧
    ∀ j ∈ i.path, ∃ r, RuleFor c i.dstHost i.srcHost i.dlVlan i.matchVersion j r ∧
      r ∈ i.rules ∧ (s.switches j).table.Holds r.flowMod

/-- The numbers a call gives to the installations for these streams. -/
def versionNumbers (v : VersionTables) : List UInt64 → List UInt16
  | [] => []
  | sid :: sids => v.matchVersion :: versionNumbers (v.addMatchVersiontoStream sid) sids

/-- The condition on an event in a state: no installation of a call has the number zero or
one that is in use for its stream already, and an admitted request gets a path. -/
def RequestOk (s : NetworkState) : NetworkEvent → Prop
  | .configureDataPlane _ demandid sid newAssignments =>
    let sids := (callTargets s.engine demandid sid newAssignments).map Prod.fst
    (∀ p ∈ sids.zip (versionNumbers s.engine.versions sids), p.2 ≠ 0 ∧ ¬ s.Active p.1 p.2) ∧
      (demandid ≠ -1 → sid ∈ sids)
  | _ => True

/-- The relays that still have to hand out a `ListenerReady` do not have the version of the
stream, nor will they before they do. -/
structure Awaiting (s : NetworkState) : Prop where
  nonzero : ∀ i, .installed i ∈ s.history → i.matchVersion ≠ 0
  ready : ∀ k sid vlan pre post,
    s.toSwitch k = pre ++ .vendor (.listenerReady sid vlan) :: post →
    ∀ i, latestInstall sid s.history = some i →
      (s.switches k).streamActiveMatchVersionMap[sid]? ≠ some i.matchVersion ∧
        .packetOut (.activationMessage i.matchVersion sid) ∉ pre

/-! ## The versions of a call -/

section Numbers
variable (v : VersionTables) (waiting : Std.TreeMap UInt16 (List ℕ))
  (ingress : Std.TreeMap UInt16 Int)

theorem versionNumbers_with (sids : List UInt64) :
    versionNumbers { v with ackWaitingPaths := waiting, ingressSwTable := ingress } sids =
      versionNumbers v sids := by
  induction sids generalizing v with
  | nil => rfl
  | cons sid sids ih =>
    rw [versionNumbers, addMatchVersiontoStream_with, ih]
    rfl

end Numbers

/-- The installations of a call carry these numbers. -/
theorem matchVersion_of_chain {v v' : VersionTables} {is : List Install}
    (hc : InstallChain c v is v') :
    is.map Install.matchVersion = versionNumbers v (is.map Install.streamId) := by
  induction hc with
  | nil => rfl
  | @cons v v₁ v₂ i is hi _ ih =>
    obtain ⟨_, node, -, -, rfl⟩ := hi.tables
    rw [List.map_cons, List.map_cons, versionNumbers, hi.matchVersion, ih, install_eq_with,
      versionNumbers_with]

theorem latestInstall_append {sid : UInt64} {is : List Install} {history : List Occurrence}
    {i : Install} (h : latestInstall sid (installedOf is ++ history) = some i) :
    (i ∈ is ∧ i.streamId = sid) ∨
      sid ∉ is.map Install.streamId ∧ latestInstall sid history = some i := by
  induction is generalizing history with
  | nil => exact .inr ⟨by simp, h⟩
  | cons i₀ is ih =>
    have happ : installedOf (i₀ :: is) ++ history = installedOf is ++ .installed i₀ :: history := by
      simp [installedOf]
    rw [happ] at h
    rcases ih h with ⟨hmem, hsid⟩ | ⟨hnot, hlatest⟩
    · exact .inl ⟨List.mem_cons_of_mem _ hmem, hsid⟩
    · rw [latestInstall] at hlatest
      split_ifs at hlatest with hsid
      · obtain rfl := Option.some.inj hlatest
        exact .inl ⟨List.mem_cons_self, hsid⟩
      · refine .inr ⟨?_, hlatest⟩
        simpa [hnot] using Ne.symm hsid

theorem mem_of_latestInstall {sid : UInt64} {history : List Occurrence} {i : Install}
    (h : latestInstall sid history = some i) : .installed i ∈ history := by
  induction history with
  | nil => cases h
  | cons o history ih =>
    cases o with
    | installed i' =>
      rw [latestInstall] at h
      split_ifs at h
      · obtain rfl := Option.some.inj h
        exact List.mem_cons_self
      · exact List.mem_cons_of_mem _ (ih h)
    | acked w k => exact List.mem_cons_of_mem _ (ih h)

/-! ## The steps of a run -/

/-- Where a message stands that is not among those appended. -/
theorem append_cons_eq_append {α : Type*} {pre post l sent : List α} {x : α}
    (h : l ++ sent = pre ++ x :: post) (hx : x ∉ sent) : ∃ post', l = pre ++ x :: post' := by
  rcases List.append_eq_append_iff.mp h with ⟨as, rfl, hsent⟩ | ⟨bs, rfl, hx'⟩
  · exact absurd (by simp [hsent]) hx
  · cases bs with
    | nil =>
      refine absurd ?_ hx
      have hx' : x :: post = sent := by simpa using hx'
      exact hx' ▸ List.mem_cons_self
    | cons b bs =>
      obtain ⟨rfl, -⟩ := List.cons_eq_cons.mp hx'
      exact ⟨bs, rfl⟩

/-- A change of the versions at a switch that sets none but zero. -/
theorem Awaiting.setSwitch (h : Awaiting s) {k : ℕ} {sw : EdgeSwitch} {out : List EdgeOutput}
    (hmap : ∀ (sid : UInt64) w, w ≠ 0 → sw.streamActiveMatchVersionMap[sid]? = some w →
      (s.switches k).streamActiveMatchVersionMap[sid]? = some w) :
    Awaiting (s.setSwitch k sw out) := by
  refine ⟨h.nonzero, fun k' sid vlan pre post hk' i hi => ?_⟩
  obtain ⟨hne, hnot⟩ := h.ready k' sid vlan pre post hk' i hi
  refine ⟨fun heq => hne ?_, hnot⟩
  rcases eq_or_ne k' k with rfl | hkk
  · refine hmap sid _ (h.nonzero i (mem_of_latestInstall hi)) ?_
    simpa [NetworkState.setSwitch] using heq
  · simpa [NetworkState.setSwitch, hkk] using heq

/-- Activations are appended behind the `ListenerReady` messages. -/
theorem Awaiting.deliverAck (h : Awaiting s) {k : ℕ} {w : UInt16} {memory : UInt64}
    {v : VersionTables} {messages : List (SwitchInfo × ToSwitch)}
    {toController : ℕ → List EncapsulatedPacket}
    (hs : s.engine.versions.receiveAck c memory w k = some (v, messages)) :
    Awaiting { s with
      engine := { s.engine with versions := v }
      history := .acked w k :: s.history
      toSwitch := send s.toSwitch messages
      toController := toController } := by
  refine ⟨fun i hi => h.nonzero i ((List.mem_cons.mp hi).resolve_left (by simp)), ?_⟩
  intro k' sid vlan pre post hk' i hi
  have hnot : .vendor (.listenerReady sid vlan) ∉ sentTo k' messages := by
    intro hmem
    obtain ⟨w', heq⟩ := activation_of_mem_sentTo hs hmem
    cases heq
  obtain ⟨post', hold⟩ := append_cons_eq_append hk' hnot
  exact h.ready k' sid vlan pre post' hold i hi

/-- A call sends its `ListenerReady` for a stream that gets a new version by this call. -/
theorem Awaiting.configureDataPlane (h : Awaiting s) {memory : OxmBasicMatch} {demandid : Int}
    {sid : UInt64} {assignments : List Assignment} {r : Configured}
    (hok : RequestOk s (.configureDataPlane memory demandid sid assignments))
    (hr : Controller.configureDataPlane c memory s.engine demandid sid assignments = some r) :
    Awaiting { s with
      engine := r.engine
      history := installedOf r.installs ++ s.history
      toSwitch := send s.toSwitch (Configured.messages r) } := by
  obtain ⟨hchain, htargets, -⟩ := configureDataPlane_eq_some hr
  obtain ⟨hnumbers, hrequest⟩ := hok
  have hids : r.installs.map Install.streamId =
      (callTargets s.engine demandid sid assignments).map Prod.fst := by
    rw [← htargets, List.map_map]
    rfl
  rw [← hids] at hnumbers hrequest
  rw [← matchVersion_of_chain hchain] at hnumbers
  have hversion : ∀ i ∈ r.installs, i.matchVersion ≠ 0 ∧ ¬ s.Active i.streamId i.matchVersion := by
    intro i hi
    refine hnumbers (i.streamId, i.matchVersion) ?_
    rw [List.zip_map', List.mem_map]
    exact ⟨i, hi, rfl⟩
  refine ⟨?_, ?_⟩
  · intro i hi
    rcases List.mem_append.mp hi with hi | hi
    · exact (hversion i (by simpa [installedOf] using hi)).1
    · exact h.nonzero i hi
  · intro k sid' vlan pre post hk i hi
    change s.toSwitch k ++ sentTo k (Configured.messages r) = _ at hk
    have hready := configureDataPlane_listenerReady hr
    have hnoActivation : ∀ p, .packetOut p ∉ sentTo k (Configured.messages r) := by
      intro p hp
      obtain ⟨info, hmem, -⟩ := mem_sentTo.mp hp
      rcases List.mem_append.mp hmem with hmem | hmem
      · simp [flowMods, Rule.message] at hmem
      · split_ifs at hready
        · simp [hready] at hmem
        · obtain ⟨info', vlan', hready⟩ := hready
          simp [hready] at hmem
    -- the version is of this call, or the stream has no path of it
    rcases latestInstall_append hi with ⟨hmem, rfl⟩ | ⟨hnot, hlatest⟩
    · obtain ⟨-, hinact⟩ := hversion i hmem
      refine ⟨fun heq => hinact (.inl ⟨k, heq⟩), fun hact => ?_⟩
      have hall : .packetOut (.activationMessage i.matchVersion i.streamId) ∈
          s.toSwitch k ++ sentTo k (Configured.messages r) := by
        rw [hk]
        exact List.mem_append_left _ hact
      exact hinact (.inr (.inl ⟨k, (List.mem_append.mp hall).resolve_right (hnoActivation _)⟩))
    · have hother : .vendor (.listenerReady sid' vlan) ∉ sentTo k (Configured.messages r) := by
        intro hmem
        obtain ⟨info, hmem, -⟩ := mem_sentTo.mp hmem
        rcases List.mem_append.mp hmem with hmem | hmem
        · simp [flowMods, Rule.message] at hmem
        · split_ifs at hready with hid
          · simp [hready] at hmem
          · obtain ⟨info', vlan', hready⟩ := hready
            simp only [hready, Option.toList_some, List.mem_singleton, Prod.mk.injEq,
              ToSwitch.vendor.injEq, EncapsulatedPacket.listenerReady.injEq] at hmem
            obtain ⟨-, rfl, -⟩ := hmem
            exact hnot (hrequest hid)
      obtain ⟨post', hold⟩ := append_cons_eq_append hk hother
      exact h.ready k sid' vlan pre post' hold i hlatest

/-- A message leaves the channel of a switch; only an activation sets a version. -/
theorem Awaiting.deliverToSwitch (h : Awaiting s) {k : ℕ} {m : ToSwitch} {rest : List ToSwitch}
    (hk : s.toSwitch k = m :: rest) {now : SimTime} {addr : ℕ} {sw : EdgeSwitch}
    {out : List EdgeOutput}
    (hsw : (s.switches k).processControlPlanePacket now addr m = some (sw, out)) :
    Awaiting ({ s with toSwitch := Function.update s.toSwitch k rest }.setSwitch k sw out) := by
  have hmap : ∀ (sid : UInt64) w, sw.streamActiveMatchVersionMap[sid]? = some w →
      (s.switches k).streamActiveMatchVersionMap[sid]? = some w ∨
        m = .packetOut (.activationMessage w sid) := by
    intro sid w hw
    cases m with
    | flowMod x =>
      rw [EdgeSwitch.processControlPlanePacket] at hsw
      split_ifs at hsw
      · rw [EdgeSwitch.handleFlowModMessagewithACK] at hsw
        split_ifs at hsw
        obtain ⟨rfl, -⟩ := Prod.mk.inj (Option.some.inj hsw)
        exact .inl hw
      · obtain ⟨rfl, -⟩ := Prod.mk.inj (Option.some.inj hsw)
        exact .inl hw
    | packetOut p =>
      obtain ⟨rfl, -⟩ := Prod.mk.inj (Option.some.inj hsw)
      exact (EdgeSwitch.handlePacketOutMessage_active _ _ hw).imp_right (congrArg _)
    | vendor p =>
      obtain rfl : _ = sw := congrArg Prod.fst (Option.some.inj hsw)
      obtain ⟨ports, hports⟩ := EdgeSwitch.handleSRPFromController_eq (s.switches k) p
      rw [hports] at hw
      exact .inl hw
  refine ⟨h.nonzero, fun k' sid vlan pre post hk' i hi => ?_⟩
  simp only [NetworkState.setSwitch] at hk' ⊢
  rcases eq_or_ne k' k with rfl | hkk
  · rw [Function.update_self] at hk' ⊢
    obtain ⟨hne, hnot⟩ := h.ready k' sid vlan (m :: pre) post (by rw [hk, hk']; rfl) i hi
    refine ⟨fun heq => ?_, fun hmem => hnot (List.mem_cons_of_mem _ hmem)⟩
    rcases hmap sid _ heq with hold | rfl
    · exact hne hold
    · exact hnot List.mem_cons_self
  · rw [Function.update_of_ne hkk] at hk' ⊢
    exact h.ready k' sid vlan pre post hk' i hi

theorem awaiting_init {s : NetworkState} (h : (network c).init s) : Awaiting s := by
  obtain ⟨-, hhistory, -, hto, -⟩ := h
  refine ⟨by simp [hhistory], fun k sid vlan pre post hk => ?_⟩
  rw [hto k] at hk
  simp at hk

theorem awaiting_step {s s' : NetworkState} {ev : NetworkEvent} (h : Awaiting s)
    (hok : RequestOk s ev) (hs : s.step c ev = some s') : Awaiting s' := by
  cases ev with
  | talkerAdvertise k port sid vlan source destination =>
    obtain rfl := Option.some.inj hs
    exact h.setSwitch fun _ _ _ hw => hw
  | frame k now f =>
    obtain ⟨⟨out, sw⟩, hsw, hs⟩ := Option.bind_eq_some_iff.mp hs
    obtain rfl := Option.some.inj hs
    obtain ⟨m, rfl⟩ := EdgeSwitch.processDataPlanePacket_eq_some hsw
    refine h.setSwitch fun sid w hw hmap => ?_
    rcases EdgeSwitch.tagFrame_eq (s.switches k) f with heq | ⟨sid', heq⟩ <;> rw [heq] at hmap
    · exact hmap
    · exact (getElem?_insertIfNew_eq_some hmap).resolve_right hw
  | aging k now =>
    obtain rfl := Option.some.inj hs
    exact h.setSwitch fun _ _ _ hw => hw
  | configureDataPlane memory demandid sid assignments =>
    obtain ⟨r, hr, hs⟩ := Option.bind_eq_some_iff.mp hs
    obtain rfl := Option.some.inj hs
    exact h.configureDataPlane hok hr
  | deliverToSwitch k now addr =>
    obtain ⟨m, rest, sw, out, hk, -, hsw, rfl⟩ := deliverToSwitch_eq_some hs
    exact h.deliverToSwitch hk hsw
  | deliverToController k memory =>
    obtain ⟨p, rest, hk, hs⟩ := deliverToController_eq_some hs
    cases p with
    | ackForFlowMod w =>
      obtain ⟨⟨v, messages⟩, hv, hs⟩ := Option.bind_eq_some_iff.mp hs
      obtain rfl := Option.some.inj hs
      exact h.deliverAck hv
    | talkerAdvertise sid vlan source destination =>
      obtain rfl := Option.some.inj hs
      exact ⟨h.nonzero, h.ready⟩
    | activationMessage w sid =>
      obtain rfl := Option.some.inj hs
      exact ⟨h.nonzero, h.ready⟩
    | listenerReady sid vlan =>
      obtain rfl := Option.some.inj hs
      exact ⟨h.nonzero, h.ready⟩

/-- Whenever a relay is about to hand a talker the `ListenerReady` of its stream, it does not
have the version of the path yet. -/
theorem not_readyWhenInstalled (h : (network c).ReachableUnder RequestOk s) {k : ℕ}
    {sid : UInt64} {vlan : UInt16} {rest : List ToSwitch}
    (hk : s.toSwitch k = .vendor (.listenerReady sid vlan) :: rest) :
    ¬ s.ReadyWhenInstalled c k sid := by
  have hawaiting : Awaiting s :=
    h.invariant (fun _ => awaiting_init) fun _ _ _ _ hP hok hs => awaiting_step hP hok hs
  rintro ⟨i, hi, hactive, -⟩
  exact (hawaiting.ready k sid vlan [] rest hk i hi).1 hactive

/-- Stream 7 is advertised and admitted, and its rule reaches the first switch. -/
def readyRun : List NetworkEvent :=
  [.talkerAdvertise 0 2 7 5 1 2, .deliverToController 0 0, admission, .deliverToSwitch 0 0 1]

theorem not_readyWhenInstalled_sample : ∃ s,
    (network sampleTables).runFrom sampleNetwork readyRun = some s ∧
      ¬ s.ReadyWhenInstalled sampleTables 0 7 := by
  have hrun : ((network sampleTables).runFrom sampleNetwork readyRun).any fun s =>
      s.toSwitch 0 == [.vendor (.listenerReady 7 5)] := by
    decide
  obtain ⟨s, hs, hhead⟩ := (Option.any_eq_true _ _).mp hrun
  obtain ⟨s₁, hs₁, h⟩ := Option.bind_eq_some_iff.mp hs
  obtain ⟨s₂, hs₂, h⟩ := Option.bind_eq_some_iff.mp h
  obtain ⟨s₃, hs₃, h⟩ := Option.bind_eq_some_iff.mp h
  obtain ⟨s₄, hs₄, h⟩ := Option.bind_eq_some_iff.mp h
  obtain rfl := Option.some.inj h
  have hok : RequestOk s₂ admission := by
    obtain rfl := Option.some.inj hs₁
    obtain rfl := Option.some.inj hs₂
    refine ⟨fun p hp => ?_, by decide⟩
    obtain rfl : p = (7, 1) := List.mem_singleton.mp hp
    refine ⟨by decide, ?_⟩
    rintro (⟨k, hk⟩ | ⟨k, hk⟩ | ⟨info, hinfo, -⟩)
    · rcases k with _ | k <;> cases hk
    · rcases k with _ | k <;> cases hk
    · cases hinfo
  have hr₁ : (network sampleTables).ReachableUnder RequestOk s₁ := by
    refine .step (.init sampleNetwork_init) ?_ hs₁
    trivial
  have hr₂ : (network sampleTables).ReachableUnder RequestOk s₂ := by
    refine .step hr₁ ?_ hs₂
    trivial
  have hr₄ : (network sampleTables).ReachableUnder RequestOk s₄ := by
    refine .step (.step hr₂ hok hs₃) ?_ hs₄
    trivial
  exact ⟨s₄, hs, not_readyWhenInstalled hr₄ (by simpa using hhead)⟩

/-- The relay of switch 0 hands the talker the `ListenerReady` with no version for stream 7,
and switch 1 has no rule. -/
theorem readyRun_without_version : ∃ s, (network sampleTables).Reachable s ∧
    s.toSwitch 0 = [.vendor (.listenerReady 7 5)] ∧
    (s.switches 0).streamActiveMatchVersionMap[(7 : UInt64)]? = none ∧
    (s.switches 1).table.entries = [] ∧ ¬ s.ReadyWhenInstalled sampleTables 0 7 := by
  have hrun : ((network sampleTables).runFrom sampleNetwork readyRun).any fun s =>
      s.toSwitch 0 == [.vendor (.listenerReady 7 5)] &&
      (s.switches 0).streamActiveMatchVersionMap[(7 : UInt64)]? == none &&
      (s.switches 1).table.entries == [] := by
    decide
  obtain ⟨s, hs, hcheck⟩ := (Option.any_eq_true _ _).mp hrun
  simp only [Bool.and_eq_true, beq_iff_eq] at hcheck
  obtain ⟨⟨hhead, hnone⟩, hempty⟩ := hcheck
  refine ⟨s, System.reachable_of_runFrom sampleNetwork_init hs, hhead, hnone, hempty, ?_⟩
  rintro ⟨i, -, hactive, -⟩
  rw [hnone] at hactive
  cases hactive

end TsnReconfig.Network
