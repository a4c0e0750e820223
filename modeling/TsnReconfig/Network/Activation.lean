import TsnReconfig.Network.Deployment
import TsnReconfig.OpenFlow.HeldRules

/-!
# A version is active when its rules are in place

What ties the tables of the controller to the messages on the way and to the flow tables of
the switches, over all runs in which versions are given out properly.
-/

namespace TsnReconfig.Network
open OpenFlow Switch Controller Lib

/-! ## The rules of an installation -/

section Rules
variable {c : ControllerTables} {dst src : MACAddress} {vlan w : UInt16} {k : ℕ} {r : Rule}

theorem RuleFor.ofbTag (h : RuleFor c dst src vlan w k r) : r.flowMod.oxmMatch.ofbTag = w := by
  obtain ⟨_, _, _, _, _, _, _, _, -, -, hm, hr⟩ := h
  rw [createDesiredMatch_eq] at hm
  rw [hr, ← Option.some.inj hm]
  rfl

theorem RuleFor.ofbVlanVid (h : RuleFor c dst src vlan w k r) :
    r.flowMod.oxmMatch.ofbVlanVid = vlan := by
  obtain ⟨_, _, _, _, _, _, _, _, -, -, hm, hr⟩ := h
  rw [createDesiredMatch_eq] at hm
  rw [hr, ← Option.some.inj hm]
  rfl

theorem RuleFor.command (h : RuleFor c dst src vlan w k r) : r.flowMod.command = .add := by
  obtain ⟨_, _, _, _, _, _, _, _, -, -, -, hr⟩ := h
  rw [hr]
  rfl

theorem RuleFor.topoIndex (hc : c.Addressed) (h : RuleFor c dst src vlan w k r) :
    r.switch.topoIndex = k := by
  obtain ⟨node, _, _, _, _, _, _, _, hnode, hsw, -, -⟩ := h
  exact hc k node r.switch hnode hsw

end Rules

/-- The message is a flow rule of version `w`. -/
def isFlowMod (w : UInt16) : ToSwitch → Bool
  | .flowMod m => m.oxmMatch.ofbTag == w
  | _ => false

/-- The messages for the switch `k` among those sent. -/
def sentTo (k : ℕ) (messages : List (SwitchInfo × ToSwitch)) : List ToSwitch :=
  (messages.filter fun p => p.1.topoIndex = k).map Prod.snd

theorem send_eq (channels : ℕ → List ToSwitch) (messages : List (SwitchInfo × ToSwitch)) (k : ℕ) :
    send channels messages k = channels k ++ sentTo k messages := rfl

theorem send_append (channels : ℕ → List ToSwitch) (ms ms' : List (SwitchInfo × ToSwitch)) :
    send channels (ms ++ ms') = send (send channels ms) ms' := by
  funext k
  simp [send_eq, sentTo]

section Pop
variable {α : Type*} {channels : ℕ → List α} {k k' : ℕ} {m x : α} {rest : List α}

theorem mem_of_mem_pop (hk : channels k = m :: rest)
    (hx : x ∈ Function.update channels k rest k') : x ∈ channels k' := by
  rcases eq_or_ne k' k with rfl | hne
  · rw [Function.update_self] at hx
    exact hk ▸ List.mem_cons_of_mem _ hx
  · rwa [Function.update_of_ne hne] at hx

theorem mem_pop_of_ne (hk : channels k = m :: rest) (hx : x ∈ channels k') (hne : x ≠ m) :
    x ∈ Function.update channels k rest k' := by
  rcases eq_or_ne k' k with rfl | hkk
  · rw [Function.update_self]
    rw [hk] at hx
    exact (List.mem_cons.mp hx).resolve_left hne
  · rwa [Function.update_of_ne hkk]

end Pop

theorem sentTo_cons (k : ℕ) (info : SwitchInfo) (m : ToSwitch)
    (messages : List (SwitchInfo × ToSwitch)) :
    sentTo k ((info, m) :: messages) =
      if info.topoIndex = k then m :: sentTo k messages else sentTo k messages := by
  simp only [sentTo, List.filter_cons, decide_eq_true_eq]
  split_ifs <;> rfl

@[simp] theorem send_nil (channels : ℕ → List ToSwitch) : send channels [] = channels := by
  funext k
  simp [send_eq, sentTo]

theorem mem_sentTo {k : ℕ} {messages : List (SwitchInfo × ToSwitch)} {m : ToSwitch} :
    m ∈ sentTo k messages ↔ ∃ info, (info, m) ∈ messages ∧ info.topoIndex = k := by
  simp [sentTo]

/-- Each switch gets one rule for each time it is on the path. -/
theorem countP_sentTo_rules {c : ControllerTables} (hc : c.Addressed) {dst src : MACAddress}
    {vlan w : UInt16} {path : List ℕ} {rules : List Rule}
    (h : List.Forall₂ (RuleFor c dst src vlan w) path rules) (k : ℕ) (x : UInt16) :
    (sentTo k (rules.map Rule.message)).countP (isFlowMod x) =
      if x = w then path.count k else 0 := by
  induction h with
  | nil => simp [sentTo]
  | @cons k' r path rules hr _ ih =>
    have hcons : sentTo k ((r :: rules).map Rule.message) =
        if k' = k then .flowMod r.flowMod :: sentTo k (rules.map Rule.message)
        else sentTo k (rules.map Rule.message) := by
      simp only [List.map_cons, Rule.message, sentTo_cons, RuleFor.topoIndex hc hr]
    have hmod : isFlowMod x (.flowMod r.flowMod) = (w == x) := by
      rw [isFlowMod, RuleFor.ofbTag hr]
    rw [hcons, List.count_cons]
    rcases eq_or_ne x w with rfl | hne
    · by_cases hk : k' = k <;> simp [hmod, ih, hk]
    · by_cases hk : k' = k <;> simp [hmod, ih, hk, hne, hne.symm]

namespace NetworkState

/-! ## The state of a run -/

/-- How many rules of version `w` and acknowledgements of it are on their way to and from
the switch `k`. -/
def inFlight (s : NetworkState) (k : ℕ) (w : UInt16) : ℕ :=
  (s.toSwitch k).countP (isFlowMod w) + (s.toController k).count (.ackForFlowMod w)

/-- A relay tags the frames of the stream with `w`, is being told to, or the controller has
`w` as the current version of the stream. -/
def Active (s : NetworkState) (sid : UInt64) (w : UInt16) : Prop :=
  (∃ k, (s.switches k).streamActiveMatchVersionMap[sid]? = some w) ∨
  (∃ k, .packetOut (.activationMessage w sid) ∈ s.toSwitch k) ∨
  ∃ info, s.engine.versions.streamFlowVersionTable[sid]? = some info ∧ info.current = w

/-- Where a version is in use at a relay or at the controller, every switch on the paths
that were installed for its stream under it holds the rule of that version. -/
def UsedWhenInstalled (c : ControllerTables) (s : NetworkState) : Prop :=
  ∀ sid w, w ≠ 0 →
    ((∃ k, (s.switches k).streamActiveMatchVersionMap[sid]? = some w) ∨
      ∃ info, s.engine.versions.streamFlowVersionTable[sid]? = some info ∧ info.current = w) →
    ∀ i, .installed i ∈ s.history → i.streamId = sid → i.matchVersion = w →
    ∀ k ∈ i.path, ∃ r, RuleFor c i.dstHost i.srcHost i.dlVlan w k r ∧ r ∈ i.rules ∧
      (s.switches k).table.Holds r.flowMod

end NetworkState

/-- The tables of the controller, the messages on the way and the switches agree. -/
structure Deployed (c : ControllerTables) (s : NetworkState) : Prop where
  kept : Kept c s.engine.versions s.history
  tagging : ∀ k, (s.switches k).isTaggingEnabled = true
  adds : ∀ k m, .flowMod m ∈ s.toSwitch k → m.command = .add
  inFlight : ∀ k w,
    s.inFlight k w = if k ∈ s.engine.versions.ackWaitingPaths.getD w [] then 1 else 0
  rules : ∀ i, .installed i ∈ s.history → i.matchVersion ≠ 0 ∧
    List.Forall₂ (RuleFor c i.dstHost i.srcHost i.dlVlan i.matchVersion) i.path i.rules
  held : ∀ i, .installed i ∈ s.history → ∀ p ∈ i.path.zip i.rules,
    (s.switches p.1).table.Holds p.2.flowMod ∨
      s.engine.versions.Pending i.streamId i.matchVersion ∧
        .flowMod p.2.flowMod ∈ s.toSwitch p.1
  idle : ∀ sid w, w ≠ 0 → s.Active sid w → ¬ s.engine.versions.Pending sid w

theorem Deployed.usedWhenInstalled {c : ControllerTables} {s : NetworkState} (h : Deployed c s) :
    s.UsedWhenInstalled c := by
  rintro sid w hw hused i hi rfl rfl k hk
  have hactive : s.Active i.streamId i.matchVersion := hused.imp_right .inr
  obtain ⟨r, hzip, hr⟩ := exists_zip_of_mem_left (h.rules i hi).2 hk
  refine ⟨r, hr, (List.of_mem_zip hzip).2, ?_⟩
  rcases h.held i hi _ hzip with hheld | ⟨hpending, -⟩
  · exact hheld
  · exact absurd hpending (h.idle _ _ hw hactive)

/-! ## The steps of a run -/

variable {c : ControllerTables} {s : NetworkState}

/-- The state when the rules of an installation have been sent. -/
def NetworkState.installed (s : NetworkState) (v : VersionTables) (i : Install) : NetworkState :=
  { s with
    engine := { s.engine with versions := v }
    history := .installed i :: s.history
    toSwitch := send s.toSwitch (i.rules.map Rule.message) }

/-- The condition on an installation: its path is simple, and its version is not in use for
its stream anywhere in the network. -/
structure InstallDeployable (s : NetworkState) (sid : UInt64) (path : List ℕ) : Prop where
  installOk : InstallOk s.engine.versions sid
  simple : path.Nodup
  inactive : ¬ s.Active sid s.engine.versions.ofMatchVersionNumber

theorem activation_notMem_rules {k : ℕ} {rules : List Rule} {packet : EncapsulatedPacket} :
    .packetOut packet ∉ sentTo k (rules.map Rule.message) := by
  simp [mem_sentTo, Rule.message]

theorem active_of_installed {v : VersionTables} {i : Install}
    (htag : s.engine.versions.isTaggingEnabled = true)
    (hidle : ∀ w, s.engine.versions.Pending i.streamId w → w = 0)
    (hi : InstallStep c s.engine.versions i v) {sid : UInt64} {w : UInt16} (hw : w ≠ 0)
    (h : (s.installed v i).Active sid w) : s.Active sid w := by
  rcases h with hrelay | ⟨k, hk⟩ | ⟨info, hinfo, hcur⟩
  · exact .inl hrelay
  · rcases List.mem_append.mp hk with hk | hk
    · exact .inr (.inl ⟨k, hk⟩)
    · exact absurd hk activation_notMem_rules
  · obtain ⟨_, node, -, -, rfl⟩ := hi.tables
    simp only [NetworkState.installed, install_of_idle htag hidle, getElem?_insert] at hinfo
    split_ifs at hinfo with hsid
    · subst hsid
      obtain rfl := Option.some.inj hinfo
      cases hold : s.engine.versions.streamFlowVersionTable[i.streamId]? with
      | none =>
        simp only [hold, Option.map_none, Option.getD_none] at hcur
        exact absurd hcur.symm hw
      | some old =>
        simp only [hold, Option.map_some, Option.getD_some] at hcur
        exact .inr (.inr ⟨old, hold, hcur⟩)
    · exact .inr (.inr ⟨info, hinfo, hcur⟩)

/-- The rules of an installation are sent, and its version waits for their
acknowledgements. -/
theorem Deployed.installed {v : VersionTables} {i : Install} (hc : c.Addressed)
    (h : Deployed c s) (hok : InstallDeployable s i.streamId i.path)
    (hi : InstallStep c s.engine.versions i v) : Deployed c (s.installed v i) := by
  have htag := h.kept.tagging
  have hinst := hok.installOk
  have hkept := kept_install h.kept hinst hi
  have hversion : i.matchVersion = s.engine.versions.ofMatchVersionNumber := by
    rw [hi.matchVersion, VersionTables.matchVersion, if_pos htag]
  obtain ⟨k₀, node, -, -, hv⟩ := hi.tables
  have hpending : ∀ {sid w}, v.Pending sid w ↔
      if sid = i.streamId then w = i.matchVersion else s.engine.versions.Pending sid w := by
    intro sid w
    rw [hv, pending_install htag hinst.idle, hversion]
  -- no path waits for the number the counter gives out
  have hfree : i.matchVersion ∉ s.engine.versions.ackWaitingPaths := by
    rw [h.kept.waiting_iff]
    rintro ⟨hw, sid, hp⟩
    obtain rfl := hinst.fresh sid (hversion ▸ hp.uses)
    exact hw (hinst.idle _ hp)
  refine ⟨hkept, h.tagging, ?_, ?_, ?_, ?_, ?_⟩
  · intro k m hm
    rcases List.mem_append.mp hm with hm | hm
    · exact h.adds k m hm
    · obtain ⟨info, hmem, -⟩ := mem_sentTo.mp hm
      obtain ⟨r, hr, heq⟩ := List.mem_map.mp hmem
      obtain ⟨rfl, hmod⟩ := Prod.mk.inj heq
      obtain rfl := ToSwitch.flowMod.inj hmod
      obtain ⟨k', -, hrule⟩ := exists_of_mem_right hi.rules hr
      exact RuleFor.command hrule
  · intro k w
    have hcount := countP_sentTo_rules hc hi.rules k w
    have hwait : ((s.installed v i).engine.versions.ackWaitingPaths.getD w []) =
        if w = i.matchVersion then i.path
        else s.engine.versions.ackWaitingPaths.getD w [] := by
      simp only [NetworkState.installed, hv, install_of_idle htag hinst.idle,
        Std.TreeMap.getD_insert, compare_eq_iff, hversion]
    have hin : (s.installed v i).inFlight k w =
        s.inFlight k w + if w = i.matchVersion then i.path.count k else 0 := by
      simp only [NetworkState.inFlight, NetworkState.installed, send_eq, List.countP_append, hcount]
      omega
    rw [hin, hwait, h.inFlight]
    rcases eq_or_ne w i.matchVersion with rfl | hw
    · have hnone : s.engine.versions.ackWaitingPaths.getD i.matchVersion [] = [] :=
        Std.TreeMap.getD_eq_fallback hfree
      simp [hnone, hok.simple.count]
    · simp [hw]
  · rintro j hj
    rcases List.mem_cons.mp hj with heq | hj
    · obtain rfl := Occurrence.installed.inj heq
      exact ⟨hversion ▸ hinst.nonzero, hi.rules⟩
    · exact h.rules j hj
  · rintro j hj p hp
    rcases List.mem_cons.mp hj with heq | hj
    · obtain rfl := Occurrence.installed.inj heq
      refine .inr ⟨hpending.mpr (by simp), List.mem_append_right _ ?_⟩
      have hrule := List.forall₂_zip hi.rules hp
      exact mem_sentTo.mpr ⟨p.2.switch, List.mem_map_of_mem (List.of_mem_zip hp).2,
        RuleFor.topoIndex hc hrule⟩
    · refine (h.held j hj p hp).imp_right fun hsent => ⟨?_, List.mem_append_left _ hsent.2⟩
      have hne : j.streamId ≠ i.streamId := by
        intro heq
        exact (h.rules j hj).1 (hinst.idle _ (heq ▸ hsent.1))
      refine hpending.mpr ?_
      rw [if_neg hne]
      exact hsent.1
  · intro sid w hw hactive hp
    have hold := active_of_installed htag hinst.idle hi hw hactive
    have hp' := hpending.mp hp
    split_ifs at hp' with hsid
    · subst hsid hp'
      exact hok.inactive (hversion ▸ hold)
    · exact h.idle sid w hw hold hp'

/-- The condition on a call of `configureDataPlane` that makes these installations. -/
structure CallDeployable (s : NetworkState) (targets : List (UInt64 × List ℕ)) : Prop where
  callOk : CallOk s.engine.versions (targets.map Prod.fst)
  simple : ∀ t ∈ targets, t.2.Nodup
  inactive : ∀ j t, targets[j]? = some t →
    ¬ s.Active t.1 (s.engine.versions.ofMatchVersionNumber + .ofNat j)

theorem CallDeployable.head {t : UInt64 × List ℕ} {ts : List (UInt64 × List ℕ)}
    (h : CallDeployable s (t :: ts)) : InstallDeployable s t.1 t.2 where
  installOk := h.callOk.head
  simple := h.simple t List.mem_cons_self
  inactive := by simpa using h.inactive 0 t rfl

theorem CallDeployable.tail {v : VersionTables} {i : Install} {ts : List (UInt64 × List ℕ)}
    (h : CallDeployable s (i.target :: ts)) (htag : s.engine.versions.isTaggingEnabled = true)
    (hi : InstallStep c s.engine.versions i v) : CallDeployable (s.installed v i) ts where
  callOk := h.callOk.tail htag hi
  simple t ht := h.simple t (List.mem_cons_of_mem _ ht)
  inactive j t hj hactive := by
    have hidle : ∀ w, s.engine.versions.Pending i.streamId w → w = 0 := h.head.installOk.idle
    have hlt : j + 1 < ((i.target :: ts).map Prod.fst).length := by
      simpa using (List.getElem?_eq_some_iff.mp hj).1
    obtain ⟨_, node, -, -, hv⟩ := hi.tables
    have hcounter : (s.installed v i).engine.versions.ofMatchVersionNumber =
        s.engine.versions.ofMatchVersionNumber + 1 := by
      simp only [NetworkState.installed, hv]
      rw [install_of_idle htag hidle]
    rw [hcounter, add_one_add_ofNat] at hactive
    exact h.inactive (j + 1) t hj
      (active_of_installed htag hidle hi (h.callOk.ne_zero hlt) hactive)

/-- The state when all rules of a call have been sent. -/
def NetworkState.installedAll (s : NetworkState) (v : VersionTables) (is : List Install) :
    NetworkState :=
  { s with
    engine := { s.engine with versions := v }
    history := installedOf is ++ s.history
    toSwitch := send s.toSwitch (flowMods is) }

theorem Deployed.installedAll {v v' : VersionTables} {is : List Install} (hc : c.Addressed)
    (hchain : InstallChain c v is v') (hv : s.engine.versions = v) (h : Deployed c s)
    (hok : CallDeployable s (is.map Install.target)) : Deployed c (s.installedAll v' is) := by
  induction hchain generalizing s with
  | nil v =>
    subst hv
    simpa [NetworkState.installedAll, flowMods, installedOf] using h
  | @cons v v₁ v₂ i is hi _ ih =>
    subst hv
    have h₁ := h.installed hc hok.head hi
    have h₂ := ih rfl h₁ (hok.tail h.kept.tagging hi)
    simpa [NetworkState.installedAll, NetworkState.installed, flowMods, installedOf,
      send_append] using h₂

/-- A change at a switch that keeps its rules, activates nothing new and acknowledges
nothing. -/
theorem Deployed.setSwitch (h : Deployed c s) {k : ℕ} {sw : EdgeSwitch} {out : List EdgeOutput}
    (htag : sw.isTaggingEnabled = true)
    (hheld : ∀ m, (s.switches k).table.Holds m → sw.table.Holds m)
    (hmap : ∀ sid w, w ≠ 0 → sw.streamActiveMatchVersionMap[sid]? = some w → s.Active sid w)
    (hout : ∀ w, .ackForFlowMod w ∉ out.filterMap EdgeOutput.packetIn) :
    Deployed c (s.setSwitch k sw out) := by
  refine ⟨h.kept, ?_, h.adds, ?_, h.rules, ?_, ?_⟩
  · intro k'
    rcases eq_or_ne k' k with rfl | hne
    · simpa [NetworkState.setSwitch] using htag
    · simpa [NetworkState.setSwitch, hne] using h.tagging k'
  · intro k' w
    have hin : (s.setSwitch k sw out).inFlight k' w = s.inFlight k' w := by
      rcases eq_or_ne k' k with rfl | hne
      · simp [NetworkState.inFlight, NetworkState.setSwitch, List.count_eq_zero_of_not_mem (hout w)]
      · simp [NetworkState.inFlight, NetworkState.setSwitch, hne]
    exact hin.trans (h.inFlight k' w)
  · intro i hi p hp
    refine (h.held i hi p hp).imp_left fun hold => ?_
    rcases eq_or_ne p.1 k with heq | hne
    · simpa [NetworkState.setSwitch, heq] using hheld _ (heq ▸ hold)
    · simpa [NetworkState.setSwitch, hne] using hold
  · intro sid w hw hactive
    refine h.idle sid w hw ?_
    rcases hactive with ⟨k', hk'⟩ | hrest
    · rcases eq_or_ne k' k with rfl | hne
      · exact hmap sid w hw (by simpa [NetworkState.setSwitch] using hk')
      · exact .inl ⟨k', by simpa [NetworkState.setSwitch, hne] using hk'⟩
    · exact .inr hrest

/-- A message that is not a flow rule leaves a channel. -/
theorem Deployed.pop (h : Deployed c s) {k : ℕ} {m : ToSwitch} {rest : List ToSwitch}
    (hk : s.toSwitch k = m :: rest) (hm : ∀ x, m ≠ .flowMod x) :
    Deployed c { s with toSwitch := Function.update s.toSwitch k rest } := by
  refine ⟨h.kept, h.tagging, fun k' x hx => h.adds k' x (mem_of_mem_pop hk hx), ?_, h.rules, ?_, ?_⟩
  · intro k' w
    refine Eq.trans ?_ (h.inFlight k' w)
    rcases eq_or_ne k' k with rfl | hne
    · have hnot : isFlowMod w m = false := by
        cases m with
        | flowMod x => exact absurd rfl (hm x)
        | packetOut p => rfl
        | vendor p => rfl
      simp [NetworkState.inFlight, hk, hnot]
    · simp [NetworkState.inFlight, hne]
  · intro i hi p hp
    exact (h.held i hi p hp).imp_right fun hsent =>
      ⟨hsent.1, mem_pop_of_ne hk hsent.2 (hm _).symm⟩
  · rintro sid w hw (hrelay | ⟨k', hk'⟩ | hcur)
    · exact h.idle sid w hw (.inl hrelay)
    · exact h.idle sid w hw (.inr (.inl ⟨k', mem_of_mem_pop hk hk'⟩))
    · exact h.idle sid w hw (.inr (.inr hcur))

/-- A flow rule arrives: it is held and acknowledged. -/
theorem Deployed.deliverFlowMod (h : Deployed c s) {k : ℕ} {m : FlowMod} {rest : List ToSwitch}
    (hk : s.toSwitch k = .flowMod m :: rest) {now : SimTime} {addr : ℕ}
    (hlive : (s.switches k).table.Live now) (hroom : ((s.switches k).table.isFull now).1 = false)
    (hnow : now < maxTime) (haddr : ∀ e ∈ (s.switches k).table.entries, e.addr ≠ addr) :
    Deployed c ({ s with toSwitch := Function.update s.toSwitch k rest }.setSwitch k
      { s.switches k with table := (s.switches k).table.handleFlowMod now addr m }
      [.toController (.ackForFlowMod m.oxmMatch.ofbTag)]) := by
  have hadd : m.command = .add := h.adds k m (by simp [hk])
  refine ⟨h.kept, ?_, fun k' x hx => h.adds k' x (mem_of_mem_pop hk hx), ?_, h.rules, ?_, ?_⟩
  · intro k'
    rcases eq_or_ne k' k with rfl | hne
    · simpa [NetworkState.setSwitch] using h.tagging k'
    · simpa [NetworkState.setSwitch, hne] using h.tagging k'
  · intro k' w
    refine Eq.trans ?_ (h.inFlight k' w)
    rcases eq_or_ne k' k with rfl | hne
    · simp only [NetworkState.inFlight, NetworkState.setSwitch, Function.update_self, hk,
        List.countP_cons, isFlowMod, EdgeOutput.packetIn, List.count_append, List.filterMap_cons,
        List.filterMap_nil, List.count_singleton, beq_iff_eq, EncapsulatedPacket.ackForFlowMod.injEq]
      omega
    · simp [NetworkState.inFlight, NetworkState.setSwitch, hne]
  · intro i hi p hp
    rcases eq_or_ne p.1 k with heq | hne
    · simp only [NetworkState.setSwitch, heq, Function.update_self]
      rcases h.held i hi p hp with hold | ⟨hpend, hmem⟩
      · exact .inl ((heq ▸ hold).handleFlowMod hlive hadd)
      · rw [heq, hk] at hmem
        rcases List.mem_cons.mp hmem with hfirst | hmem
        · obtain rfl := ToSwitch.flowMod.inj hfirst
          exact .inl (FlowTable.holds_handleFlowMod_self hadd hnow hroom haddr)
        · exact .inr ⟨hpend, hmem⟩
    · simpa [NetworkState.setSwitch, hne] using h.held i hi p hp
  · rintro sid w hw (⟨k', hk'⟩ | ⟨k', hk'⟩ | hcur)
    · refine h.idle sid w hw (.inl ⟨k', ?_⟩)
      rcases eq_or_ne k' k with rfl | hne
      · simpa [NetworkState.setSwitch] using hk'
      · simpa [NetworkState.setSwitch, hne] using hk'
    · exact h.idle sid w hw (.inr (.inl ⟨k', mem_of_mem_pop hk hk'⟩))
    · exact h.idle sid w hw (.inr (.inr hcur))

/-- An acknowledgement on its way is waited for, and its rule is not on its way any more. -/
theorem Deployed.ack_waited (h : Deployed c s) {k : ℕ} {w : UInt16}
    {rest : List EncapsulatedPacket} (hk : s.toController k = .ackForFlowMod w :: rest) :
    k ∈ s.engine.versions.ackWaitingPaths.getD w [] ∧
      (s.toSwitch k).countP (isFlowMod w) = 0 ∧ rest.count (.ackForFlowMod w) = 0 := by
  have hin := h.inFlight k w
  simp only [NetworkState.inFlight, hk, List.count_cons_self] at hin
  split_ifs at hin with hmem
  exact ⟨hmem, by omega, by omega⟩

/-- What an acknowledgement leaves of the waiting paths. -/
theorem getD_receiveAck {v v' : VersionTables} {memory : UInt64} {w x : UInt16} {k : ℕ}
    {messages : List (SwitchInfo × ToSwitch)}
    (hs : v.receiveAck c memory w k = some (v', messages)) :
    v'.ackWaitingPaths.getD x [] =
      if x = w then (v.ackWaitingPaths.getD w []).filter (· != k)
      else v.ackWaitingPaths.getD x [] := by
  rcases receiveAck_eq_some hs with ⟨path, hpath, -, -, rfl⟩ | ⟨hempty, _, _, _, -, -, rfl⟩
  · have hw : v.ackWaitingPaths.getD w [] = path := by
      rw [Std.TreeMap.getD_eq_getD_getElem?, hpath, Option.getD_some]
    simp only [Std.TreeMap.getD_insert, compare_eq_iff, hw]
  · simp only [Std.TreeMap.getD_erase, compare_eq_iff, hempty]

theorem activation_of_mem_sentTo {v v' : VersionTables} {memory : UInt64} {w : UInt16} {k k' : ℕ}
    {messages : List (SwitchInfo × ToSwitch)} {m : ToSwitch}
    (hs : v.receiveAck c memory w k = some (v', messages)) (hm : m ∈ sentTo k' messages) :
    ∃ sid, m = .packetOut (.activationMessage w sid) := by
  obtain ⟨info, hmem, -⟩ := mem_sentTo.mp hm
  exact activation_of_receiveAck hs _ hmem

/-- The acknowledgement has been taken off the path that waits for it. -/
theorem Deployed.inFlight_ack (h : Deployed c s) {k : ℕ} {w : UInt16}
    {rest : List EncapsulatedPacket} (hk : s.toController k = .ackForFlowMod w :: rest)
    {memory : UInt64} {v : VersionTables} {messages : List (SwitchInfo × ToSwitch)}
    (hs : s.engine.versions.receiveAck c memory w k = some (v, messages)) (k' : ℕ) (x : UInt16) :
    (send s.toSwitch messages k').countP (isFlowMod x) +
        (Function.update s.toController k rest k').count (.ackForFlowMod x) =
      if k' ∈ v.ackWaitingPaths.getD x [] then 1 else 0 := by
  obtain ⟨-, hnoMod, hnoAck⟩ := h.ack_waited hk
  have hnone : (sentTo k' messages).countP (isFlowMod x) = 0 := by
    rw [List.countP_eq_zero]
    intro m hm
    obtain ⟨sid, rfl⟩ := activation_of_mem_sentTo hs hm
    simp [isFlowMod]
  have hold := h.inFlight k' x
  rw [send_eq, List.countP_append, hnone, getD_receiveAck hs]
  rcases eq_or_ne k' k with rfl | hkk <;> rcases eq_or_ne x w with rfl | hxw
  · simp [hnoMod, hnoAck]
  · simp only [NetworkState.inFlight, hk] at hold
    simpa [hxw, hxw.symm] using hold
  · simpa [NetworkState.inFlight, hkk] using hold
  · simpa [NetworkState.inFlight, hkk, hxw] using hold

/-- An acknowledgement arrives: it is taken off the path that waits for it, and when it was
the last one the version is activated. -/
theorem Deployed.deliverAck (h : Deployed c s) {k : ℕ} {w : UInt16}
    {rest : List EncapsulatedPacket} (hk : s.toController k = .ackForFlowMod w :: rest)
    {memory : UInt64} {v : VersionTables} {messages : List (SwitchInfo × ToSwitch)}
    (hs : s.engine.versions.receiveAck c memory w k = some (v, messages)) :
    Deployed c { s with
      engine := { s.engine with versions := v }
      history := .acked w k :: s.history
      toSwitch := send s.toSwitch messages
      toController := Function.update s.toController k rest } := by
  have hinstalled : ∀ {i}, .installed i ∈ Occurrence.acked w k :: s.history →
      .installed i ∈ s.history := fun hi =>
    (List.mem_cons.mp hi).resolve_left (by simp)
  refine ⟨kept_ack h.kept hs, h.tagging, ?_, h.inFlight_ack hk hs,
    fun i hi => h.rules i (hinstalled hi), ?_, ?_⟩
  · intro k' m hm
    rcases List.mem_append.mp hm with hm | hm
    · exact h.adds k' m hm
    · obtain ⟨sid, heq⟩ := activation_of_mem_sentTo hs hm
      cases heq
  · intro i hi p hp
    refine (h.held i (hinstalled hi) p hp).imp_right fun hsent =>
      ⟨?_, List.mem_append_left _ hsent.2⟩
    obtain ⟨hpend, hmem⟩ := hsent
    have hrules := h.rules i (hinstalled hi)
    rcases receiveAck_eq_some hs with ⟨_, -, -, -, rfl⟩ | ⟨hempty, u, _, _, hact, -, rfl⟩
    · exact hpend
    · refine (pending_activate (fun hw => h.kept.unique w hw) hact hrules.1).mpr ⟨?_, hpend⟩
      -- no rule of the activated version is on its way
      rintro rfl
      have hzero := h.inFlight_ack hk hs p.1 i.matchVersion
      rw [getD_receiveAck hs, if_pos rfl, hempty, if_neg List.not_mem_nil] at hzero
      have hpos : 0 < (send s.toSwitch messages p.1).countP (isFlowMod i.matchVersion) := by
        refine List.countP_pos_iff.mpr ⟨_, List.mem_append_left _ hmem, ?_⟩
        simp [isFlowMod, RuleFor.ofbTag (List.forall₂_zip hrules.2 hp)]
      omega
  · intro sid x hx hactive
    rcases receiveAck_eq_some hs with ⟨_, -, -, rfl, rfl⟩ | ⟨-, u, _, _, hact, -, rfl⟩
    · refine h.idle sid x hx ?_
      simpa [NetworkState.Active] using hactive
    · intro hp
      obtain ⟨hxw, hpold⟩ := (pending_activate (fun hw => h.kept.unique w hw) hact hx).mp hp
      refine h.idle sid x hx ?_ hpold
      rcases hactive with hrelay | ⟨k', hk'⟩ | ⟨info, hinfo, hcur⟩
      · exact .inl hrelay
      · refine .inr (.inl ⟨k', ?_⟩)
        refine (List.mem_append.mp hk').resolve_right fun hm => ?_
        obtain ⟨sid', heq⟩ := activation_of_mem_sentTo hs hm
        simp at heq
        exact hxw heq.1
      · rcases (activateMatchVersion_eq_some hact).2.2 with ⟨sid', -, -, ht⟩ | ⟨-, -, ht⟩
        · simp only [ht, getElem?_insert] at hinfo
          split_ifs at hinfo
          · obtain rfl := Option.some.inj hinfo
            exact absurd hcur.symm hxw
          · exact .inr (.inr ⟨info, hinfo, hcur⟩)
        · exact .inr (.inr ⟨info, ht ▸ hinfo, hcur⟩)

/-- Messages that are neither flow rules nor activations do not matter. -/
theorem Deployed.sendVendor (h : Deployed c s) {messages : List (SwitchInfo × ToSwitch)}
    (hm : ∀ m ∈ messages, ∃ p, m.2 = .vendor p) :
    Deployed c { s with toSwitch := send s.toSwitch messages } := by
  have hsent : ∀ {k m}, m ∈ sentTo k messages → ∃ p, m = .vendor p := by
    intro k m hmem
    obtain ⟨info, hmem, -⟩ := mem_sentTo.mp hmem
    exact hm _ hmem
  refine ⟨h.kept, h.tagging, ?_, ?_, h.rules, ?_, ?_⟩
  · intro k m hmem
    refine h.adds k m ((List.mem_append.mp hmem).resolve_right fun hmem => ?_)
    obtain ⟨p, heq⟩ := hsent hmem
    cases heq
  · intro k w
    have hnone : (sentTo k messages).countP (isFlowMod w) = 0 := by
      rw [List.countP_eq_zero]
      intro m hmem
      obtain ⟨p, rfl⟩ := hsent hmem
      simp [isFlowMod]
    refine Eq.trans ?_ (h.inFlight k w)
    simp only [NetworkState.inFlight, send_eq, List.countP_append, hnone, Nat.add_zero]
  · intro i hi p hp
    exact (h.held i hi p hp).imp_right fun hsent => ⟨hsent.1, List.mem_append_left _ hsent.2⟩
  · rintro sid w hw (hrelay | ⟨k, hk⟩ | hcur)
    · exact h.idle sid w hw (.inl hrelay)
    · refine h.idle sid w hw (.inr (.inl ⟨k, ?_⟩))
      refine (List.mem_append.mp hk).resolve_right fun hmem => ?_
      obtain ⟨p, heq⟩ := hsent hmem
      cases heq
    · exact h.idle sid w hw (.inr (.inr hcur))

/-- Only the version tables of the engine matter. -/
theorem Deployed.setEngine (h : Deployed c s) {e : ConfigurationEngine}
    (he : e.versions = s.engine.versions) : Deployed c { s with engine := e } := by
  obtain ⟨hkept, htagging, hadds, hinFlight, hrules, hheld, hidle⟩ := h
  rw [← he] at hkept hinFlight hheld hidle
  refine ⟨hkept, htagging, hadds, hinFlight, hrules, hheld, fun sid w hw hactive => ?_⟩
  refine hidle sid w hw ?_
  simpa [NetworkState.Active, he] using hactive

/-- A packet that is not an acknowledgement leaves a channel. -/
theorem Deployed.popPacketIn (h : Deployed c s) {k : ℕ} {p : EncapsulatedPacket}
    {rest : List EncapsulatedPacket} (hk : s.toController k = p :: rest)
    (hp : ∀ w, p ≠ .ackForFlowMod w) :
    Deployed c { s with toController := Function.update s.toController k rest } := by
  refine ⟨h.kept, h.tagging, h.adds, ?_, h.rules, h.held, h.idle⟩
  intro k' w
  refine Eq.trans ?_ (h.inFlight k' w)
  rcases eq_or_ne k' k with rfl | hne
  · simp [NetworkState.inFlight, hk, List.count_cons_of_ne (hp w)]
  · simp [NetworkState.inFlight, hne]

/-! ## Whole runs -/

/-- The condition on an event in a state: a call gives out versions that are in use nowhere,
a flow rule finds room in its table, and no rule expires. -/
def StepOk (s : NetworkState) : NetworkEvent → Prop
  | .frame k now _ => (s.switches k).table.Live now
  | .aging k now => (s.switches k).table.Live now
  | .configureDataPlane _ demandid sid newAssignments =>
    CallDeployable s (callTargets s.engine demandid sid newAssignments)
  | .deliverToSwitch k now _ => ∀ m rest, s.toSwitch k = .flowMod m :: rest →
    (s.switches k).table.Live now ∧ ((s.switches k).table.isFull now).1 = false ∧ now < maxTime
  | _ => True

theorem deployed_init {s : NetworkState} (h : (network c).init s) : Deployed c s := by
  obtain ⟨⟨idleTimeout, hardTimeout, priority, he⟩, hhistory, hswitches, hto, hfrom⟩ := h
  have hstart := kept_start (c := c) idleTimeout hardTimeout priority
  have hsw : ∀ k, (s.switches k).isTaggingEnabled = true ∧
      (s.switches k).streamActiveMatchVersionMap = ∅ := by
    intro k
    obtain ⟨now, n, interval, hk⟩ := hswitches k
    rw [hk]
    exact ⟨rfl, rfl⟩
  refine ⟨?_, fun k => (hsw k).1, ?_, ?_, ?_, ?_, ?_⟩
  · rw [he, hhistory]
    exact hstart
  · simp [hto]
  · simp [NetworkState.inFlight, hto, hfrom, he, ConfigurationEngine.start, VersionTables.start]
  · simp [hhistory]
  · simp [hhistory]
  · simp [NetworkState.Active, hsw, hto, he, ConfigurationEngine.start, VersionTables.start]

/-- A frame is tagged with the version that is active, or not at all. -/
theorem Deployed.frame (h : Deployed c s) {k : ℕ} {now : SimTime} {f : Frame}
    {out : List RelayOutput} {sw : EdgeSwitch} (hlive : (s.switches k).table.Live now)
    (hsw : (s.switches k).processDataPlanePacket now f = some (out, sw)) :
    Deployed c (s.setSwitch k sw []) := by
  obtain ⟨m, rfl⟩ := EdgeSwitch.processDataPlanePacket_eq_some hsw
  refine h.setSwitch ?_ (fun x hx => hx.lookup hlive m) ?_ (by simp)
  · rcases EdgeSwitch.tagFrame_eq (s.switches k) f with heq | ⟨sid, heq⟩ <;> rw [heq] <;>
      exact h.tagging k
  · intro sid w hw hmap
    rcases EdgeSwitch.tagFrame_eq (s.switches k) f with heq | ⟨sid', heq⟩
    · rw [heq] at hmap
      exact .inl ⟨k, hmap⟩
    · rw [heq] at hmap
      exact .inl ⟨k, (getElem?_insertIfNew_eq_some hmap).resolve_right hw⟩

/-- A call installs its paths one after the other, and a `ListenerReady` may follow. -/
theorem Deployed.configureDataPlane (hc : c.Addressed) (h : Deployed c s)
    {memory : OxmBasicMatch} {demandid : Int} {sid : UInt64} {assignments : List Assignment}
    {r : Configured}
    (hok : CallDeployable s (callTargets s.engine demandid sid assignments))
    (hr : Controller.configureDataPlane c memory s.engine demandid sid assignments = some r) :
    Deployed c { s with
      engine := r.engine
      history := installedOf r.installs ++ s.history
      toSwitch := send s.toSwitch (Configured.messages r) } := by
  obtain ⟨hchain, htargets, -⟩ := configureDataPlane_eq_some hr
  have hready := configureDataPlane_listenerReady hr
  have hall := h.installedAll hc hchain rfl (by rw [htargets]; exact hok)
  have hvendor : ∀ m ∈ r.listenerReady.toList, ∃ p, m.2 = .vendor p := by
    split_ifs at hready
    · simp [hready]
    · obtain ⟨info, vlan, hready⟩ := hready
      simp [hready]
  have hsent := (hall.sendVendor hvendor).setEngine (e := r.engine) rfl
  simpa [Configured.messages, send_append, NetworkState.installedAll] using hsent

/-- A switch processes the first message of its channel. -/
theorem Deployed.deliverToSwitch (h : Deployed c s) {k : ℕ} {now : SimTime} {addr : ℕ}
    {m : ToSwitch} {rest : List ToSwitch} {sw : EdgeSwitch} {out : List EdgeOutput}
    (hk : s.toSwitch k = m :: rest) (haddr : ∀ e ∈ (s.switches k).table.entries, e.addr ≠ addr)
    (hok : ∀ x, m = .flowMod x → (s.switches k).table.Live now ∧
      ((s.switches k).table.isFull now).1 = false ∧ now < maxTime)
    (hsw : (s.switches k).processControlPlanePacket now addr m = some (sw, out)) :
    Deployed c ({ s with toSwitch := Function.update s.toSwitch k rest }.setSwitch k sw out) := by
  cases m with
  | flowMod m =>
    obtain ⟨hlive, hroom, hnow⟩ := hok m rfl
    rw [EdgeSwitch.processControlPlanePacket, if_pos (h.tagging k),
      EdgeSwitch.handleFlowModMessagewithACK] at hsw
    split_ifs at hsw
    obtain ⟨rfl, rfl⟩ := Prod.mk.inj (Option.some.inj hsw)
    exact h.deliverFlowMod hk hlive hroom hnow haddr
  | packetOut p =>
    obtain ⟨rfl, rfl⟩ := Prod.mk.inj (Option.some.inj hsw)
    refine Deployed.pop (h.setSwitch ?_ ?_ ?_ (by simp)) hk (by simp)
    · rw [EdgeSwitch.handlePacketOutMessage_isTaggingEnabled]
      exact h.tagging k
    · intro x hx
      rwa [EdgeSwitch.handlePacketOutMessage_table]
    · intro sid w _ hmap
      rcases EdgeSwitch.handlePacketOutMessage_active _ _ hmap with hmap | rfl
      · exact .inl ⟨k, hmap⟩
      · exact .inr (.inl ⟨k, by simp [hk]⟩)
  | vendor p =>
    have hsw := Option.some.inj hsw
    obtain rfl : _ = sw := congrArg Prod.fst hsw
    obtain rfl : _ = out := congrArg Prod.snd hsw
    obtain ⟨ports, hports⟩ := EdgeSwitch.handleSRPFromController_eq (s.switches k) p
    refine Deployed.pop (h.setSwitch ?_ ?_ ?_ ?_) hk (by simp)
    · rw [hports]
      exact h.tagging k
    · rw [hports]
      exact fun x hx => hx
    · rw [hports]
      exact fun sid w _ hmap => .inl ⟨k, hmap⟩
    · rw [EdgeSwitch.handleSRPFromController_packetIn]
      simp

theorem deployed_step (hc : c.Addressed) {s s' : NetworkState} {ev : NetworkEvent}
    (h : Deployed c s) (hok : StepOk s ev) (hs : s.step c ev = some s') : Deployed c s' := by
  cases ev with
  | talkerAdvertise k port sid vlan source destination =>
    obtain rfl := Option.some.inj hs
    refine h.setSwitch (h.tagging k) (fun m hm => hm) (fun sid w _ hw => .inl ⟨k, hw⟩) ?_
    simp [EdgeOutput.packetIn]
  | frame k now f =>
    obtain ⟨⟨out, sw⟩, hsw, hs⟩ := Option.bind_eq_some_iff.mp hs
    obtain rfl := Option.some.inj hs
    exact h.frame hok hsw
  | aging k now =>
    obtain rfl := Option.some.inj hs
    exact h.setSwitch (h.tagging k) (fun x hx => hx.handleAging hok)
      (fun sid w _ hw => .inl ⟨k, hw⟩) (by simp)
  | configureDataPlane memory demandid sid assignments =>
    obtain ⟨r, hr, hs⟩ := Option.bind_eq_some_iff.mp hs
    obtain rfl := Option.some.inj hs
    exact h.configureDataPlane hc hok hr
  | deliverToSwitch k now addr =>
    obtain ⟨m, rest, sw, out, hk, haddr, hsw, rfl⟩ := deliverToSwitch_eq_some hs
    refine h.deliverToSwitch hk haddr ?_ hsw
    rintro x rfl
    exact hok x rest hk
  | deliverToController k memory =>
    obtain ⟨p, rest, hk, hs⟩ := deliverToController_eq_some hs
    cases p with
    | ackForFlowMod w =>
      obtain ⟨⟨v, messages⟩, hv, hs⟩ := Option.bind_eq_some_iff.mp hs
      obtain rfl := Option.some.inj hs
      exact h.deliverAck hk hv
    | talkerAdvertise sid vlan source destination =>
      obtain rfl := Option.some.inj hs
      exact (h.popPacketIn hk (by simp)).setEngine rfl
    | activationMessage w sid =>
      obtain rfl := Option.some.inj hs
      exact h.popPacketIn hk (by simp)
    | listenerReady sid vlan =>
      obtain rfl := Option.some.inj hs
      exact h.popPacketIn hk (by simp)

theorem deployed_of_reachableUnder (hc : c.Addressed)
    (h : (network c).ReachableUnder StepOk s) : Deployed c s :=
  h.invariant (fun _ => deployed_init) fun _ _ _ _ hP hok hs => deployed_step hc hP hok hs

/-- In every run whose steps meet the condition a version is in use only where its rules
are. -/
theorem usedWhenInstalled_of_reachableUnder (hc : c.Addressed)
    (h : (network c).ReachableUnder StepOk s) : s.UsedWhenInstalled c :=
  (deployed_of_reachableUnder hc h).usedWhenInstalled

def sampleNetwork : NetworkState where
  engine := .start true 0 0 0
  history := []
  switches := fun _ => .start true (.initTable 0 0 0)
  toSwitch := fun _ => []
  toController := fun _ => []

theorem sampleNetwork_init : (network sampleTables).init sampleNetwork :=
  ⟨⟨0, 0, 0, rfl⟩, rfl, fun _ => ⟨0, 0, 0, rfl⟩, fun _ => rfl, fun _ => rfl⟩

theorem sampleTables_addressed : sampleTables.Addressed := by
  intro i node info hi hinfo
  rcases i with _ | _ | _ | _ | _ | i <;> cases hi <;> cases hinfo <;> rfl

/-- The call that admits stream 7. -/
def admission : NetworkEvent := .configureDataPlane .zero 0 7 [⟨0, 1, [0, 1], 0⟩]

/-- Stream 7 is advertised and admitted. -/
theorem usedWhenInstalled_of_reachableUnder_sample : ∃ s,
    (network sampleTables).runFrom sampleNetwork
      [.talkerAdvertise 0 2 7 5 1 2, .deliverToController 0 0, admission] = some s ∧
    s.UsedWhenInstalled sampleTables := by
  have hsome : ((network sampleTables).runFrom sampleNetwork
      [.talkerAdvertise 0 2 7 5 1 2, .deliverToController 0 0, admission]).isSome := by
    decide
  obtain ⟨s, hs⟩ := Option.isSome_iff_exists.mp hsome
  obtain ⟨s₁, hs₁, h⟩ := Option.bind_eq_some_iff.mp hs
  obtain ⟨s₂, hs₂, h⟩ := Option.bind_eq_some_iff.mp h
  obtain ⟨s₃, hs₃, h⟩ := Option.bind_eq_some_iff.mp h
  obtain rfl := Option.some.inj h
  have hr₁ : (network sampleTables).ReachableUnder StepOk s₁ := by
    refine .step (.init sampleNetwork_init) ?_ hs₁
    trivial
  have hr₂ : (network sampleTables).ReachableUnder StepOk s₂ := by
    refine .step hr₁ ?_ hs₂
    trivial
  have hok : StepOk s₂ admission := by
    obtain rfl := Option.some.inj hs₁
    obtain rfl := Option.some.inj hs₂
    refine ⟨⟨by decide, ?_, by decide, by decide, ?_⟩, by decide, ?_⟩
    · rintro sid - w ⟨info, hinfo, -⟩
      cases hinfo
    · rintro j sid - sid' ⟨info, hinfo, -⟩
      cases hinfo
    · rintro j t - (⟨k, hk⟩ | ⟨k, hk⟩ | ⟨info, hinfo, -⟩)
      · rcases k with _ | k <;> cases hk
      · rcases k with _ | k <;> cases hk
      · cases hinfo
  refine ⟨s₃, hs, usedWhenInstalled_of_reachableUnder sampleTables_addressed ?_⟩
  exact .step hr₂ hok hs₃

/-- Streams 7 and 8 are advertised. In the call for stream 8 stream 7 gets a new path while
its first version is pending, so that the rules of both carry version 2. Switches 0 and 1
acknowledge the rules of version 2 for stream 7. -/
def overlapRun : List NetworkEvent :=
  [.talkerAdvertise 0 2 7 5 1 2, .deliverToController 0 0, .talkerAdvertise 0 2 8 6 1 2,
    .deliverToController 0 0, .configureDataPlane .zero 0 7 [⟨0, 1, [0, 1], 0⟩],
    .configureDataPlane .zero 1 8 [⟨0, 1, [0, 2, 1], 1⟩, ⟨1, 1, [0, 1], 0⟩],
    .deliverToSwitch 0 0 1, .deliverToSwitch 0 0 2, .deliverToSwitch 0 0 3,
    .deliverToSwitch 1 0 4, .deliverToSwitch 1 0 5, .deliverToController 0 0,
    .deliverToController 0 0, .deliverToController 1 0, .deliverToController 1 0]

/-- Stream 8 has version 2 as its current one and has been given the path from switch 0 to
switch 1 under it, but switch 0 has rules of the VLAN of stream 7 only. -/
def overlapCheck (s : NetworkState) : Bool :=
  ((s.engine.versions.streamFlowVersionTable[(8 : UInt64)]?).map VersionInfo.current ==
    some 2) &&
  (s.switches 0).table.entries.all (fun e => e.oxmMatch.ofbVlanVid == 5) &&
  s.history.any fun
    | .installed i =>
      i.streamId == 8 && i.dlVlan == 6 && i.matchVersion == 2 && i.path == [0, 1]
    | .acked _ _ => false

/-- Version 2 is the current version of stream 8, and its rules are still on their way. -/
theorem overlapRun_not_usedWhenInstalled : ∃ s, (network sampleTables).Reachable s ∧
    (∃ info, s.engine.versions.streamFlowVersionTable[(8 : UInt64)]? = some info ∧
      info.current = 2) ∧
    ¬ s.UsedWhenInstalled sampleTables := by
  have hrun : ((network sampleTables).runFrom sampleNetwork overlapRun).any overlapCheck := by
    decide
  obtain ⟨s, hs, hcheck⟩ := (Option.any_eq_true _ _).mp hrun
  simp only [overlapCheck, Bool.and_eq_true, beq_iff_eq, Option.map_eq_some_iff] at hcheck
  obtain ⟨⟨hcurrent, hentries⟩, hinstalled⟩ := hcheck
  refine ⟨s, System.reachable_of_runFrom sampleNetwork_init hs, hcurrent, fun h => ?_⟩
  obtain ⟨o, ho, hi⟩ := List.any_eq_true.mp hinstalled
  cases o with
  | acked w k => cases hi
  | installed i =>
    simp only [Bool.and_eq_true, beq_iff_eq] at hi
    obtain ⟨⟨⟨hsid, hvlan⟩, hversion⟩, hpath⟩ := hi
    obtain ⟨r, hr, -, e, he, hmatch, -⟩ :=
      h 8 2 (by decide) (.inr hcurrent) i ho hsid hversion 0 (by simp [hpath])
    have hfive : e.oxmMatch.ofbVlanVid = 5 := by
      simpa using List.all_eq_true.mp hentries e he
    have hsix : e.oxmMatch.ofbVlanVid = 6 := by
      rw [hmatch, RuleFor.ofbVlanVid hr, hvlan]
    rw [hfive] at hsix
    cases hsix

end TsnReconfig.Network
