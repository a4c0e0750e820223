import TsnReconfig.NetConf.ApplicationBase

/-!
# Configurations in time order

What an application sends over its sessions, and when, in every run of `NetConfApplicationBase`.
-/

namespace TsnReconfig.NetConf

open Lib OpenFlow

/-! ## The search -/

section
variable {now next : SimTime} {l : List (SimTime × Bool)} {i : ℕ} {index : Option ℕ}

/-- The search finds the first of the earliest times that wait, or keeps what it had. -/
theorem searchNext_spec (now : SimTime) (l : List (SimTime × Bool)) (i : ℕ) (index : Option ℕ)
    (next : SimTime) :
    (searchNext now l i index next = (index, next) ∨
      ∃ j, (searchNext now l i index next).1 = some (i + j) ∧
        l[j]? = some ((searchNext now l i index next).2, true) ∧
        now ≤ (searchNext now l i index next).2 ∧ (searchNext now l i index next).2 < next) ∧
    (searchNext now l i index next).2 ≤ next ∧
    ∀ t, (t, true) ∈ l → now ≤ t → (searchNext now l i index next).2 ≤ t := by
  induction l generalizing i index next with
  | nil => exact ⟨Or.inl rfl, le_refl _, fun t ht => absurd ht List.not_mem_nil⟩
  | cons head rest ih =>
    obtain ⟨time, waiting⟩ := head
    unfold searchNext
    split_ifs with hfound
    · obtain ⟨hlt, hnow, rfl⟩ := hfound
      obtain ⟨hcases, hle, hmin⟩ := ih (i + 1) (some i) time
      refine ⟨Or.inr ?_, hle.trans hlt.le, fun t ht hnow => ?_⟩
      · rcases hcases with heq | ⟨j, hj, hget, hnow', hlt'⟩
        · exact ⟨0, by rw [heq]; rfl, by rw [heq]; rfl, by rw [heq]; exact hnow,
            by rw [heq]; exact hlt⟩
        · exact ⟨j + 1, by rw [hj]; congr 1; omega, hget, hnow', hlt'.trans hlt⟩
      · rcases List.mem_cons.mp ht with heq | ht
        · cases heq
          exact hle
        · exact hmin t ht hnow
    · obtain ⟨hcases, hle, hmin⟩ := ih (i + 1) index next
      refine ⟨?_, hle, fun t ht hnow => ?_⟩
      · rcases hcases with heq | ⟨j, hj, hget, hnow', hlt'⟩
        · exact Or.inl heq
        · exact Or.inr ⟨j + 1, by rw [hj]; congr 1; omega, hget, hnow', hlt'⟩
      · rcases List.mem_cons.mp ht with heq | ht
        · cases heq
          by_contra hlt
          exact hfound ⟨(not_le.mp hlt).trans_le hle, hnow, rfl⟩
        · exact hmin t ht hnow

theorem searchNext_some {j : ℕ} (h : searchNext now l 0 none maxTime = (some j, next)) :
    l[j]? = some (next, true) ∧ now ≤ next ∧ ∀ t, (t, true) ∈ l → now ≤ t → next ≤ t := by
  obtain ⟨hcases, -, hmin⟩ := searchNext_spec now l 0 none maxTime
  rw [h] at hcases hmin
  rcases hcases with heq | ⟨k, hk, hget, hnow, -⟩
  · cases heq
  · rw [Nat.zero_add] at hk
    cases hk
    exact ⟨hget, hnow, hmin⟩

theorem searchNext_none (h : searchNext now l 0 none maxTime = (none, next)) {t : SimTime}
    (ht : (t, true) ∈ l) (hnow : now ≤ t) : maxTime ≤ t := by
  obtain ⟨hcases, -, hmin⟩ := searchNext_spec now l 0 none maxTime
  rw [h] at hcases hmin
  rcases hcases with heq | ⟨k, hk, -⟩
  · cases heq
    exact hmin t ht hnow
  · cases hk

end

/-! ## Connections by their indices -/

namespace TimedConnection
variable {connections : List TimedConnection} {i j k n : ℕ}

def stateAt (connections : List TimedConnection) (i : ℕ) : Option ConnectionState :=
  (connections[i]?).map (·.state)

def sessionAt (connections : List TimedConnection) (i : ℕ) : Option ℕ :=
  (connections[i]?).bind (·.sessionId)

def configurationAt (connections : List TimedConnection) (i j : ℕ) : Option TimedConfiguration :=
  (connections[i]?).bind (·.configurations[j]?)

@[simp] theorem stateAt_setState (state : ConnectionState) :
    stateAt (setState connections i state) k =
      if i = k then (stateAt connections k).map fun _ => state else stateAt connections k := by
  unfold stateAt setState
  rw [List.getElem?_modify]
  split_ifs <;> cases connections[k]? <;> rfl

@[simp] theorem sessionAt_setState (state : ConnectionState) :
    sessionAt (setState connections i state) k = sessionAt connections k := by
  unfold sessionAt setState
  rw [List.getElem?_modify]
  split_ifs <;> cases connections[k]? <;> rfl

@[simp] theorem configurationAt_setState (state : ConnectionState) :
    configurationAt (setState connections i state) k n = configurationAt connections k n := by
  unfold configurationAt setState
  rw [List.getElem?_modify]
  split_ifs <;> cases connections[k]? <;> rfl

@[simp] theorem stateAt_setConfigurationState (state : ConfigurationState) :
    stateAt (setConfigurationState connections i j state) k = stateAt connections k := by
  unfold stateAt setConfigurationState
  rw [List.getElem?_modify]
  split_ifs <;> cases connections[k]? <;> rfl

@[simp] theorem sessionAt_setConfigurationState (state : ConfigurationState) :
    sessionAt (setConfigurationState connections i j state) k = sessionAt connections k := by
  unfold sessionAt setConfigurationState
  rw [List.getElem?_modify]
  split_ifs <;> cases connections[k]? <;> rfl

theorem configurationAt_setConfigurationState (state : ConfigurationState) :
    configurationAt (setConfigurationState connections i j state) k n =
      (configurationAt connections k n).map fun config =>
        if i = k ∧ j = n then { config with state := state } else config := by
  unfold configurationAt setConfigurationState
  rw [List.getElem?_modify]
  cases connections[k]? with
  | none => split_ifs <;> rfl
  | some c =>
    by_cases hi : i = k
    · simp only [hi, if_true, Option.map_eq_map, Option.map_some, Option.bind_some,
        List.getElem?_modify, true_and]
    · simp [hi]

theorem configurationAt_set_self {cfg : TimedConfiguration} (state : ConfigurationState)
    (h : configurationAt connections i j = some cfg) :
    configurationAt (setConfigurationState connections i j state) i j =
      some { cfg with state := state } := by
  rw [configurationAt_setConfigurationState, h, Option.map_some, if_pos ⟨rfl, rfl⟩]

theorem configurationAt_set_of_ne (state : ConfigurationState) (h : ¬(i = k ∧ j = n)) :
    configurationAt (setConfigurationState connections i j state) k n =
      configurationAt connections k n := by
  rw [configurationAt_setConfigurationState]
  simp [h]

/-- A configuration after the state of one was set. -/
theorem of_configurationAt_set {state : ConfigurationState} {cfg' : TimedConfiguration}
    (h : configurationAt (setConfigurationState connections i j state) k n = some cfg') :
    ∃ cfg, configurationAt connections k n = some cfg ∧ cfg'.executeAt = cfg.executeAt ∧
      cfg'.operation = cfg.operation ∧
      ((i = k ∧ j = n) ∧ cfg'.state = state ∨ ¬(i = k ∧ j = n) ∧ cfg' = cfg) := by
  rw [configurationAt_setConfigurationState] at h
  obtain ⟨cfg, hcfg, rfl⟩ := Option.map_eq_some_iff.mp h
  split_ifs with hk
  · exact ⟨cfg, hcfg, rfl, rfl, Or.inl ⟨hk, rfl⟩⟩
  · exact ⟨cfg, hcfg, rfl, rfl, Or.inr ⟨hk, rfl⟩⟩

/-- A configuration in another state than the new one is as before. -/
theorem of_configurationAt_set_of_state {state : ConfigurationState} {cfg : TimedConfiguration}
    (h : configurationAt (setConfigurationState connections i j state) k n = some cfg)
    (hstate : cfg.state ≠ state) :
    ¬(i = k ∧ j = n) ∧ configurationAt connections k n = some cfg := by
  obtain ⟨cfg', hcfg, -, -, ⟨-, hset⟩ | ⟨hne, rfl⟩⟩ := of_configurationAt_set h
  · exact absurd hset hstate
  · exact ⟨hne, hcfg⟩

/-- The session of a connection when it is established. -/
theorem stateAt_establish (sessionId : ℕ) :
    stateAt (connections.modify i
        ({ · with sessionId := some sessionId, state := .established })) k =
      if i = k then (stateAt connections k).map fun _ => .established
      else stateAt connections k := by
  unfold stateAt
  rw [List.getElem?_modify]
  split_ifs <;> cases connections[k]? <;> rfl

theorem sessionAt_establish (sessionId : ℕ) (h : i < connections.length) :
    sessionAt (connections.modify i
        ({ · with sessionId := some sessionId, state := .established })) k =
      if i = k then some sessionId else sessionAt connections k := by
  unfold sessionAt
  rw [List.getElem?_modify]
  split_ifs with hk
  · subst hk
    rw [List.getElem?_eq_getElem h]
    rfl
  · cases connections[k]? <;> rfl

theorem configurationAt_establish (sessionId : ℕ) :
    configurationAt (connections.modify i
        ({ · with sessionId := some sessionId, state := .established })) k n =
      configurationAt connections k n := by
  unfold configurationAt
  rw [List.getElem?_modify]
  split_ifs <;> cases connections[k]? <;> rfl

/-- The last connection of a session, if it is the only one. -/
theorem findSession_eq {sessionId : ℕ} (hstate : stateAt connections i = some .established)
    (hsession : sessionAt connections i = some sessionId)
    (honly : ∀ k, sessionAt connections k = some sessionId → k = i) :
    findSession connections sessionId = some i := by
  have hmem : ∀ k, k ∈ ((List.range connections.length).filter fun i =>
      (connections[i]?).any fun c => c.state = .established ∧ c.sessionId = some sessionId) ↔
        k = i := by
    intro k
    rw [List.mem_filter, Option.any_eq_true]
    constructor
    · rintro ⟨-, c, hc, h⟩
      apply honly
      rw [sessionAt, hc]
      exact (of_decide_eq_true h).2
    · rintro rfl
      obtain ⟨c, hc, hstate⟩ := Option.map_eq_some_iff.mp hstate
      rw [sessionAt, hc] at hsession
      refine ⟨List.mem_range.mpr (List.getElem?_eq_some_iff.mp hc).1, c, hc, ?_⟩
      exact decide_eq_true ⟨hstate, hsession⟩
  unfold findSession
  cases hlast : List.getLast? _ with
  | none =>
    rw [List.getLast?_eq_none_iff] at hlast
    have := (hmem i).mpr rfl
    rw [hlast] at this
    cases this
  | some k => rw [(hmem k).mp (List.mem_of_getLast? hlast)]

end TimedConnection

/-! ## What holds in every run -/

/-- The state of a configuration after its newest reply. -/
def SentConfiguration.outcome (x : SentConfiguration) : ConfigurationState :=
  match x.reply with
  | none => .requested
  | some .error => .error
  | some _ => .success

theorem SentConfiguration.outcome_ne (x : SentConfiguration) :
    x.outcome ≠ .waiting ∧ x.outcome ≠ .scheduled := by
  unfold outcome
  split
  · exact ⟨by decide, by decide⟩
  · exact ⟨by decide, by decide⟩
  · exact ⟨by decide, by decide⟩

theorem SentConfiguration.noteReply_key (r : Reply) (x : SentConfiguration) :
    (x.noteReply r).connection = x.connection ∧ (x.noteReply r).configuration = x.configuration ∧
      (x.noteReply r).time = x.time ∧ (x.noteReply r).rpc = x.rpc := by
  unfold noteReply
  split_ifs
  · exact ⟨rfl, rfl, rfl, rfl⟩
  · exact ⟨rfl, rfl, rfl, rfl⟩

namespace ApplicationRun

open TimedConnection

/-- A configuration with its place among the connections. -/
def config (s : ApplicationRun) (i j : ℕ) : Option TimedConfiguration :=
  configurationAt s.connections i j

/-- A configuration of a connection was sent. -/
def Sent (s : ApplicationRun) (i j : ℕ) : Prop :=
  ∃ x ∈ s.sent, x.connection = i ∧ x.configuration = j

/-- What keeps the connections and their self messages together. For a connection that is `busy`
its next configuration is still to be scheduled. -/
structure Inv (s : ApplicationRun) (busy : Option ℕ) : Prop where
  future : ∀ p ∈ s.pending, s.now ≤ p.1
  onePending : (s.pending.map (·.2.connection)).Nodup
  hello : ∀ t i, (t, .sendHello i) ∈ s.pending → stateAt s.connections i = some .scheduled
  netconf : ∀ t i rpc, (t, .sendNetconf i rpc) ∈ s.pending →
    sessionAt s.connections i = some rpc.sessionId ∧
      ∃ j cfg, rpc.messageId = .change j ∧ s.config i j = some cfg ∧
        rpc.operation = cfg.operation ∧ cfg.state = .scheduled ∧ cfg.executeAt = t
  earliest : ∀ t i rpc, (t, .sendNetconf i rpc) ∈ s.pending →
    ∀ j cfg, s.config i j = some cfg → cfg.state = .waiting →
      ∀ since, (i, since) ∈ s.establishedAt → since ≤ cfg.executeAt → t ≤ cfg.executeAt
  session : ∀ i sid, sessionAt s.connections i = some sid →
    stateAt s.connections i = some .established ∧ sid ∈ s.sessions
  distinct : ∀ i k sid, sessionAt s.connections i = some sid →
    sessionAt s.connections k = some sid → i = k
  opened : ∀ i since, (i, since) ∈ s.establishedAt →
    (sessionAt s.connections i).isSome ∧ since ≤ s.now
  unopened : ∀ i j cfg, sessionAt s.connections i = none → s.config i j = some cfg →
    cfg.state = .waiting
  scheduled : ∀ i j cfg, s.config i j = some cfg → cfg.state = .scheduled →
    ∃ t rpc, (t, .sendNetconf i rpc) ∈ s.pending ∧ rpc.messageId = .change j
  armed : ∀ i j cfg, s.config i j = some cfg → cfg.state = .waiting →
    ∀ since, (i, since) ∈ s.establishedAt → since ≤ cfg.executeAt → some i ≠ busy →
      ∃ t rpc, (t, .sendNetconf i rpc) ∈ s.pending
  sent : ∀ x ∈ s.sent, sessionAt s.connections x.connection = some x.rpc.sessionId ∧
    x.rpc.messageId = .change x.configuration ∧
    ∃ cfg, s.config x.connection x.configuration = some cfg ∧
      cfg.executeAt = x.time ∧ x.rpc.operation = cfg.operation ∧ cfg.state = x.outcome
  once : (s.sent.map fun x => (x.connection, x.configuration)).Nodup
  times : (s.sent.map (·.time)).Pairwise (· ≤ ·)
  past : ∀ x ∈ s.sent, x.time ≤ s.now
  logged : ∀ i j cfg, s.config i j = some cfg → cfg.state = .waiting ∨ cfg.state = .scheduled ∨
    s.Sent i j
  bounded : ∀ i j cfg, s.config i j = some cfg → cfg.executeAt < maxTime

variable {s s' : ApplicationRun} {busy : Option ℕ} {i j : ℕ}

theorem Inv.advance {t : SimTime} (h : s.Inv none) (ht : s.now ≤ t)
    (hpending : ∀ p ∈ s.pending, t ≤ p.1) : Inv { s with now := t } none :=
  { h with
    future := hpending
    opened := fun i since hi => ⟨(h.opened i since hi).1, (h.opened i since hi).2.trans ht⟩
    past := fun x hx => (h.past x hx).trans ht }

/-- A connection that is waiting has no self message. -/
theorem Inv.not_pending (h : s.Inv busy) (hscheduled : stateAt s.connections i ≠ some .scheduled)
    (hsession : sessionAt s.connections i = none) : ∀ p ∈ s.pending, p.2.connection ≠ i := by
  rintro ⟨t, m⟩ hp rfl
  cases m with
  | sendHello k => exact hscheduled (h.hello t k hp)
  | sendNetconf k rpc =>
    have hsome := (h.netconf t k rpc hp).1
    rw [SelfMessage.connection] at hsession
    rw [hsession] at hsome
    cases hsome

/-- A new self message for a connection that has none. -/
theorem onePending_append {pending : List (SimTime × SelfMessage)} {t : SimTime} {m : SelfMessage}
    (h : (pending.map (·.2.connection)).Nodup)
    (hnone : ∀ p ∈ pending, p.2.connection ≠ m.connection) :
    ((pending ++ [(t, m)]).map (·.2.connection)).Nodup := by
  rw [List.map_append]
  refine List.Nodup.append h (List.nodup_singleton _) ?_
  intro k hk hm
  obtain ⟨p, hp, rfl⟩ := List.mem_map.mp hk
  exact hnone p hp (List.mem_singleton.mp hm)

/-- A connection without a session changes its state, and the hellos change with it. -/
theorem Inv.setState (h : s.Inv busy) {pending : List (SimTime × SelfMessage)}
    {state : ConnectionState} (hi : sessionAt s.connections i = none)
    (hfuture : ∀ p ∈ pending, s.now ≤ p.1) (honePending : (pending.map (·.2.connection)).Nodup)
    (hhello : ∀ t k, (t, .sendHello k) ∈ pending →
      stateAt (setState s.connections i state) k = some .scheduled)
    (hnetconf : ∀ t k rpc, (t, .sendNetconf k rpc) ∈ pending ↔
      (t, .sendNetconf k rpc) ∈ s.pending) :
    Inv { s with connections := setState s.connections i state, pending := pending } busy := by
  have hconfig : ∀ k j, configurationAt (TimedConnection.setState s.connections i state) k j =
      s.config k j := fun k j => configurationAt_setState state
  refine
    { future := hfuture
      onePending := honePending
      hello := hhello
      netconf := fun t k rpc hp => ?_
      earliest := fun t k rpc hp => ?_
      session := fun k sid hk => ?_
      distinct := fun k k' sid => ?_
      opened := fun k since hk => ?_
      unopened := fun k j cfg hk => ?_
      scheduled := fun k j cfg hk hcfg => ?_
      armed := fun k j cfg hk hcfg since hs hle hbusy => ?_
      sent := fun x hx => ?_
      once := h.once
      times := h.times
      past := h.past
      logged := fun k j cfg hk => ?_
      bounded := fun k j cfg hk => ?_ }
  all_goals
    simp only [config, sessionAt_setState, hconfig] at *
  · exact h.netconf t k rpc ((hnetconf t k rpc).mp hp)
  · exact h.earliest t k rpc ((hnetconf t k rpc).mp hp)
  · -- a connection with a session is not the one that changes
    obtain ⟨hstate, hsid⟩ := h.session k sid hk
    refine ⟨?_, hsid⟩
    rw [stateAt_setState, if_neg, hstate]
    rintro rfl
    cases hi.symm.trans hk
  · exact h.distinct k k' sid
  · exact h.opened k since hk
  · exact h.unopened k j cfg hk
  · obtain ⟨t, rpc, hp, hid⟩ := h.scheduled k j cfg hk hcfg
    exact ⟨t, rpc, (hnetconf t k rpc).mpr hp, hid⟩
  · obtain ⟨t, rpc, hp⟩ := h.armed k j cfg hk hcfg since hs hle hbusy
    exact ⟨t, rpc, (hnetconf t k rpc).mpr hp⟩
  · exact h.sent x hx
  · exact h.logged k j cfg hk
  · exact h.bounded k j cfg hk

/-- The next hello. -/
theorem Inv.scheduleNextConnection (h : s.Inv busy) :
    (s.continueWith (scheduleNextConnection s.now s.connections)).Inv busy := by
  unfold TimedConnection.scheduleNextConnection
  split
  · rename_i i next hsearch
    obtain ⟨hget, hnow, -⟩ := searchNext_some hsearch
    rw [List.getElem?_map] at hget
    obtain ⟨c, hc, heq⟩ := Option.map_eq_some_iff.mp hget
    obtain ⟨-, hwaiting⟩ := Prod.mk.inj heq
    have hstate : stateAt s.connections i = some .waiting := by
      rw [stateAt, hc, Option.map_some, of_decide_eq_true hwaiting]
    have hsession : sessionAt s.connections i = none := by
      cases hsid : sessionAt s.connections i with
      | none => rfl
      | some sid => cases hstate.symm.trans (h.session i sid hsid).1
    have hnone := h.not_pending (i := i) (by simp [hstate]) hsession
    refine h.setState hsession (fun p hp => ?_) (onePending_append h.onePending hnone)
      (fun t k hp => ?_) fun t k rpc => ?_
    · rcases List.mem_append.mp hp with hp | hp
      · exact h.future p hp
      · rw [List.mem_singleton.mp hp]
        exact hnow
    · rw [stateAt_setState]
      rcases List.mem_append.mp hp with hp | hp
      · have hk : i ≠ k := fun hik => hnone _ hp hik.symm
        rw [if_neg hk]
        exact h.hello t k hp
      · cases List.mem_singleton.mp hp
        rw [if_pos rfl, hstate, Option.map_some]
    · simp
  · simpa [continueWith] using h

/-- A hello is sent. -/
theorem Inv.sendHello (h : s.Inv none) (hp : (s.now, .sendHello i) ∈ s.pending) :
    Inv { s with
      connections := TimedConnection.setState s.connections i .requested
      pending := s.pending.erase (s.now, .sendHello i) } none := by
  have hstate := h.hello _ _ hp
  have hsession : sessionAt s.connections i = none := by
    cases hsid : sessionAt s.connections i with
    | none => rfl
    | some sid => cases hstate.symm.trans (h.session i sid hsid).1
  have hnodup : s.pending.Nodup := h.onePending.of_map _
  refine h.setState hsession (fun p hp => h.future p (List.mem_of_mem_erase hp))
    (h.onePending.sublist (List.erase_sublist.map _)) (fun t k hk => ?_) fun t k rpc => ?_
  · obtain ⟨hne, hk⟩ := hnodup.mem_erase_iff.mp hk
    have hik : i ≠ k := by
      rintro rfl
      exact hne (List.inj_on_of_nodup_map h.onePending hk hp rfl)
    rw [stateAt_setState, if_neg hik]
    exact h.hello t k hk
  · rw [hnodup.mem_erase_iff]
    simp

/-! ### The state of a configuration is set -/

section SetConfigurationState
variable {state : ConfigurationState}

/-- The messages for other configurations are as before. -/
theorem Inv.netconf_set (h : s.Inv busy) {t : SimTime} {k : ℕ} {rpc : RPC}
    (hp : (t, .sendNetconf k rpc) ∈ s.pending)
    (hne : ∀ n, rpc.messageId = .change n → ¬(i = k ∧ j = n)) :
    sessionAt s.connections k = some rpc.sessionId ∧ ∃ n cfg, rpc.messageId = .change n ∧
      configurationAt (setConfigurationState s.connections i j state) k n = some cfg ∧
      rpc.operation = cfg.operation ∧ cfg.state = .scheduled ∧ cfg.executeAt = t := by
  obtain ⟨hsid, n, cfg, hid, hn, hrest⟩ := h.netconf t k rpc hp
  exact ⟨hsid, n, cfg, hid, (configurationAt_set_of_ne _ (hne n hid)).trans hn, hrest⟩

theorem Inv.unopened_set (h : s.Inv busy) {sid : ℕ} (hi : sessionAt s.connections i = some sid)
    {k n : ℕ} {cfg : TimedConfiguration} (hk : sessionAt s.connections k = none)
    (hn : configurationAt (setConfigurationState s.connections i j state) k n = some cfg) :
    cfg.state = .waiting := by
  obtain ⟨cfg', hn', -, -, ⟨⟨rfl, -⟩, -⟩ | ⟨-, rfl⟩⟩ := of_configurationAt_set hn
  · cases hk.symm.trans hi
  · exact h.unopened k n cfg hk hn'

/-- What was sent for other configurations has their states. -/
theorem Inv.sent_set (h : s.Inv busy) {x : SentConfiguration} (hx : x ∈ s.sent)
    (hne : ¬(i = x.connection ∧ j = x.configuration)) :
    sessionAt s.connections x.connection = some x.rpc.sessionId ∧
      x.rpc.messageId = .change x.configuration ∧
      ∃ cfg, configurationAt (setConfigurationState s.connections i j state) x.connection
          x.configuration = some cfg ∧
        cfg.executeAt = x.time ∧ x.rpc.operation = cfg.operation ∧ cfg.state = x.outcome := by
  obtain ⟨hsid, hid, cfg, hn, hrest⟩ := h.sent x hx
  exact ⟨hsid, hid, cfg, (configurationAt_set_of_ne _ hne).trans hn, hrest⟩

theorem Inv.bounded_set (h : s.Inv busy) {k n : ℕ} {cfg : TimedConfiguration}
    (hn : configurationAt (setConfigurationState s.connections i j state) k n = some cfg) :
    cfg.executeAt < maxTime := by
  obtain ⟨cfg', hn', htime, -⟩ := of_configurationAt_set hn
  rw [htime]
  exact h.bounded k n cfg' hn'

end SetConfigurationState

/-- The next configuration of a connection without a self message is scheduled. -/
theorem Inv.scheduleConfiguration {sid : ℕ} {cfg : TimedConfiguration} (h : s.Inv (some i))
    (hsession : sessionAt s.connections i = some sid)
    (hnone : ∀ p ∈ s.pending, p.2.connection ≠ i) (hcfg : s.config i j = some cfg)
    (hwaiting : cfg.state = .waiting) (hnow : s.now ≤ cfg.executeAt)
    (hmin : ∀ n cfg', s.config i n = some cfg' → cfg'.state = .waiting →
      ∀ since, (i, since) ∈ s.establishedAt → since ≤ cfg'.executeAt →
        cfg.executeAt ≤ cfg'.executeAt) :
    Inv { s with
      connections := setConfigurationState s.connections i j .scheduled
      pending := s.pending ++ [(cfg.executeAt, .sendNetconf i (createRPC sid cfg j))] } none := by
  refine
    { future := fun p hp => ?_
      onePending := onePending_append h.onePending hnone
      hello := fun t k hp => ?_
      netconf := fun t k rpc hp => ?_
      earliest := fun t k rpc hp n cfg₁ hn hn' since hs hle => ?_
      session := fun k sid' hk => ?_
      distinct := fun k k' sid' => ?_
      opened := fun k since hk => ?_
      unopened := fun k n cfg₁ hk hn => ?_
      scheduled := fun k n cfg₁ hn hn' => ?_
      armed := fun k n cfg₁ hn hn' since hs hle _ => ?_
      sent := fun x hx => ?_
      once := h.once
      times := h.times
      past := h.past
      logged := fun k n cfg₁ hn => ?_
      bounded := fun k n cfg₁ hn => ?_ }
  all_goals
    simp only [config, sessionAt_setConfigurationState, stateAt_setConfigurationState] at *
  · rcases List.mem_append.mp hp with hp | hp
    · exact h.future p hp
    · rw [List.mem_singleton.mp hp]
      exact hnow
  · rcases List.mem_append.mp hp with hp | hp
    · exact h.hello t k hp
    · cases List.mem_singleton.mp hp
  · rcases List.mem_append.mp hp with hp | hp
    · exact h.netconf_set hp fun n _ hk => hnone _ hp hk.1.symm
    · cases List.mem_singleton.mp hp
      exact ⟨hsession, j, _, rfl, configurationAt_set_self .scheduled hcfg, rfl, rfl, rfl⟩
  · obtain ⟨-, hn₂⟩ := of_configurationAt_set_of_state hn (by simp [hn'])
    rcases List.mem_append.mp hp with hp | hp
    · exact h.earliest t k rpc hp n cfg₁ hn₂ hn' since hs hle
    · cases List.mem_singleton.mp hp
      exact hmin n cfg₁ hn₂ hn' since hs hle
  · exact h.session k sid' hk
  · exact h.distinct k k' sid'
  · exact h.opened k since hk
  · exact h.unopened_set hsession hk hn
  · obtain ⟨cfg₂, hn₂, -, -, ⟨⟨rfl, rfl⟩, -⟩ | ⟨-, rfl⟩⟩ := of_configurationAt_set hn
    · exact ⟨_, _, List.mem_append_right _ (List.mem_singleton_self _), rfl⟩
    · obtain ⟨t, rpc, hp, hid⟩ := h.scheduled k n cfg₁ hn₂ hn'
      exact ⟨t, rpc, List.mem_append_left _ hp, hid⟩
  · obtain ⟨-, hn₂⟩ := of_configurationAt_set_of_state hn (by simp [hn'])
    by_cases hk : i = k
    · subst hk
      exact ⟨_, _, List.mem_append_right _ (List.mem_singleton_self _)⟩
    · obtain ⟨t, rpc, hp⟩ := h.armed k n cfg₁ hn₂ hn' since hs hle
        fun hki => hk (Option.some.inj hki).symm
      exact ⟨t, rpc, List.mem_append_left _ hp⟩
  · refine h.sent_set hx ?_
    rintro ⟨rfl, rfl⟩
    obtain ⟨-, -, cfg₁, hn, -, -, hn'⟩ := h.sent x hx
    cases hcfg.symm.trans hn
    exact x.outcome_ne.1 (hn'.symm.trans hwaiting)
  · obtain ⟨cfg₂, hn₂, -, -, ⟨-, hset⟩ | ⟨-, rfl⟩⟩ := of_configurationAt_set hn
    · exact Or.inr (Or.inl hset)
    · exact h.logged k n cfg₁ hn₂
  · exact h.bounded_set hn

/-- The next configuration of a connection. -/
theorem Inv.scheduleNextConfigurationFor {sid : ℕ} (h : s.Inv (some i))
    (hsession : sessionAt s.connections i = some sid)
    (hnone : ∀ p ∈ s.pending, p.2.connection ≠ i)
    (hlater : ∀ j cfg, s.config i j = some cfg → cfg.state = .waiting →
      ∀ since, (i, since) ∈ s.establishedAt → since ≤ cfg.executeAt → s.now ≤ cfg.executeAt) :
    (s.continueWith (scheduleNextConfigurationFor s.now s.connections i)).Inv none := by
  obtain ⟨c, hc, hcsession⟩ := Option.bind_eq_some_iff.mp hsession
  have hstate := (h.session i sid hsession).1
  rw [stateAt, hc, Option.map_some, Option.some.injEq] at hstate
  have hconfig : ∀ j, s.config i j = c.configurations[j]? := by
    intro j
    rw [config, configurationAt, hc, Option.bind_some]
  have hmem : ∀ j cfg, s.config i j = some cfg → cfg.state = .waiting →
      (cfg.executeAt, true) ∈ c.configurations.map fun config =>
        (config.executeAt, decide (config.state = .waiting)) := by
    intro j cfg hcfg hwaiting
    rw [hconfig] at hcfg
    exact List.mem_map.mpr ⟨cfg, List.mem_of_getElem? hcfg, by rw [hwaiting]; rfl⟩
  unfold TimedConnection.scheduleNextConfigurationFor
  rw [hc]
  dsimp only
  rw [if_pos hstate]
  -- the earliest configuration that is not past, or none is left before `maxTime`
  split
  · rename_i j next hsearch
    obtain ⟨hget, hnow, hmin⟩ := searchNext_some hsearch
    rw [List.getElem?_map] at hget
    obtain ⟨cfg, hcfg, heq⟩ := Option.map_eq_some_iff.mp hget
    obtain ⟨rfl, hwaiting⟩ := Prod.mk.inj heq
    rw [hcsession, hcfg]
    simp only [Option.bind_some, Option.map_some, Option.toList_some]
    exact h.scheduleConfiguration hsession hnone ((hconfig j).trans hcfg)
      (of_decide_eq_true hwaiting) hnow fun n cfg' hn hn' since hs hle =>
        hmin _ (hmem n cfg' hn hn') (hlater n cfg' hn hn' since hs hle)
  · rename_i next hsearch
    refine { h with
      future := by simpa [continueWith] using h.future
      onePending := by simpa [continueWith] using h.onePending
      hello := by simpa [continueWith] using h.hello
      netconf := by simpa [continueWith] using h.netconf
      earliest := by simpa [continueWith] using h.earliest
      scheduled := by simpa [continueWith] using h.scheduled
      armed := fun k n cfg hn hn' since hs hle _ => ?_ }
    by_cases hk : i = k
    · subst hk
      have hmax := searchNext_none hsearch (hmem n cfg hn hn') (hlater n cfg hn hn' since hs hle)
      exact absurd (h.bounded _ n cfg hn) (not_lt.mpr hmax)
    · obtain ⟨t, rpc, hp⟩ := h.armed k n cfg hn hn' since hs hle
        fun hki => hk (Option.some.inj hki).symm
      exact ⟨t, rpc, by simpa [continueWith] using hp⟩

/-- A run without a self message of a connection that was delivered. -/
theorem pending_erase (h : s.Inv busy) {t : SimTime} {m : SelfMessage} (hp : (t, m) ∈ s.pending) :
    ∀ p ∈ s.pending.erase (t, m), p ∈ s.pending ∧ p.2.connection ≠ m.connection := by
  intro p hmem
  obtain ⟨hne, hmem⟩ := (List.Nodup.mem_erase_iff (h.onePending.of_map _)).mp hmem
  exact ⟨hmem, fun hm => hne (List.inj_on_of_nodup_map h.onePending hmem hp hm)⟩

/-- A configuration is sent. -/
theorem Inv.sendNetconf {rpc : RPC} (h : s.Inv none)
    (hp : (s.now, .sendNetconf i rpc) ∈ s.pending) :
    Inv { s with
      connections := setConfigurationState s.connections i rpc.messageId.atoi .requested
      pending := s.pending.erase (s.now, .sendNetconf i rpc)
      sent := s.sent ++ [⟨i, rpc.messageId.atoi, s.now, rpc, none⟩] } (some i) := by
  obtain ⟨hsession, j, cfg, hid, hcfg, hoperation, hscheduled, htime⟩ := h.netconf _ _ _ hp
  have hatoi : rpc.messageId.atoi = j := by rw [hid, MessageId.atoi]
  rw [hatoi]
  have herase := pending_erase h hp
  have hsub : s.pending.erase (s.now, .sendNetconf i rpc) ⊆ s.pending := List.erase_subset
  -- the configuration was not sent before
  have hnot : ∀ x ∈ s.sent, (x.connection, x.configuration) ≠ (i, j) := by
    intro x hx heq
    obtain ⟨-, -, cfg', hcfg', -, -, hstate⟩ := h.sent x hx
    obtain ⟨rfl, rfl⟩ := Prod.mk.inj heq
    cases hcfg.symm.trans hcfg'
    exact x.outcome_ne.2 (hstate.symm.trans hscheduled)
  refine
    { future := fun p hp => h.future p (hsub hp)
      onePending := h.onePending.sublist (List.erase_sublist.map _)
      hello := fun t k hk => ?_
      netconf := fun t k rpc hk => ?_
      earliest := fun t k rpc hk n cfg₁ hn hn' since hs hle => ?_
      session := fun k sid hk => ?_
      distinct := fun k k' sid => ?_
      opened := fun k since hk => ?_
      unopened := fun k n cfg₁ hk hn => ?_
      scheduled := fun k n cfg₁ hn hn' => ?_
      armed := fun k n cfg₁ hn hn' since hs hle hbusy => ?_
      sent := fun x hx => ?_
      once := ?_
      times := ?_
      past := fun x hx => ?_
      logged := fun k n cfg₁ hn => ?_
      bounded := fun k n cfg₁ hn => ?_ }
  all_goals
    simp only [config, sessionAt_setConfigurationState, stateAt_setConfigurationState] at *
  · exact h.hello t k (hsub hk)
  · exact h.netconf_set (hsub hk) fun n _ hik => (herase _ hk).2 hik.1.symm
  · obtain ⟨-, hn₂⟩ := of_configurationAt_set_of_state hn (by simp [hn'])
    exact h.earliest t k rpc (hsub hk) n cfg₁ hn₂ hn' since hs hle
  · exact h.session k sid hk
  · exact h.distinct k k' sid
  · exact h.opened k since hk
  · exact h.unopened_set hsession hk hn
  · obtain ⟨hne, hn₂⟩ := of_configurationAt_set_of_state hn (by simp [hn'])
    obtain ⟨t, rpc', hp', hid'⟩ := h.scheduled k n cfg₁ hn₂ hn'
    refine ⟨t, rpc', (List.Nodup.mem_erase_iff (h.onePending.of_map _)).mpr ⟨?_, hp'⟩, hid'⟩
    rintro heq
    cases heq
    cases hid.symm.trans hid'
    exact hne ⟨rfl, rfl⟩
  · obtain ⟨-, hn₂⟩ := of_configurationAt_set_of_state hn (by simp [hn'])
    obtain ⟨t, rpc', hp'⟩ := h.armed k n cfg₁ hn₂ hn' since hs hle (by simp)
    refine ⟨t, rpc', (List.Nodup.mem_erase_iff (h.onePending.of_map _)).mpr ⟨?_, hp'⟩⟩
    rintro heq
    cases heq
    exact hbusy rfl
  · rcases List.mem_append.mp hx with hx | hx
    · exact h.sent_set hx fun hxi => hnot x hx (Prod.ext hxi.1.symm hxi.2.symm)
    · cases List.mem_singleton.mp hx
      exact ⟨hsession, hid, _, configurationAt_set_self .requested hcfg, htime, hoperation, rfl⟩
  · rw [List.map_append]
    refine List.Nodup.append h.once (List.nodup_singleton _) fun key hkey hnew => ?_
    obtain ⟨x, hx, rfl⟩ := List.mem_map.mp hkey
    exact hnot x hx (List.mem_singleton.mp hnew)
  · rw [List.map_append]
    refine List.pairwise_append.mpr ⟨h.times, List.pairwise_singleton _ _, fun t ht t' ht' => ?_⟩
    obtain ⟨x, hx, rfl⟩ := List.mem_map.mp ht
    rw [List.mem_singleton.mp ht']
    exact h.past x hx
  · rcases List.mem_append.mp hx with hx | hx
    · exact h.past x hx
    · rw [List.mem_singleton.mp hx]
  · obtain ⟨cfg₂, hn₂, -, -, ⟨⟨rfl, rfl⟩, -⟩ | ⟨-, rfl⟩⟩ := of_configurationAt_set hn
    · exact Or.inr (Or.inr ⟨_, List.mem_append_right _ (List.mem_singleton_self _), rfl, rfl⟩)
    · refine (h.logged k n cfg₁ hn₂).imp_right (Or.imp_right ?_)
      rintro ⟨x, hx, hkey⟩
      exact ⟨x, List.mem_append_left _ hx, hkey⟩
  · exact h.bounded_set hn

/-- A connection whose hello was sent is established with a new session. -/
theorem Inv.establish {sid : ℕ} (h : s.Inv none) (hnew : sid ∉ s.sessions)
    (hstate : stateAt s.connections i = some .requested) :
    Inv { s with
      connections := s.connections.modify i
        ({ · with sessionId := some sid, state := .established })
      sessions := sid :: s.sessions
      establishedAt := (i, s.now) :: s.establishedAt } (some i) := by
  have hlength : i < s.connections.length := by
    obtain ⟨c, hc, -⟩ := Option.map_eq_some_iff.mp hstate
    exact (List.getElem?_eq_some_iff.mp hc).1
  have hnone : sessionAt s.connections i = none := by
    cases hsid : sessionAt s.connections i with
    | none => rfl
    | some sid' => cases hstate.symm.trans (h.session i sid' hsid).1
  have hne : ∀ k sid', sessionAt s.connections k = some sid' → i ≠ k := by
    rintro k sid' hk rfl
    cases hnone.symm.trans hk
  refine
    { future := h.future
      onePending := h.onePending
      hello := fun t k hk => ?_
      netconf := fun t k rpc hk => ?_
      earliest := fun t k rpc hk n cfg hn hn' since hs hle => ?_
      session := fun k sid' hk => ?_
      distinct := fun k k' sid' hk hk' => ?_
      opened := fun k since hk => ?_
      unopened := fun k n cfg hk hn => ?_
      scheduled := fun k n cfg hn hn' => ?_
      armed := fun k n cfg hn hn' since hs hle hbusy => ?_
      sent := fun x hx => ?_
      once := h.once
      times := h.times
      past := h.past
      logged := fun k n cfg hn => ?_
      bounded := fun k n cfg hn => ?_ }
  all_goals
    simp only [config, sessionAt_establish sid hlength, stateAt_establish,
      configurationAt_establish] at *
  · have hk' := h.hello t k hk
    rw [if_neg, hk']
    rintro rfl
    cases hstate.symm.trans hk'
  · obtain ⟨hsid, hrest⟩ := h.netconf t k rpc hk
    rw [if_neg (hne k _ hsid)]
    exact ⟨hsid, hrest⟩
  · rcases List.mem_cons.mp hs with heq | hs
    · cases heq
      cases hnone.symm.trans (h.netconf _ _ _ hk).1
    · exact h.earliest t k rpc hk n cfg hn hn' since hs hle
  · split_ifs at hk ⊢ with hik
    · subst hik
      cases hk
      rw [hstate]
      exact ⟨rfl, List.mem_cons_self ..⟩
    · exact ⟨(h.session k sid' hk).1, List.mem_cons_of_mem _ (h.session k sid' hk).2⟩
  · -- the new session is that of no other connection
    split_ifs at hk hk' with hik hik' hik'
    · exact hik.symm.trans hik'
    · cases hk
      exact absurd (h.session k' sid hk').2 hnew
    · cases hk'
      exact absurd (h.session k sid hk).2 hnew
    · exact h.distinct k k' sid' hk hk'
  · rcases List.mem_cons.mp hk with heq | hk
    · cases heq
      rw [if_pos rfl]
      exact ⟨rfl, le_refl _⟩
    · obtain ⟨hsome, hle⟩ := h.opened k since hk
      refine ⟨?_, hle⟩
      split_ifs
      · rfl
      · exact hsome
  · split_ifs at hk
    exact h.unopened k n cfg hk hn
  · exact h.scheduled k n cfg hn hn'
  · rcases List.mem_cons.mp hs with heq | hs
    · cases heq
      -- the first configuration of this connection is still to be scheduled
      exact absurd rfl hbusy
    · exact h.armed k n cfg hn hn' since hs hle (by simp)
  · obtain ⟨hsid, hrest⟩ := h.sent x hx
    rw [if_neg (hne _ _ hsid)]
    exact ⟨hsid, hrest⟩
  · exact h.logged k n cfg hn
  · exact h.bounded k n cfg hn

/-- A reply that does not carry data sets the state of the configuration of its request. -/
theorem Inv.handleReply {r : Reply} {x : SentConfiguration} (h : s.Inv none) (hx : x ∈ s.sent)
    (hr : x.answeredBy r) (hdata : r.element ≠ .data) :
    ∃ state, (∀ y, y.answeredBy r → (SentConfiguration.noteReply r y).outcome = state) ∧
      TimedConnection.handleReply s.connections r =
        setConfigurationState s.connections x.connection x.configuration state := by
  obtain ⟨hsid, hid⟩ := of_decide_eq_true hr
  obtain ⟨hsession, hmessage, -⟩ := h.sent x hx
  rw [hsid] at hsession
  have hfind : findSession s.connections r.sessionId = some x.connection :=
    findSession_eq (h.session _ _ hsession).1 hsession fun k hk => h.distinct k _ _ hk hsession
  have hatoi : r.messageId.atoi = x.configuration := by
    rw [← hid, hmessage, MessageId.atoi]
  unfold TimedConnection.handleReply
  rw [hfind, hatoi]
  cases helement : r.element with
  | data => exact absurd helement hdata
  | ok =>
    refine ⟨.success, fun y hy => ?_, rfl⟩
    rw [SentConfiguration.noteReply, if_pos hy, SentConfiguration.outcome, helement]
  | error =>
    refine ⟨.error, fun y hy => ?_, rfl⟩
    rw [SentConfiguration.noteReply, if_pos hy, SentConfiguration.outcome, helement]

/-- The requests that a reply belongs to are those for one configuration. -/
theorem Inv.answeredBy_iff {r : Reply} {x y : SentConfiguration} (h : s.Inv busy) (hx : x ∈ s.sent)
    (hr : x.answeredBy r) (hy : y ∈ s.sent) :
    y.answeredBy r ↔ x.connection = y.connection ∧ x.configuration = y.configuration := by
  obtain ⟨hsession, hmessage, -⟩ := h.sent x hx
  obtain ⟨hysession, hymessage, -⟩ := h.sent y hy
  obtain ⟨hsid, hid⟩ := of_decide_eq_true hr
  constructor
  · intro hyr
    obtain ⟨hsid', hid'⟩ := of_decide_eq_true hyr
    refine ⟨h.distinct _ _ _ hsession (by rw [hysession, hsid, hsid']), ?_⟩
    exact MessageId.change.inj (hmessage.symm.trans ((hid.trans hid'.symm).trans hymessage))
  · rintro ⟨hconnection, hconfiguration⟩
    rw [hconnection, hysession] at hsession
    refine decide_eq_true ⟨(Option.some.inj hsession).trans hsid, ?_⟩
    rw [hymessage, ← hconfiguration, ← hmessage, hid]

theorem Inv.reply {r : Reply} {x : SentConfiguration} (h : s.Inv none) (hx : x ∈ s.sent)
    (hr : x.answeredBy r) (hdata : r.element ≠ .data) :
    Inv { s with
      connections := TimedConnection.handleReply s.connections r
      sent := s.sent.map (SentConfiguration.noteReply r) } none := by
  obtain ⟨state, houtcome, hreply⟩ := h.handleReply hx hr hdata
  have hstate := houtcome x hr ▸ (SentConfiguration.noteReply r x).outcome_ne
  obtain ⟨hsession, -, cfg, hcfg, -, -, hcfgstate⟩ := h.sent x hx
  have hcfgne := hcfgstate ▸ x.outcome_ne
  rw [hreply]
  refine
    { future := h.future
      onePending := h.onePending
      hello := fun t k hk => ?_
      netconf := fun t k rpc hk => ?_
      earliest := fun t k rpc hk n cfg₁ hn hn' since hs hle => ?_
      session := fun k sid' hk => ?_
      distinct := fun k k' sid' => ?_
      opened := fun k since hk => ?_
      unopened := fun k n cfg₁ hk hn => ?_
      scheduled := fun k n cfg₁ hn hn' => ?_
      armed := fun k n cfg₁ hn hn' since hs hle hbusy => ?_
      sent := fun y hy => ?_
      once := ?_
      times := ?_
      past := fun y hy => ?_
      logged := fun k n cfg₁ hn => ?_
      bounded := fun k n cfg₁ hn => ?_ }
  all_goals
    simp only [config, sessionAt_setConfigurationState, stateAt_setConfigurationState] at *
  · exact h.hello t k hk
  · -- the configuration of a pending message is scheduled, the one replied to is not
    refine h.netconf_set hk ?_
    rintro _ hid ⟨rfl, rfl⟩
    obtain ⟨-, n, cfg₁, hid', hn, -, hn', -⟩ := h.netconf t _ rpc hk
    cases hid.symm.trans hid'
    cases hcfg.symm.trans hn
    exact hcfgne.2 hn'
  · obtain ⟨-, hn₂⟩ := of_configurationAt_set_of_state hn (hn' ▸ hstate.1.symm)
    exact h.earliest t k rpc hk n cfg₁ hn₂ hn' since hs hle
  · exact h.session k sid' hk
  · exact h.distinct k k' sid'
  · exact h.opened k since hk
  · exact h.unopened_set hsession hk hn
  · obtain ⟨-, hn₂⟩ := of_configurationAt_set_of_state hn (hn' ▸ hstate.2.symm)
    exact h.scheduled k n cfg₁ hn₂ hn'
  · obtain ⟨-, hn₂⟩ := of_configurationAt_set_of_state hn (hn' ▸ hstate.1.symm)
    exact h.armed k n cfg₁ hn₂ hn' since hs hle hbusy
  · obtain ⟨y, hsent, rfl⟩ := List.mem_map.mp hy
    obtain ⟨hconnection, hconfiguration, htime, hrpc⟩ := SentConfiguration.noteReply_key r y
    rw [hconnection, hconfiguration, htime, hrpc]
    by_cases hyr : y.answeredBy r
    · obtain ⟨hsid, hid, cfg₁, hn, ht, hoperation, -⟩ := h.sent y hsent
      obtain ⟨hc, hj⟩ := (h.answeredBy_iff hx hr hsent).mp hyr
      rw [hc, hj, houtcome y hyr]
      exact ⟨hsid, hid, _, configurationAt_set_self state hn, ht, hoperation, rfl⟩
    · rw [SentConfiguration.noteReply, if_neg hyr]
      exact h.sent_set hsent fun hk => hyr ((h.answeredBy_iff hx hr hsent).mpr hk)
  · -- a noted reply changes neither the keys nor the times
    rw [List.map_map]
    have hkeys : (fun x => (x.connection, x.configuration)) ∘ SentConfiguration.noteReply r =
        fun x => (x.connection, x.configuration) := by
      funext y
      obtain ⟨hconnection, hconfiguration, -⟩ := SentConfiguration.noteReply_key r y
      exact Prod.ext hconnection hconfiguration
    rw [hkeys]
    exact h.once
  · rw [List.map_map]
    have htimes : (·.time) ∘ SentConfiguration.noteReply r = SentConfiguration.time := by
      funext y
      exact (SentConfiguration.noteReply_key r y).2.2.1
    rw [htimes]
    exact h.times
  · obtain ⟨y, hsent, rfl⟩ := List.mem_map.mp hy
    rw [(SentConfiguration.noteReply_key r y).2.2.1]
    exact h.past y hsent
  · have hlogged : s.Sent k n → ∃ y ∈ s.sent.map (SentConfiguration.noteReply r),
        y.connection = k ∧ y.configuration = n := by
      rintro ⟨y, hy, rfl, rfl⟩
      obtain ⟨hconnection, hconfiguration, -⟩ := SentConfiguration.noteReply_key r y
      exact ⟨_, List.mem_map_of_mem hy, hconnection, hconfiguration⟩
    obtain ⟨cfg₂, hn₂, -, -, ⟨⟨rfl, rfl⟩, -⟩ | ⟨-, rfl⟩⟩ := of_configurationAt_set hn
    · exact Or.inr (Or.inr (hlogged ⟨x, hx, rfl, rfl⟩))
    · exact (h.logged k n cfg₁ hn₂).imp_right (Or.imp_right hlogged)
  · exact h.bounded_set hn

/-! ## Every configuration once, in order -/

/-- What was sent, and the states of the configurations. -/
structure SendsInOrder (s : ApplicationRun) : Prop where
  once : (s.sent.map fun x => (x.connection, x.configuration)).Nodup
  notEarly : ∀ x ∈ s.sent, ∃ cfg, s.config x.connection x.configuration = some cfg ∧
    x.rpc.operation = cfg.operation ∧ cfg.executeAt ≤ x.time
  inOrder : s.sent.Pairwise fun x y => ∀ cfg cfg',
    s.config x.connection x.configuration = some cfg →
      s.config y.connection y.configuration = some cfg' → cfg.executeAt ≤ cfg'.executeAt
  allSent : ∀ i since, (i, since) ∈ s.establishedAt → ∀ j cfg, s.config i j = some cfg →
    since ≤ cfg.executeAt → cfg.executeAt ≤ s.now →
      s.Sent i j ∨ cfg.executeAt = s.now ∧ ∃ m, (s.now, m) ∈ s.pending ∧ m.connection = i
  oneRequest : ∀ x ∈ s.sent, ∀ y ∈ s.sent, x.rpc.sessionId = y.rpc.sessionId →
    x.rpc.messageId = y.rpc.messageId →
      x.connection = y.connection ∧ x.configuration = y.configuration
  replied : ∀ x ∈ s.sent, ∀ cfg, s.config x.connection x.configuration = some cfg →
    cfg.state = x.outcome
  notReplied : ∀ i j cfg, s.config i j = some cfg → ¬s.Sent i j →
    cfg.state = .waiting ∨ cfg.state = .scheduled

variable {A : Type*} [DecidableEq A]

/-- The first connection without a session to the address of a new session has sent its hello,
and no reply carries data. -/
def inTurn (resolve : String → A) (s : ApplicationRun) : ApplicationEvent → Bool
  | .hello k _ => (s.hellos[k]?).all fun request =>
    (s.connections.find? fun c => c.sessionId = none ∧
      resolve c.remoteAddress = resolve request.connectAddress).all (·.state = .requested)
  | .reply r => r.element ≠ .data
  | _ => true

theorem Inv.sendsInOrder (h : s.Inv none) : s.SendsInOrder where
  once := h.once
  notEarly x hx := by
    obtain ⟨-, -, cfg, hcfg, htime, hoperation, -⟩ := h.sent x hx
    exact ⟨cfg, hcfg, hoperation, htime.le⟩
  inOrder := by
    refine (List.pairwise_map.mp h.times).imp_of_mem fun hx hy hle cfg cfg' hcfg hcfg' => ?_
    obtain ⟨-, -, cfg₁, hcfg₁, htime, -⟩ := h.sent _ hx
    obtain ⟨-, -, cfg₂, hcfg₂, htime', -⟩ := h.sent _ hy
    cases hcfg.symm.trans hcfg₁
    cases hcfg'.symm.trans hcfg₂
    rw [htime, htime']
    exact hle
  allSent i since hs j cfg hcfg hle hnow := by
    rcases h.logged i j cfg hcfg with hwaiting | hscheduled | hsent
    · right
      -- its connection has a self message, not later than this configuration, so it comes now
      obtain ⟨t, rpc, hp⟩ := h.armed i j cfg hcfg hwaiting since hs hle (by simp)
      have hearliest := h.earliest t i rpc hp j cfg hcfg hwaiting since hs hle
      have hfuture := h.future _ hp
      obtain rfl : t = s.now := le_antisymm (hearliest.trans hnow) hfuture
      exact ⟨le_antisymm hnow hearliest, _, hp, rfl⟩
    · right
      obtain ⟨t, rpc, hp, hid⟩ := h.scheduled i j cfg hcfg hscheduled
      obtain ⟨-, j', cfg', hid', hcfg', -, -, htime⟩ := h.netconf t i rpc hp
      cases hid.symm.trans hid'
      cases hcfg.symm.trans hcfg'
      have hfuture := h.future _ hp
      obtain rfl : t = s.now := le_antisymm (htime ▸ hnow) hfuture
      exact ⟨htime, _, hp, rfl⟩
    · exact Or.inl hsent
  oneRequest x hx y hy hsid hid := by
    obtain ⟨hsession, hmessage, -⟩ := h.sent x hx
    obtain ⟨hsession', hmessage', -⟩ := h.sent y hy
    refine ⟨h.distinct _ _ _ hsession (hsid ▸ hsession'), ?_⟩
    exact MessageId.change.inj (hmessage.symm.trans (hid.trans hmessage'))
  replied x hx cfg hcfg := by
    obtain ⟨-, -, cfg', hcfg', -, -, hstate⟩ := h.sent x hx
    cases hcfg.symm.trans hcfg'
    exact hstate
  notReplied i j cfg hcfg hnot :=
    (h.logged i j cfg hcfg).imp_right fun hor => hor.resolve_right hnot

/-- A new session goes to the first connection without one to its address. -/
theorem Inv.mapSessionInfo {resolve : String → A} {sid : ℕ} {address : A} (h : s.Inv busy)
    (hnew : sid ∉ s.sessions)
    (hmap : mapSessionInfoToConnection resolve s.connections sid address = some i) :
    ∃ c, s.connections[i]? = some c ∧ s.connections.find? (fun c => c.sessionId = none ∧
      resolve c.remoteAddress = address) = some c := by
  obtain ⟨hlength, hc, hfirst⟩ := List.findIdx?_eq_some_iff_getElem.mp hmap
  refine ⟨s.connections[i], List.getElem?_eq_getElem hlength,
    List.find?_eq_some_iff_getElem.mpr ⟨?_, i, hlength, rfl, fun k hk => ?_⟩⟩
  · rcases of_decide_eq_true hc with hestablished | hnone
    · have hsession : sessionAt s.connections i = some sid := by
        rw [sessionAt, List.getElem?_eq_getElem hlength]
        exact hestablished.2
      exact absurd (h.session i sid hsession).2 hnew
    · exact decide_eq_true hnone
  · have hnot := hfirst k hk
    simp only [decide_eq_true_eq, not_or] at hnot
    simp only [Bool.not_eq_true', decide_eq_false_iff_not]
    exact hnot.2

theorem Inv.step {resolve : String → A} {e : ApplicationEvent} (h : s.Inv none)
    (hok : inTurn resolve s e = true) (hs : step resolve s e = some s') : s'.Inv none := by
  cases e with
  | advance t =>
    change (if _ then _ else none) = _ at hs
    split_ifs at hs with ht
    cases hs
    exact h.advance ht.1 ht.2
  | timer m =>
    change (if _ then _ else none) = _ at hs
    split_ifs at hs with hp
    cases m with
    | sendHello k =>
      cases hs
      have hnext := (h.sendHello hp).scheduleNextConnection
      exact { hnext with }
    | sendNetconf k rpc =>
      cases hs
      obtain ⟨hsession, j, cfg, -, -, -, -, htime⟩ := h.netconf _ _ _ hp
      -- the connection has no self message until its next configuration is scheduled
      have hsent := h.sendNetconf hp
      have hsession' : sessionAt (setConfigurationState s.connections k rpc.messageId.atoi
          .requested) k = some rpc.sessionId := by
        rw [sessionAt_setConfigurationState]
        exact hsession
      refine hsent.scheduleNextConfigurationFor hsession'
        (fun p hmem => (pending_erase h hp p hmem).2) fun n cfg₁ hn hn' since hs hle => ?_
      obtain ⟨cfg₂, hn₂, -, -, hcases⟩ := of_configurationAt_set hn
      rcases hcases with ⟨-, hset⟩ | ⟨-, rfl⟩
      · cases hset.symm.trans hn'
      · exact h.earliest _ _ _ hp n cfg₁ hn₂ hn' since hs hle
  | hello k sid =>
    change (if _ then none else _) = _ at hs
    split_ifs at hs with hnew
    obtain ⟨request, hrequest, rfl⟩ := Option.map_eq_some_iff.mp hs
    have hbase : Inv { s with
        hellos := s.hellos.eraseIdx k, sessions := sid :: s.sessions } none :=
      { h with session := fun i sid' hi =>
          ⟨(h.session i sid' hi).1, List.mem_cons_of_mem _ (h.session i sid' hi).2⟩ }
    dsimp only
    split
    · exact hbase
    · -- the session goes to the connection whose hello it answers
      rename_i i hmap
      obtain ⟨c, hc, hfind⟩ := h.mapSessionInfo hnew hmap
      simp only [inTurn, hrequest, Option.all_some, hfind, decide_eq_true_eq] at hok
      have hstate : stateAt s.connections i = some .requested := by
        rw [stateAt, hc, Option.map_some, hok]
      have hsession : sessionAt s.connections i = none := by
        have hfound := List.find?_some hfind
        rw [decide_eq_true_eq] at hfound
        rw [sessionAt, hc]
        exact hfound.1
      have hopen := h.establish hnew hstate
      have hlength := (List.getElem?_eq_some_iff.mp hc).1
      have hsession' : sessionAt (s.connections.modify i
          ({ · with sessionId := some sid, state := .established })) i = some sid := by
        rw [sessionAt_establish sid hlength, if_pos rfl]
      have harmed := hopen.scheduleNextConfigurationFor hsession'
        (h.not_pending (by simp [hstate]) hsession) fun n cfg hn hn' since hs hle => by
          rcases List.mem_cons.mp hs with heq | hs
          · cases heq
            exact hle
          · have hsome := (h.opened i since hs).1
            rw [hsession] at hsome
            cases hsome
      exact { harmed with }
  | reply r =>
    change (if _ then _ else none) = _ at hs
    split_ifs at hs with hany
    cases hs
    obtain ⟨x, hx, hr⟩ := List.any_eq_true.mp hany
    exact h.reply hx hr (of_decide_eq_true hok)

theorem inv_initialized {connections : List TimedConnection}
    (hmax : ∀ c ∈ connections, ∀ cfg ∈ c.configurations, cfg.executeAt < maxTime) :
    (initialized connections).Inv none := by
  have hsession : ∀ k, sessionAt (connections.map (·.parsed)) k = none := by
    intro k
    rw [sessionAt, List.getElem?_map]
    cases connections[k]? <;> rfl
  have hconfig : ∀ k n cfg, configurationAt (connections.map (·.parsed)) k n = some cfg →
      cfg.state = .waiting ∧ cfg.executeAt < maxTime := by
    intro k n cfg hcfg
    rw [configurationAt, List.getElem?_map] at hcfg
    obtain ⟨_, hparsed, hcfg⟩ := Option.bind_eq_some_iff.mp hcfg
    obtain ⟨c, hc, rfl⟩ := Option.map_eq_some_iff.mp hparsed
    simp only [TimedConnection.parsed, List.getElem?_map] at hcfg
    obtain ⟨cfg₀, hcfg₀, rfl⟩ := Option.map_eq_some_iff.mp hcfg
    exact ⟨rfl, hmax c (List.mem_of_getElem? hc) cfg₀ (List.mem_of_getElem? hcfg₀)⟩
  have hinv : Inv { connections := connections.map (·.parsed), pending := [] } none :=
    { future := fun _ hp => absurd hp List.not_mem_nil
      onePending := .nil
      hello := fun _ _ hp => absurd hp List.not_mem_nil
      netconf := fun _ _ _ hp => absurd hp List.not_mem_nil
      earliest := fun _ _ _ hp => absurd hp List.not_mem_nil
      session := fun i sid hi => by cases (hsession i).symm.trans hi
      distinct := fun i k sid hi => by cases (hsession i).symm.trans hi
      opened := fun _ _ hs => absurd hs List.not_mem_nil
      unopened := fun i j cfg _ hcfg => (hconfig i j cfg hcfg).1
      scheduled := fun i j cfg hcfg hscheduled => by
        cases (hconfig i j cfg hcfg).1.symm.trans hscheduled
      armed := fun _ _ _ _ _ _ hs => absurd hs List.not_mem_nil
      sent := fun _ hx => absurd hx List.not_mem_nil
      once := .nil
      times := .nil
      past := fun _ hx => absurd hx List.not_mem_nil
      logged := fun i j cfg hcfg => Or.inl (hconfig i j cfg hcfg).1
      bounded := fun i j cfg hcfg => (hconfig i j cfg hcfg).2 }
  exact hinv.scheduleNextConnection

/-- In a run in which sessions go to connections whose hello was sent, and no reply carries data,
every configuration is sent once and in time, and each reply is noted at its configuration. -/
theorem sendsInOrder_of_inTurn {resolve : String → A} {connections : List TimedConnection}
    (hmax : ∀ c ∈ connections, ∀ cfg ∈ c.configurations, cfg.executeAt < maxTime)
    (h : (runs resolve connections).ReachableUnder (inTurn resolve · ·) s) : s.SendsInOrder := by
  have hinv : s.Inv none :=
    h.invariant (fun _ hs => hs ▸ inv_initialized hmax) fun _ _ _ _ hs hok hstep =>
      hs.step hok hstep
  exact hinv.sendsInOrder

/-- A lock of the running store at a given time. -/
def lockAt (executeAt : SimTime) : TimedConfiguration :=
  { type := .lock, target := .running, executeAt }

/-- Connections to two switches, with two configurations at the same time. -/
def twoSwitches : List TimedConnection :=
  [{ remoteAddress := "a", connectAt := 0, configurations := [lockAt 5, lockAt 5] },
    { remoteAddress := "b", connectAt := 1, configurations := [lockAt 3] }]

def twoSwitchesEvents : List ApplicationEvent :=
  let request (sid i : ℕ) : RPC := ⟨sid, .change i, .lock .running⟩
  [.timer (.sendHello 0), .hello 0 7, .advance 1, .timer (.sendHello 1), .hello 0 8, .advance 3,
    .timer (.sendNetconf 1 (request 8 0)), .advance 5, .timer (.sendNetconf 0 (request 7 0)),
    .timer (.sendNetconf 0 (request 7 1)), .reply ⟨7, .change 1, .error⟩]

theorem sendsInOrder_twoSwitches : ∃ s : ApplicationRun,
    s.sent.map (fun x => (x.time, x.connection, x.configuration)) = [(3, 1, 0), (5, 0, 0), (5, 0, 1)] ∧
      s.SendsInOrder := by
  obtain ⟨s, hs, hsent⟩ : ∃ s : ApplicationRun, (runs (id : String → String) twoSwitches).runUnder
      (inTurn id · ·) (initialized twoSwitches) twoSwitchesEvents = some s ∧
        s.sent.map (fun x => (x.time, x.connection, x.configuration)) =
          [(3, 1, 0), (5, 0, 0), (5, 0, 1)] :=
    ⟨_, rfl, rfl⟩
  have hmax : ∀ c ∈ twoSwitches, ∀ cfg ∈ c.configurations, cfg.executeAt < maxTime := by decide
  exact ⟨s, hsent, sendsInOrder_of_inTurn hmax (System.ReachableUnder.run (.init rfl) hs)⟩

/-- Two connections to a switch. The second one asks for its session first. -/
def oneSwitch : List TimedConnection :=
  [{ remoteAddress := "a", connectAt := 10, configurations := [lockAt 20, lockAt 30] },
    { remoteAddress := "a", connectAt := 0, configurations := [] }]

/-- The first connection gets the session of the second one, and loses it with its own hello. -/
theorem not_sendsInOrder : ¬∀ s : ApplicationRun,
    (runs (id : String → String) oneSwitch).Reachable s → s.SendsInOrder := by
  intro h
  obtain ⟨s, hs, hopened, hcfg, hsent, hnow⟩ : ∃ s : ApplicationRun,
      (runs (id : String → String) oneSwitch).runFrom (initialized oneSwitch)
        [.timer (.sendHello 1), .advance 1, .hello 0 0, .advance 10, .timer (.sendHello 0),
          .advance 20, .timer (.sendNetconf 0 ⟨0, .change 0, .lock .running⟩), .advance 40] =
            some s ∧
        s.establishedAt = [(0, 1)] ∧ s.config 0 1 = some (lockAt 30) ∧
        s.sent.map (fun x => (x.connection, x.configuration)) = [(0, 0)] ∧ s.now = 40 :=
    ⟨_, rfl, rfl, rfl, rfl, rfl⟩
  have hall := (h s (System.reachable_of_runFrom rfl hs)).allSent 0 1
    (hopened ▸ List.mem_singleton_self _) 1 _ hcfg (by decide) (by rw [hnow]; decide)
  rcases hall with ⟨x, hx, hconnection, hconfiguration⟩ | ⟨htime, -⟩
  · have hkey := List.mem_map_of_mem (f := fun x => (x.connection, x.configuration)) hx
    rw [hsent, hconnection, hconfiguration] at hkey
    revert hkey
    decide
  · rw [hnow] at htime
    revert htime
    decide

end ApplicationRun

end TsnReconfig.NetConf
