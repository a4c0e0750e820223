import TsnReconfig.NetConf.Sessions

/-!
# One reply for each RPC

An accepted RPC is with the server, with the manager or with the commit that waits for its time,
until it is answered. That a reply can get lost or cannot be sent is due to a few operations; in
runs without them each accepted RPC gets exactly one.
-/

namespace TsnReconfig.NetConf

open TsnReconfig.Lib

variable {M C S : Type*} {configurators : List (Configurator C S)}

namespace DataStoreManager

variable {m m' : DataStoreManager M C S} {clock : Clock} {ctrl : CtrlInfo M}
  {operation : NetConfOperation C} {r : Option ReplyElement}

/-- The operations that the manager answers, at once or when their time has come: the candidate
cannot be read, an edit needs a configuration and a timestamp a period, and while a commit waits
no timestamp is accepted and no other commit made to wait. -/
def Serviceable (configurators : List (Configurator C S)) (m : DataStoreManager M C S)
    (clock : Clock) (ctrl : CtrlInfo M) : NetConfOperation C → Prop
  | .getConfig .running => (m.runningStore.getConfig configurators).isSome
  | .getConfig .candidate => False
  | .editConfig _ _ _ .noConfig => False
  | .editConfig target _ _ (.commitTimestamp t) =>
    target ≠ .other → t.period < clock.cycles.length ∧
      (m.commitOperation = none ∨ ¬InFuture clock t)
  | .commit =>
    verifyLock m.runningStore.toDataStoreBase ctrl.sessionId → m.hasCommitTimestamp →
      m.commitOperation = none ∧
        if m.commitTimestamp.executeAtStartOfPeriod then
          ∃ cycles, clock.cycles[m.commitTimestamp.period]? = some cycles ∧
            cycles < m.commitTimestamp.cycle
        else clock.totalSimTime ≤ m.commitTimestamp.time
  | _ => True

/-- A commit that waits does so for its time, or for a cycle that has not begun; one message
brings it, and there is no such message without it. -/
def Waits (m : DataStoreManager M C S) (clock : Clock) : Prop :=
  if m.commitOperation.isSome then
    if m.commitTimestamp.executeAtStartOfPeriod then
      ∃ sessionId cycles, m.subscriptions = [(m.commitTimestamp.period, sessionId)] ∧
        clock.cycles[m.commitTimestamp.period]? = some cycles ∧
          (m.scheduledCommits = [] ∧ cycles < m.commitTimestamp.cycle ∨
            m.scheduledCommits = [sessionId] ∧ cycles = m.commitTimestamp.cycle)
    else m.subscriptions = [] ∧ ∃ sessionId, m.scheduledCommits = [sessionId]
  else m.subscriptions = [] ∧ m.scheduledCommits = []

/-- What a commit waits for stays the same. -/
theorem Waits.of_eq (h : m.Waits clock) (hop : m'.commitOperation = m.commitOperation)
    (ht : m'.commitOperation ≠ none → m'.commitTimestamp = m.commitTimestamp)
    (hsub : m'.subscriptions = m.subscriptions)
    (hsch : m'.scheduledCommits = m.scheduledCommits) : m'.Waits clock := by
  unfold Waits at h ⊢
  rw [hop, hsub, hsch]
  by_cases hnone : m.commitOperation = none
  · rw [if_neg (by simp [hnone])] at h ⊢
    exact h
  · rw [ht (by rwa [hop])]
    exact h

theorem acceptCommitTimestamp_isSome {t : CommitTimestamp} (h : t.period < clock.cycles.length) :
    (m.acceptCommitTimestamp clock t).isSome := by
  rw [acceptCommitTimestamp, Option.isSome_map, List.getElem?_eq_getElem h]
  rfl

/-- Every serviceable operation is handled. -/
theorem handleOperation_isSome (hw : m.Waits clock)
    (h : m.Serviceable configurators clock ctrl operation) :
    (m.handleOperation configurators clock ctrl operation).isSome := by
  cases operation with
  | getConfig source =>
    cases source with
    | running => rwa [handleOperation, handleGetConfig, Option.isSome_map]
    | candidate => cases h
    | other => rfl
  | editConfig target defaultOperation errorOption data =>
    cases data with
    | noConfig => cases h
    | commitTimestamp t =>
      cases target <;> simp only [handleOperation, handleEditConfig]
      case running =>
        split_ifs
        · rfl
        · exact acceptCommitTimestamp_isSome (h (by simp)).1
      case candidate =>
        split_ifs
        · rfl
        · exact acceptCommitTimestamp_isSome (h (by simp)).1
      case other => rfl
    | config config =>
      cases target <;> simp only [handleOperation, handleEditConfig]
      case running => split_ifs <;> rfl
      case candidate => split_ifs <;> rfl
      case other => rfl
  | copyConfig source target =>
    unfold handleOperation handleCopyConfig
    cases source <;> cases target <;> dsimp only <;> split_ifs <;> rfl
  | deleteConfig target =>
    cases target <;> simp only [handleOperation, handleDeleteConfig]
    case candidate => split_ifs <;> rfl
    all_goals rfl
  | lock target => cases target <;> rfl
  | unlock target => cases target <;> rfl
  | commit =>
    simp only [handleOperation, handleCommit]
    by_cases hlock : verifyLock m.runningStore.toDataStoreBase ctrl.sessionId
    · rw [if_pos hlock]
      by_cases hhas : m.hasCommitTimestamp
      · rw [if_pos hhas, Option.isSome_map]
        obtain ⟨hnone, htime⟩ := h hlock hhas
        -- a commit finds the clock without a subscription
        have hsub : m.subscriptions = [] := by
          unfold Waits at hw
          rw [if_neg (by simp [hnone])] at hw
          exact hw.1
        simp only [scheduleTimedCommit]
        split_ifs at htime ⊢ with hstart hperiod
        · rfl
        · obtain ⟨cycles, hcycles, -⟩ := htime
          have hlt := (List.getElem?_eq_some_iff.mp hcycles).1
          exact absurd ⟨hlt, by rw [hsub]; rfl⟩ hperiod
        · rfl
      · rw [if_neg hhas]
        rfl
    · rw [if_neg hlock]
      rfl
  | get => rfl
  | closeSession => rfl
  | discardChanges => rfl

/-- A serviceable operation is answered, or it is a commit that waits from now on. -/
theorem Effect.waits (h : Effect configurators m clock ctrl operation m' r) (hw : m.Waits clock)
    (hok : m.Serviceable configurators clock ctrl operation) :
    m'.Waits clock ∧ (r ≠ none ∧ m'.commitOperation = m.commitOperation ∨
      r = none ∧ m.commitOperation = none ∧ m'.commitOperation = some ctrl) := by
  cases h with
  | timestamp target _ _ t hlock hfuture =>
    have htarget : target ≠ .other := by
      rcases hlock with ⟨rfl, -⟩ | ⟨rfl, -⟩ <;> simp
    have hnone := (hok htarget).2.resolve_right (not_not_intro hfuture)
    exact ⟨hw.of_eq rfl (fun h => absurd hnone h) rfl rfl, .inl ⟨by simp, rfl⟩⟩
  | timedCommit m' hlock hhas hm =>
    obtain ⟨hnone, htime⟩ := hok hlock hhas
    obtain ⟨-, -, hop, ht⟩ := scheduleTimedCommit_eq_some hm
    unfold Waits at hw
    rw [if_neg (by simp [hnone])] at hw
    refine ⟨?_, .inr ⟨rfl, hnone, hop⟩⟩
    unfold Waits
    rw [hop, Option.isSome_some, if_pos rfl, ht]
    rcases scheduleTimedCommit_cases hm with ⟨hstart, hsub, hsch⟩ | ⟨hstart, hsub, hsch⟩
    · rw [if_pos hstart] at htime ⊢
      obtain ⟨cycles, hcycles, hlt⟩ := htime
      exact ⟨ctrl.sessionId, cycles, by simp [hsub, hw.1], hcycles, .inl ⟨by simp [hsch, hw.2], hlt⟩⟩
    · rw [if_neg hstart]
      exact ⟨by simp [hsub, hw.1], ctrl.sessionId, by simp [hsch, hw.2]⟩
  | _ => exact ⟨hw.of_eq rfl (fun _ => rfl) rfl rfl, .inl ⟨by simp, rfl⟩⟩

/-- A new cycle brings the commit that waits for it. -/
theorem Waits.newCycle {period : ℕ} (hw : m.Waits clock)
    (h : m.receiveSignal { clock with cycles := clock.cycles.modify period (· + 1) } period =
      some m') :
    m'.Waits { clock with cycles := clock.cycles.modify period (· + 1) } ∧
      m'.commitOperation = m.commitOperation := by
  unfold Waits at hw
  by_cases hop : m.commitOperation.isSome
  · by_cases hstart : m.commitTimestamp.executeAtStartOfPeriod
    · rw [if_pos hop, if_pos hstart] at hw
      obtain ⟨sessionId, cycles, hsub, hcycles, hsch⟩ := hw
      by_cases hperiod : period = m.commitTimestamp.period
      · have hlookup : m.subscriptions.lookup period = some sessionId := by simp [hsub, hperiod]
        have hnext : (clock.cycles.modify period (· + 1))[m.commitTimestamp.period]? =
            some (cycles + 1) := by simp [hperiod, hcycles]
        simp only [receiveSignal, hlookup, if_pos hperiod] at h
        rw [hperiod] at h hnext ⊢
        obtain ⟨cycles', hcycles', h⟩ := Option.bind_eq_some_iff.mp h
        obtain rfl : cycles' = cycles + 1 := Option.some.inj (hcycles'.symm.trans hnext)
        unfold Waits
        split_ifs at h with heq hlt
        · -- the cycle has come: before, no message was under way
          cases h
          rcases hsch with ⟨hnil, -⟩ | ⟨-, hpast⟩
          · refine ⟨?_, rfl⟩
            rw [if_pos hop, if_pos hstart]
            exact ⟨sessionId, cycles + 1, hsub, hnext, .inr ⟨by simp [hnil], heq⟩⟩
          · omega
        · cases h
          refine ⟨?_, rfl⟩
          rw [if_pos hop, if_pos hstart]
          rcases hsch with ⟨hnil, hbefore⟩ | ⟨-, hpast⟩
          · exact ⟨sessionId, cycles + 1, hsub, hnext, .inl ⟨hnil, by omega⟩⟩
          · omega
      · have hlookup : m.subscriptions.lookup period = none := by simp [hsub, hperiod]
        simp only [receiveSignal, hlookup] at h
        cases h
        refine ⟨?_, rfl⟩
        unfold Waits
        rw [if_pos hop, if_pos hstart]
        exact ⟨sessionId, cycles, hsub, by simp [hperiod, hcycles], hsch⟩
    · rw [if_pos hop, if_neg hstart] at hw
      have hlookup : m.subscriptions.lookup period = none := by simp [hw.1]
      simp only [receiveSignal, hlookup] at h
      cases h
      refine ⟨?_, rfl⟩
      unfold Waits
      rwa [if_pos hop, if_neg hstart]
  · rw [if_neg hop] at hw
    have hlookup : m.subscriptions.lookup period = none := by simp [hw.1]
    simp only [receiveSignal, hlookup] at h
    cases h
    refine ⟨?_, rfl⟩
    unfold Waits
    rwa [if_neg hop]

/-- A message that executes a commit finds the commit that waits, and leaves none. -/
theorem Waits.executeTimedCommit (configurators : List (Configurator C S)) {sessionId : ℕ}
    (hw : m.Waits clock)
    (hmem : sessionId ∈ m.scheduledCommits) :
    ∃ m' commit el, m.executeTimedCommit configurators sessionId = some (m', commit, el) ∧
      m.commitOperation = some commit ∧ m'.commitOperation = none ∧ m'.Waits clock := by
  unfold Waits at hw
  cases hop : m.commitOperation with
  | none =>
    rw [if_neg (by simp [hop])] at hw
    rw [hw.2] at hmem
    cases hmem
  | some commit =>
    rw [if_pos (by simp [hop])] at hw
    have hsome : (m.executeTimedCommit configurators sessionId).isSome := by
      simp only [DataStoreManager.executeTimedCommit, if_pos hmem, Option.isSome_map]
      split_ifs <;> simp [executeCommit, hop]
    obtain ⟨⟨m', c, el⟩, hexec⟩ := Option.isSome_iff_exists.mp hsome
    obtain ⟨-, hc, -, -, -, hnone, -, hsch, hsub⟩ := executeTimedCommit_eq_some hexec
    obtain rfl : commit = c := Option.some.inj (hop.symm.trans hc)
    refine ⟨m', commit, el, hexec, rfl, hnone, ?_⟩
    unfold Waits
    rw [if_neg (by simp [hnone]), hsub, hsch]
    by_cases hstart : m.commitTimestamp.executeAtStartOfPeriod
    · rw [if_pos hstart] at hw ⊢
      obtain ⟨sessionId', cycles, hsub, -, ⟨hnil, -⟩ | ⟨hone, -⟩⟩ := hw
      · rw [hnil] at hmem
        cases hmem
      · rw [hone, List.mem_singleton] at hmem
        exact ⟨by simp [hsub], by simp [hone, hmem]⟩
    · rw [if_neg hstart] at hw ⊢
      obtain ⟨hsub, sessionId', hone⟩ := hw
      rw [hone, List.mem_singleton] at hmem
      exact ⟨hsub, by simp [hone, hmem]⟩

end DataStoreManager

namespace NetConfServer

variable {s s' : NetConfServer M C S} {connId : ℕ} {messageId : M}

/-- The accepted messages that are on their way to a reply, by their control info. -/
def inFlight (s : NetConfServer M C S) : List (Option (CtrlInfo M)) :=
  s.requests.map (·.2) ++ s.responses.map (·.2) ++ s.manager.commitOperation.toList.map some

/-- What is accepted has been answered, once, or is on its way. -/
def Conserved (s : NetConfServer M C S) : Prop :=
  (s.accepted.map fun a => some a.2).Perm ((s.replies.map fun r => some r.ctrl) ++ s.inFlight)

/-- No operation that loses a reply: no close-session, no RPC without an operation, and only what
the manager answers. -/
def Proper (configurators : List (Configurator C S)) (s : NetConfServer M C S) :
    Event M C → Prop
  | .transport _ (.rpc _ operation) => operation ≠ none ∧ operation ≠ some .closeSession
  | .request operation ctrl =>
    ∀ c, ctrl = some c → s.manager.Serviceable configurators s.clock c operation
  | _ => True

theorem Proper.noClose {e : Event M C} (h : s.Proper configurators e) : s.NoClose e := by
  unfold NoClose
  split
  · exact h.2 rfl
  · trivial

section
variable [DecidableEq M] [DecidableEq C]

omit [DecidableEq C] in
theorem conserved_iff : s.Conserved ↔ ∀ x, (s.accepted.map fun a => some a.2).count x =
    (s.replies.map fun r => some r.ctrl).count x + (s.requests.map (·.2)).count x +
      (s.responses.map (·.2)).count x + (s.manager.commitOperation.toList.map some).count x := by
  unfold Conserved
  rw [List.perm_iff_count]
  simp only [inFlight, List.count_append, Nat.add_assoc]

/-- A message that is taken out of a queue counts there no more. -/
theorem count_map_erase {α β : Type*} [BEq α] [LawfulBEq α] [BEq β] {l : List α} {a : α}
    (h : a ∈ l) (f : α → β) (x : β) :
    (l.map f).count x = ((l.erase a).map f).count x + [f a].count x := by
  have hperm := (List.perm_cons_erase h).map f
  rw [hperm.count_eq, List.map_cons, ← List.singleton_append, List.count_append, Nat.add_comm]

omit [DecidableEq C] in
theorem Conserved.transport (h : s.Conserved) {connId : ℕ} {message : TransportMessage M C}
    (hok : s.Proper configurators (.transport connId message))
    (hs : s.processScheduledMessage connId message = some s') :
    s'.Conserved ∧ s'.manager = s.manager ∧ s'.clock = s.clock := by
  rw [conserved_iff] at h ⊢
  cases message with
  | hello =>
    simp only [processScheduledMessage, handleHello] at hs
    split at hs
    · cases hs
      exact ⟨h, rfl, rfl⟩
    · split_ifs at hs
      cases hs
      exact ⟨h, rfl, rfl⟩
  | rpc messageId operation =>
    obtain ⟨hsome, hclose⟩ := hok
    obtain ⟨operation, rfl⟩ := Option.ne_none_iff_exists'.mp hsome
    obtain ⟨y, -, -, rfl⟩ := transport_rpc_eq_some (fun h => hclose (by rw [h])) hs
    refine ⟨fun x => ?_, rfl, rfl⟩
    have hx := h x
    simp only [List.map_append, List.map_cons, List.map_nil, List.count_append]
    omega
  | notRpc messageId =>
    obtain ⟨y, -, hsend⟩ := Option.bind_eq_some_iff.mp hs
    obtain ⟨c, z, hc, -, -, rfl⟩ := sendReply_eq_some hsend
    cases hc
    refine ⟨fun x => ?_, rfl, rfl⟩
    have hx := h x
    simp only [List.map_append, List.map_cons, List.map_nil, List.count_append]
    omega

omit [DecidableEq M] [DecidableEq C] in
theorem handleMessage_some (s : NetConfServer M C S) (operation : NetConfOperation C)
    (ctrl : CtrlInfo M) :
    s.handleMessage configurators operation (some ctrl) =
      (s.manager.handleOperation configurators s.clock ctrl operation).map fun h =>
        { s with
          manager := h.1
          responses := s.responses ++ (h.2.map fun element => (element, some ctrl)).toList } := by
  cases operation <;> rfl

omit [DecidableEq C] in
/-- A request that is handled becomes a response, or the commit that waits. -/
theorem request_eq_some {operation : NetConfOperation C} {ctrl : CtrlInfo M}
    (hw : s.manager.Waits s.clock)
    (hok : s.manager.Serviceable configurators s.clock ctrl operation)
    (hs : s.handleMessage configurators operation (some ctrl) = some s') :
    ∃ m responses, s' = { s with manager := m, responses := s.responses ++ responses } ∧
      m.Waits s.clock ∧
      ∀ x, (responses.map (·.2)).count x + (m.commitOperation.toList.map some).count x =
        (s.manager.commitOperation.toList.map some).count x + [some ctrl].count x := by
  rw [handleMessage_some] at hs
  obtain ⟨⟨m, r⟩, hop, rfl⟩ := Option.map_eq_some_iff.mp hs
  obtain ⟨hw', hcommit⟩ := (DataStoreManager.effect_of_handleOperation hop).waits hw hok
  refine ⟨m, _, rfl, hw', fun x => ?_⟩
  rcases hcommit with ⟨hr, hsame⟩ | ⟨rfl, hnone, hsome⟩
  · obtain ⟨el, rfl⟩ := Option.ne_none_iff_exists'.mp hr
    rw [hsame]
    simp [Nat.add_comm]
  · simp [hnone, hsome]

omit [DecidableEq M] [DecidableEq C] in
/-- Whatever is on its way has been accepted, so it has a control info. -/
theorem Conserved.exists_accepted (h : s.Conserved) {x : Option (CtrlInfo M)}
    (hx : x ∈ s.inFlight) : ∃ a ∈ s.accepted, x = some a.2 := by
  have hmem := h.symm.subset (List.mem_append_right _ hx)
  obtain ⟨a, ha, rfl⟩ := List.mem_map.mp hmem
  exact ⟨a, ha, rfl⟩

/-- What has been accepted is conserved, and the commit that waits is in order. -/
structure InOrder (s : NetConfServer M C S) : Prop where
  sessions : s.SessionsExact
  closed : s.closed = []
  conserved : s.Conserved
  waits : s.manager.Waits s.clock

theorem InOrder.step {e : Event M C} (h : s.InOrder) (hok : s.Proper configurators e)
    (hs : s.step configurators e = some s') : s'.InOrder := by
  obtain ⟨hsessions, hclosed⟩ := h.sessions.step h.closed hok.noClose hs
  have hcount := conserved_iff.mp h.conserved
  suffices hrest : s'.Conserved ∧ s'.manager.Waits s'.clock from
    ⟨hsessions, hclosed, hrest.1, hrest.2⟩
  cases e with
  | transport connId message =>
    obtain ⟨hconserved, hm, hclock⟩ := h.conserved.transport hok hs
    rw [hm, hclock]
    exact ⟨hconserved, h.waits⟩
  | request operation ctrl =>
    simp only [NetConfServer.step] at hs
    split_ifs at hs with hmem
    -- the request has been accepted, so that it carries its session
    obtain ⟨a, -, rfl⟩ := h.conserved.exists_accepted (x := ctrl)
      (List.mem_append_left _ (List.mem_append_left _ (List.mem_map_of_mem hmem)))
    obtain ⟨m, responses, rfl, hw, hm⟩ := request_eq_some
      (s := { s with requests := s.requests.erase (operation, some a.2) }) h.waits (hok _ rfl) hs
    refine ⟨conserved_iff.mpr fun x => ?_, hw⟩
    have herase := count_map_erase hmem (·.2) x
    have hx := hcount x
    have hmx := hm x
    simp only [List.map_append, List.count_append] at herase hmx ⊢
    omega
  | response element ctrl =>
    simp only [NetConfServer.step] at hs
    split_ifs at hs with hmem
    obtain ⟨c, y, rfl, -, -, rfl⟩ := sendReply_eq_some hs
    refine ⟨conserved_iff.mpr fun x => ?_, h.waits⟩
    have herase := count_map_erase hmem (·.2) x
    have hx := hcount x
    simp only [List.map_append, List.map_cons, List.map_nil, List.count_append] at herase ⊢
    omega
  | executeTimedCommit sessionId =>
    obtain ⟨⟨m, commit, el⟩, hexec, rfl⟩ := Option.map_eq_some_iff.mp hs
    have hmem := (DataStoreManager.executeTimedCommit_eq_some hexec).1
    obtain ⟨m₁, c, el₁, hexec₁, hop, hnone, hw⟩ := h.waits.executeTimedCommit configurators hmem
    rw [hexec] at hexec₁
    cases hexec₁
    refine ⟨conserved_iff.mpr fun x => ?_, hw⟩
    have hx := hcount x
    rw [hop] at hx
    simp only [hnone, List.map_append, List.map_cons, List.map_nil, List.count_append,
      Option.toList_none, Option.toList_some, List.count_nil] at hx ⊢
    omega
  | newCycle period =>
    obtain ⟨m, hm, rfl⟩ := Option.map_eq_some_iff.mp hs
    obtain ⟨hw, hop⟩ := h.waits.newCycle hm
    refine ⟨conserved_iff.mpr fun x => ?_, hw⟩
    have hx := hcount x
    rwa [← hop] at hx
  | timePasses totalSimTime =>
    simp only [NetConfServer.step] at hs
    split_ifs at hs
    cases hs
    exact ⟨h.conserved, h.waits⟩
  | otherServer =>
    simp only [NetConfServer.step] at hs
    split_ifs at hs
    cases hs
    exact ⟨h.conserved, h.waits⟩

/-- Each accepted message has been answered once or is on its way to it, and whatever is on its
way can go on: the handlers find what they need, and a commit that waits will be executed. -/
structure Answering (configurators : List (Configurator C S)) (s : NetConfServer M C S) : Prop where
  answered : (s.accepted.map fun a => some a.2).Perm
    ((s.replies.map fun r => some r.ctrl) ++ s.inFlight)
  requests : ∀ x ∈ s.requests, s.Proper configurators (.request x.1 x.2) →
    (s.step configurators (.request x.1 x.2)).isSome
  responses : ∀ x ∈ s.responses, (s.step configurators (.response x.1 x.2)).isSome
  executed : ∀ sessionId ∈ s.manager.scheduledCommits,
    (s.step configurators (.executeTimedCommit sessionId)).isSome
  waiting : s.manager.commitOperation ≠ none → s.manager.scheduledCommits ≠ [] ∨
    ∃ sessionId cycles,
      s.manager.subscriptions.lookup s.manager.commitTimestamp.period = some sessionId ∧
        s.clock.cycles[s.manager.commitTimestamp.period]? = some cycles ∧
          cycles < s.manager.commitTimestamp.cycle

theorem InOrder.answering (h : s.InOrder) : s.Answering configurators where
  answered := h.conserved
  requests x hx hok := by
    obtain ⟨a, -, ha⟩ := h.conserved.exists_accepted (x := x.2)
      (List.mem_append_left _ (List.mem_append_left _ (List.mem_map_of_mem hx)))
    have hserviceable := hok a.2 ha
    simp only [NetConfServer.step]
    rw [if_pos hx, ha, handleMessage_some, Option.isSome_map]
    exact DataStoreManager.handleOperation_isSome h.waits hserviceable
  responses x hx := by
    obtain ⟨a, haccepted, ha⟩ := h.conserved.exists_accepted (x := x.2)
      (List.mem_append_left _ (List.mem_append_right _ (List.mem_map_of_mem hx)))
    have hopen := h.sessions.accepted a haccepted
    have hfind : (s.findSessionInfoForId a.2.sessionId).isSome := by
      rw [findSessionInfoForId, List.find?_isSome]
      exact ⟨_, hopen, by simp⟩
    simp only [NetConfServer.step]
    rw [if_pos hx, ha, sendReply, Option.bind_some, Option.isSome_map]
    exact hfind
  executed sessionId hmem := by
    obtain ⟨m, c, el, hexec, -⟩ := h.waits.executeTimedCommit configurators hmem
    simp [NetConfServer.step, hexec]
  waiting hop := by
    have hw := h.waits
    unfold DataStoreManager.Waits at hw
    rw [if_pos (Option.isSome_iff_ne_none.mpr hop)] at hw
    split_ifs at hw with hstart
    · obtain ⟨sessionId, cycles, hsub, hcycles, ⟨-, hlt⟩ | ⟨hone, -⟩⟩ := hw
      · exact .inr ⟨sessionId, cycles, by simp [hsub], hcycles, hlt⟩
      · exact .inl (by simp [hone])
    · obtain ⟨-, sessionId, hone⟩ := hw
      exact .inl (by simp [hone])

/-- In a run of proper operations each accepted RPC gets one reply. -/
theorem oneReply (h : (server M configurators).ReachableUnder (Proper configurators) s) :
    s.Answering configurators := by
  apply InOrder.answering
  apply h.invariant
  · rintro s ⟨state, clock, nextSessionId, rfl⟩
    exact
      { sessions := ⟨by simp, by simp, by simp, by simp, by simp, by simp, by simp⟩
        closed := rfl
        conserved := .refl _
        waits := ⟨rfl, rfl⟩ }
  · intro s e s' _ hs hok hstep
    exact hs.step hok hstep

end

/-- A connection says hello and sends an RPC, which is answered. -/
theorem oneReply_get :
    ∃ s, dummyServer.runFrom started [.transport 7 .hello, .transport 7 (.rpc 5 (some .get)),
        .request .get (some ⟨0, 5⟩), .response .data (some ⟨0, 5⟩)] = some s ∧
      s.replies = [⟨7, ⟨0, 5⟩, .data⟩] ∧ s.Answering [.dummy 0] := by
  obtain ⟨s₁, s₂, s₃, s₄, h₁, h₂, h₃, h₄, hrun, hreplies⟩ : ∃ s₁ s₂ s₃ s₄,
      dummyServer.step started (.transport 7 .hello) = some s₁ ∧
      dummyServer.step s₁ (.transport 7 (.rpc 5 (some .get))) = some s₂ ∧
      dummyServer.step s₂ (.request .get (some ⟨0, 5⟩)) = some s₃ ∧
      dummyServer.step s₃ (.response .data (some ⟨0, 5⟩)) = some s₄ ∧
      dummyServer.runFrom started [.transport 7 .hello, .transport 7 (.rpc 5 (some .get)),
        .request .get (some ⟨0, 5⟩), .response .data (some ⟨0, 5⟩)] = some s₄ ∧
      s₄.replies = [⟨7, ⟨0, 5⟩, .data⟩] := ⟨_, _, _, _, rfl, rfl, rfl, rfl, rfl, rfl⟩
  have hhello : started.Proper [.dummy 0] (.transport 7 .hello) := trivial
  have hrpc : s₁.Proper [.dummy 0] (.transport 7 (.rpc 5 (some .get))) :=
    ⟨by decide, by decide⟩
  have hrequest : s₂.Proper [.dummy 0] (.request .get (some ⟨0, 5⟩)) := fun _ _ => trivial
  have hresponse : s₃.Proper [.dummy 0] (.response .data (some ⟨0, 5⟩)) := trivial
  have hinit : dummyServer.ReachableUnder (Proper [.dummy 0]) started :=
    .init ⟨(), ⟨0, []⟩, 0, rfl⟩
  have hreachable := (((hinit.step hhello h₁).step hrpc h₂).step hrequest h₃).step hresponse h₄
  exact ⟨s₄, hrun, hreplies, oneReply hreachable⟩

/-- A close-session is answered and forwarded as well, and the second reply has no control info. -/
theorem closeSession_not_answering :
    ¬∀ s : NetConfServer ℕ ℕ Unit, dummyServer.Reachable s → s.Answering [.dummy 0] := by
  intro h
  obtain ⟨s, hs, hreplies, hresponses, hstep⟩ : ∃ s,
      dummyServer.runFrom started [.transport 7 .hello,
        .transport 7 (.rpc 5 (some .closeSession)), .request .closeSession none] = some s ∧
      s.replies = [⟨7, ⟨0, 5⟩, .error⟩] ∧ s.responses = [(.error, none)] ∧
      s.step [.dummy 0] (.response .error none) = none := ⟨_, rfl, rfl, rfl, rfl⟩
  have hreachable : dummyServer.Reachable s :=
    System.reachable_of_runFrom ⟨(), ⟨0, []⟩, 0, rfl⟩ hs
  have hsent := (h s hreachable).responses (.error, none) (by simp [hresponses])
  rw [hstep] at hsent
  cases hsent

end NetConfServer

end TsnReconfig.NetConf
