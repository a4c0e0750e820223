import TsnReconfig.Lib.System
import TsnReconfig.NetConf.DataStores

/-!
# What the operations do to the data stores

Each operation that the manager handles has one of a few effects, and the later proofs go by cases
of them.
-/

namespace TsnReconfig.NetConf

open TsnReconfig.Lib

variable {M C S : Type*} {configurators : List (Configurator C S)} {m m' : DataStoreManager M C S}
  {clock : Clock} {ctrl : CtrlInfo M} {operation : NetConfOperation C} {r : Option ReplyElement}

namespace DataStoreBase
variable {store : DataStoreBase} {sessionId sessionId' : ℕ}

theorem isLockedBy_iff :
    store.isLockedBy sessionId = true ↔ store.lockHolderSessionId = some sessionId := by
  simp [isLockedBy]

theorem isLocked_iff : store.isLocked = true ↔ store.lockHolderSessionId ≠ none := by
  rw [isLocked, Option.isSome_iff_ne_none]

theorem checkAndLock_eq (store : DataStoreBase) (sessionId : ℕ) :
    store.checkAndLock sessionId =
      if store.lockHolderSessionId = none then (true, { lockHolderSessionId := some sessionId })
      else (false, store) := by
  unfold checkAndLock isLocked
  cases store.lockHolderSessionId <;> rfl

end DataStoreBase

theorem CandidateDataStore.checkAndLock_eq (candidate : CandidateDataStore C) (sessionId : ℕ) :
    candidate.checkAndLock sessionId =
      if candidate.lockHolderSessionId = none ∧ candidate.configVector = [] then
        (true, { candidate with lockHolderSessionId := some sessionId })
      else (false, candidate) := by
  rw [checkAndLock, DataStoreBase.checkAndLock_eq]
  by_cases hempty : candidate.configVector = []
  · rw [if_neg (by simp [hempty])]
    by_cases hfree : candidate.lockHolderSessionId = none
    · rw [if_pos hfree, if_pos ⟨hfree, hempty⟩]
    · rw [if_neg hfree, if_neg (fun h => hfree h.1)]
  · rw [if_pos (by simpa using hempty), if_neg (fun h => hempty h.2)]

namespace DataStoreManager

theorem verifyLock_iff {store : DataStoreBase} {sessionId : ℕ} :
    verifyLock store sessionId = true ↔
      ∀ s, store.lockHolderSessionId = some s → s = sessionId := by
  unfold verifyLock DataStoreBase.isLocked DataStoreBase.isLockedBy
  cases store.lockHolderSessionId <;> simp

/-- The owner of a lock passes it, and nobody else. -/
theorem verifyLock_of_isLockedBy {store : DataStoreBase} {s sessionId : ℕ}
    (h : store.isLockedBy s) : verifyLock store sessionId = true ↔ sessionId = s := by
  rw [DataStoreBase.isLockedBy_iff] at h
  rw [verifyLock_iff]
  simp [h, eq_comm]

/-- Why an operation is refused; for an edit and a query nothing is said. -/
def Refuses (m : DataStoreManager M C S) (sessionId : ℕ) : NetConfOperation C → Prop
  | .lock .running => m.runningStore.isLocked
  | .lock .candidate => m.candidateStore.isLocked ∨ m.candidateStore.configVector ≠ []
  | .unlock .running => ¬m.runningStore.isLockedBy sessionId
  | .unlock .candidate => ¬m.candidateStore.isLockedBy sessionId
  | .deleteConfig .candidate => ¬verifyLock m.candidateStore.toDataStoreBase sessionId
  | .copyConfig .running .candidate | .copyConfig .candidate .running =>
    ¬verifyLock m.runningStore.toDataStoreBase sessionId ∨
      ¬verifyLock m.candidateStore.toDataStoreBase sessionId
  | .commit => ¬verifyLock m.runningStore.toDataStoreBase sessionId
  | .get => False
  | _ => True

/-- The check of a new commit timestamp. -/
def InFuture (clock : Clock) (t : CommitTimestamp) : Prop :=
  ∃ cycles, clock.cycles[t.period]? = some cycles ∧
    (cycles < t.cycle ∧ t.executeAtStartOfPeriod ∨
      clock.totalSimTime < t.time ∧ !t.executeAtStartOfPeriod)

/-- What an operation of a session does. -/
inductive Effect (configurators : List (Configurator C S)) (m : DataStoreManager M C S)
    (clock : Clock) (ctrl : CtrlInfo M) :
    NetConfOperation C → DataStoreManager M C S → Option ReplyElement → Prop
  | refused (operation : NetConfOperation C) (h : m.Refuses ctrl.sessionId operation) :
      Effect configurators m clock ctrl operation m (some .error)
  | queried (operation : NetConfOperation C)
      (h : operation = .getConfig .running ∨ operation = .get) :
      Effect configurators m clock ctrl operation m (some .data)
  | timestamp (target : StoreName) (defaultOperation : EditOperation)
      (errorOption : ErrorOption) (t : CommitTimestamp)
      (hlock : target = .running ∧ verifyLock m.runningStore.toDataStoreBase ctrl.sessionId ∨
        target = .candidate ∧ verifyLock m.candidateStore.toDataStoreBase ctrl.sessionId)
      (hfuture : InFuture clock t) :
      Effect configurators m clock ctrl
        (.editConfig target defaultOperation errorOption (.commitTimestamp t))
        { m with commitTimestamp := t } (some .ok)
  | editRunning (defaultOperation : EditOperation) (errorOption : ErrorOption) (config : C)
      (hlock : verifyLock m.runningStore.toDataStoreBase ctrl.sessionId)
      (running : RunningDataStore S) (applied : Bool)
      (h : m.runningStore.editConfig configurators defaultOperation errorOption config =
        (applied, running)) :
      Effect configurators m clock ctrl
        (.editConfig .running defaultOperation errorOption (.config config))
        { m with runningStore := running } (some (if applied then .ok else .error))
  | editCandidate (defaultOperation : EditOperation) (errorOption : ErrorOption) (config : C)
      (hlock : verifyLock m.candidateStore.toDataStoreBase ctrl.sessionId)
      (h : m.runningStore.validateConfig configurators config) :
      Effect configurators m clock ctrl
        (.editConfig .candidate defaultOperation errorOption (.config config))
        { m with
          candidateStore :=
            { m.candidateStore with
              configVector := m.candidateStore.configVector ++ [config] } } (some .ok)
  | copyToRunning (hrunning : verifyLock m.runningStore.toDataStoreBase ctrl.sessionId)
      (hcandidate : verifyLock m.candidateStore.toDataStoreBase ctrl.sessionId) :
      Effect configurators m clock ctrl (.copyConfig .candidate .running)
        (m.executeCommit configurators).2
        (some (if (m.executeCommit configurators).1 then .ok else .error))
  | copyToCandidate (hrunning : verifyLock m.runningStore.toDataStoreBase ctrl.sessionId)
      (hcandidate : verifyLock m.candidateStore.toDataStoreBase ctrl.sessionId) :
      Effect configurators m clock ctrl (.copyConfig .running .candidate)
        { m with candidateStore := m.candidateStore.clear } (some .ok)
  | deleteCandidate (hlock : verifyLock m.candidateStore.toDataStoreBase ctrl.sessionId) :
      Effect configurators m clock ctrl (.deleteConfig .candidate)
        { m with candidateStore := {} } (some .ok)
  | lockRunning (hfree : m.runningStore.lockHolderSessionId = none) :
      Effect configurators m clock ctrl (.lock .running)
        { m with
          runningStore :=
            { m.runningStore with lockHolderSessionId := some ctrl.sessionId } } (some .ok)
  | lockCandidate (hfree : m.candidateStore.lockHolderSessionId = none)
      (hempty : m.candidateStore.configVector = []) :
      Effect configurators m clock ctrl (.lock .candidate)
        { m with
          candidateStore :=
            { m.candidateStore with lockHolderSessionId := some ctrl.sessionId } } (some .ok)
  | unlockRunning (howner : m.runningStore.lockHolderSessionId = some ctrl.sessionId) :
      Effect configurators m clock ctrl (.unlock .running)
        { m with runningStore := { m.runningStore with lockHolderSessionId := none } } (some .ok)
  | unlockCandidate (howner : m.candidateStore.lockHolderSessionId = some ctrl.sessionId) :
      Effect configurators m clock ctrl (.unlock .candidate)
        { m with candidateStore := { m.candidateStore with lockHolderSessionId := none } }
        (some .ok)
  | commit (hlock : verifyLock m.runningStore.toDataStoreBase ctrl.sessionId)
      (htimestamp : m.hasCommitTimestamp = false) :
      Effect configurators m clock ctrl .commit (m.executeCommit configurators).2
        (some (if (m.executeCommit configurators).1 then .ok else .error))
  | timedCommit (m' : DataStoreManager M C S)
      (hlock : verifyLock m.runningStore.toDataStoreBase ctrl.sessionId)
      (htimestamp : m.hasCommitTimestamp) (h : m.scheduleTimedCommit clock ctrl = some m') :
      Effect configurators m clock ctrl .commit m' none

theorem effect_of_handleEditConfig {target : StoreName} {defaultOperation : EditOperation}
    {errorOption : ErrorOption} {data : Edit C}
    (h : m.handleEditConfig configurators clock ctrl.sessionId target defaultOperation errorOption
      data = some (m', r)) :
    Effect configurators m clock ctrl (.editConfig target defaultOperation errorOption data)
      m' r := by
  -- a timestamp is accepted when it is in the future, whatever the target
  have haccept : ∀ t, m.acceptCommitTimestamp clock t = some (m', r) →
      (target = .running ∧ verifyLock m.runningStore.toDataStoreBase ctrl.sessionId ∨
        target = .candidate ∧ verifyLock m.candidateStore.toDataStoreBase ctrl.sessionId) →
      Effect configurators m clock ctrl
        (.editConfig target defaultOperation errorOption (.commitTimestamp t)) m' r := by
    intro t h hlock
    obtain ⟨cycles, hcycles, h⟩ := Option.map_eq_some_iff.mp h
    split_ifs at h with hfuture
    · obtain ⟨rfl, rfl⟩ := Prod.mk.inj h
      exact .timestamp _ _ _ t hlock ⟨cycles, hcycles, hfuture⟩
    · obtain ⟨rfl, rfl⟩ := Prod.mk.inj h
      exact .refused _ trivial
  cases data with
  | noConfig => cases h
  | commitTimestamp t =>
    cases target <;> simp only [handleEditConfig] at h
    case running =>
      split_ifs at h with hlock
      · cases h
        exact .refused _ trivial
      · exact haccept t h (.inl ⟨rfl, by simpa using hlock⟩)
    case candidate =>
      split_ifs at h with hlock
      · cases h
        exact .refused _ trivial
      · exact haccept t h (.inr ⟨rfl, by simpa using hlock⟩)
    case other =>
      cases h
      exact .refused _ trivial
  | config config =>
    cases target <;> simp only [handleEditConfig] at h
    case running =>
      by_cases hlock : verifyLock m.runningStore.toDataStoreBase ctrl.sessionId
      · rw [if_neg (by simp [hlock])] at h
        cases h
        exact .editRunning _ _ _ hlock _ _ rfl
      · rw [if_pos (by simp [hlock])] at h
        cases h
        exact .refused _ trivial
    case candidate =>
      by_cases hlock : verifyLock m.candidateStore.toDataStoreBase ctrl.sessionId
      · rw [if_neg (by simp [hlock]), CandidateDataStore.editConfig] at h
        by_cases hvalid : m.runningStore.validateConfig configurators config
        · rw [if_pos hvalid] at h
          cases h
          exact .editCandidate _ _ config hlock hvalid
        · rw [if_neg hvalid] at h
          cases h
          exact .refused _ trivial
      · rw [if_pos (by simp [hlock])] at h
        cases h
        exact .refused _ trivial
    case other =>
      cases h
      exact .refused _ trivial

theorem effect_of_handleCopyConfig {source target : StoreName}
    (h : m.handleCopyConfig configurators ctrl.sessionId source target = some (m', r)) :
    Effect configurators m clock ctrl (.copyConfig source target) m' r := by
  unfold handleCopyConfig at h
  by_cases hlock : verifyLock m.runningStore.toDataStoreBase ctrl.sessionId ∧
      verifyLock m.candidateStore.toDataStoreBase ctrl.sessionId
  · rw [if_neg (by simp [hlock])] at h
    cases source <;> cases target <;> cases h
    · exact .refused _ trivial
    · exact .copyToCandidate hlock.1 hlock.2
    · exact .refused _ trivial
    · exact .copyToRunning hlock.1 hlock.2
    all_goals exact .refused _ trivial
  · have hrefused := not_and_or.mp hlock
    rw [if_pos (by simpa using hrefused)] at h
    cases h
    cases source <;> cases target <;>
      first | exact .refused _ trivial | exact .refused _ hrefused

theorem effect_of_handleLock {target : StoreName}
    (h : m.handleLock ctrl.sessionId target = some (m', r)) :
    Effect configurators m clock ctrl (.lock target) m' r := by
  cases target with
  | running =>
    rw [handleLock, DataStoreBase.checkAndLock_eq] at h
    by_cases hfree : m.runningStore.lockHolderSessionId = none
    · rw [if_pos hfree] at h
      cases h
      exact .lockRunning hfree
    · rw [if_neg hfree] at h
      cases h
      exact .refused _ (DataStoreBase.isLocked_iff.mpr hfree)
  | candidate =>
    rw [handleLock, CandidateDataStore.checkAndLock_eq] at h
    by_cases hfree : m.candidateStore.lockHolderSessionId = none ∧
        m.candidateStore.configVector = []
    · rw [if_pos hfree] at h
      cases h
      exact .lockCandidate hfree.1 hfree.2
    · rw [if_neg hfree] at h
      cases h
      refine .refused _ ?_
      rw [Refuses, DataStoreBase.isLocked_iff]
      exact not_and_or.mp hfree
  | other =>
    cases h
    exact .refused _ trivial

/-- An unlock succeeds for the owner of the lock only. -/
theorem unlockStore_eq (store : DataStoreBase) (sessionId : ℕ) :
    unlockStore store sessionId =
      if store.isLockedBy sessionId then (.ok, store.unlock) else (.error, store) := by
  unfold unlockStore DataStoreBase.isLocked DataStoreBase.isLockedBy
  cases store.lockHolderSessionId <;> simp

theorem effect_of_handleUnlock {target : StoreName}
    (h : m.handleUnlock ctrl.sessionId target = some (m', r)) :
    Effect configurators m clock ctrl (.unlock target) m' r := by
  cases target with
  | running =>
    rw [handleUnlock, unlockStore_eq] at h
    by_cases howner : m.runningStore.isLockedBy ctrl.sessionId
    · rw [if_pos howner] at h
      cases h
      exact .unlockRunning (DataStoreBase.isLockedBy_iff.mp howner)
    · rw [if_neg howner] at h
      cases h
      exact .refused _ howner
  | candidate =>
    rw [handleUnlock, unlockStore_eq] at h
    by_cases howner : m.candidateStore.isLockedBy ctrl.sessionId
    · rw [if_pos howner] at h
      cases h
      exact .unlockCandidate (DataStoreBase.isLockedBy_iff.mp howner)
    · rw [if_neg howner] at h
      cases h
      exact .refused _ howner
  | other =>
    cases h
    exact .refused _ trivial

/-- Every operation that is handled has one of the effects. -/
theorem effect_of_handleOperation
    (h : m.handleOperation configurators clock ctrl operation = some (m', r)) :
    Effect configurators m clock ctrl operation m' r := by
  cases operation with
  | getConfig source =>
    cases source <;> simp only [handleOperation, handleGetConfig] at h
    case running =>
      obtain ⟨config, -, h⟩ := Option.map_eq_some_iff.mp h
      cases h
      cases config
      · exact .refused _ trivial
      · exact .queried _ (.inl rfl)
    case candidate => cases h
    case other =>
      cases h
      exact .refused _ trivial
  | editConfig target defaultOperation errorOption data => exact effect_of_handleEditConfig h
  | copyConfig source target => exact effect_of_handleCopyConfig h
  | deleteConfig target =>
    cases target <;> simp only [handleOperation, handleDeleteConfig] at h
    case candidate =>
      by_cases hlock : verifyLock m.candidateStore.toDataStoreBase ctrl.sessionId
      · rw [if_neg (by simp [hlock])] at h
        cases h
        exact .deleteCandidate hlock
      · rw [if_pos (by simp [hlock])] at h
        cases h
        exact .refused _ hlock
    all_goals
      cases h
      exact .refused _ trivial
  | get =>
    cases h
    exact .queried _ (.inr rfl)
  | lock target => exact effect_of_handleLock h
  | unlock target => exact effect_of_handleUnlock h
  | commit =>
    simp only [handleOperation, handleCommit] at h
    by_cases hlock : verifyLock m.runningStore.toDataStoreBase ctrl.sessionId
    · rw [if_pos hlock] at h
      by_cases htimestamp : m.hasCommitTimestamp
      · rw [if_pos htimestamp] at h
        obtain ⟨m₁, hm, h⟩ := Option.map_eq_some_iff.mp h
        cases h
        exact .timedCommit _ hlock htimestamp hm
      · rw [if_neg htimestamp] at h
        cases h
        exact .commit hlock (by simpa using htimestamp)
    · rw [if_neg hlock] at h
      cases h
      exact .refused _ hlock
  | closeSession =>
    cases h
    exact .refused _ trivial
  | discardChanges =>
    cases h
    exact .refused _ trivial

/-! ## Runs of the manager -/

/-- An event of the manager. -/
inductive Event (M C : Type*)
  | operation (operation : NetConfOperation C) (ctrl : CtrlInfo M) (clock : Clock)
  | newCycle (period : ℕ) (clock : Clock)
  | executeTimedCommit (sessionId : ℕ)
  deriving DecidableEq, Repr

/-- The session on whose behalf an event happens. -/
def Event.requester : Event M C → Option ℕ
  | .operation _ ctrl _ => some ctrl.sessionId
  | .newCycle _ _ => none
  | .executeTimedCommit sessionId => some sessionId

def step (configurators : List (Configurator C S)) (m : DataStoreManager M C S) :
    Event M C → Option (DataStoreManager M C S)
  | .operation operation ctrl clock =>
    (m.handleOperation configurators clock ctrl operation).map Prod.fst
  | .newCycle period clock => m.receiveSignal clock period
  | .executeTimedCommit sessionId =>
    (m.executeTimedCommit configurators sessionId).map Prod.fst

/-- The manager of a device in any state, with any sessions. -/
def manager (M : Type*) (configurators : List (Configurator C S)) :
    System (DataStoreManager M C S) (Event M C) where
  init m := ∃ state, m = { runningStore := { state } }
  step := step configurators

theorem executeTimedCommit_eq_some {sessionId : ℕ} {commit : CtrlInfo M} {el : ReplyElement}
    (h : m.executeTimedCommit configurators sessionId = some (m', commit, el)) :
    sessionId ∈ m.scheduledCommits ∧ m.commitOperation = some commit ∧
      el = (if (m.executeCommit configurators).1 then .ok else .error) ∧
      m'.runningStore = (m.executeCommit configurators).2.runningStore ∧
      m'.candidateStore = (m.executeCommit configurators).2.candidateStore ∧
      m'.commitOperation = none ∧ m'.commitTimestamp = .zero ∧
      m'.scheduledCommits = m.scheduledCommits.erase sessionId ∧
      m'.subscriptions =
        if m.commitTimestamp.executeAtStartOfPeriod then
          m.subscriptions.filter (·.1 ≠ m.commitTimestamp.period)
        else m.subscriptions := by
  unfold executeTimedCommit at h
  by_cases hmem : sessionId ∈ m.scheduledCommits
  · rw [if_pos hmem] at h
    obtain ⟨c, hc, h⟩ := Option.map_eq_some_iff.mp h
    cases h
    by_cases hstart : m.commitTimestamp.executeAtStartOfPeriod <;>
      simp_all [executeCommit, resetCommitTimestamp]
  · rw [if_neg hmem] at h
    cases h

theorem receiveSignal_eq_some {period : ℕ} (h : m.receiveSignal clock period = some m') :
    m' = m ∨ ∃ sessionId, m.subscriptions.lookup period = some sessionId ∧
      m' = { m with scheduledCommits := m.scheduledCommits ++ [sessionId] } := by
  unfold receiveSignal at h
  split at h
  · rename_i sessionId hlookup
    split_ifs at h
    · obtain ⟨cycles, -, h⟩ := Option.bind_eq_some_iff.mp h
      split_ifs at h <;> cases h
      · exact .inr ⟨sessionId, hlookup, rfl⟩
      · exact .inl rfl
    · cases h
      exact .inl rfl
  · cases h
    exact .inl rfl

/-- A timed commit waits for a cycle or for a time. -/
theorem scheduleTimedCommit_cases (h : m.scheduleTimedCommit clock ctrl = some m') :
    (m.commitTimestamp.executeAtStartOfPeriod ∧
      m'.subscriptions = m.subscriptions ++ [(m.commitTimestamp.period, ctrl.sessionId)] ∧
      m'.scheduledCommits = m.scheduledCommits) ∨
    (¬m.commitTimestamp.executeAtStartOfPeriod ∧ m'.subscriptions = m.subscriptions ∧
      m'.scheduledCommits = m.scheduledCommits ++ [ctrl.sessionId]) := by
  simp only [scheduleTimedCommit] at h
  split_ifs at h with hstart <;> cases h
  · exact .inl ⟨hstart, rfl, rfl⟩
  · exact .inr ⟨hstart, rfl, rfl⟩

theorem scheduleTimedCommit_eq_some (h : m.scheduleTimedCommit clock ctrl = some m') :
    m'.runningStore = m.runningStore ∧ m'.candidateStore = m.candidateStore ∧
      m'.commitOperation = some ctrl ∧ m'.commitTimestamp = m.commitTimestamp := by
  simp only [scheduleTimedCommit] at h
  split_ifs at h <;> cases h <;> exact ⟨rfl, rfl, rfl, rfl⟩

end DataStoreManager

end TsnReconfig.NetConf
