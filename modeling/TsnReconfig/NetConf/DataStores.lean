import Mathlib.Data.Rat.Defs
import TsnReconfig.NetConf.Messages

/-!
# The data stores of a server

`NetConfDataStoreManagerBase` with its running and its candidate store. The configurators, what
they configure (`S`), the configurations (`C`) and the message ids (`M`) are parameters. A
function returns `none` where the source throws or dereferences a null pointer.
-/

namespace TsnReconfig.NetConf

/-! ## Operations -/

/-- `NetConfOperation_Operation`. -/
inductive EditOperation
  | none | merge | replace | create | delete | remove
  deriving DecidableEq, Repr

/-- `NetConfOperation_ErrorOption`. -/
inductive ErrorOption
  | stopOnError | continueOnError | rollbackOnError
  deriving DecidableEq, Repr

/-- `CommitTimestamp_t`. -/
structure CommitTimestamp where
  cycle : ℕ
  period : ℕ
  time : ℚ
  executeAtStartOfPeriod : Bool
  deriving DecidableEq, Repr

/-- The timestamp that `resetCommitTimestamp` sets. -/
def CommitTimestamp.zero : CommitTimestamp := ⟨0, 0, 0, false⟩

/-- What an `edit-config` encapsulates. -/
inductive Edit (C : Type*)
  | config (config : C)
  | commitTimestamp (timestamp : CommitTimestamp)
  | noConfig
  deriving DecidableEq, Repr

/-- The classes derived from `NetConfOperation`. -/
inductive NetConfOperation (C : Type*)
  | getConfig (source : StoreName)
  | editConfig (target : StoreName) (defaultOperation : EditOperation)
      (errorOption : ErrorOption) (data : Edit C)
  | copyConfig (source target : StoreName)
  | deleteConfig (target : StoreName)
  | get
  | closeSession
  | lock (target : StoreName)
  | unlock (target : StoreName)
  | commit
  | discardChanges
  deriving DecidableEq, Repr

/-- `NetConfCtrlInfo`. -/
structure CtrlInfo (M : Type*) where
  sessionId : ℕ
  messageId : M
  deriving DecidableEq, Repr

/-- What the manager reads of the scheduler: the time and the cycles of the periods. -/
structure Clock where
  totalSimTime : ℚ
  cycles : List ℕ
  deriving DecidableEq, Repr

/-! ## The stores -/

/-- `NetConfDataStoreBase`; no lock holder stands for the session id -1. -/
structure DataStoreBase where
  lockHolderSessionId : Option ℕ := none
  deriving DecidableEq, Repr

namespace DataStoreBase

def isLocked (store : DataStoreBase) : Bool := store.lockHolderSessionId.isSome

def isLockedBy (store : DataStoreBase) (sessionId : ℕ) : Bool :=
  store.lockHolderSessionId = some sessionId

def unlock (_ : DataStoreBase) : DataStoreBase := { lockHolderSessionId := none }

/-- `checkAndLock`, with its result. -/
def checkAndLock (store : DataStoreBase) (sessionId : ℕ) : Bool × DataStoreBase :=
  if !store.isLocked then (true, { lockHolderSessionId := some sessionId }) else (false, store)

end DataStoreBase

/-- `NetConfDataConfiguratorBase`: `getConfig` returns no configuration for a null pointer, and
`none` where it throws. -/
structure Configurator (C S : Type*) where
  getConfig : S → Option (Option C)
  editConfig : EditOperation → ErrorOption → C → S → Bool × S
  validateConfig : C → S → Bool

/-- `NetConfDataConfiguratorDummy`; `config` is the new configuration of its `getConfig`. -/
def Configurator.dummy {C S : Type*} (config : C) : Configurator C S where
  getConfig _ := some (some config)
  editConfig _ _ _ state := (true, state)
  validateConfig _ _ := true

variable {M C S : Type*}

/-- `NetConfRunningDataStore`; `state` is what its configurators configure. -/
structure RunningDataStore (S : Type*) extends DataStoreBase where
  state : S
  deriving DecidableEq, Repr

namespace RunningDataStore

/-- `NetConfRunningDataStore::getConfig`. -/
def getConfig (running : RunningDataStore S) : List (Configurator C S) → Option (Option C)
  | [] => some none
  | configurator :: configurators =>
    (configurator.getConfig running.state).bind fun
      | some config => some (some config)
      | none => getConfig running configurators

/-- `NetConfRunningDataStore::editConfig`: all configurators are tried. -/
def editConfig (configurators : List (Configurator C S)) (operation : EditOperation)
    (errorOption : ErrorOption) (config : C) (running : RunningDataStore S) :
    Bool × RunningDataStore S :=
  configurators.foldl
    (fun r configurator =>
      let edited := configurator.editConfig operation errorOption config r.2.state
      (r.1 || edited.1, { r.2 with state := edited.2 }))
    (false, running)

/-- `NetConfRunningDataStore::validateConfig`. -/
def validateConfig (configurators : List (Configurator C S)) (config : C)
    (running : RunningDataStore S) : Bool :=
  configurators.any (·.validateConfig config running.state)

end RunningDataStore

/-- `NetConfCandidateDataStore`. -/
structure CandidateDataStore (C : Type*) extends DataStoreBase where
  configVector : List C := []
  deriving DecidableEq, Repr

namespace CandidateDataStore

/-- `NetConfCandidateDataStore::editConfig`, which ignores the two options. -/
def editConfig (configurators : List (Configurator C S)) (running : RunningDataStore S)
    (config : C) (candidate : CandidateDataStore C) : Bool × CandidateDataStore C :=
  if running.validateConfig configurators config then
    (true, { candidate with configVector := candidate.configVector ++ [config] })
  else (false, candidate)

/-- `NetConfCandidateDataStore::checkAndLock`. -/
def checkAndLock (sessionId : ℕ) (candidate : CandidateDataStore C) :
    Bool × CandidateDataStore C :=
  if !candidate.configVector.isEmpty then (false, candidate)
  else
    let locked := candidate.toDataStoreBase.checkAndLock sessionId
    (locked.1, { candidate with toDataStoreBase := locked.2 })

def clear (candidate : CandidateDataStore C) : CandidateDataStore C :=
  { candidate with configVector := [] }

/-- `NetConfCandidateDataStore::applyTo`: the edits are applied up to the first that fails, and
all of them are cleared. -/
def applyTo (configurators : List (Configurator C S)) (candidate : CandidateDataStore C)
    (running : RunningDataStore S) : Bool × CandidateDataStore C × RunningDataStore S :=
  let applied := candidate.configVector.foldl
    (fun r configChange =>
      if r.1 then r.2.editConfig configurators .merge .rollbackOnError configChange else r)
    (true, running)
  (applied.1, candidate.clear, applied.2)

end CandidateDataStore

/-! ## The manager -/

/-- `NetConfDataStoreManagerBase`. Of the commit operation its control info is kept.
`subscriptions` are the periods whose cycles it listens to, and `scheduledCommits` has an entry
for each message `EXECUTE_TIMED_COMMIT` that has not arrived, both with the session whose commit
it is for, which the source does not keep. -/
structure DataStoreManager (M C S : Type*) where
  runningStore : RunningDataStore S
  candidateStore : CandidateDataStore C := {}
  commitTimestamp : CommitTimestamp := .zero
  commitOperation : Option (CtrlInfo M) := none
  subscriptions : List (ℕ × ℕ) := []
  scheduledCommits : List ℕ := []
  deriving DecidableEq, Repr

namespace DataStoreManager

/-- What a handler leaves, and its reply element; there is none yet for a timed commit. -/
abbrev Handled (M C S : Type*) := Option (DataStoreManager M C S × Option ReplyElement)

variable (configurators : List (Configurator C S)) (m : DataStoreManager M C S)

/-- `verifyLock`. -/
def verifyLock (datastore : DataStoreBase) (sessionId : ℕ) : Bool :=
  !datastore.isLocked || datastore.isLockedBy sessionId

def handleGetConfig : StoreName → Handled M C S
  | .running =>
    (m.runningStore.getConfig configurators).map fun config =>
      (m, some (if config.isSome then .data else .error))
  -- the candidate store throws
  | .candidate => none
  | .other => some (m, some .error)

/-- The part of `handleEditConfig` for a commit timestamp. -/
def acceptCommitTimestamp (clock : Clock) (timestamp : CommitTimestamp) : Handled M C S :=
  clock.cycles[timestamp.period]?.map fun cycles =>
    if cycles < timestamp.cycle ∧ timestamp.executeAtStartOfPeriod ∨
        clock.totalSimTime < timestamp.time ∧ !timestamp.executeAtStartOfPeriod then
      ({ m with commitTimestamp := timestamp }, some .ok)
    else (m, some .error)

def handleEditConfig (clock : Clock) (sessionId : ℕ) (target : StoreName)
    (defaultOperation : EditOperation) (errorOption : ErrorOption) : Edit C → Handled M C S
  | .noConfig => none
  | .commitTimestamp timestamp =>
    match target with
    | .running =>
      if !verifyLock m.runningStore.toDataStoreBase sessionId then some (m, some .error)
      else m.acceptCommitTimestamp clock timestamp
    | .candidate =>
      if !verifyLock m.candidateStore.toDataStoreBase sessionId then some (m, some .error)
      else m.acceptCommitTimestamp clock timestamp
    | .other => some (m, some .error)
  | .config config =>
    match target with
    | .running =>
      if !verifyLock m.runningStore.toDataStoreBase sessionId then some (m, some .error)
      else
        let edited := m.runningStore.editConfig configurators defaultOperation errorOption config
        some ({ m with runningStore := edited.2 }, some (if edited.1 then .ok else .error))
    | .candidate =>
      if !verifyLock m.candidateStore.toDataStoreBase sessionId then some (m, some .error)
      else
        let edited := m.candidateStore.editConfig configurators m.runningStore config
        some ({ m with candidateStore := edited.2 }, some (if edited.1 then .ok else .error))
    | .other => some (m, some .error)

/-- `executeCommit`, with its result. -/
def executeCommit : Bool × DataStoreManager M C S :=
  let applied := m.candidateStore.applyTo configurators m.runningStore
  (applied.1, { m with candidateStore := applied.2.1, runningStore := applied.2.2 })

def handleCopyConfig (sessionId : ℕ) (source target : StoreName) : Handled M C S :=
  if !verifyLock m.runningStore.toDataStoreBase sessionId ||
      !verifyLock m.candidateStore.toDataStoreBase sessionId then some (m, some .error)
  else
    match source, target with
    | .candidate, .running =>
      let applied := m.candidateStore.applyTo configurators m.runningStore
      some ({ m with candidateStore := applied.2.1, runningStore := applied.2.2 },
        some (if applied.1 then .ok else .error))
    | .running, .candidate =>
      some ({ m with candidateStore := m.candidateStore.clear }, some .ok)
    | _, _ => some (m, some .error)

def handleDeleteConfig (sessionId : ℕ) : StoreName → Handled M C S
  | .candidate =>
    if !verifyLock m.candidateStore.toDataStoreBase sessionId then some (m, some .error)
    else
      let candidate := m.candidateStore.clear
      let candidate := { candidate with toDataStoreBase := candidate.toDataStoreBase.unlock }
      some ({ m with candidateStore := candidate }, some .ok)
  | .running | .other => some (m, some .error)

def handleLock (sessionId : ℕ) : StoreName → Handled M C S
  | .running =>
    let locked := m.runningStore.toDataStoreBase.checkAndLock sessionId
    some ({ m with runningStore := { m.runningStore with toDataStoreBase := locked.2 } },
      some (if locked.1 then .ok else .error))
  | .candidate =>
    let locked := m.candidateStore.checkAndLock sessionId
    some ({ m with candidateStore := locked.2 }, some (if locked.1 then .ok else .error))
  | .other => some (m, some .error)

/-- The part of `handleUnlock` for the chosen store, with its reply element. -/
def unlockStore (datastore : DataStoreBase) (sessionId : ℕ) : ReplyElement × DataStoreBase :=
  if !datastore.isLocked then (.error, datastore)
  else if datastore.isLockedBy sessionId then (.ok, datastore.unlock)
  else (.error, datastore)

def handleUnlock (sessionId : ℕ) : StoreName → Handled M C S
  | .running =>
    let unlocked := unlockStore m.runningStore.toDataStoreBase sessionId
    some ({ m with runningStore := { m.runningStore with toDataStoreBase := unlocked.2 } },
      some unlocked.1)
  | .candidate =>
    let unlocked := unlockStore m.candidateStore.toDataStoreBase sessionId
    some ({ m with candidateStore := { m.candidateStore with toDataStoreBase := unlocked.2 } },
      some unlocked.1)
  | .other => some (m, some .error)

def hasCommitTimestamp : Bool :=
  !(m.commitTimestamp.cycle = 0 && m.commitTimestamp.executeAtStartOfPeriod ||
    m.commitTimestamp.time = 0 && !m.commitTimestamp.executeAtStartOfPeriod)

/-- `scheduleTimedCommit`. To subscribe twice is an error, and so are the ticks to a time in the
past, which the source casts to an unsigned integer. -/
def scheduleTimedCommit (clock : Clock) (commit : CtrlInfo M) : Option (DataStoreManager M C S) :=
  let m := { m with commitOperation := some commit }
  if m.commitTimestamp.executeAtStartOfPeriod then
    if m.commitTimestamp.period < clock.cycles.length ∧
        m.subscriptions.lookup m.commitTimestamp.period = none then
      some { m with
        subscriptions := m.subscriptions ++ [(m.commitTimestamp.period, commit.sessionId)] }
    else none
  else if clock.totalSimTime ≤ m.commitTimestamp.time then
    some { m with scheduledCommits := m.scheduledCommits ++ [commit.sessionId] }
  else none

def handleCommit (clock : Clock) (ctrl : CtrlInfo M) : Handled M C S :=
  if verifyLock m.runningStore.toDataStoreBase ctrl.sessionId then
    if m.hasCommitTimestamp then (m.scheduleTimedCommit clock ctrl).map (·, none)
    else
      let executed := m.executeCommit configurators
      some (executed.2, some (if executed.1 then .ok else .error))
  else some (m, some .error)

/-- The dispatch of `handleMessage`. -/
def handleOperation (clock : Clock) (ctrl : CtrlInfo M) : NetConfOperation C → Handled M C S
  | .getConfig source => m.handleGetConfig configurators source
  | .editConfig target defaultOperation errorOption data =>
    m.handleEditConfig configurators clock ctrl.sessionId target defaultOperation errorOption data
  | .copyConfig source target => m.handleCopyConfig configurators ctrl.sessionId source target
  | .deleteConfig target => m.handleDeleteConfig ctrl.sessionId target
  | .get => some (m, some .data)
  | .lock target => m.handleLock ctrl.sessionId target
  | .unlock target => m.handleUnlock ctrl.sessionId target
  | .commit => m.handleCommit configurators clock ctrl
  | .closeSession | .discardChanges => some (m, some .error)

/-- `resetCommitTimestamp`. -/
def resetCommitTimestamp : DataStoreManager M C S :=
  { m with commitOperation := none, commitTimestamp := .zero }

/-- `handleMessage` for an `EXECUTE_TIMED_COMMIT` of a session: the reply goes to the commit
operation that is stored. -/
def executeTimedCommit (sessionId : ℕ) :
    Option (DataStoreManager M C S × CtrlInfo M × ReplyElement) :=
  if sessionId ∈ m.scheduledCommits then
    let executed := m.executeCommit configurators
    let m := { executed.2 with scheduledCommits := m.scheduledCommits.erase sessionId }
    let m :=
      if m.commitTimestamp.executeAtStartOfPeriod then
        { m with
          subscriptions := m.subscriptions.filter (·.1 ≠ m.commitTimestamp.period) }
      else m
    m.commitOperation.map fun commit =>
      (m.resetCommitTimestamp, commit, if executed.1 then .ok else .error)
  else none

/-- `receiveSignal`, for a new cycle of a period. -/
def receiveSignal (clock : Clock) (period : ℕ) : Option (DataStoreManager M C S) :=
  match m.subscriptions.lookup period with
  | some sessionId =>
    if period = m.commitTimestamp.period then
      clock.cycles[period]?.bind fun cycles =>
        if cycles = m.commitTimestamp.cycle then
          some { m with scheduledCommits := m.scheduledCommits ++ [sessionId] }
        else if m.commitTimestamp.cycle < cycles then none
        else some m
    else some m
  | none => some m

end DataStoreManager

end TsnReconfig.NetConf
