import Mathlib.Data.List.Sort
import TsnReconfig.NetConf.Messages

/-!
# The transaction applications

`TransactionApp` and `TimeSynchronousTransactionApp`: they lock the running stores of the
switches one by one, have every switch make its changes in a locked candidate, and commit when
all have confirmed. A handler returns `none` where the source throws, also through
`checkEventHandled`, and where it reads behind a vector.
-/

namespace TsnReconfig.NetConf

/-! ## Connections and configurations -/

inductive ConfigurationState
  | waiting | scheduled | requested | success | error
  deriving DecidableEq, Repr

inductive NetConfMessageType
  | editConfig | getConfig | copyConfig | deleteConfig | lock | unlock | commit
  deriving DecidableEq, Repr

/-- `Configuration_t`, as `new Configuration_t()` leaves what is not set. -/
structure Configuration where
  type : NetConfMessageType
  target : StoreName := .other
  source : StoreName := .other
  data : ConfigData := .config 0
  state : ConfigurationState := .waiting
  deriving DecidableEq, Repr

/-- `Connection_t` of an open session. Addresses are numbered in the order of `compare`. -/
structure Connection where
  remoteAddress : ℕ
  sessionId : ℕ
  configurations : List Configuration
  deriving DecidableEq, Repr

/-- The operation `createNetConfRPCForConfiguration` encapsulates. -/
def Configuration.operation (config : Configuration) : Operation :=
  match config.type with
  | .editConfig => .editConfig config.target config.data
  | .getConfig => .getConfig config.source
  | .copyConfig => .copyConfig config.source config.target
  | .deleteConfig => .deleteConfig config.target
  | .lock => .lock config.target
  | .unlock => .unlock config.target
  | .commit => .commit

/-- `createNetConfRPCForConfiguration`. -/
def Connection.createRPC (c : Connection) (config : Configuration) (messageId : MessageId) : RPC :=
  ⟨c.sessionId, messageId, config.operation⟩

/-! ## The state of a switch -/

/-- `SwitchState_s`, with the member of `TimeSynchronousTransactionApp::SwitchState_s`. -/
structure SwitchState where
  hasLockedRunning : Bool := false
  hasCandidate : Bool := false
  hasLockedCandidate : Bool := false
  hasConfiguration : Bool := false
  hasCommited : Bool := false
  hasError : Bool := false
  hasCommitTimeStamp : Bool := false
  deriving DecidableEq, Repr

/-- The constants of `SwitchState`. -/
inductive SwitchStateName
  | switchAvailable | switchLocked | switchWithCandidate | switchWithLockedCandidate
  | switchWithChangedCandidateConfiguration | switchCommited | switchWithoutCandidate
  | switchWithoutOldConfig | switchUnlocked | switchError | switchWithTimestamp
  deriving DecidableEq, Repr

/-- `isInState`; the last case is the one of the derived class. -/
def SwitchState.isInState (s : SwitchState) : SwitchStateName → Bool
  | .switchAvailable => !s.hasLockedRunning && !s.hasCandidate && !s.hasLockedCandidate &&
    !s.hasConfiguration && !s.hasCommited && !s.hasError
  | .switchLocked => s.hasLockedRunning && !s.hasError
  | .switchWithCandidate => s.hasLockedRunning && s.hasCandidate && !s.hasLockedCandidate &&
    !s.hasConfiguration && !s.hasCommited && !s.hasError
  | .switchWithLockedCandidate => s.hasLockedRunning && s.hasCandidate && s.hasLockedCandidate &&
    !s.hasConfiguration && !s.hasCommited && !s.hasError
  | .switchWithChangedCandidateConfiguration => s.hasLockedRunning && s.hasCandidate &&
    s.hasLockedCandidate && s.hasConfiguration && !s.hasCommited && !s.hasError
  | .switchCommited => s.hasLockedRunning && s.hasCandidate && s.hasLockedCandidate &&
    s.hasConfiguration && s.hasCommited && !s.hasError
  | .switchWithoutCandidate => s.hasLockedRunning && !s.hasCandidate && !s.hasCommited
  | .switchWithoutOldConfig => s.hasLockedRunning && !s.hasCandidate && s.hasCommited
  | .switchUnlocked => !s.hasLockedRunning
  | .switchError => s.hasError
  | .switchWithTimestamp => s.hasLockedRunning && s.hasCandidate && s.hasLockedCandidate &&
    s.hasConfiguration && s.hasCommitTimeStamp && !s.hasCommited && !s.hasError

/-- An entry of `switchStates`. -/
structure Switch extends Connection where
  state : SwitchState := {}
  deriving DecidableEq, Repr

namespace Switch
variable (sw : Switch)

/-! The requests the handlers make for a switch, under the names of their message ids. -/

def lock : RPC := sw.createRPC { type := .lock, target := .running } .lock

def copyConfig : RPC :=
  sw.createRPC { type := .copyConfig, source := .running, target := .candidate } .copyConfig

def lockCandidate : RPC := sw.createRPC { type := .lock, target := .candidate } .lockCandidate

/-- The request for `getCommitTimestampConfig`. -/
def timestamp : RPC :=
  sw.createRPC { type := .editConfig, target := .candidate, data := .commitTimestamp } .timestamp

def commitApproved : RPC := sw.createRPC { type := .commit } .commitApproved

def deleteOldConfig : RPC :=
  sw.createRPC { type := .deleteConfig, target := .candidate } .deleteOldConfig

def deleteCandidate : RPC :=
  sw.createRPC { type := .deleteConfig, target := .candidate } .deleteCandidate

def unlock : RPC := sw.createRPC { type := .unlock, target := .running } .unlock

/-- The first change. Its type is not set. -/
def applyFirstChange : Option (Switch × List RPC) :=
  match sw.configurations with
  | [] => none
  | config :: rest =>
    if config.state = .waiting then
      let config := { config with target := .candidate }
      some ({ sw with configurations := { config with state := .requested } :: rest },
        [sw.createRPC config (.change 0)])
    else some (sw, [])

/-- The search of the change handler for the next configuration, from the index of the first
of the list on: the list with it requested, its index, and the configuration that is sent. -/
def nextConfiguration : List Configuration → ℕ → Option (List Configuration × ℕ × Configuration)
  | [], _ => none
  | config :: rest, i =>
    if config.state = .waiting then
      let config := { config with type := .editConfig, target := .candidate }
      some ({ config with state := .requested } :: rest, i, config)
    else do
      let (rest, j, next) ← nextConfiguration rest (i + 1)
      return (config :: rest, j, next)

/-- The next change, none if there is no more. -/
def applyNextChange : Option (Switch × RPC) := do
  let (configurations, i, config) ← nextConfiguration sw.configurations 0
  return ({ sw with configurations := configurations }, sw.createRPC config (.change i))

/-- The switch with a new state of its configuration `i`. -/
def setConfigurationState (i : ℕ) (s : ConfigurationState) : Switch :=
  { sw with configurations := sw.configurations.modify i fun c => { c with state := s } }

end Switch

/-! ## The application -/

/-- The constants of `TransactionAppState`. -/
inductive TransactionAppState
  | beginOfTransaction | waitOnLockResponse | waitOnCandidateConfirmation
  | waitOnCandidateLockResponse | waitOnChangeConfirmation | waitOnCommitExecution
  | waitOnDeleteOldConfiguration | waitOnDeleteCandidate | waitOnUnlock | errorState
  | endOfTransaction | waitOnTimestampConfirmation
  deriving DecidableEq, Repr

/-- `TransactionApp`, or `TimeSynchronousTransactionApp` if `timeSynchronous` holds. The map
`switchStates` is in the order of the addresses; `lambdaScheduled` tells whether the event
`LAMBDA_EVENT` is scheduled. -/
structure TransactionApp where
  timeSynchronous : Bool
  connections : List Connection
  switchStates : List Switch
  transactionState : TransactionAppState
  result : Bool
  lambdaScheduled : Bool
  deriving DecidableEq, Repr

namespace TransactionApp

/-- What a handler leaves and sends. -/
abbrev Handled := Option (TransactionApp × List RPC)

variable (app : TransactionApp)

/-- `getSwitchesInState`. -/
def getSwitchesInState (s : SwitchStateName) : List Switch :=
  app.switchStates.filter (·.state.isInState s)

/-- `findConnectionForReply`. -/
def findConnectionForReply (reply : Reply) : Option Switch :=
  app.switchStates.find? (·.sessionId = reply.sessionId)

/-- The application with a changed entry of `switchStates`. -/
def modifySwitch (sessionId : ℕ) (f : Switch → Switch) : TransactionApp :=
  { app with
    switchStates := app.switchStates.map fun sw => if sw.sessionId = sessionId then f sw else sw }

def modifyState (sessionId : ℕ) (f : SwitchState → SwitchState) : TransactionApp :=
  app.modifySwitch sessionId fun sw => { sw with state := f sw.state }

/-- `determineLockOrder`. -/
def determineLockOrder : TransactionApp :=
  { app with
    switchStates := (app.connections.insertionSort fun a b => a.remoteAddress ≤ b.remoteAddress).map
      fun c => { c with } }

/-- `transitionToState`. -/
def transitionToState (next : TransactionAppState) : Handled :=
  let app := { app with transactionState := next }
  match next with
  | .waitOnLockResponse => do
    let connectionToLock ← app.switchStates.find? (·.state.isInState .switchAvailable)
    return (app, [connectionToLock.lock])
  | .errorState => some ({ app with result := false, lambdaScheduled := true }, [])
  | .endOfTransaction => some ({ app with result := true }, [])
  | _ => some (app, [])

/-- A request to every switch, and the transition to the state that waits for the replies. -/
def sendToAll (request : Switch → RPC) (next : TransactionAppState) : Handled := do
  let (app', sent) ← app.transitionToState next
  return (app', app.switchStates.map request ++ sent)

/-- The handlers that accept `Ok` replies only: they note the reply, and go on when all switches
are in the state `goal`. -/
def collectOk (reply : Reply) (messageId : MessageId) (note : SwitchState → SwitchState)
    (goal : SwitchStateName) (again : TransactionAppState) (goOn : TransactionApp → Handled) :
    Handled := do
  if reply.element = .ok then
    let con ← app.findConnectionForReply reply
    if reply.messageId ≠ messageId then none
    else
      let app := app.modifyState con.sessionId note
      let reached := (app.getSwitchesInState goal).length
      if reached < app.switchStates.length then app.transitionToState again
      else if reached = app.switchStates.length then goOn app
      else none
  else none

/-! ## The handlers -/

/-- `handleMessageInBeginOfTransaction`, for the event that starts the transaction. -/
def handleMessageInBeginOfTransaction : Handled :=
  app.determineLockOrder.transitionToState .waitOnLockResponse

/-- `handleMessageInWaitOnLockResponse`. -/
def handleMessageInWaitOnLockResponse (reply : Reply) : Handled :=
  match reply.element with
  | .ok => do
    let con ← app.findConnectionForReply reply
    if reply.messageId = .lock ∧ con.state.isInState .switchAvailable then
      let app := app.modifyState con.sessionId fun s => { s with hasLockedRunning := true }
      let locked := (app.getSwitchesInState .switchLocked).length
      if locked < app.switchStates.length then app.transitionToState .waitOnLockResponse
      else if locked = app.switchStates.length then
        app.sendToAll Switch.copyConfig .waitOnCandidateConfirmation
      else none
    else none
  | .error =>
    if reply.messageId ≠ .lock then none
    else if (app.getSwitchesInState .switchLocked).length = 0 then
      { app with result := false }.transitionToState .endOfTransaction
    else do
      let con ← app.findConnectionForReply reply
      -- only the connection that was refused is unlocked
      let unlocks := (app.switchStates.filter (·.remoteAddress = con.remoteAddress)).map Switch.unlock
      let app := app.modifyState con.sessionId fun s => { s with hasLockedRunning := false }
      let (app, sent) ← { app with result := false }.transitionToState .waitOnUnlock
      return (app, unlocks ++ sent)
  | .data => none

/-- `handleMessageInWaitOnCandidateConfirmation`. -/
def handleMessageInWaitOnCandidateConfirmation (reply : Reply) : Handled :=
  match reply.element with
  | .ok => do
    let con ← app.findConnectionForReply reply
    if reply.messageId ≠ .copyConfig then none
    else
      let app := app.modifyState con.sessionId fun s => { s with hasCandidate := true }
      let withCandidate := (app.getSwitchesInState .switchWithCandidate).length
      let failed := (app.getSwitchesInState .switchError).length
      let all := app.switchStates.length
      if failed > 0 then
        if withCandidate + failed = all then app.transitionToState .errorState
        else app.transitionToState .waitOnCandidateConfirmation
      else if withCandidate < all then app.transitionToState .waitOnCandidateConfirmation
      else if withCandidate = all then
        app.sendToAll Switch.lockCandidate .waitOnCandidateLockResponse
      else none
  | .error => do
    let con ← app.findConnectionForReply reply
    if reply.messageId ≠ .copyConfig then none
    else
      let app := app.modifyState con.sessionId fun s => { s with hasError := true }
      let withCandidate := (app.getSwitchesInState .switchWithCandidate).length
      let failed := (app.getSwitchesInState .switchError).length
      let all := app.switchStates.length
      if withCandidate = 0 ∧ failed = all then app.sendToAll Switch.unlock .waitOnUnlock
      else if withCandidate + failed < all then
        app.transitionToState .waitOnCandidateConfirmation
      else if withCandidate + failed = all then app.transitionToState .errorState
      else none
  | .data => none

/-- The first changes of all switches, and the transition to `WaitOnChangeConfirmation`. -/
def applyFirstChanges : Handled := do
  let changed ← app.switchStates.mapM Switch.applyFirstChange
  let app := { app with switchStates := changed.map Prod.fst }
  let (app, sent) ← app.transitionToState .waitOnChangeConfirmation
  return (app, changed.flatMap Prod.snd ++ sent)

/-- `handleMessageInWaitOnCandidateLockResponse`. -/
def handleMessageInWaitOnCandidateLockResponse (reply : Reply) : Handled :=
  app.collectOk reply .lockCandidate (fun s => { s with hasLockedCandidate := true })
    .switchWithLockedCandidate .waitOnCandidateLockResponse applyFirstChanges

/-- The text that the two change handlers share; `goOn` is what they do when all switches have
made their changes. -/
def confirmChange (goOn : TransactionApp → Handled) (reply : Reply) : Handled := do
  let con ← app.findConnectionForReply reply
  let i := reply.messageId.atoi
  let config ← con.configurations[i]?
  if config.state ≠ .requested then none
  else
    match reply.element with
    | .ok =>
      let app := app.modifySwitch con.sessionId (·.setConfigurationState i .success)
      if (app.getSwitchesInState .switchError).length > 0 then
        let app := app.modifyState con.sessionId fun s => { s with hasConfiguration := true }
        let changed := (app.getSwitchesInState .switchWithChangedCandidateConfiguration).length
        if (app.getSwitchesInState .switchError).length + changed = app.switchStates.length then
          app.transitionToState .errorState
        else app.transitionToState .waitOnChangeConfirmation
      else
        let con ← app.findConnectionForReply reply
        let (app, change) := match con.applyNextChange with
          | some (con, rpc) => (app.modifySwitch con.sessionId fun _ => con, [rpc])
          | none => (app.modifyState con.sessionId fun s => { s with hasConfiguration := true }, [])
        let changed := (app.getSwitchesInState .switchWithChangedCandidateConfiguration).length
        let (app, sent) ←
          if changed = app.switchStates.length ∧
              (app.getSwitchesInState .switchError).length = 0 then goOn app
          else app.transitionToState .waitOnChangeConfirmation
        return (app, change ++ sent)
    | .error =>
      let app := app.modifySwitch con.sessionId (·.setConfigurationState i .error)
      let app := app.modifyState con.sessionId fun s => { s with hasError := true }
      let changed := (app.getSwitchesInState .switchWithChangedCandidateConfiguration).length
      let failed := (app.getSwitchesInState .switchError).length
      if changed + failed < app.switchStates.length then
        app.transitionToState .waitOnChangeConfirmation
      else if changed + failed = app.switchStates.length then app.transitionToState .errorState
      else none
    | .data => none

/-- `TransactionApp::handleMessageInWaitOnChangeConfirmation`. -/
def handleMessageInWaitOnChangeConfirmation (reply : Reply) : Handled :=
  app.confirmChange (·.sendToAll Switch.commitApproved .waitOnCommitExecution) reply

/-- The timestamp to every switch with a changed candidate. -/
def sendTimestamps : Handled := do
  let (app', sent) ← app.transitionToState .waitOnTimestampConfirmation
  return (app', (app.getSwitchesInState .switchWithChangedCandidateConfiguration).map
    Switch.timestamp ++ sent)

/-- `TimeSynchronousTransactionApp::handleMessageInWaitOnChangeConfirmation`. -/
def timeSynchronousHandleMessageInWaitOnChangeConfirmation (reply : Reply) : Handled :=
  app.confirmChange sendTimestamps reply

/-- `handleMessageInWaitOnTimestampConfirmation`; `release` is what `checkCommitrelease`
returns. -/
def handleMessageInWaitOnTimestampConfirmation (release : Bool) (reply : Reply) : Handled :=
  match reply.element with
  | .ok => do
    let con ← app.findConnectionForReply reply
    if reply.messageId ≠ .timestamp then none
    else
      let app := app.modifyState con.sessionId fun s => { s with hasCommitTimeStamp := true }
      let withTimestamp := (app.getSwitchesInState .switchWithTimestamp).length
      let failed := (app.getSwitchesInState .switchError).length
      let all := app.switchStates.length
      if failed > 0 ∧ withTimestamp + failed = all then app.transitionToState .errorState
      else if withTimestamp < all then app.transitionToState .waitOnTimestampConfirmation
      else if withTimestamp = all then
        if !release then app.transitionToState .errorState
        else app.sendToAll Switch.commitApproved .waitOnCommitExecution
      else none
  | .error =>
    if reply.messageId ≠ .timestamp then none
    else do
      let con ← app.findConnectionForReply reply
      let app := app.modifyState con.sessionId fun s => { s with hasError := true }
      let withTimestamp := (app.getSwitchesInState .switchWithTimestamp).length
      let failed := (app.getSwitchesInState .switchError).length
      if withTimestamp + failed < app.switchStates.length then
        app.transitionToState .waitOnTimestampConfirmation
      else if withTimestamp + failed = app.switchStates.length then
        app.transitionToState .errorState
      else none
  | .data => none

/-- `handleMessageInWaitOnCommitExecution`. -/
def handleMessageInWaitOnCommitExecution (reply : Reply) : Handled :=
  app.collectOk reply .commitApproved (fun s => { s with hasCommited := true }) .switchCommited
    .waitOnCommitExecution (·.sendToAll Switch.deleteOldConfig .waitOnDeleteOldConfiguration)

/-- `handleMessageInWaitOnDeleteOldConfiguration`. -/
def handleMessageInWaitOnDeleteOldConfiguration (reply : Reply) : Handled :=
  app.collectOk reply .deleteOldConfig
    (fun s => { s with hasCandidate := false, hasLockedCandidate := false })
    .switchWithoutOldConfig .waitOnDeleteOldConfiguration (·.sendToAll Switch.unlock .waitOnUnlock)

/-- `handleMessageInWaitOnDeleteCandidate`. -/
def handleMessageInWaitOnDeleteCandidate (reply : Reply) : Handled :=
  app.collectOk reply .deleteCandidate
    (fun s => { s with hasCandidate := false, hasLockedCandidate := false })
    .switchWithoutCandidate .waitOnDeleteCandidate (·.sendToAll Switch.unlock .waitOnUnlock)

/-- `handleMessageInWaitOnUnlock`. -/
def handleMessageInWaitOnUnlock (reply : Reply) : Handled :=
  app.collectOk reply .unlock (fun s => { s with hasLockedRunning := false }) .switchUnlocked
    .waitOnUnlock (·.transitionToState .endOfTransaction)

/-- `handleMessageInErrorState`, for the lambda event. -/
def handleMessageInErrorState : Handled := do
  let app := { app with result := false, lambdaScheduled := false }
  let withCandidate := app.switchStates.filter (·.state.hasCandidate)
  let (app, sent) ← app.transitionToState .waitOnDeleteCandidate
  return (app, withCandidate.map Switch.deleteCandidate ++ sent)

/-- The alphabet of the state machine. -/
inductive Message
  | startTransaction
  | rpcReply (reply : Reply)
  | lambda
  deriving DecidableEq, Repr

/-- `finiteStateMachine` of both classes. A message of another kind than its state handles is
not handled. -/
def finiteStateMachine (release : Bool) : Message → Handled
  | .startTransaction =>
    match app.transactionState with
    | .beginOfTransaction => app.handleMessageInBeginOfTransaction
    | _ => none
  | .lambda =>
    match app.transactionState with
    | .errorState => app.handleMessageInErrorState
    | _ => none
  | .rpcReply reply =>
    match app.transactionState with
    | .waitOnLockResponse => app.handleMessageInWaitOnLockResponse reply
    | .waitOnCandidateConfirmation => app.handleMessageInWaitOnCandidateConfirmation reply
    | .waitOnCandidateLockResponse => app.handleMessageInWaitOnCandidateLockResponse reply
    | .waitOnChangeConfirmation =>
      if app.timeSynchronous then
        app.timeSynchronousHandleMessageInWaitOnChangeConfirmation reply
      else app.handleMessageInWaitOnChangeConfirmation reply
    | .waitOnTimestampConfirmation =>
      if app.timeSynchronous then app.handleMessageInWaitOnTimestampConfirmation release reply
      else none
    | .waitOnCommitExecution => app.handleMessageInWaitOnCommitExecution reply
    | .waitOnDeleteOldConfiguration => app.handleMessageInWaitOnDeleteOldConfiguration reply
    | .waitOnDeleteCandidate => app.handleMessageInWaitOnDeleteCandidate reply
    | .waitOnUnlock => app.handleMessageInWaitOnUnlock reply
    | .beginOfTransaction | .errorState | .endOfTransaction => none

end TransactionApp

end TsnReconfig.NetConf
