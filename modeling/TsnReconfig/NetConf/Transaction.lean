import TsnReconfig.Lib.Round
import TsnReconfig.Lib.System
import TsnReconfig.NetConf.TransactionApp

/-!
# Runs of a transaction

An application with the requests that have no reply yet. Replies arrive in any order, with any
element; a reply that the application does not handle ends the simulation, so it has no step.
-/

namespace TsnReconfig.NetConf

open TsnReconfig.Lib

/-! ## The system -/

/-- An event of the application; `release` is what `checkCommitrelease` returns if the handler of
the reply calls it. -/
inductive Event
  | startTransaction
  | reply (rpc : RPC) (element : ReplyElement) (release : Bool)
  | lambda
  deriving DecidableEq, Repr

def Event.message : Event → TransactionApp.Message
  | .startTransaction => .startTransaction
  | .reply rpc element _ => .rpcReply (rpc.reply element)
  | .lambda => .lambda

def Event.release : Event → Bool
  | .reply _ _ release => release
  | _ => false

/-- The requests that an event leaves without a reply. -/
def Event.unanswered (e : Event) (outstanding : List RPC) : List RPC :=
  match e with
  | .reply rpc _ _ => outstanding.erase rpc
  | _ => outstanding

/-- What an event needs of the requests in flight. -/
def Event.Possible (e : Event) (outstanding : List RPC) : Prop :=
  match e with
  | .reply rpc _ _ => rpc ∈ outstanding
  | _ => True

/-- An application, the requests without a reply, and what it has sent and handled so far. -/
structure Run where
  app : TransactionApp
  outstanding : List RPC := []
  sent : List RPC := []
  log : List Event := []
  deriving DecidableEq, Repr

namespace Run

/-- The application before the transaction. -/
def new (timeSynchronous : Bool) (connections : List Connection) : Run where
  app :=
    { timeSynchronous, connections, switchStates := [], transactionState := .beginOfTransaction,
      result := false, lambdaScheduled := false }

def possible (r : Run) : Event → Bool
  | .startTransaction => true
  | .reply rpc _ _ => decide (rpc ∈ r.outstanding)
  | .lambda => r.app.lambdaScheduled

/-- The run after an event, if the application handles it. -/
def after (r : Run) (e : Event) (app : TransactionApp) (sent : List RPC) : Run where
  app := app
  outstanding := e.unanswered r.outstanding ++ sent
  sent := r.sent ++ sent
  log := r.log ++ [e]

def step (r : Run) (e : Event) : Option Run :=
  if r.possible e then
    (r.app.finiteStateMachine e.release e.message).map fun h => r.after e h.1 h.2
  else none

theorem step_eq_some {r r' : Run} {e : Event} (h : r.step e = some r') :
    r.possible e ∧ ∃ app sent, r.app.finiteStateMachine e.release e.message = some (app, sent) ∧
      r' = r.after e app sent := by
  unfold step at h
  split_ifs at h with hp
  obtain ⟨⟨app, sent⟩, hh, rfl⟩ := Option.map_eq_some_iff.mp h
  exact ⟨hp, app, sent, hh, rfl⟩

end Run

/-- What a transaction keeps of a connection: where it leads, how many changes it has, and the
type of the first one. -/
def Connection.profile (c : Connection) : ℕ × ℕ × ℕ × Option NetConfMessageType :=
  (c.remoteAddress, c.sessionId, c.configurations.length, c.configurations.head?.map (·.type))

/-- Open sessions with different switches, and changes that wait. -/
structure Opened (connections : List Connection) : Prop where
  addresses : (connections.map (·.remoteAddress)).Nodup
  sessions : (connections.map (·.sessionId)).Nodup
  waiting : ∀ c ∈ connections, ∀ config ∈ c.configurations, config.state = .waiting

/-- A transaction with any switches and any changes. -/
def transaction : System Run Event where
  init r := ∃ timeSynchronous connections, Opened connections ∧ r = .new timeSynchronous connections
  step := Run.step

/-! ## Requests in flight -/

namespace Switch
variable (sw : Switch)

/-- The change that is requested. -/
def requestedChange : Option RPC := do
  let i ← sw.configurations.findIdx? (·.state = .requested)
  let config ← sw.configurations[i]?
  return sw.createRPC config (.change i)

/-- The request to the switch that has no reply yet, while the application waits in a state for
all switches. -/
def pending : TransactionAppState → Option RPC
  | .waitOnCandidateConfirmation =>
    if sw.state.hasCandidate || sw.state.hasError then none else some sw.copyConfig
  | .waitOnCandidateLockResponse =>
    if sw.state.hasLockedCandidate then none else some sw.lockCandidate
  | .waitOnChangeConfirmation =>
    if sw.state.hasConfiguration || sw.state.hasError then none else sw.requestedChange
  | .waitOnTimestampConfirmation =>
    if sw.state.hasCommitTimeStamp || sw.state.hasError then none else some sw.timestamp
  | .waitOnCommitExecution => if sw.state.hasCommited then none else some sw.commitApproved
  | .waitOnDeleteOldConfiguration =>
    if sw.state.hasCandidate then some sw.deleteOldConfig else none
  | .waitOnDeleteCandidate => if sw.state.hasCandidate then some sw.deleteCandidate else none
  | .waitOnUnlock => if sw.state.hasLockedRunning then some sw.unlock else none
  | _ => none

/-- The change that is requested: those before it have succeeded, those behind it wait. -/
structure Changing (done : List Configuration) (config : Configuration)
    (rest : List Configuration) : Prop where
  configurations : sw.configurations = done ++ config :: rest
  success : ∀ c ∈ done, c.state = .success
  requested : config.state = .requested
  target : config.target = .candidate
  type : done ≠ [] → config.type = .editConfig
  waiting : ∀ c ∈ rest, c.state = .waiting

/-- What the flags and changes of a switch can be in a state of the application; `failing` tells
whether one of the switches has an error. -/
def Fits (failing : Prop) : TransactionAppState → Prop
  | .beginOfTransaction => False
  | .waitOnLockResponse =>
    (∃ l, sw.state = { hasLockedRunning := l }) ∧ ∀ c ∈ sw.configurations, c.state = .waiting
  | .waitOnCandidateConfirmation =>
    (∃ c e, sw.state = { hasLockedRunning := true, hasCandidate := c, hasError := e } ∧
      ¬(c ∧ e)) ∧ ∀ c ∈ sw.configurations, c.state = .waiting
  | .waitOnCandidateLockResponse =>
    (∃ l, sw.state =
      { hasLockedRunning := true, hasCandidate := true, hasLockedCandidate := l }) ∧
      ∀ c ∈ sw.configurations, c.state = .waiting
  | .waitOnChangeConfirmation =>
    ∃ c e, sw.state =
      { hasLockedRunning := true, hasCandidate := true, hasLockedCandidate := true,
        hasConfiguration := c, hasError := e } ∧ ¬(c ∧ e) ∧
      (¬c → ¬e → ∃ done config rest, sw.Changing done config rest) ∧
      (c → failing ∨ ∀ config ∈ sw.configurations, config.state = .success)
  | .waitOnTimestampConfirmation =>
    (∃ t e, sw.state =
      { hasLockedRunning := true, hasCandidate := true, hasLockedCandidate := true,
        hasConfiguration := true, hasError := e, hasCommitTimeStamp := t } ∧ ¬(t ∧ e)) ∧
      ∀ c ∈ sw.configurations, c.state = .success
  | .waitOnCommitExecution =>
    (∃ m t, sw.state =
      { hasLockedRunning := true, hasCandidate := true, hasLockedCandidate := true,
        hasConfiguration := true, hasCommited := m, hasCommitTimeStamp := t }) ∧
      ∀ c ∈ sw.configurations, c.state = .success
  | .waitOnDeleteOldConfiguration =>
    ∃ c t, sw.state =
      { hasLockedRunning := true, hasCandidate := c, hasLockedCandidate := c,
        hasConfiguration := true, hasCommited := true, hasCommitTimeStamp := t }
  | .errorState =>
    sw.state.hasLockedRunning ∧ ¬sw.state.hasCommited
  | .waitOnDeleteCandidate => sw.state.hasLockedRunning ∧ ¬sw.state.hasCommited
  | .waitOnUnlock | .endOfTransaction => True

/-- Nobody waits for the switch. -/
def settled (s : TransactionAppState) : Bool := (sw.pending s).isNone

end Switch

namespace TransactionApp
variable (app : TransactionApp)

/-- One of the switches has an error. -/
def Failing : Prop := ∃ sw ∈ app.switchStates, sw.state.hasError

/-- A lock has been refused after others were granted: only the switch that refused is
unlocked, which is not locked. -/
def Refused (outstanding : List RPC) : Prop :=
  app.transactionState = .waitOnUnlock ∧ (∃ sw ∈ app.switchStates, sw.state.hasLockedRunning) ∧
    (∀ sw ∈ app.switchStates, ¬sw.state.hasCommited) ∧
    ∀ rpc ∈ outstanding, outstanding = [rpc] ∧
      ∃ sw ∈ app.switchStates, ¬sw.state.hasLockedRunning ∧ rpc = sw.unlock

/-- The requests without a reply. -/
def Outstanding (outstanding : List RPC) : Prop :=
  match app.transactionState with
  | .beginOfTransaction => outstanding = []
  | .waitOnLockResponse =>
    ∃ sw, app.switchStates.find? (·.state.isInState .switchAvailable) = some sw ∧
      outstanding = [sw.lock]
  | .errorState => outstanding = [] ∧ ∃ sw ∈ app.switchStates, sw.state.hasCandidate
  | .endOfTransaction => outstanding = []
  | s => Round (·.pending s) app.switchStates outstanding ∧ outstanding ≠ []

/-- The switches and requests of a transaction belong to its state. -/
structure Inv (outstanding : List RPC) : Prop where
  opened : Opened app.connections
  lambda : app.lambdaScheduled ↔ app.transactionState = .errorState
  switches : app.transactionState ≠ .beginOfTransaction →
    (app.switchStates.map (·.profile)).Perm (app.connections.map (·.profile))
  timestamp : app.transactionState = .waitOnTimestampConfirmation → app.timeSynchronous
  fits : ∀ sw ∈ app.switchStates, sw.Fits app.Failing app.transactionState
  requests : app.Outstanding outstanding ∨ app.Refused outstanding

end TransactionApp

end TsnReconfig.NetConf
