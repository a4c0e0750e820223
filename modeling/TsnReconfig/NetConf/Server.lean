import TsnReconfig.NetConf.StoreOperations

/-!
# The server

`NetConfServerTCP` with its base class and the manager of its data stores. Server and manager send
each other messages; these, and what arrives from the connections, are handled in any order. A
function returns `none` where the source throws or dereferences a null pointer.
-/

namespace TsnReconfig.NetConf

open TsnReconfig.Lib

variable {M C S : Type*}

/-- `NetConfServerSessionInfoTCP`. -/
structure SessionInfo where
  sessionId : ℕ
  connId : ℕ
  deriving DecidableEq, Repr

/-- A message of a connection: besides `NetConfHello` and `NetConfMessage_RPC`, which normally
encapsulates an operation, the messages of other types. -/
inductive TransportMessage (M C : Type*)
  | hello
  | rpc (messageId : M) (operation : Option (NetConfOperation C))
  | notRpc (messageId : M)
  deriving DecidableEq, Repr

/-- A `NetConfMessage_RPCReply` on the way to a connection, with its control info. -/
structure SentReply (M : Type*) where
  connId : ℕ
  ctrl : CtrlInfo M
  element : ReplyElement
  deriving DecidableEq, Repr

/-- `NetConfServerTCP`. `requests` and `responses` are the messages between server and manager,
`hellos` and `closed` the connections that have sent a hello or closed their session since,
`accepted` the connections and control infos of the messages that `processScheduledMessage` has
accepted, and `replies` what has been sent. The counter of the session ids is shared with the
servers of other devices. -/
structure NetConfServer (M C S : Type*) where
  manager : DataStoreManager M C S
  clock : Clock
  openSessions : List SessionInfo := []
  nextSessionId : ℕ := 0
  requests : List (NetConfOperation C × Option (CtrlInfo M)) := []
  responses : List (ReplyElement × Option (CtrlInfo M)) := []
  hellos : List ℕ := []
  closed : List ℕ := []
  accepted : List (ℕ × CtrlInfo M) := []
  replies : List (SentReply M) := []

/-- The greatest `int`. -/
def intMax : ℕ := 2147483647

namespace NetConfServer

variable (configurators : List (Configurator C S)) (s : NetConfServer M C S)

/-- `findSessionInfoForMsg`. -/
def findSessionInfoForMsg (connId : ℕ) : Option SessionInfo :=
  s.openSessions.find? (·.connId = connId)

/-- `findSessionInfoForId`. -/
def findSessionInfoForId (sessionId : ℕ) : Option SessionInfo :=
  s.openSessions.find? (·.sessionId = sessionId)

/-- `createRPCReply` and `sendToTransport`. -/
def sendReply (element : ReplyElement) (ctrl : Option (CtrlInfo M)) :
    Option (NetConfServer M C S) :=
  ctrl.bind fun ctrl =>
    (s.findSessionInfoForId ctrl.sessionId).map fun sessionInfo =>
      { s with replies := s.replies ++ [⟨sessionInfo.connId, ctrl, element⟩] }

/-- `handleHello`, with `openNewSession`. -/
def handleHello (connId : ℕ) : Option (NetConfServer M C S) :=
  let s := { s with hellos := s.hellos ++ [connId], closed := s.closed.filter (· ≠ connId) }
  match s.findSessionInfoForMsg connId with
  | some _ => some s
  | none =>
    if s.nextSessionId < intMax then
      some { s with
        openSessions := s.openSessions ++ [⟨s.nextSessionId, connId⟩]
        nextSessionId := s.nextSessionId + 1 }
    else none

/-- `closeSession`, with its result: an open session is not closed, and for one that is not open
the source dereferences the null pointer it has just found. -/
def closeSession (sessionId : ℕ) : Option (Bool × NetConfServer M C S) :=
  match s.findSessionInfoForId sessionId with
  | none => none
  | some _ => some (false, s)

/-- `handleCloseSession`, which takes the control info from the operation. -/
def handleCloseSession (ctrl : CtrlInfo M) : Option (NetConfServer M C S) :=
  (s.closeSession ctrl.sessionId).bind fun closed =>
    closed.2.sendReply (if closed.1 then .ok else .error) (some ctrl)

/-- `handleRPC`. -/
def handleRPC (ctrl : CtrlInfo M) :
    Option (NetConfOperation C) → Option (NetConfServer M C S)
  | none => some s
  | some .closeSession =>
    -- the operation is forwarded without its control info
    (s.handleCloseSession ctrl).map fun s =>
      { s with requests := s.requests ++ [(.closeSession, none)] }
  | some operation => some { s with requests := s.requests ++ [(operation, some ctrl)] }

/-- `processScheduledMessage`. -/
def processScheduledMessage (connId : ℕ) :
    TransportMessage M C → Option (NetConfServer M C S)
  | .hello => s.handleHello connId
  | .rpc messageId operation =>
    (s.findSessionInfoForMsg connId).bind fun sessionInfo =>
      let ctrl := ⟨sessionInfo.sessionId, messageId⟩
      let closed := match operation with
        | some .closeSession => s.closed ++ [connId]
        | _ => s.closed
      { s with accepted := s.accepted ++ [(connId, ctrl)], closed }.handleRPC ctrl operation
  | .notRpc messageId =>
    (s.findSessionInfoForMsg connId).bind fun sessionInfo =>
      let ctrl := ⟨sessionInfo.sessionId, messageId⟩
      { s with accepted := s.accepted ++ [(connId, ctrl)] }.sendReply .error (some ctrl)

/-- `NetConfDataStoreManagerBase::handleMessage` for an operation. Only a forwarded close-session
comes without control info. -/
def handleMessage (operation : NetConfOperation C) (ctrl : Option (CtrlInfo M)) :
    Option (NetConfServer M C S) :=
  match operation, ctrl with
  | .closeSession, ctrl | .discardChanges, ctrl =>
    some { s with responses := s.responses ++ [(.error, ctrl)] }
  | operation, some ctrl =>
    (s.manager.handleOperation configurators s.clock ctrl operation).map fun h =>
      { s with
        manager := h.1
        responses := s.responses ++ (h.2.map fun element => (element, some ctrl)).toList }
  | _, none => none

/-- An event of the server and its manager. -/
inductive Event (M C : Type*)
  | transport (connId : ℕ) (message : TransportMessage M C)
  | request (operation : NetConfOperation C) (ctrl : Option (CtrlInfo M))
  | response (element : ReplyElement) (ctrl : Option (CtrlInfo M))
  | executeTimedCommit (sessionId : ℕ)
  | newCycle (period : ℕ)
  | timePasses (totalSimTime : ℚ)
  | otherServer
  deriving DecidableEq, Repr

variable [DecidableEq M] [DecidableEq C]

def step (s : NetConfServer M C S) : Event M C → Option (NetConfServer M C S)
  | .transport connId message => s.processScheduledMessage connId message
  | .request operation ctrl =>
    if (operation, ctrl) ∈ s.requests then
      { s with requests := s.requests.erase (operation, ctrl) }.handleMessage configurators
        operation ctrl
    else none
  | .response element ctrl =>
    if (element, ctrl) ∈ s.responses then
      { s with responses := s.responses.erase (element, ctrl) }.sendReply element ctrl
    else none
  | .executeTimedCommit sessionId =>
    (s.manager.executeTimedCommit configurators sessionId).map fun h =>
      { s with manager := h.1, responses := s.responses ++ [(h.2.2, some h.2.1)] }
  | .newCycle period =>
    let clock := { s.clock with cycles := s.clock.cycles.modify period (· + 1) }
    (s.manager.receiveSignal clock period).map fun m => { s with manager := m, clock }
  | .timePasses totalSimTime =>
    if s.clock.totalSimTime ≤ totalSimTime then
      some { s with clock := { s.clock with totalSimTime } }
    else none
  | .otherServer =>
    if s.nextSessionId < intMax then some { s with nextSessionId := s.nextSessionId + 1 } else none

/-- A server that has just started on a device in any state. -/
def server (M : Type*) [DecidableEq M] (configurators : List (Configurator C S)) :
    System (NetConfServer M C S) (Event M C) where
  init s := ∃ state clock nextSessionId,
    s = { manager := { runningStore := { state } }, clock, nextSessionId }
  step := step configurators

end NetConfServer

end TsnReconfig.NetConf
