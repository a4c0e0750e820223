import TsnReconfig.Lib.System
import TsnReconfig.NetConf.TransactionApp
import TsnReconfig.OpenFlow.FlowTable

/-!
# The base of the applications

`NetConfApplicationBase`, which opens its sessions and sends its configurations at given times.
Its self messages are with the times at which they are delivered.
-/

namespace TsnReconfig.NetConf

open Lib OpenFlow

inductive ConnectionState
  | waiting | scheduled | requested | established
  deriving DecidableEq, Repr

/-- `Configuration_t` with its time. -/
structure TimedConfiguration extends Configuration where
  executeAt : SimTime
  deriving DecidableEq

/-- `Connection_t`. It has no session id as long as that is -1. -/
structure TimedConnection where
  localPort : ℕ := 0
  remoteAddress : String
  remotePort : ℕ := 830
  connectAt : SimTime
  state : ConnectionState := .waiting
  configurations : List TimedConfiguration
  sessionId : Option ℕ := none

/-- What `parseXMLConnection` sets to waiting. -/
def TimedConnection.parsed (c : TimedConnection) : TimedConnection :=
  { c with
    state := .waiting
    configurations := c.configurations.map ({ · with state := .waiting })
    sessionId := none }

/-- The control info of the `NetConfHello` that asks for a session. -/
structure HelloRequest where
  connectAddress : String
  connectPort : ℕ
  localPort : ℕ

/-- The self messages, with the indices of their connections. -/
inductive SelfMessage
  | sendHello (connection : ℕ)
  | sendNetconf (connection : ℕ) (rpc : RPC)
  deriving DecidableEq

def SelfMessage.connection : SelfMessage → ℕ
  | sendHello connection => connection
  | sendNetconf connection _ => connection

/-- The loop over connections, or over configurations, for the first of the earliest that wait. -/
def searchNext (now : SimTime) : List (SimTime × Bool) → ℕ → Option ℕ → SimTime →
    Option ℕ × SimTime
  | [], _, index, next => (index, next)
  | (time, waiting) :: rest, i, index, next =>
    if time < next ∧ now ≤ time ∧ waiting then searchNext now rest (i + 1) (some i) time
    else searchNext now rest (i + 1) index next

/-! ## Connections -/

namespace TimedConnection

/-- `createNetConfRPCForConfiguration`. -/
def createRPC (sessionId : ℕ) (config : TimedConfiguration) (index : ℕ) : RPC :=
  ⟨sessionId, .change index, config.operation⟩

/-- `createHelloFor`. -/
def createHelloFor (c : TimedConnection) : HelloRequest :=
  ⟨c.remoteAddress, c.remotePort, c.localPort⟩

def setState (connections : List TimedConnection) (i : ℕ) (state : ConnectionState) :
    List TimedConnection :=
  connections.modify i ({ · with state })

def setConfigurationState (connections : List TimedConnection) (i j : ℕ)
    (state : ConfigurationState) : List TimedConnection :=
  connections.modify i fun c =>
    { c with configurations := c.configurations.modify j ({ · with state }) }

/-- `scheduleNextConnection`, with the self message that it schedules. -/
def scheduleNextConnection (now : SimTime) (connections : List TimedConnection) :
    List TimedConnection × List (SimTime × SelfMessage) :=
  match searchNext now (connections.map fun c => (c.connectAt, c.state = .waiting)) 0 none maxTime with
  | (some i, next) => (setState connections i .scheduled, [(next, .sendHello i)])
  | (none, _) => (connections, [])

/-- `scheduleNextConfigurationFor`. An established connection has a session id. -/
def scheduleNextConfigurationFor (now : SimTime) (connections : List TimedConnection) (i : ℕ) :
    List TimedConnection × List (SimTime × SelfMessage) :=
  match connections[i]? with
  | none => (connections, [])
  | some c =>
    if c.state = .established then
      match searchNext now (c.configurations.map fun config =>
        (config.executeAt, config.state = .waiting)) 0 none maxTime with
      | (some j, next) =>
        (setConfigurationState connections i j .scheduled,
          (c.sessionId.bind fun sessionId => (c.configurations[j]?).map fun config =>
            (next, .sendNetconf i (createRPC sessionId config j))).toList)
      | (none, _) => (connections, [])
    else (connections, [])

/-- `mapSessionInfoToConnection` for the address of the session's socket. -/
def mapSessionInfoToConnection {A : Type*} [DecidableEq A] (resolve : String → A)
    (connections : List TimedConnection) (sessionId : ℕ) (address : A) : Option ℕ :=
  connections.findIdx? fun c => (c.state = .established ∧ c.sessionId = some sessionId) ∨
    (c.sessionId = none ∧ resolve c.remoteAddress = address)

/-- The last established connection of a session. -/
def findSession (connections : List TimedConnection) (sessionId : ℕ) : Option ℕ :=
  ((List.range connections.length).filter fun i => (connections[i]?).any fun c =>
    c.state = .established ∧ c.sessionId = some sessionId).getLast?

/-! ## Handlers -/

/-- `handleMessage` for the self message to send a hello. -/
def handleSendHello (now : SimTime) (connections : List TimedConnection) (i : ℕ) :
    List TimedConnection × List (SimTime × SelfMessage) :=
  scheduleNextConnection now (setState connections i .requested)

/-- `handleMessage` for the self message to send a configuration. -/
def handleSendNetconf (now : SimTime) (connections : List TimedConnection) (i : ℕ) (rpc : RPC) :
    List TimedConnection × List (SimTime × SelfMessage) :=
  scheduleNextConfigurationFor now
    (setConfigurationState connections i rpc.messageId.atoi .requested) i

/-- `handleMessage` for a hello of a server, for the connection it is mapped to. -/
def handleHello (now : SimTime) (connections : List TimedConnection) (sessionId i : ℕ) :
    List TimedConnection × List (SimTime × SelfMessage) :=
  scheduleNextConfigurationFor now
    (connections.modify i ({ · with sessionId := some sessionId, state := .established })) i

/-- `handleMessage` for a reply. One that carries data changes nothing. -/
def handleReply (connections : List TimedConnection) (reply : Reply) : List TimedConnection :=
  match findSession connections reply.sessionId, reply.element with
  | some i, .ok => setConfigurationState connections i reply.messageId.atoi .success
  | some i, .error => setConfigurationState connections i reply.messageId.atoi .error
  | _, _ => connections

end TimedConnection

/-! ## Runs -/

/-- A configuration that was sent, with the newest reply. -/
structure SentConfiguration where
  connection : ℕ
  configuration : ℕ
  time : SimTime
  rpc : RPC
  reply : Option ReplyElement := none

/-- A reply belongs to the request with its session and message id. -/
def SentConfiguration.answeredBy (x : SentConfiguration) (r : Reply) : Bool :=
  x.rpc.sessionId = r.sessionId ∧ x.rpc.messageId = r.messageId

def SentConfiguration.noteReply (r : Reply) (x : SentConfiguration) : SentConfiguration :=
  if x.answeredBy r then { x with reply := some r.element } else x

/-- An application in a run: its connections and self messages, the hellos without an answer, the
ids of the sessions so far, when its connections were established, and what was sent. -/
structure ApplicationRun where
  now : SimTime := 0
  connections : List TimedConnection
  pending : List (SimTime × SelfMessage)
  hellos : List HelloRequest := []
  sessions : List ℕ := []
  establishedAt : List (ℕ × SimTime) := []
  sent : List SentConfiguration := []

/-- Time passes up to the next self message, a self message is delivered, a server answers a hello
with a new session id, or replies to a request. -/
inductive ApplicationEvent
  | advance (t : SimTime)
  | timer (m : SelfMessage)
  | hello (k sessionId : ℕ)
  | reply (r : Reply)

namespace ApplicationRun

open TimedConnection

variable {A : Type*} [DecidableEq A] (resolve : String → A)

/-- A run that goes on with what a handler returns. -/
def continueWith (s : ApplicationRun)
    (r : List TimedConnection × List (SimTime × SelfMessage)) : ApplicationRun :=
  { s with connections := r.1, pending := s.pending ++ r.2 }

def step (s : ApplicationRun) : ApplicationEvent → Option ApplicationRun
  | .advance t =>
    if s.now ≤ t ∧ ∀ p ∈ s.pending, t ≤ p.1 then some { s with now := t } else none
  | .timer m =>
    if (s.now, m) ∈ s.pending then
      let s := { s with pending := s.pending.erase (s.now, m) }
      match m with
      | .sendHello i => some { s.continueWith (handleSendHello s.now s.connections i) with
          hellos := s.hellos ++ ((s.connections[i]?).map (·.createHelloFor)).toList }
      | .sendNetconf i rpc => some {
          s.continueWith (handleSendNetconf s.now s.connections i rpc) with
          sent := s.sent ++ [⟨i, rpc.messageId.atoi, s.now, rpc, none⟩] }
    else none
  | .hello k sessionId =>
    if sessionId ∈ s.sessions then none
    else
      (s.hellos[k]?).map fun request =>
        let s := { s with hellos := s.hellos.eraseIdx k, sessions := sessionId :: s.sessions }
        match mapSessionInfoToConnection resolve s.connections sessionId
          (resolve request.connectAddress) with
        | none => s
        | some i => { s.continueWith (handleHello s.now s.connections sessionId i) with
            establishedAt := (i, s.now) :: s.establishedAt }
  | .reply r =>
    if s.sent.any (·.answeredBy r) then
      some { s with
        connections := handleReply s.connections r
        sent := s.sent.map (SentConfiguration.noteReply r) }
    else none

/-- What `initialize()` leaves. -/
def initialized (connections : List TimedConnection) : ApplicationRun :=
  let r := scheduleNextConnection 0 (connections.map (·.parsed))
  { connections := r.1, pending := r.2 }

/-- The runs of an application with the given connections. -/
def runs (connections : List TimedConnection) : System ApplicationRun ApplicationEvent where
  init s := s = initialized connections
  step := step resolve

end ApplicationRun

end TsnReconfig.NetConf
