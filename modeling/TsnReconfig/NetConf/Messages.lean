import Mathlib.Data.Nat.Notation

/-!
# NETCONF messages

The requests a NETCONF application sends to the servers on the switches, and their replies. A
session belongs to one connection between an application and a server.
-/

namespace TsnReconfig.NetConf

/-- The data store a target or a source names; `other` is any other string. -/
inductive StoreName
  | running | candidate | other
  deriving DecidableEq, Repr

/-- What an edit carries: a configuration, or a `NetConfConfigCommitTimestamp`. -/
inductive ConfigData
  | config (content : ℕ)
  | commitTimestamp
  deriving DecidableEq, Repr

/-- `NetConfOperation`. -/
inductive Operation
  | editConfig (target : StoreName) (data : ConfigData)
  | getConfig (source : StoreName)
  | copyConfig (source target : StoreName)
  | deleteConfig (target : StoreName)
  | lock (target : StoreName)
  | unlock (target : StoreName)
  | commit
  deriving DecidableEq, Repr

/-- The message ids of the transaction model. A change has the index of its configuration. -/
inductive MessageId
  | lock | copyConfig | lockCandidate
  | change (index : ℕ)
  | timestamp | unlock | commitApproved | deleteCandidate | deleteOldConfig
  deriving DecidableEq, Repr

/-- `atoi`, which is zero for a string without digits. -/
def MessageId.atoi : MessageId → ℕ
  | .change index => index
  | _ => 0

/-- `NetConfMessage_RPC` with the session of its control info. -/
structure RPC where
  sessionId : ℕ
  messageId : MessageId
  operation : Operation
  deriving DecidableEq, Repr

/-- `NetConf_RPCReplyElement`. -/
inductive ReplyElement
  | ok | error | data
  deriving DecidableEq, Repr

/-- `NetConfMessage_RPCReply` with the session of its control info. -/
structure Reply where
  sessionId : ℕ
  messageId : MessageId
  element : ReplyElement
  deriving DecidableEq, Repr

/-- The reply to a request. -/
def RPC.reply (rpc : RPC) (element : ReplyElement) : Reply :=
  ⟨rpc.sessionId, rpc.messageId, element⟩

end TsnReconfig.NetConf
