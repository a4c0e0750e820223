import TsnReconfig.Lib.Lists
import TsnReconfig.NetConf.Server

/-!
# The session table

A session is opened by the hello of a connection and identified by a number of its own. Closing
one does not work: the test for an open session is inverted, so it stays open and the closing
connection gets an error.
-/

namespace TsnReconfig.NetConf

open TsnReconfig.Lib

namespace NetConfServer

variable {M C S : Type*} {configurators : List (Configurator C S)} {s s' : NetConfServer M C S}
  {connId : ℕ} {messageId : M} {element : ReplyElement} {ctrl : CtrlInfo M}
  {operation : NetConfOperation C}

/-- The open sessions are those of the connections that have sent a hello, and what is accepted,
handed on and replied goes by them. -/
structure SessionsExact (s : NetConfServer M C S) : Prop where
  sessionIds : (s.openSessions.map (·.sessionId)).Nodup
  connIds : (s.openSessions.map (·.connId)).Nodup
  fresh : ∀ x ∈ s.openSessions, x.sessionId < s.nextSessionId
  connections : ∀ c, c ∈ s.openSessions.map (·.connId) ↔ c ∈ s.hellos ∧ c ∉ s.closed
  accepted : ∀ a ∈ s.accepted, ⟨a.2.sessionId, a.1⟩ ∈ s.openSessions
  handed : ∀ operation ctrl, (operation, some ctrl) ∈ s.requests → ctrl ∈ s.accepted.map (·.2)
  replies : ∀ r ∈ s.replies, ⟨r.ctrl.sessionId, r.connId⟩ ∈ s.openSessions

theorem findSessionInfoForMsg_eq_some {x : SessionInfo}
    (h : s.findSessionInfoForMsg connId = some x) : x ∈ s.openSessions ∧ x.connId = connId :=
  ⟨List.mem_of_find?_eq_some h, by simpa using List.find?_some h⟩

theorem findSessionInfoForMsg_eq_none (h : s.findSessionInfoForMsg connId = none) :
    connId ∉ s.openSessions.map (·.connId) := by
  simpa [findSessionInfoForMsg] using h

/-- A reply goes to the connection of its session and changes nothing else. -/
theorem sendReply_eq_some {ctrl : Option (CtrlInfo M)} (h : s.sendReply element ctrl = some s') :
    ∃ c x, ctrl = some c ∧ x ∈ s.openSessions ∧ x.sessionId = c.sessionId ∧
      s' = { s with replies := s.replies ++ [⟨x.connId, c, element⟩] } := by
  obtain ⟨c, rfl, h⟩ := Option.bind_eq_some_iff.mp h
  obtain ⟨x, hx, rfl⟩ := Option.map_eq_some_iff.mp h
  exact ⟨c, x, rfl, List.mem_of_find?_eq_some hx, by simpa using List.find?_some hx, rfl⟩

theorem SessionsExact.sendReply {ctrl : Option (CtrlInfo M)} (hinv : s.SessionsExact)
    (h : s.sendReply element ctrl = some s') : s'.SessionsExact := by
  obtain ⟨c, x, rfl, hx, hid, rfl⟩ := sendReply_eq_some h
  exact
    { hinv with
      replies := fun r hr => by
        rcases List.mem_append.mp hr with hr | hr
        · exact hinv.replies r hr
        · obtain rfl := List.mem_singleton.mp hr
          rw [← hid]
          exact hx }

theorem SessionsExact.hello (hinv : s.SessionsExact) (hclosed : s.closed = [])
    (h : s.handleHello connId = some s') : s'.SessionsExact ∧ s'.closed = [] := by
  simp only [handleHello, hclosed] at h
  split at h
  · rename_i x hx
    obtain ⟨hx, hid⟩ := findSessionInfoForMsg_eq_some hx
    cases h
    -- a second hello of a connection gets the session that it has
    refine ⟨{ hinv with connections := fun c => ?_ }, rfl⟩
    have hold := hinv.connections c
    rw [hclosed] at hold
    have hconn : connId ∈ s.openSessions.map (·.connId) := hid ▸ List.mem_map_of_mem hx
    simp only [hold, List.mem_append, List.mem_singleton, List.filter_nil]
    constructor
    · exact fun h => ⟨.inl h.1, by simp⟩
    · rintro ⟨h | rfl, -⟩
      · exact ⟨h, by simp⟩
      · exact hold.mp hconn
  · rename_i hx
    have hnew := findSessionInfoForMsg_eq_none hx
    split_ifs at h
    cases h
    refine ⟨{ sessionIds := ?_, connIds := ?_, fresh := ?_, connections := fun c => ?_,
              accepted := fun a ha => List.mem_append_left _ (hinv.accepted a ha),
              handed := hinv.handed,
              replies := fun r hr => List.mem_append_left _ (hinv.replies r hr) }, rfl⟩
    · rw [List.map_append, List.map_singleton, List.nodup_append_comm, List.singleton_append,
        List.nodup_cons]
      refine ⟨fun hmem => ?_, hinv.sessionIds⟩
      obtain ⟨x, hx, hid⟩ := List.mem_map.mp hmem
      exact absurd (hinv.fresh x hx) (by rw [hid]; exact Nat.lt_irrefl _)
    · rw [List.map_append, List.map_singleton, List.nodup_append_comm, List.singleton_append,
        List.nodup_cons]
      exact ⟨hnew, hinv.connIds⟩
    · intro x hx
      rcases List.mem_append.mp hx with hx | hx
      · exact Nat.lt_succ_of_lt (hinv.fresh x hx)
      · obtain rfl := List.mem_singleton.mp hx
        exact Nat.lt_succ_self _
    · have hold := hinv.connections c
      rw [hclosed] at hold
      simp only [List.map_append, List.map_singleton, List.mem_append, List.mem_singleton, hold,
        List.filter_nil]
      simp

/-- No session is closed. -/
def NoClose (_ : NetConfServer M C S) : Event M C → Prop
  | .transport _ (.rpc _ (some .closeSession)) => False
  | _ => True

theorem handleRPC_of_ne (hne : operation ≠ .closeSession) :
    s.handleRPC ctrl (some operation) =
      some { s with requests := s.requests ++ [(operation, some ctrl)] } := by
  cases operation <;> first | rfl | exact absurd rfl hne

/-- An RPC with another operation than close-session is handed on under the session of its
connection. -/
theorem transport_rpc_eq_some (hne : operation ≠ .closeSession)
    (h : s.processScheduledMessage connId (.rpc messageId (some operation)) = some s') :
    ∃ x ∈ s.openSessions, x.connId = connId ∧
      s' = { s with
        accepted := s.accepted ++ [(connId, ⟨x.sessionId, messageId⟩)]
        requests := s.requests ++ [(operation, some ⟨x.sessionId, messageId⟩)] } := by
  obtain ⟨x, hx, h⟩ := Option.bind_eq_some_iff.mp h
  obtain ⟨hx, hid⟩ := findSessionInfoForMsg_eq_some hx
  rw [handleRPC_of_ne hne] at h
  cases h
  refine ⟨x, hx, hid, ?_⟩
  cases operation <;> first | rfl | exact absurd rfl hne

/-- An RPC without an operation is accepted and forgotten. -/
theorem transport_rpc_none_eq_some
    (h : s.processScheduledMessage connId (.rpc messageId none) = some s') :
    ∃ x ∈ s.openSessions, x.connId = connId ∧
      s' = { s with accepted := s.accepted ++ [(connId, ⟨x.sessionId, messageId⟩)] } := by
  obtain ⟨x, hx, h⟩ := Option.bind_eq_some_iff.mp h
  obtain ⟨hx, hid⟩ := findSessionInfoForMsg_eq_some hx
  cases h
  exact ⟨x, hx, hid, rfl⟩

/-- The manager handles a request and changes nothing of the sessions. -/
theorem handleMessage_eq_some {ctrl : Option (CtrlInfo M)}
    (h : s.handleMessage configurators operation ctrl = some s') :
    ∃ m responses, s' = { s with manager := m, responses := s.responses ++ responses } ∧
      ∀ r ∈ responses, r.2 = ctrl := by
  unfold handleMessage at h
  split at h
  · cases h
    exact ⟨s.manager, [(.error, _)], rfl, by simp⟩
  · cases h
    exact ⟨s.manager, [(.error, _)], rfl, by simp⟩
  · obtain ⟨⟨m, r⟩, -, rfl⟩ := Option.map_eq_some_iff.mp h
    refine ⟨m, _, rfl, fun x hx => ?_⟩
    rw [Option.mem_toList, Option.map_eq_some_iff] at hx
    obtain ⟨el, -, rfl⟩ := hx
    rfl
  · cases h

theorem SessionsExact.of_accepted (hinv : s.SessionsExact) (messageId : M) {x : SessionInfo}
    (hx : x ∈ s.openSessions) (hid : x.connId = connId)
    (requests : List (NetConfOperation C × Option (CtrlInfo M)))
    (hrequests : ∀ operation c, (operation, some c) ∈ requests → c = ⟨x.sessionId, messageId⟩) :
    SessionsExact { s with
      accepted := s.accepted ++ [(connId, ⟨x.sessionId, messageId⟩)]
      requests := s.requests ++ requests } :=
  { hinv with
    accepted := fun a ha => by
      rcases List.mem_append.mp ha with ha | ha
      · exact hinv.accepted a ha
      · obtain rfl := List.mem_singleton.mp ha
        rw [← hid]
        exact hx
    handed := fun operation c hc => by
      rw [List.map_append, List.map_singleton]
      rcases List.mem_append.mp hc with hc | hc
      · exact List.mem_append_left _ (hinv.handed operation c hc)
      · rw [hrequests operation c hc]
        exact List.mem_append_right _ (List.mem_singleton.mpr rfl) }

variable [DecidableEq M] [DecidableEq C]

theorem SessionsExact.step {e : Event M C} (hinv : s.SessionsExact) (hclosed : s.closed = [])
    (hok : s.NoClose e) (hs : s.step configurators e = some s') :
    s'.SessionsExact ∧ s'.closed = [] := by
  cases e with
  | transport connId message =>
    cases message with
    | hello => exact hinv.hello hclosed hs
    | rpc messageId operation =>
      cases operation with
      | none =>
        -- an unknown operation is answered, and nothing is handed on
        obtain ⟨x, hx, hid, rfl⟩ := transport_rpc_none_eq_some hs
        have h := hinv.of_accepted messageId hx hid [] (by simp)
        rw [List.append_nil] at h
        exact ⟨h, hclosed⟩
      | some operation =>
        have hne : operation ≠ .closeSession := by
          rintro rfl
          exact hok
        obtain ⟨x, hx, hid, rfl⟩ := transport_rpc_eq_some hne hs
        refine ⟨hinv.of_accepted messageId hx hid _ fun _ c hc => ?_, hclosed⟩
        simp only [List.mem_singleton, Prod.mk.injEq, Option.some.injEq] at hc
        exact hc.2
    | notRpc messageId =>
      obtain ⟨x, hx, h⟩ := Option.bind_eq_some_iff.mp hs
      obtain ⟨hx, hid⟩ := findSessionInfoForMsg_eq_some hx
      have hinv' := hinv.of_accepted messageId hx hid [] (by simp)
      rw [List.append_nil] at hinv'
      obtain ⟨c, y, -, -, -, rfl⟩ := sendReply_eq_some h
      exact ⟨hinv'.sendReply h, hclosed⟩
  | request operation ctrl =>
    simp only [NetConfServer.step] at hs
    split_ifs at hs with hmem
    obtain ⟨m, responses, rfl, -⟩ := handleMessage_eq_some hs
    exact ⟨{ hinv with
      handed := fun _ _ hc => hinv.handed _ _ (List.mem_of_mem_erase hc) }, hclosed⟩
  | response element ctrl =>
    simp only [NetConfServer.step] at hs
    split_ifs at hs with hmem
    have hinv' : SessionsExact { s with responses := s.responses.erase (element, ctrl) } :=
      { hinv with }
    obtain ⟨c, y, -, -, -, rfl⟩ := sendReply_eq_some hs
    exact ⟨hinv'.sendReply hs, hclosed⟩
  | executeTimedCommit sessionId =>
    obtain ⟨h, -, rfl⟩ := Option.map_eq_some_iff.mp hs
    exact ⟨{ hinv with }, hclosed⟩
  | newCycle period =>
    obtain ⟨m, -, rfl⟩ := Option.map_eq_some_iff.mp hs
    exact ⟨{ hinv with }, hclosed⟩
  | timePasses totalSimTime =>
    simp only [NetConfServer.step] at hs
    split_ifs at hs
    cases hs
    exact ⟨{ hinv with }, hclosed⟩
  | otherServer =>
    simp only [NetConfServer.step] at hs
    split_ifs at hs
    cases hs
    exact ⟨{ hinv with fresh := fun x hx => Nat.lt_succ_of_lt (hinv.fresh x hx) }, hclosed⟩

/-- A server on a device that has only a `NetConfDataConfiguratorDummy`. -/
def dummyServer : System (NetConfServer ℕ ℕ Unit) (Event ℕ ℕ) := server ℕ [.dummy 0]

/-- The server before the first hello. -/
def started : NetConfServer ℕ ℕ Unit where
  manager := { runningStore := { state := () } }
  clock := ⟨0, []⟩

end NetConfServer

end TsnReconfig.NetConf
