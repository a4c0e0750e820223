import TsnReconfig.NetConf.StoreOperations
import TsnReconfig.NetConf.SwitchRequests

/-!
# Controllers and servers

Any number of transaction applications with the data store managers of the switches, and other
controllers with sessions of their own. The messages in flight arrive in any order.
-/

namespace TsnReconfig.NetConf

open TsnReconfig.Lib

/-! ## The network -/

/-- Whose sessions there are and where they lead, what the managers configure, and the
configurations that the edits carry. -/
structure Deployment (ι C S : Type*) where
  /-- The application of a session, none for a session of another controller. -/
  application : ℕ → Option ι
  address : ℕ → ℕ
  configurators : ℕ → List (Configurator C S)
  content : ℕ → C

/-- The operation that a request carries, with the options of `createEditConfigOperation`;
`timestamp` is what `determineTimestamp` returned. -/
def Deployment.operation {ι C S : Type*} (d : Deployment ι C S) (timestamp : CommitTimestamp) :
    Operation → NetConfOperation C
  | .editConfig target (.config content) =>
    .editConfig target .merge .continueOnError (.config (d.content content))
  | .editConfig target .commitTimestamp =>
    .editConfig target .merge .continueOnError (.commitTimestamp timestamp)
  | .getConfig source => .getConfig source
  | .copyConfig source target => .copyConfig source target
  | .deleteConfig target => .deleteConfig target
  | .lock target => .lock target
  | .unlock target => .unlock target
  | .commit => .commit

/-- The applications, the servers by their addresses, and the messages in flight. A control info
carries the request itself, of which the source keeps the message id. -/
structure Network (ι C S : Type*) where
  runs : ι → Run
  requests : List RPC
  replies : List (RPC × ReplyElement)
  servers : ℕ → DataStoreManager RPC C S

namespace Network

variable {ι C S : Type*} {d : Deployment ι C S} {n n' : Network ι C S}

/-- An event of an application, an operation of a session at its server, or one of the timer
messages there. -/
inductive Event (ι C : Type*)
  | app (i : ι) (e : NetConf.Event)
  | serve (rpc : RPC) (clock : Clock) (timestamp : CommitTimestamp)
  | foreign (ctrl : CtrlInfo RPC) (operation : NetConfOperation C) (clock : Clock)
  | newCycle (address period : ℕ) (clock : Clock)
  | executeTimedCommit (address sessionId : ℕ)

/-- The requests on their way to a server, and those whose replies are on their way back. -/
def inFlight (n : Network ι C S) : List RPC := n.requests ++ n.replies.map Prod.fst

section Step
variable [DecidableEq ι] (d : Deployment ι C S) (n : Network ι C S)

/-- A reply can arrive when it is in flight. -/
def possible (i : ι) : NetConf.Event → Bool
  | .startTransaction => true
  | .reply rpc element _ =>
    decide ((rpc, element) ∈ n.replies ∧ d.application rpc.sessionId = some i)
  | .lambda => (n.runs i).app.lambdaScheduled

/-- The network with what an application leaves and sends. -/
def handled (i : ι) (e : NetConf.Event) (app : TransactionApp) (sent : List RPC) :
    Network ι C S :=
  { n with
    runs := Function.update n.runs i ((n.runs i).after e app sent)
    requests := n.requests ++ sent
    replies :=
      match e with
      | .reply rpc element _ => n.replies.erase (rpc, element)
      | _ => n.replies }

/-- The network with a new state of a server. -/
def withServer (address : ℕ) (m : DataStoreManager RPC C S) : Network ι C S :=
  { n with servers := Function.update n.servers address m }

def step : Event ι C → Option (Network ι C S)
  | .app i e =>
    if n.possible d i e then
      ((n.runs i).app.finiteStateMachine e.release e.message).map fun h => n.handled i e h.1 h.2
    else none
  | .serve rpc clock timestamp =>
    if rpc ∈ n.requests then
      let address := d.address rpc.sessionId
      ((n.servers address).handleOperation (d.configurators address) clock ⟨rpc.sessionId, rpc⟩
        (d.operation timestamp rpc.operation)).map fun h =>
          { n.withServer address h.1 with
            requests := n.requests.erase rpc
            replies := n.replies ++ (h.2.map fun element => (rpc, element)).toList }
    else none
  | .foreign ctrl operation clock =>
    if d.application ctrl.sessionId = none then
      let address := d.address ctrl.sessionId
      ((n.servers address).handleOperation (d.configurators address) clock ctrl operation).map
        fun h => n.withServer address h.1
    else none
  | .newCycle address period clock =>
    ((n.servers address).receiveSignal clock period).map (n.withServer address)
  | .executeTimedCommit address sessionId =>
    ((n.servers address).executeTimedCommit (d.configurators address) sessionId).map fun h =>
      { n.withServer address h.1 with
        replies :=
          if (d.application h.2.1.sessionId).isSome then n.replies ++ [(h.2.1.messageId, h.2.2)]
          else n.replies }

/-- Applications with open sessions of their own, and servers without locks. -/
def system : System (Network ι C S) (Event ι C) where
  init n :=
    (∀ i, ∃ timeSynchronous connections, Opened connections ∧
      (∀ c ∈ connections, d.application c.sessionId = some i ∧
        d.address c.sessionId = c.remoteAddress) ∧
      n.runs i = .new timeSynchronous connections) ∧
    n.requests = [] ∧ n.replies = [] ∧ ∀ a, ∃ state, n.servers a = { runningStore := { state } }
  step := step d

end Step

/-! ## Messages in flight -/

/-- A commit waits for its time at the server of its session, and has no reply yet. -/
structure Stored (d : Deployment ι C S) (n : Network ι C S) (i : ι) (a : ℕ)
    (ctrl : CtrlInfo RPC) : Prop where
  address : d.address ctrl.sessionId = a
  session : ctrl.messageId.sessionId = ctrl.sessionId
  operation : ctrl.messageId.operation = .commit
  outstanding : ctrl.messageId ∈ (n.runs i).outstanding
  unanswered : ctrl.sessionId ∉ n.inFlight.map (·.sessionId)

/-- A run of an application with its sessions. -/
structure Attached (d : Deployment ι C S) (i : ι) (r : Run) : Prop where
  reachable : transaction.Reachable r
  sessions : ∀ c ∈ r.app.connections,
    d.application c.sessionId = some i ∧ d.address c.sessionId = c.remoteAddress

namespace Attached
variable {i : ι} {r : Run}

theorem inv (h : Attached d i r) : r.app.Inv r.outstanding := Run.inv_of_reachable h.reachable

/-- A switch of an application has one of its sessions. -/
theorem session (h : Attached d i r) {sw : Switch} (hsw : sw ∈ r.app.switchStates) :
    d.application sw.sessionId = some i ∧ d.address sw.sessionId = sw.remoteAddress := by
  obtain ⟨c, hc, hprofile⟩ := h.inv.exists_connection hsw
  have hsession : c.sessionId = sw.sessionId := congrArg (fun p => p.2.1) hprofile
  have haddress : c.remoteAddress = sw.remoteAddress := congrArg (fun p => p.1) hprofile
  rw [← hsession, ← haddress]
  exact h.sessions c hc

theorem application (h : Attached d i r) {rpc : RPC} (hrpc : rpc ∈ r.outstanding) :
    d.application rpc.sessionId = some i := by
  obtain ⟨sw, hsw, hrequest⟩ := h.inv.request hrpc
  rw [hrequest.sessionId]
  exact (h.session hsw).1

theorem step (h : Attached d i r) {e : NetConf.Event} {r' : Run} (hs : r.step e = some r') :
    Attached d i r' where
  reachable := h.reachable.step trivial hs
  sessions := by
    obtain ⟨app, sent, hm, rfl⟩ := Run.step_move h.inv hs
    show ∀ c ∈ app.connections, _
    rw [hm.connections.1]
    exact h.sessions

end Attached

/-- Every application makes a run of its own, and the messages in flight are those that the
applications wait for, at most one in a session. -/
structure InOrder (d : Deployment ι C S) (n : Network ι C S) : Prop where
  runs : ∀ i, Attached d i (n.runs i)
  outstanding : ∀ rpc ∈ n.inFlight, ∀ i, d.application rpc.sessionId = some i →
    rpc ∈ (n.runs i).outstanding
  known : ∀ rpc ∈ n.inFlight, (d.application rpc.sessionId).isSome
  nodup : (n.inFlight.map (·.sessionId)).Nodup
  stored : ∀ a ctrl i, (n.servers a).commitOperation = some ctrl →
    d.application ctrl.sessionId = some i → Stored d n i a ctrl
  answered : ∀ i, ∀ rpc ∈ (n.runs i).outstanding, rpc.operation ≠ .commit → rpc ∈ n.inFlight

namespace InOrder

/-- Two messages in flight of one session are the same. -/
theorem eq_of_sessionId (h : InOrder d n) {rpc rpc' : RPC} (hrpc : rpc ∈ n.inFlight)
    (hrpc' : rpc' ∈ n.inFlight) (heq : rpc.sessionId = rpc'.sessionId) : rpc = rpc' :=
  List.inj_on_of_nodup_map h.nodup hrpc hrpc' heq

theorem nodup_inFlight (h : InOrder d n) : n.inFlight.Nodup := .of_map _ h.nodup

theorem nodup_replies (h : InOrder d n) : n.replies.Nodup :=
  .of_map _ (List.nodup_append.mp h.nodup_inFlight).2.1

end InOrder

theorem unanswered_sublist (e : NetConf.Event) (l : List RPC) : (e.unanswered l).Sublist l := by
  cases e with
  | reply rpc => exact List.erase_sublist
  | _ => exact .refl l

/-- What an event leaves without a reply is all but the request that it answers. -/
theorem mem_unanswered {e : NetConf.Event} {l : List RPC} (hl : l.Nodup) {rpc : RPC} :
    rpc ∈ e.unanswered l ↔ rpc ∈ l ∧ ∀ element release, e ≠ .reply rpc element release := by
  cases e with
  | reply rpc' element release =>
    simp [NetConf.Event.unanswered, hl.mem_erase_iff, and_comm, eq_comm]
  | _ => simp [NetConf.Event.unanswered]

/-- An operation is answered, or it is a commit that waits for its time. -/
theorem commitOperation_of_effect {configurators : List (Configurator C S)}
    {m m' : DataStoreManager RPC C S} {clock : Clock} {ctrl : CtrlInfo RPC}
    {operation : NetConfOperation C} {r : Option ReplyElement}
    (h : DataStoreManager.Effect configurators m clock ctrl operation m' r) :
    r.isSome ∧ m'.commitOperation = m.commitOperation ∨
      r = none ∧ operation = .commit ∧ m'.commitOperation = some ctrl := by
  cases h with
  | timedCommit m' hlock htimestamp h =>
    exact .inr ⟨rfl, rfl, (DataStoreManager.scheduleTimedCommit_eq_some h).2.2.1⟩
  | _ => exact .inl ⟨rfl, rfl⟩

/-- The messages in flight stay when no commit of an application is made to wait. -/
theorem InOrder.of_servers (h : InOrder d n) (hruns : n'.runs = n.runs)
    (hflight : n'.inFlight.Perm n.inFlight)
    (hstored : ∀ a ctrl i, (n'.servers a).commitOperation = some ctrl →
      d.application ctrl.sessionId = some i → (n.servers a).commitOperation = some ctrl) :
    InOrder d n' where
  runs i := by
    rw [hruns]
    exact h.runs i
  outstanding rpc hrpc i hi := by
    rw [hruns]
    exact h.outstanding rpc (hflight.mem_iff.mp hrpc) i hi
  known rpc hrpc := h.known rpc (hflight.mem_iff.mp hrpc)
  nodup := (hflight.map _).nodup_iff.mpr h.nodup
  stored a ctrl i hc hi := by
    have hold := h.stored a ctrl i (hstored a ctrl i hc hi) hi
    refine { hold with outstanding := ?_, unanswered := ?_ }
    · rw [hruns]
      exact hold.outstanding
    · rw [(hflight.map _).mem_iff]
      exact hold.unanswered
  answered i rpc hrpc hop := by
    rw [hruns] at hrpc
    exact hflight.mem_iff.mpr (h.answered i rpc hrpc hop)

/-- A server with another commit than before is the one that has handled it. -/
theorem commitOperation_update {a b : ℕ} {m : DataStoreManager RPC C S} {ctrl : CtrlInfo RPC}
    (h : (Function.update n.servers a m b).commitOperation = some ctrl) :
    (n.servers b).commitOperation = some ctrl ∨ b = a ∧ m.commitOperation = some ctrl := by
  by_cases hb : b = a
  · subst hb
    rw [Function.update_self] at h
    exact .inr ⟨rfl, h⟩
  · rw [Function.update_of_ne hb] at h
    exact .inl h

section Step
variable [DecidableEq ι] {i : ι} {e : NetConf.Event} {app : TransactionApp} {sent : List RPC}

@[simp] theorem handled_runs_self : (n.handled i e app sent).runs i = (n.runs i).after e app sent :=
  Function.update_self ..

theorem handled_runs_of_ne {j : ι} (hj : j ≠ i) : (n.handled i e app sent).runs j = n.runs j :=
  Function.update_of_ne hj ..

theorem inFlight_handled (hp : n.possible d i e) :
    (n.handled i e app sent).inFlight.Perm (e.unanswered n.inFlight ++ sent) := by
  have hcomm : ∀ l : List RPC, (n.requests ++ sent ++ l).Perm (n.requests ++ l ++ sent) := by
    intro l
    rw [List.append_assoc, List.append_assoc]
    exact List.perm_append_comm.append_left _
  cases e with
  | reply rpc element release =>
    have hmem : (rpc, element) ∈ n.replies := (of_decide_eq_true hp).1
    have hreplies : (n.replies.map Prod.fst).Perm
        (rpc :: (n.replies.erase (rpc, element)).map Prod.fst) :=
      (List.perm_cons_erase hmem).map Prod.fst
    have hperm : n.inFlight.Perm
        (rpc :: (n.requests ++ (n.replies.erase (rpc, element)).map Prod.fst)) :=
      (hreplies.append_left _).trans List.perm_middle
    have herase := hperm.erase rpc
    rw [List.erase_cons_head] at herase
    exact (hcomm _).trans (herase.symm.append_right _)
  | startTransaction => exact hcomm _
  | lambda => exact hcomm _

/-- An application handles an event that is possible. -/
theorem app_eq_some (hs : step d n (.app i e) = some n') : n.possible d i e ∧ ∃ app sent,
    (n.runs i).app.finiteStateMachine e.release e.message = some (app, sent) ∧
      n' = n.handled i e app sent := by
  change (if n.possible d i e then _ else none) = _ at hs
  split_ifs at hs with hp
  obtain ⟨⟨app, sent⟩, hh, rfl⟩ := Option.map_eq_some_iff.mp hs
  exact ⟨hp, app, sent, hh, rfl⟩

/-- A request is taken from its way, and its reply, if there is one, is sent. -/
theorem serve_eq_some {rpc : RPC} {clock : Clock} {timestamp : CommitTimestamp}
    (hs : step d n (.serve rpc clock timestamp) = some n') : rpc ∈ n.requests ∧ ∃ m r,
      DataStoreManager.Effect (d.configurators (d.address rpc.sessionId))
        (n.servers (d.address rpc.sessionId)) clock ⟨rpc.sessionId, rpc⟩
        (d.operation timestamp rpc.operation) m r ∧
      n' = { n.withServer (d.address rpc.sessionId) m with
        requests := n.requests.erase rpc
        replies := n.replies ++ (r.map fun element => (rpc, element)).toList } := by
  change (if rpc ∈ n.requests then _ else none) = _ at hs
  split_ifs at hs with hrpc
  obtain ⟨⟨m, r⟩, hop, rfl⟩ := Option.map_eq_some_iff.mp hs
  exact ⟨hrpc, m, r, DataStoreManager.effect_of_handleOperation hop, rfl⟩

/-- The other clients have sessions of no application, and only change their server. -/
theorem foreign_eq_some {ctrl : CtrlInfo RPC} {operation : NetConfOperation C} {clock : Clock}
    (hs : step d n (.foreign ctrl operation clock) = some n') :
    d.application ctrl.sessionId = none ∧ ∃ m r,
      DataStoreManager.Effect (d.configurators (d.address ctrl.sessionId))
        (n.servers (d.address ctrl.sessionId)) clock ctrl operation m r ∧
      n' = n.withServer (d.address ctrl.sessionId) m := by
  change (if d.application ctrl.sessionId = none then _ else none) = _ at hs
  split_ifs at hs with hforeign
  obtain ⟨⟨m, r⟩, hop, rfl⟩ := Option.map_eq_some_iff.mp hs
  exact ⟨hforeign, m, r, DataStoreManager.effect_of_handleOperation hop, rfl⟩

/-- An event of an application is a step of its machine; the others leave the applications as they
are. -/
theorem step_cases {e : Event ι C} (hs : step d n e = some n') :
    (∃ i e' app sent, e = .app i e' ∧ n.possible d i e' ∧
      (n.runs i).app.finiteStateMachine e'.release e'.message = some (app, sent) ∧
      n' = n.handled i e' app sent) ∨ n'.runs = n.runs := by
  cases e with
  | app i e =>
    obtain ⟨hp, app, sent, hh, rfl⟩ := app_eq_some hs
    exact .inl ⟨i, e, app, sent, rfl, hp, hh, rfl⟩
  | serve rpc clock timestamp =>
    obtain ⟨-, m, r, -, rfl⟩ := serve_eq_some hs
    exact .inr rfl
  | foreign ctrl operation clock =>
    obtain ⟨-, m, r, -, rfl⟩ := foreign_eq_some hs
    exact .inr rfl
  | newCycle a period clock =>
    obtain ⟨m, -, rfl⟩ := Option.map_eq_some_iff.mp hs
    exact .inr rfl
  | executeTimedCommit a sessionId =>
    obtain ⟨h, -, rfl⟩ := Option.map_eq_some_iff.mp hs
    exact .inr rfl

/-- In the network an application makes the steps that it makes by itself. -/
theorem InOrder.run_step (h : InOrder d n) (hp : n.possible d i e)
    (hh : (n.runs i).app.finiteStateMachine e.release e.message = some (app, sent)) :
    (n.runs i).step e = some ((n.runs i).after e app sent) := by
  have hpossible : (n.runs i).possible e := by
    cases e with
    | startTransaction => rfl
    | reply rpc element release =>
      obtain ⟨hmem, hi⟩ := of_decide_eq_true hp
      have hflight : rpc ∈ n.inFlight :=
        List.mem_append_right _ (List.mem_map.mpr ⟨_, hmem, rfl⟩)
      exact decide_eq_true (h.outstanding rpc hflight i hi)
    | lambda => exact hp
  rw [Run.step, if_pos hpossible, hh]
  rfl

/-- An application handles a reply to one of its sessions, which was in flight. -/
theorem reply_of_possible {rpc : RPC} {element : ReplyElement} {release : Bool}
    (hp : n.possible d i (.reply rpc element release)) :
    rpc ∈ n.inFlight ∧ d.application rpc.sessionId = some i := by
  obtain ⟨hmem, hi⟩ := of_decide_eq_true hp
  exact ⟨List.mem_append_right _ (List.mem_map.mpr ⟨_, hmem, rfl⟩), hi⟩

theorem InOrder.mem_inFlight_handled (h : InOrder d n) (hp : n.possible d i e) {rpc : RPC} :
    rpc ∈ (n.handled i e app sent).inFlight ↔
      (rpc ∈ n.inFlight ∧ ∀ element release, e ≠ .reply rpc element release) ∨ rpc ∈ sent := by
  rw [(inFlight_handled hp).mem_iff, List.mem_append, mem_unanswered h.nodup_inFlight]

omit [DecidableEq ι] in
theorem InOrder.mem_outstanding_after (h : InOrder d n) {rpc : RPC} :
    rpc ∈ ((n.runs i).after e app sent).outstanding ↔
      (rpc ∈ (n.runs i).outstanding ∧ ∀ element release, e ≠ .reply rpc element release) ∨
        rpc ∈ sent := by
  rw [Run.after, List.mem_append, mem_unanswered (.of_map _ (h.runs i).inv.nodup_outstanding)]

/-- What an application handles and sends belongs to its own sessions. -/
theorem InOrder.attached_after (h : InOrder d n) (hp : n.possible d i e)
    (hh : (n.runs i).app.finiteStateMachine e.release e.message = some (app, sent)) :
    Attached d i ((n.runs i).after e app sent) :=
  (h.runs i).step (h.run_step hp hh)

theorem InOrder.application_of_sent (h : InOrder d n) (hp : n.possible d i e)
    (hh : (n.runs i).app.finiteStateMachine e.release e.message = some (app, sent)) {rpc : RPC}
    (hrpc : rpc ∈ sent) : d.application rpc.sessionId = some i :=
  (h.attached_after hp hh).application (h.mem_outstanding_after.mpr (.inr hrpc))

/-- What it sends is not what it still waits for. -/
theorem InOrder.not_unanswered_of_sent (h : InOrder d n) (hp : n.possible d i e)
    (hh : (n.runs i).app.finiteStateMachine e.release e.message = some (app, sent)) {rpc : RPC}
    (hrpc : rpc ∈ sent) : rpc ∉ e.unanswered (n.runs i).outstanding := by
  intro hold
  have hnodup := List.Nodup.of_map _ (h.attached_after hp hh).inv.nodup_outstanding
  exact (List.nodup_append.mp hnodup).2.2 rpc hold rpc hrpc rfl

theorem InOrder.outstanding_handled (h : InOrder d n) (hp : n.possible d i e) {rpc : RPC}
    (hrpc : rpc ∈ (n.handled i e app sent).inFlight) (hi : d.application rpc.sessionId = some i) :
    rpc ∈ ((n.runs i).after e app sent).outstanding :=
  h.mem_outstanding_after.mpr (((h.mem_inFlight_handled hp).mp hrpc).imp_left fun hf =>
    ⟨h.outstanding rpc hf.1 i hi, hf.2⟩)

/-- What is in flight for another application has been in flight before. -/
theorem InOrder.inFlight_of_handled (h : InOrder d n) (hp : n.possible d i e)
    (hh : (n.runs i).app.finiteStateMachine e.release e.message = some (app, sent)) {rpc : RPC}
    (hrpc : rpc ∈ (n.handled i e app sent).inFlight) (hi : d.application rpc.sessionId ≠ some i) :
    rpc ∈ n.inFlight :=
  (((h.mem_inFlight_handled hp).mp hrpc).resolve_right fun hs =>
    hi (h.application_of_sent hp hh hs)).1

/-- No session has two messages in flight: those of the application are all waited for. -/
theorem InOrder.nodup_handled (h : InOrder d n) (hp : n.possible d i e)
    (hh : (n.runs i).app.finiteStateMachine e.release e.message = some (app, sent)) :
    ((n.handled i e app sent).inFlight.map (·.sessionId)).Nodup := by
  have hnodup := (h.attached_after hp hh).inv.nodup_outstanding
  have hflight : (n.handled i e app sent).inFlight.Nodup := by
    rw [(inFlight_handled hp).nodup_iff, List.nodup_append]
    refine ⟨h.nodup_inFlight.sublist (unanswered_sublist e _),
      (List.nodup_append.mp (List.Nodup.of_map _ hnodup)).2.1, ?_⟩
    rintro rpc hold rpc' hs rfl
    obtain ⟨hf, he⟩ := (mem_unanswered h.nodup_inFlight).mp hold
    refine h.not_unanswered_of_sent hp hh hs ((mem_unanswered ?_).mpr
      ⟨h.outstanding rpc hf i (h.application_of_sent hp hh hs), he⟩)
    exact .of_map _ (h.runs i).inv.nodup_outstanding
  refine hflight.map_on fun rpc hrpc rpc' hrpc' heq => ?_
  by_cases hi : d.application rpc.sessionId = some i
  · exact List.inj_on_of_nodup_map hnodup (h.outstanding_handled hp hrpc hi)
      (h.outstanding_handled hp hrpc' (heq ▸ hi)) heq
  · exact h.eq_of_sessionId (h.inFlight_of_handled hp hh hrpc hi)
      (h.inFlight_of_handled hp hh hrpc' (heq ▸ hi)) heq

/-- A commit that waits for its time goes on waiting. -/
theorem InOrder.stored_handled (h : InOrder d n) (hp : n.possible d i e)
    (hh : (n.runs i).app.finiteStateMachine e.release e.message = some (app, sent)) {a : ℕ}
    {ctrl : CtrlInfo RPC} {j : ι} (hc : (n.servers a).commitOperation = some ctrl)
    (hj : d.application ctrl.sessionId = some j) :
    Stored d (n.handled i e app sent) j a ctrl := by
  have hstored := h.stored a ctrl j hc hj
  have hwaits : ∀ element release, e ≠ .reply ctrl.messageId element release := by
    rintro element release rfl
    exact hstored.unanswered (List.mem_map.mpr ⟨_, (reply_of_possible hp).1, hstored.session⟩)
  refine { hstored with outstanding := ?_, unanswered := ?_ }
  · by_cases hji : j = i
    · subst hji
      rw [handled_runs_self]
      exact h.mem_outstanding_after.mpr (.inl ⟨hstored.outstanding, hwaits⟩)
    · rw [handled_runs_of_ne hji]
      exact hstored.outstanding
  · intro hflight
    obtain ⟨rpc, hrpc, hsession⟩ := List.mem_map.mp hflight
    rcases (h.mem_inFlight_handled hp).mp hrpc with hf | hs
    · exact hstored.unanswered (List.mem_map.mpr ⟨rpc, hf.1, hsession⟩)
    · -- the session sends nothing while it waits for the commit
      have happ : d.application rpc.sessionId = some j := hsession ▸ hj
      obtain rfl : i = j := Option.some.inj ((h.application_of_sent hp hh hs).symm.trans happ)
      have hold : ctrl.messageId ∈ e.unanswered (n.runs i).outstanding :=
        (mem_unanswered (.of_map _ (h.runs i).inv.nodup_outstanding)).mpr
          ⟨hstored.outstanding, hwaits⟩
      have heq : rpc = ctrl.messageId :=
        List.inj_on_of_nodup_map (h.attached_after hp hh).inv.nodup_outstanding
          (h.mem_outstanding_after.mpr (.inr hs)) (List.mem_append_left _ hold)
          (hsession.trans hstored.session.symm)
      exact h.not_unanswered_of_sent hp hh hs (heq ▸ hold)

/-- What an application sends is not yet in flight. -/
theorem InOrder.handled_step (h : InOrder d n) (hp : n.possible d i e)
    (hh : (n.runs i).app.finiteStateMachine e.release e.message = some (app, sent)) :
    InOrder d (n.handled i e app sent) where
  runs j := by
    by_cases hj : j = i
    · subst hj
      rw [handled_runs_self]
      exact h.attached_after hp hh
    · rw [handled_runs_of_ne hj]
      exact h.runs j
  outstanding rpc hrpc j hj := by
    by_cases hji : j = i
    · subst hji
      rw [handled_runs_self]
      exact h.outstanding_handled hp hrpc hj
    · rw [handled_runs_of_ne hji]
      refine h.outstanding rpc (h.inFlight_of_handled hp hh hrpc fun hi => ?_) j hj
      exact hji (Option.some.inj (hj.symm.trans hi))
  known rpc hrpc := by
    rcases (h.mem_inFlight_handled hp).mp hrpc with hf | hs
    · exact h.known rpc hf.1
    · rw [h.application_of_sent hp hh hs]
      rfl
  nodup := h.nodup_handled hp hh
  stored a ctrl j := h.stored_handled hp hh
  answered j rpc hrpc hop := by
    by_cases hji : j = i
    · subst hji
      rw [handled_runs_self] at hrpc
      exact (h.mem_inFlight_handled hp).mpr ((h.mem_outstanding_after.mp hrpc).imp_left fun ho =>
        ⟨h.answered j rpc ho.1 hop, ho.2⟩)
    · rw [handled_runs_of_ne hji] at hrpc
      refine (h.mem_inFlight_handled hp).mpr (.inl ⟨h.answered j rpc hrpc hop, ?_⟩)
      rintro element release rfl
      exact hji (Option.some.inj
        (((h.runs j).application hrpc).symm.trans (reply_of_possible hp).2))

/-! ### The servers -/

/-- A request is answered, or a commit waits for its time. -/
theorem InOrder.serve_step (h : InOrder d n) {rpc : RPC} {clock : Clock}
    {timestamp : CommitTimestamp} (hs : step d n (.serve rpc clock timestamp) = some n') :
    InOrder d n' := by
  obtain ⟨hrpc, m, r, heffect, rfl⟩ := serve_eq_some hs
  have hflight : rpc ∈ n.inFlight := List.mem_append_left _ hrpc
  have hperm : n.inFlight.Perm (rpc :: (n.requests.erase rpc ++ n.replies.map Prod.fst)) :=
    (List.perm_cons_erase hrpc).append_right _
  rcases commitOperation_of_effect heffect with ⟨hr, hm⟩ | ⟨rfl, hcommit, hm⟩
  · obtain ⟨element, rfl⟩ := Option.isSome_iff_exists.mp hr
    refine h.of_servers rfl ?_ fun a ctrl i hc _ => ?_
    · refine List.Perm.trans ?_ hperm.symm
      simp only [inFlight, Option.map_some, Option.toList_some, List.map_append, List.map_cons,
        List.map_nil, ← List.append_assoc]
      exact List.perm_append_singleton ..
    · rcases commitOperation_update hc with hold | ⟨rfl, hnew⟩
      · exact hold
      · exact hm.symm.trans hnew
  · -- a commit that has no reply yet is stored at its server
    have hcommit : rpc.operation = .commit := by
      cases hrpc : rpc.operation with
      | commit => rfl
      | editConfig target data => cases data <;> simp [Deployment.operation, hrpc] at hcommit
      | _ => simp [Deployment.operation, hrpc] at hcommit
    simp only [Option.map_none, Option.toList_none, List.append_nil]
    set n' : Network ι C S :=
      { n.withServer (d.address rpc.sessionId) m with requests := n.requests.erase rpc } with hn'
    change n.inFlight.Perm (rpc :: n'.inFlight) at hperm
    have hsub : ∀ x ∈ n'.inFlight, x ∈ n.inFlight := fun x hx =>
      hperm.mem_iff.mpr (List.mem_cons_of_mem _ hx)
    have hnodup := (hperm.map (·.sessionId)).nodup_iff.mp h.nodup
    rw [List.map_cons, List.nodup_cons] at hnodup
    exact
      { runs := h.runs
        outstanding := fun x hx => h.outstanding x (hsub x hx)
        known := fun x hx => h.known x (hsub x hx)
        nodup := hnodup.2
        stored := fun a ctrl i hc hi => by
          rcases commitOperation_update hc with hold | ⟨rfl, hnew⟩
          · exact { h.stored a ctrl i hold hi with
              unanswered := fun hmem => by
                obtain ⟨x, hx, hsession⟩ := List.mem_map.mp hmem
                exact (h.stored a ctrl i hold hi).unanswered
                  (List.mem_map.mpr ⟨x, hsub x hx, hsession⟩) }
          · obtain rfl := Option.some.inj (hm.symm.trans hnew)
            exact
              { address := rfl, session := rfl, operation := hcommit
                outstanding := h.outstanding rpc hflight i hi, unanswered := hnodup.1 }
        answered := fun i x hx hne => by
          rcases List.mem_cons.mp (hperm.mem_iff.mp (h.answered i x hx hne)) with rfl | hx
          · exact absurd hcommit hne
          · exact hx }

/-- The reply to a commit that has waited. -/
theorem InOrder.executeTimedCommit_step (h : InOrder d n) {a sessionId : ℕ}
    (hs : step d n (.executeTimedCommit a sessionId) = some n') : InOrder d n' := by
  obtain ⟨⟨m, commit, element⟩, hop, rfl⟩ := Option.map_eq_some_iff.mp hs
  obtain ⟨-, hcommit, -, -, -, hm, -⟩ := DataStoreManager.executeTimedCommit_eq_some hop
  have hservers : ∀ b ctrl, (Function.update n.servers a m b).commitOperation = some ctrl →
      b ≠ a ∧ (n.servers b).commitOperation = some ctrl := by
    intro b ctrl hc
    by_cases hb : b = a
    · subst hb
      rw [Function.update_self, hm] at hc
      cases hc
    · rw [Function.update_of_ne hb] at hc
      exact ⟨hb, hc⟩
  cases happ : d.application commit.sessionId with
  | none => exact h.of_servers rfl (.refl _) fun b ctrl i hc _ => (hservers b ctrl hc).2
  | some i =>
    have hold := h.stored a commit i hcommit happ
    simp only [Option.isSome_some, if_true]
    set n' : Network ι C S :=
      { n.withServer a m with replies := n.replies ++ [(commit.messageId, element)] } with hn'
    have hperm : n'.inFlight.Perm (commit.messageId :: n.inFlight) := by
      simp only [hn', inFlight, List.map_append, List.map_cons, List.map_nil,
        ← List.append_assoc]
      exact List.perm_append_singleton ..
    have happ' : d.application commit.messageId.sessionId = some i := hold.session ▸ happ
    exact
      { runs := h.runs
        outstanding := fun x hx j hj => by
          rcases List.mem_cons.mp (hperm.mem_iff.mp hx) with rfl | hx
          · obtain rfl := Option.some.inj (happ'.symm.trans hj)
            exact hold.outstanding
          · exact h.outstanding x hx j hj
        known := fun x hx => by
          rcases List.mem_cons.mp (hperm.mem_iff.mp hx) with rfl | hx
          · rw [happ']
            rfl
          · exact h.known x hx
        nodup := by
          rw [(hperm.map (·.sessionId)).nodup_iff, List.map_cons, List.nodup_cons, hold.session]
          exact ⟨hold.unanswered, h.nodup⟩
        stored := fun b ctrl j hc hj => by
          obtain ⟨hb, hc⟩ := hservers b ctrl hc
          have hstored := h.stored b ctrl j hc hj
          refine { hstored with unanswered := ?_ }
          rw [(hperm.map (·.sessionId)).mem_iff, List.map_cons, List.mem_cons, hold.session]
          rintro (heq | hmem)
          · -- a session has its commits at one server only
            exact hb (hstored.address.symm.trans ((congrArg d.address heq).trans hold.address))
          · exact hstored.unanswered hmem
        answered := fun j x hx hne =>
          hperm.mem_iff.mpr (List.mem_cons_of_mem _ (h.answered j x hx hne)) }

/-- Every step of the network keeps the messages in order. -/
theorem InOrder.step (h : InOrder d n) {e : Event ι C} (hs : Network.step d n e = some n') :
    InOrder d n' := by
  cases e with
  | app i e =>
    obtain ⟨hp, app, sent, hh, rfl⟩ := app_eq_some hs
    exact h.handled_step hp hh
  | serve rpc clock timestamp => exact h.serve_step hs
  | executeTimedCommit a sessionId => exact h.executeTimedCommit_step hs
  | foreign ctrl operation clock =>
    obtain ⟨hforeign, m, r, heffect, rfl⟩ := foreign_eq_some hs
    refine h.of_servers rfl (.refl _) fun a ctrl' i hc hi => ?_
    rcases commitOperation_update hc with hold | ⟨rfl, hnew⟩
    · exact hold
    · rcases commitOperation_of_effect heffect with ⟨-, hm⟩ | ⟨-, -, hm⟩
      · exact hm.symm.trans hnew
      · obtain rfl := Option.some.inj (hm.symm.trans hnew)
        rw [hforeign] at hi
        cases hi
  | newCycle a period clock =>
    obtain ⟨m, hop, rfl⟩ := Option.map_eq_some_iff.mp hs
    refine h.of_servers rfl (.refl _) fun b ctrl i hc _ => ?_
    rcases commitOperation_update hc with hold | ⟨rfl, hnew⟩
    · exact hold
    · rcases DataStoreManager.receiveSignal_eq_some hop with rfl | ⟨sessionId, -, rfl⟩ <;>
        exact hnew

theorem inOrder_init (h : (system d).init n) : InOrder d n := by
  obtain ⟨hruns, hrequests, hreplies, hservers⟩ := h
  have hflight : n.inFlight = [] := by rw [inFlight, hrequests, hreplies]; rfl
  exact
    { runs := fun i => by
        obtain ⟨timeSynchronous, connections, hopened, hsessions, hrun⟩ := hruns i
        rw [hrun]
        exact ⟨.init ⟨_, _, hopened, rfl⟩, hsessions⟩
      outstanding := by simp [hflight]
      known := by simp [hflight]
      nodup := by simp [hflight]
      stored := fun a ctrl i hc => by
        obtain ⟨state, hs⟩ := hservers a
        rw [hs] at hc
        cases hc
      answered := fun i rpc hrpc => by
        obtain ⟨timeSynchronous, connections, -, -, hrun⟩ := hruns i
        rw [hrun] at hrpc
        cases hrpc }

theorem inOrder_of_reachable (h : (system d).Reachable n) : InOrder d n :=
  h.invariant (fun _ => inOrder_init) fun _ _ _ hord hs => hord.step hs

end Step

end Network

end TsnReconfig.NetConf
