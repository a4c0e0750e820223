import TsnReconfig.NetConf.ErrorRecovery

/-!
# The time-synchronous transaction refines the plain one

Without the timestamp requests, their replies and `WaitOnTimestampConfirmation`, a run of
`TimeSynchronousTransactionApp` is a run of `TransactionApp`.
-/

namespace TsnReconfig.NetConf

open TsnReconfig.Lib

/-! ## The plain application -/

/-- The members of the base class. -/
def SwitchState.plain (s : SwitchState) : SwitchState := { s with hasCommitTimeStamp := false }

theorem SwitchState.isInState_plain (s : SwitchState) {n : SwitchStateName}
    (h : n ≠ .switchWithTimestamp) : s.plain.isInState n = s.isInState n := by
  cases n <;> first | rfl | exact absurd rfl h

namespace Switch
variable (sw : Switch)

def plain : Switch := { sw with state := sw.state.plain }

@[simp] theorem plain_sessionId : sw.plain.sessionId = sw.sessionId := rfl
@[simp] theorem plain_remoteAddress : sw.plain.remoteAddress = sw.remoteAddress := rfl
@[simp] theorem plain_configurations : sw.plain.configurations = sw.configurations := rfl
@[simp] theorem plain_state : sw.plain.state = sw.state.plain := rfl
@[simp] theorem plain_lock : sw.plain.lock = sw.lock := rfl
@[simp] theorem plain_unlock : sw.plain.unlock = sw.unlock := rfl

theorem plain_applyFirstChange :
    sw.plain.applyFirstChange = sw.applyFirstChange.map fun x => (x.1.plain, x.2) := by
  unfold applyFirstChange
  cases hc : sw.configurations with
  | nil => simp [hc]
  | cons config rest =>
    simp only [plain_configurations, hc]
    split_ifs <;> rfl

theorem plain_applyNextChange :
    sw.plain.applyNextChange = sw.applyNextChange.map fun x => (x.1.plain, x.2) := by
  unfold applyNextChange
  rw [plain_configurations]
  cases nextConfiguration sw.configurations 0 <;> rfl

end Switch

namespace TransactionApp
variable (app : TransactionApp)

/-- The application without what the derived class adds. -/
def plain : TransactionApp :=
  { app with timeSynchronous := false, switchStates := app.switchStates.map Switch.plain }

@[simp] theorem plain_switchStates :
    app.plain.switchStates = app.switchStates.map Switch.plain := rfl
@[simp] theorem plain_transactionState :
    app.plain.transactionState = app.transactionState := rfl
@[simp] theorem plain_connections : app.plain.connections = app.connections := rfl

variable {app} {s : SwitchStateName} {next : TransactionAppState} {reply : Reply}

theorem plain_getSwitchesInState (hs : s ≠ .switchWithTimestamp) :
    app.plain.getSwitchesInState s = (app.getSwitchesInState s).map Switch.plain := by
  simp only [getSwitchesInState, plain_switchStates, List.filter_map]
  congr 1
  exact List.filter_congr fun x _ => x.state.isInState_plain hs

theorem length_getSwitchesInState_plain (hs : s ≠ .switchWithTimestamp) :
    (app.plain.getSwitchesInState s).length = (app.getSwitchesInState s).length := by
  rw [plain_getSwitchesInState hs, List.length_map]

theorem plain_findConnectionForReply :
    app.plain.findConnectionForReply reply = (app.findConnectionForReply reply).map Switch.plain := by
  simp only [findConnectionForReply, plain_switchStates, List.find?_map]
  rfl

theorem plain_modifySwitch {f g : Switch → Switch} (h : ∀ sw : Switch, g sw.plain = (f sw).plain)
    (sessionId : ℕ) : app.plain.modifySwitch sessionId g = (app.modifySwitch sessionId f).plain := by
  simp only [modifySwitch, plain, List.map_map]
  congr 1
  apply List.map_congr_left
  intro sw _
  by_cases hsw : sw.sessionId = sessionId
  · simpa [hsw] using h sw
  · simp [hsw]

theorem plain_modifyState {f : SwitchState → SwitchState}
    (h : ∀ s : SwitchState, f s.plain = (f s).plain) (sessionId : ℕ) :
    app.plain.modifyState sessionId f = (app.modifyState sessionId f).plain :=
  plain_modifySwitch (fun sw => congrArg (fun s => { sw with state := s }) (h sw.state)) sessionId

/-- What a handler leaves and sends, without the timestamps: the application that has sent them
stands for one that has sent the commits already. -/
def erased (x : TransactionApp × List RPC) : TransactionApp × List RPC :=
  if x.1.transactionState = .waitOnTimestampConfirmation then
    ({ x.1.plain with transactionState := .waitOnCommitExecution },
      x.2.filter (·.messageId ≠ .timestamp) ++ x.1.switchStates.map Switch.commitApproved)
  else (x.1.plain, x.2)

theorem erased_append {sent sent' : List RPC} (h : ∀ rpc ∈ sent, rpc.messageId ≠ .timestamp) :
    erased (app, sent ++ sent') = ((erased (app, sent')).1, sent ++ (erased (app, sent')).2) := by
  have hfilter : sent.filter (·.messageId ≠ .timestamp) = sent :=
    List.filter_eq_self.mpr fun rpc hrpc => by simpa using h rpc hrpc
  unfold erased
  split_ifs
  · simp only [List.filter_append, hfilter, List.append_assoc]
  · rfl

/-- Further requests before those of a handler. -/
theorem map_erased_bind {h : Handled} {sent : List RPC}
    (hsent : ∀ rpc ∈ sent, rpc.messageId ≠ .timestamp) :
    (h.bind fun x => some (x.1, sent ++ x.2)).map erased =
      (h.map erased).bind fun x => some (x.1, sent ++ x.2) := by
  cases h with
  | none => rfl
  | some x => exact congrArg some (erased_append hsent)

theorem map_erased_transitionToState (h : next ≠ .waitOnTimestampConfirmation) :
    (app.transitionToState next).map erased = app.plain.transitionToState next := by
  cases next
  case waitOnTimestampConfirmation => exact absurd rfl h
  case waitOnLockResponse =>
    have hfind : (app.switchStates.map Switch.plain).find? (·.state.isInState .switchAvailable) =
        (app.switchStates.find? (·.state.isInState .switchAvailable)).map Switch.plain := by
      rw [List.find?_map]
      rfl
    simp only [transitionToState, plain_switchStates, hfind]
    cases app.switchStates.find? (·.state.isInState .switchAvailable) <;> rfl
  all_goals rfl

theorem map_erased_sendToAll {request : Switch → RPC} (h : next ≠ .waitOnTimestampConfirmation)
    (hplain : ∀ sw : Switch, request sw.plain = request sw)
    (hid : ∀ sw : Switch, (request sw).messageId ≠ .timestamp) :
    (app.sendToAll request next).map erased = app.plain.sendToAll request next := by
  have hmap : (app.switchStates.map Switch.plain).map request = app.switchStates.map request := by
    rw [List.map_map]
    exact List.map_congr_left fun x _ => hplain x
  have hsent : ∀ rpc ∈ app.switchStates.map request, rpc.messageId ≠ .timestamp := by
    intro rpc hrpc
    obtain ⟨sw, -, rfl⟩ := List.mem_map.mp hrpc
    exact hid sw
  refine (map_erased_bind hsent).trans ?_
  rw [map_erased_transitionToState h, sendToAll, plain_switchStates, hmap]
  rfl

theorem map_erased_sendUnlock :
    (app.sendToAll Switch.unlock .waitOnUnlock).map erased =
      app.plain.sendToAll Switch.unlock .waitOnUnlock :=
  map_erased_sendToAll (by simp) (fun _ => rfl) (by simp [Switch.unlock, Connection.createRPC])

theorem map_erased_sendTimestamps :
    app.sendTimestamps.map erased =
      app.plain.sendToAll Switch.commitApproved .waitOnCommitExecution := by
  have hnil : ((app.getSwitchesInState .switchWithChangedCandidateConfiguration).map
      Switch.timestamp).filter (·.messageId ≠ .timestamp) = [] := by
    rw [List.filter_eq_nil_iff]
    intro rpc hrpc
    obtain ⟨sw, -, rfl⟩ := List.mem_map.mp hrpc
    simp [Switch.timestamp, Connection.createRPC]
  have hcommit : (app.switchStates.map Switch.plain).map Switch.commitApproved =
      app.switchStates.map Switch.commitApproved := by
    rw [List.map_map]
    rfl
  change some (erased (_, _ ++ [])) = some (_, _ ++ [])
  simp only [erased, List.append_nil, if_true, hnil, List.nil_append, plain_switchStates, hcommit]
  rfl

theorem map_erased_collectOk {messageId : MessageId} {note : SwitchState → SwitchState}
    {goOn : TransactionApp → Handled} (hnote : ∀ s : SwitchState, note s.plain = (note s).plain)
    (hs : s ≠ .switchWithTimestamp) (hnext : next ≠ .waitOnTimestampConfirmation)
    (hgoOn : ∀ app : TransactionApp, (goOn app).map erased = goOn app.plain) :
    (app.collectOk reply messageId note s next goOn).map erased =
      app.plain.collectOk reply messageId note s next goOn := by
  unfold collectOk
  by_cases hok : reply.element = .ok
  · rw [if_pos hok, if_pos hok, plain_findConnectionForReply]
    cases app.findConnectionForReply reply with
    | none => rfl
    | some con =>
      simp only [Option.map_some, Option.bind_eq_bind, Option.bind_some, Switch.plain_sessionId,
        plain_modifyState hnote, length_getSwitchesInState_plain hs, plain_switchStates,
        List.length_map, apply_ite (Option.map erased), map_erased_transitionToState hnext, hgoOn,
        Option.map_none]
      congr 1
  · rw [if_neg hok, if_neg hok]
    rfl

/-! ## The handlers -/

theorem map_erased_handleMessageInBeginOfTransaction :
    app.handleMessageInBeginOfTransaction.map erased =
      app.plain.handleMessageInBeginOfTransaction := by
  have hsame : app.plain.determineLockOrder = app.determineLockOrder.plain := by
    simp only [determineLockOrder, plain, List.map_map]
    rfl
  rw [handleMessageInBeginOfTransaction, map_erased_transitionToState (by simp), ← hsame]
  rfl

theorem map_erased_handleMessageInWaitOnLockResponse :
    (app.handleMessageInWaitOnLockResponse reply).map erased =
      app.plain.handleMessageInWaitOnLockResponse reply := by
  unfold handleMessageInWaitOnLockResponse
  cases reply.element with
  | ok =>
    simp only [plain_findConnectionForReply]
    cases app.findConnectionForReply reply with
    | none => rfl
    | some con =>
      have hsend : ∀ app : TransactionApp,
          (app.sendToAll Switch.copyConfig .waitOnCandidateConfirmation).map erased =
            app.plain.sendToAll Switch.copyConfig .waitOnCandidateConfirmation :=
        fun app => map_erased_sendToAll (by simp) (fun _ => rfl)
          (by simp [Switch.copyConfig, Connection.createRPC])
      have hagain : TransactionAppState.waitOnLockResponse ≠ .waitOnTimestampConfirmation := by
        simp
      simp only [Option.map_some, Option.bind_eq_bind, Option.bind_some, Switch.plain_sessionId,
        Switch.plain_state, con.state.isInState_plain (n := .switchAvailable) (by simp),
        plain_modifyState (f := fun s => { s with hasLockedRunning := true }) (fun _ => rfl),
        length_getSwitchesInState_plain (s := .switchLocked) (by simp),
        plain_switchStates, List.length_map, apply_ite (Option.map erased),
        map_erased_transitionToState hagain, hsend, Option.map_none]
      congr 1
  | error =>
    by_cases hid : reply.messageId = .lock
    · simp only [hid, ne_eq, not_true_eq_false, if_false,
        length_getSwitchesInState_plain (s := .switchLocked) (by simp),
        plain_findConnectionForReply, apply_ite (Option.map erased)]
      refine if_congr Iff.rfl (map_erased_transitionToState (by simp)) ?_
      cases app.findConnectionForReply reply with
      | none => rfl
      | some con =>
        -- the locks are given back by the address, which both applications know
        have hunlock : (app.plain.switchStates.filter
            (·.remoteAddress = con.plain.remoteAddress)).map Switch.unlock =
              (app.switchStates.filter (·.remoteAddress = con.remoteAddress)).map Switch.unlock := by
          rw [plain_switchStates, List.filter_map, List.map_map]
          rfl
        have hmodify := @plain_modifyState app (fun s => { s with hasLockedRunning := false })
          (fun _ => rfl) con.sessionId
        simp only [Option.map_some, Option.bind_eq_bind, Option.bind_some]
        rw [hunlock, Switch.plain_sessionId, hmodify]
        rfl
    · simp [hid]
  | data => rfl

theorem map_erased_handleMessageInWaitOnCandidateConfirmation :
    (app.handleMessageInWaitOnCandidateConfirmation reply).map erased =
      app.plain.handleMessageInWaitOnCandidateConfirmation reply := by
  have hagain : TransactionAppState.waitOnCandidateConfirmation ≠ .waitOnTimestampConfirmation := by
    simp
  have hfail : TransactionAppState.errorState ≠ .waitOnTimestampConfirmation := by simp
  unfold handleMessageInWaitOnCandidateConfirmation
  cases reply.element with
  | ok =>
    simp only [plain_findConnectionForReply]
    cases app.findConnectionForReply reply with
    | none => rfl
    | some con =>
      have hsend : ∀ app : TransactionApp,
          (app.sendToAll Switch.lockCandidate .waitOnCandidateLockResponse).map erased =
            app.plain.sendToAll Switch.lockCandidate .waitOnCandidateLockResponse :=
        fun app => map_erased_sendToAll (by simp) (fun _ => rfl)
          (by simp [Switch.lockCandidate, Connection.createRPC])
      simp only [Option.map_some, Option.bind_eq_bind, Option.bind_some, Switch.plain_sessionId,
        plain_modifyState (f := fun s => { s with hasCandidate := true }) (fun _ => rfl),
        length_getSwitchesInState_plain (s := .switchWithCandidate) (by simp),
        length_getSwitchesInState_plain (s := .switchError) (by simp),
        plain_switchStates, List.length_map, apply_ite (Option.map erased),
        map_erased_transitionToState hagain, map_erased_transitionToState hfail, hsend,
        Option.map_none]
      congr 1
  | error =>
    simp only [plain_findConnectionForReply]
    cases app.findConnectionForReply reply with
    | none => rfl
    | some con =>
      simp only [Option.map_some, Option.bind_eq_bind, Option.bind_some, Switch.plain_sessionId,
        plain_modifyState (f := fun s => { s with hasError := true }) (fun _ => rfl),
        length_getSwitchesInState_plain (s := .switchWithCandidate) (by simp),
        length_getSwitchesInState_plain (s := .switchError) (by simp),
        plain_switchStates, List.length_map, apply_ite (Option.map erased),
        map_erased_transitionToState hagain, map_erased_transitionToState hfail,
        map_erased_sendUnlock, Option.map_none]
      congr 1
  | data => rfl

theorem map_erased_applyFirstChanges :
    app.applyFirstChanges.map erased = app.plain.applyFirstChanges := by
  have hmapM : ∀ sws : List Switch, (sws.map Switch.plain).mapM Switch.applyFirstChange =
      (sws.mapM Switch.applyFirstChange).map fun changed =>
        changed.map fun x => (x.1.plain, x.2) := by
    intro sws
    induction sws with
    | nil => rfl
    | cons sw sws ih =>
      rw [List.map_cons, List.mapM_cons, List.mapM_cons, ih, sw.plain_applyFirstChange]
      cases sw.applyFirstChange <;> cases sws.mapM Switch.applyFirstChange <;> rfl
  simp only [applyFirstChanges, plain_switchStates, hmapM]
  cases app.switchStates.mapM Switch.applyFirstChange with
  | none => rfl
  | some changed =>
    have hswitches : (changed.map fun x => (x.1.plain, x.2)).map Prod.fst =
        (changed.map Prod.fst).map Switch.plain := by
      rw [List.map_map, List.map_map]
      rfl
    have hsent : (changed.map fun x => (x.1.plain, x.2)).flatMap Prod.snd =
        changed.flatMap Prod.snd := by
      rw [List.flatMap_map]
    simp only [Option.map_some, Option.bind_eq_bind, Option.bind_some, hswitches, hsent]
    rfl

theorem map_erased_handleMessageInErrorState :
    app.handleMessageInErrorState.map erased = app.plain.handleMessageInErrorState := by
  simp only [handleMessageInErrorState, plain_switchStates, List.filter_map, List.map_map]
  rfl

/-- After a change an application goes on, or waits for the next reply. -/
theorem map_erased_changed {goOn goOn' : TransactionApp → Handled}
    (hgoOn : ∀ app : TransactionApp, (goOn app).map erased = goOn' app.plain) {c c' : Prop}
    [Decidable c] [Decidable c'] (hc : c ↔ c') {sent : List RPC}
    (hsent : ∀ rpc ∈ sent, rpc.messageId ≠ .timestamp) :
    (if c then (goOn app).bind fun x => pure (x.1, sent ++ x.2)
      else (app.transitionToState .waitOnChangeConfirmation).bind fun x =>
        pure (x.1, sent ++ x.2)).map erased =
      if c' then (goOn' app.plain).bind fun x => pure (x.1, sent ++ x.2)
      else (app.plain.transitionToState .waitOnChangeConfirmation).bind fun x =>
        pure (x.1, sent ++ x.2) := by
  rw [apply_ite (Option.map erased)]
  refine if_congr hc ?_ ?_
  · exact (map_erased_bind hsent).trans (by rw [hgoOn]; rfl)
  · exact (map_erased_bind hsent).trans (by rw [map_erased_transitionToState (by simp)]; rfl)

/-- The text that the two change handlers share. -/
theorem map_erased_confirmChange {goOn goOn' : TransactionApp → Handled}
    (hgoOn : ∀ app : TransactionApp, (goOn app).map erased = goOn' app.plain) :
    (app.confirmChange goOn reply).map erased = app.plain.confirmChange goOn' reply := by
  have herror : SwitchStateName.switchError ≠ .switchWithTimestamp := by simp
  have hchanged :
      SwitchStateName.switchWithChangedCandidateConfiguration ≠ .switchWithTimestamp := by simp
  unfold confirmChange
  simp only [plain_findConnectionForReply]
  cases app.findConnectionForReply reply with
  | none => rfl
  | some con =>
    simp only [Option.map_some, Option.bind_eq_bind, Option.bind_some, Switch.plain_configurations,
      Switch.plain_sessionId]
    cases con.configurations[reply.messageId.atoi]? with
    | none => rfl
    | some config =>
      simp only [Option.bind_some]
      by_cases hrequested : config.state = .requested
      · simp only [hrequested, ne_eq, not_true_eq_false, if_false]
        have hconfirm := fun st => @plain_modifySwitch app
          (·.setConfigurationState reply.messageId.atoi st)
          (·.setConfigurationState reply.messageId.atoi st) (fun _ => rfl) con.sessionId
        have hagain : TransactionAppState.waitOnChangeConfirmation ≠ .waitOnTimestampConfirmation :=
          by simp
        have hfail : TransactionAppState.errorState ≠ .waitOnTimestampConfirmation := by simp
        cases reply.element with
        | ok =>
          simp only [hconfirm, length_getSwitchesInState_plain herror]
          -- what was noted of the change does not matter from here on
          generalize app.modifySwitch con.sessionId
            (·.setConfigurationState reply.messageId.atoi .success) = app
          rw [apply_ite (Option.map erased)]
          congr 1
          · simp only [plain_modifyState (f := fun s => { s with hasConfiguration := true })
              (fun _ => rfl), length_getSwitchesInState_plain herror,
              length_getSwitchesInState_plain hchanged, plain_switchStates, List.length_map,
              apply_ite (Option.map erased), map_erased_transitionToState hagain,
              map_erased_transitionToState hfail]
          · rw [plain_findConnectionForReply]
            cases app.findConnectionForReply reply with
            | none => rfl
            | some con =>
              simp only [Option.map_some, Option.bind_some, con.plain_applyNextChange]
              -- the next change has an identifier of its own
              cases hnext : con.applyNextChange with
              | none =>
                simp only [Option.map_none, Switch.plain_sessionId,
                  plain_modifyState (f := fun s => { s with hasConfiguration := true })
                    (fun _ => rfl), length_getSwitchesInState_plain herror,
                  length_getSwitchesInState_plain hchanged, plain_switchStates, List.length_map]
                exact map_erased_changed hgoOn Iff.rfl (by simp)
              | some next =>
                have hchange : ∀ rpc ∈ [next.2], rpc.messageId ≠ .timestamp := by
                  intro rpc hrpc
                  obtain rfl := List.mem_singleton.mp hrpc
                  obtain ⟨n, -, hn⟩ := Option.bind_eq_some_iff.mp hnext
                  obtain rfl := Option.some.inj hn
                  simp [Connection.createRPC]
                have hreplace : app.plain.modifySwitch next.1.sessionId (fun _ => next.1.plain) =
                    (app.modifySwitch next.1.sessionId fun _ => next.1).plain :=
                  plain_modifySwitch (f := fun _ => next.1) (g := fun _ => next.1.plain)
                    (fun _ => rfl) _
                simp only [Option.map_some, Switch.plain_sessionId, hreplace,
                  length_getSwitchesInState_plain herror,
                  length_getSwitchesInState_plain hchanged, plain_switchStates, List.length_map]
                exact map_erased_changed hgoOn Iff.rfl hchange
        | error =>
          simp only [hconfirm, plain_modifyState (f := fun s => { s with hasError := true })
            (fun _ => rfl), length_getSwitchesInState_plain herror,
            length_getSwitchesInState_plain hchanged, plain_switchStates, List.length_map,
            apply_ite (Option.map erased), map_erased_transitionToState hagain,
            map_erased_transitionToState hfail, Option.map_none]
        | data => rfl
      · simp [hrequested]

/-- Outside `WaitOnTimestampConfirmation` the two applications do the same. -/
theorem map_erased_finiteStateMachine (hsync : app.timeSynchronous)
    (hs : app.transactionState ≠ .waitOnTimestampConfirmation) (release : Bool)
    (message : Message) :
    (app.finiteStateMachine release message).map erased =
      app.plain.finiteStateMachine release message := by
  cases message with
  | startTransaction =>
    cases h : app.transactionState <;> simp only [finiteStateMachine, h, plain_transactionState]
    · exact map_erased_handleMessageInBeginOfTransaction
    all_goals rfl
  | lambda =>
    cases h : app.transactionState <;> simp only [finiteStateMachine, h, plain_transactionState]
    case errorState => exact map_erased_handleMessageInErrorState
    all_goals rfl
  | rpcReply reply =>
    cases h : app.transactionState <;>
      simp only [finiteStateMachine, h, plain_transactionState, hsync, if_true]
    case waitOnLockResponse => exact map_erased_handleMessageInWaitOnLockResponse
    case waitOnCandidateConfirmation =>
      exact map_erased_handleMessageInWaitOnCandidateConfirmation
    case waitOnCandidateLockResponse =>
      exact map_erased_collectOk (fun _ => rfl) (by simp) (by simp)
        fun _ => map_erased_applyFirstChanges
    case waitOnChangeConfirmation =>
      exact @map_erased_confirmChange app reply sendTimestamps
        (·.sendToAll Switch.commitApproved .waitOnCommitExecution)
        fun _ => map_erased_sendTimestamps
    case waitOnTimestampConfirmation => exact absurd h hs
    case waitOnCommitExecution =>
      exact map_erased_collectOk (fun _ => rfl) (by simp) (by simp) fun _ =>
        map_erased_sendToAll (by simp) (fun _ => rfl)
          (by simp [Switch.deleteOldConfig, Connection.createRPC])
    case waitOnDeleteOldConfiguration =>
      exact map_erased_collectOk (fun _ => rfl) (by simp) (by simp) fun _ => map_erased_sendUnlock
    case waitOnDeleteCandidate =>
      exact map_erased_collectOk (fun _ => rfl) (by simp) (by simp) fun _ => map_erased_sendUnlock
    case waitOnUnlock =>
      exact map_erased_collectOk (fun _ => rfl) (by simp) (by simp) fun _ =>
        map_erased_transitionToState (by simp)
    all_goals rfl

/-- The timestamps are sent when all changes have been confirmed and nothing else is in flight. -/
theorem Move.enter_timestamp {app app' : TransactionApp} {e : Event} {out sent : List RPC}
    (hm : app.Move e app' sent) (hinv : app.Inv out) (he : e.Possible out)
    (hs : app.transactionState ≠ .waitOnTimestampConfirmation)
    (hs' : app'.transactionState = .waitOnTimestampConfirmation) :
    e.unanswered out = [] ∧ (∀ rpc ∈ sent, rpc.messageId = .timestamp) ∧ ¬app'.Failing := by
  cases hm with
  | start sw h hfind => cases hs'
  | lockNext l₁ sw l₂ next release h => exact absurd hs' hs
  | lockAll l₁ sw l₂ release h => cases hs'
  | refusedFirst sw release h => cases hs'
  | refusedLater sw release h => cases hs'
  | unlockRefused rpc release h => exact absurd hs' hs
  | stay l₁ sw l₂ sw' rpc element release h hel hwait => exact absurd hs' hs
  | advance l₁ sw l₂ sw' rpc release s h hall hnone hrelease hnext hfirst =>
    have hs' : s = .waitOnTimestampConfirmation := hs'
    subst hs'
    refine ⟨h.erase_eq_nil hinv he hall, fun rpc' hrpc' => ?_, ?_⟩
    · obtain ⟨x, -, hp⟩ := List.mem_filterMap.mp hrpc'
      exact (Switch.pending_timestamp_iff hp).mpr rfl
    · have hcounts : app.transactionState.countsErrors := by
        cases h : app.transactionState <;> rw [h] at hnext hs <;>
          cases hsync : app.timeSynchronous <;> rw [hsync] at hnext <;>
          first | rfl | exact absurd rfl hs | cases hnext
      rintro ⟨y, hy, hye⟩
      obtain ⟨x, hx, rfl⟩ := List.mem_map.mp hy
      rw [Run.state_enter] at hye
      exact hnone hcounts x hx hye
  | fail l₁ sw l₂ sw' rpc element release h => cases hs'
  | abort l₁ sw l₂ sw' rpc release h => cases hs'
  | lambda h => cases hs'

end TransactionApp

/-! ## The simulation -/

/-- The events that only the time-synchronous application knows. -/
def Event.isTimestamp : Event → Bool
  | .reply rpc _ _ => decide (rpc.messageId = .timestamp)
  | _ => false

namespace Run
variable {r r' p : Run} {e : Event}

/-- The plain run that corresponds to a run of the time-synchronous application: the same requests
in the same order, and the same flags. While the timestamps are awaited, the plain application
has sent the commits. -/
structure Corresponds (r p : Run) : Prop where
  outside : r.app.transactionState ≠ .waitOnTimestampConfirmation →
    p.app = r.app.plain ∧ p.outstanding = r.outstanding ∧
      p.sent = r.sent.filter (·.messageId ≠ .timestamp)
  inside : r.app.transactionState = .waitOnTimestampConfirmation →
    p.app = { r.app.plain with transactionState := .waitOnCommitExecution } ∧
      p.outstanding = r.app.switchStates.map Switch.commitApproved ∧
      p.sent = r.sent.filter (·.messageId ≠ .timestamp) ++ p.outstanding

/-- The simulation with what it relies on: no error comes before the timestamps. -/
structure Simulated (r p : Run) : Prop where
  inv : r.app.Inv r.outstanding
  timeSynchronous : r.app.timeSynchronous
  noError : r.app.transactionState = .waitOnTimestampConfirmation → ¬r.app.Failing
  corresponds : r.Corresponds p

/-- Other events than replies to timestamps happen in other states. -/
theorem state_ne_of_visible (hinv : r.app.Inv r.outstanding) (hv : ¬e.isTimestamp)
    (hs : r.step e = some r') : r.app.transactionState ≠ .waitOnTimestampConfirmation := by
  intro hstate
  obtain ⟨hp, app, sent, hh, -⟩ := step_eq_some hs
  cases e with
  | startTransaction => simp [TransactionApp.finiteStateMachine, Event.message, hstate] at hh
  | lambda => simp [TransactionApp.finiteStateMachine, Event.message, hstate] at hh
  | reply rpc element release =>
    have hrpc : rpc ∈ r.outstanding := by simpa [possible] using hp
    have hid := MessageId.awaitedIn_eq_timestamp.mp ((hinv.awaitedIn hrpc).trans hstate)
    exact hv (by simp [Event.isTimestamp, hid])

theorem Simulated.visible (h : r.Simulated p) (hv : ¬e.isTimestamp)
    (hs : r.step e = some r') : ∃ p', p.step e = some p' ∧ r'.Simulated p' := by
  have hstate := state_ne_of_visible h.inv hv hs
  have hinv' := inv_step h.inv hs
  have he := possible_of_step hs
  obtain ⟨happ, hout, hsent⟩ := h.corresponds.outside hstate
  obtain ⟨app, sent, hm, rfl⟩ := step_move h.inv hs
  obtain ⟨hp, app', sent', hh, heq⟩ := step_eq_some hs
  obtain ⟨rfl, rfl⟩ : app = app' ∧ sent = sent' := by
    simp only [after, mk.injEq, List.append_cancel_left_eq] at heq
    exact ⟨heq.1, heq.2.1⟩
  have hplain := TransactionApp.map_erased_finiteStateMachine h.timeSynchronous hstate e.release
    e.message
  rw [hh, Option.map_some] at hplain
  have hpossible : p.possible e := by
    cases e
    · rfl
    · simpa [possible, hout] using hp
    · simpa [possible, happ, TransactionApp.plain] using hp
  refine ⟨p.after e (TransactionApp.erased (app, sent)).1 (TransactionApp.erased (app, sent)).2,
    ?_, ?_⟩
  · rw [step, if_pos hpossible, happ, ← hplain]
    rfl
  · -- the plain application goes to the commits where this one asks for timestamps
    by_cases hs' : app.transactionState = .waitOnTimestampConfirmation
    · obtain ⟨hnil, hid, hfailing⟩ := hm.enter_timestamp h.inv he hstate hs'
      have hnone : sent.filter (·.messageId ≠ .timestamp) = [] :=
        List.filter_eq_nil_iff.mpr fun rpc hrpc => by simpa using hid rpc hrpc
      have herased : TransactionApp.erased (app, sent) =
          ({ app.plain with transactionState := .waitOnCommitExecution },
            app.switchStates.map Switch.commitApproved) := by
        simp only [TransactionApp.erased, hs', if_true, hnone, List.nil_append]
      refine { inv := hinv', timeSynchronous := hm.connections.2.trans h.timeSynchronous,
               noError := fun _ => hfailing,
               corresponds := { outside := fun hne => absurd hs' hne, inside := fun _ => ?_ } }
      rw [herased]
      refine ⟨rfl, ?_, ?_⟩
      · change e.unanswered p.outstanding ++ _ = _
        rw [hout, hnil, List.nil_append]
        rfl
      · change p.sent ++ _ = (r.sent ++ sent).filter _ ++ (e.unanswered p.outstanding ++ _)
        rw [List.filter_append, hnone, List.append_nil, hsent, hout, hnil, List.nil_append]
    · have hall : sent.filter (·.messageId ≠ .timestamp) = sent := by
        rw [List.filter_eq_self]
        intro rpc hrpc
        have hid := hinv'.awaitedIn
          (List.mem_append_right _ hrpc : rpc ∈ (r.after e app sent).outstanding)
        rw [decide_eq_true_eq]
        intro htimestamp
        rw [htimestamp] at hid
        exact hs' hid.symm
      have herased : TransactionApp.erased (app, sent) = (app.plain, sent) := by
        simp only [TransactionApp.erased, hs', if_false]
      refine { inv := hinv', timeSynchronous := hm.connections.2.trans h.timeSynchronous,
               noError := fun heq => absurd heq hs',
               corresponds := { outside := fun _ => ?_, inside := fun heq => absurd heq hs' } }
      rw [herased]
      refine ⟨rfl, ?_, ?_⟩
      · change e.unanswered p.outstanding ++ _ = _
        rw [hout]
        rfl
      · change p.sent ++ _ = (r.sent ++ sent).filter _
        rw [List.filter_append, hall, hsent]

/-- The requests to commit are the same with and without the members of the derived class. -/
theorem commits_eq {l₁ l₂ : List Switch} {sw sw' : Switch} {rpc : RPC}
    (h : r.app.Noted rpc .ok l₁ sw l₂ sw')
    (hs : r.app.transactionState = .waitOnTimestampConfirmation) :
    (l₁ ++ sw' :: l₂).map Switch.plain = r.app.switchStates.map Switch.plain ∧
      (l₁ ++ sw' :: l₂).map Switch.commitApproved =
        r.app.switchStates.map Switch.commitApproved := by
  have ha := h.answer
  rw [hs] at ha
  cases ha
  simp [h.switches, Switch.plain, SwitchState.plain, SwitchState.note, Switch.commitApproved,
    Connection.createRPC]

/-- The replies to the timestamps change nothing in the plain run. -/
theorem Simulated.internal (h : r.Simulated p)
    (hok : ∀ rpc element release, e = .reply rpc element release → rpc.messageId = .timestamp →
      element = .ok ∧ release = true)
    (hv : e.isTimestamp) (hs : r.step e = some r') : r'.Simulated p := by
  have hinv' := inv_step h.inv hs
  have he := possible_of_step hs
  obtain ⟨app, sent, hm, rfl⟩ := step_move h.inv hs
  -- only this state waits for timestamps
  have hstate : r.app.transactionState = .waitOnTimestampConfirmation := by
    cases e with
    | startTransaction => cases hv
    | lambda => cases hv
    | reply rpc element release =>
      rw [← h.inv.awaitedIn he, MessageId.awaitedIn_eq_timestamp]
      simpa [Event.isTimestamp] using hv
  have hfailing := h.noError hstate
  obtain ⟨happ, hout, hsent⟩ := h.corresponds.inside hstate
  have hsync := hm.connections.2.trans h.timeSynchronous
  cases hm with
  | start sw hs' hfind => cases hv
  | lockNext l₁ sw l₂ next release hs' => simp [hstate] at hs'
  | lockAll l₁ sw l₂ release hs' => simp [hstate] at hs'
  | refusedFirst sw release hs' => simp [hstate] at hs'
  | refusedLater sw release hs' => simp [hstate] at hs'
  | unlockRefused rpc release h =>
    have hs' := h.1
    simp [hstate] at hs'
  | stay l₁ sw l₂ sw' rpc element release hn hel hwait =>
    obtain ⟨rfl, rfl⟩ := hok _ _ _ rfl (by simpa [Event.isTimestamp] using hv)
    obtain ⟨hplain, hcommits⟩ := commits_eq hn hstate
    have hnil : sw'.pending r.app.transactionState = none := by
      have ha := hn.answer
      have hp := hn.pending
      rw [hstate] at ha hp ⊢
      cases ha
      exact TransactionApp.pending_note hp (by simp) (.inl rfl)
    refine { inv := hinv', timeSynchronous := hsync,
             noError := fun _ => by rwa [after, hn.failing_ok],
             corresponds := { outside := fun hne => absurd hstate hne, inside := fun _ => ?_ } }
    refine ⟨?_, hout.trans hcommits.symm, ?_⟩
    · rw [happ]
      simp only [after, TransactionApp.plain, TransactionApp.withSwitches, hplain]
    · rw [hsent]
      simp [after, hnil]
  | advance l₁ sw l₂ sw' rpc release s hn hall hnone hrelease hnext hfirst =>
    have hs' : s = .waitOnCommitExecution := by rw [hnext, hstate]; rfl
    subst hs'
    obtain ⟨hplain, hcommits⟩ := commits_eq hn hstate
    -- the commits that the plain application has sent already
    have hrequests : TransactionApp.requests .waitOnCommitExecution (l₁ ++ sw' :: l₂) =
        r.app.switchStates.map Switch.commitApproved := by
      rw [← hcommits]
      refine TransactionApp.requests_eq_map fun x hx => ?_
      have hfits := hn.fits h.inv.fits x hx
      rw [hstate] at hfits
      obtain ⟨⟨t, e, ht, -⟩, -⟩ := hfits
      simp [Switch.pending, ht]
    have hnone : (r.app.switchStates.map Switch.commitApproved).filter
        (·.messageId ≠ .timestamp) = r.app.switchStates.map Switch.commitApproved := by
      rw [List.filter_eq_self]
      intro rpc hrpc
      obtain ⟨x, -, rfl⟩ := List.mem_map.mp hrpc
      simp [Switch.commitApproved, Connection.createRPC]
    refine { inv := hinv', timeSynchronous := hsync, noError := fun hne => (by cases hne),
             corresponds := { outside := fun _ => ?_, inside := fun hne => (by cases hne) } }
    simp only [after, TransactionApp.map_enter (by simp : TransactionAppState.waitOnCommitExecution ≠
      .waitOnChangeConfirmation), hrequests, Event.unanswered, hn.erase_eq_nil h.inv he hall,
      List.nil_append, List.filter_append, hnone]
    refine ⟨?_, hout, by rw [hsent, hout]⟩
    rw [happ]
    simp [TransactionApp.plain, TransactionApp.withSwitches, hplain]
  | fail l₁ sw l₂ sw' rpc element release hn hel hcounts hall herror hcandidate =>
    obtain ⟨rfl, rfl⟩ := hok _ _ _ rfl (by simpa [Event.isTimestamp] using hv)
    rcases herror with ⟨x, hx, hxe⟩ | ⟨-, -, hrelease⟩
    · exact absurd (hn.failing_ok.mp ⟨x, hx, hxe⟩) hfailing
    · cases hrelease
  | abort l₁ sw l₂ sw' rpc release hs' => simp [hstate] at hs'
  | lambda hs' => simp [hstate] at hs'

/-- Without the timestamps a run of the time-synchronous application is one of the plain
application, if they are confirmed and in time. -/
theorem timeSynchronous_refines {connections : List Connection} {events : List Event}
    (hopened : Opened connections)
    (hrun : transaction.runFrom (.new true connections) events = some r)
    (hok : ∀ rpc element release, .reply rpc element release ∈ events →
      rpc.messageId = .timestamp → element = .ok ∧ release = true) :
    ∃ p, transaction.runFrom (.new false connections) (events.filter fun e => !e.isTimestamp) =
      some p ∧ r.Corresponds p := by
  have hnew : (Run.new true connections).Simulated (.new false connections) :=
    { inv := inv_new hopened, timeSynchronous := rfl, noError := fun h => (by cases h),
      corresponds := { outside := fun _ => ⟨rfl, rfl, rfl⟩, inside := fun h => (by cases h) } }
  have hsimulated : ∃ p, transaction.runFrom (.new false connections)
      (events.filter fun e => !e.isTimestamp) = some p ∧ r.Simulated p := by
    have hevents : ∀ e ∈ events, ∀ rpc element release, e = .reply rpc element release →
        rpc.messageId = .timestamp → element = .ok ∧ release = true := by
      rintro e he rpc element release rfl hid
      exact hok rpc element release he hid
    refine System.runFrom_simulates ?_ ?_ hevents hnew hrun
    · intro r p e r' h _ hv hs
      exact h.visible (by simpa using hv) hs
    · intro r p e r' h hok hv hs
      exact h.internal hok (by simpa using hv) hs
  obtain ⟨p, hp, hsim⟩ := hsimulated
  exact ⟨p, hp, hsim.corresponds⟩

/-- Both switches confirm their changes and timestamps, and commit. -/
def timedCommit : List Event :=
  confirmed ++
    [.reply ⟨11, .timestamp, .editConfig .candidate .commitTimestamp⟩ .ok true,
      .reply ⟨12, .timestamp, .editConfig .candidate .commitTimestamp⟩ .ok true,
      .reply ⟨12, .commitApproved, .commit⟩ .ok false,
      .reply ⟨11, .commitApproved, .commit⟩ .ok false]

theorem timeSynchronous_refines_timedCommit :
    ∃ r, transaction.runFrom (.new true twoSwitches) timedCommit = some r ∧
      r.app.transactionState = .waitOnDeleteOldConfiguration ∧
      ∃ p, transaction.runFrom (.new false twoSwitches)
        (timedCommit.filter fun e => !e.isTimestamp) = some p ∧ r.Corresponds p := by
  obtain ⟨r, hr, hs⟩ : ∃ r, transaction.runFrom (.new true twoSwitches) timedCommit = some r ∧
      r.app.transactionState = .waitOnDeleteOldConfiguration := ⟨_, rfl, rfl⟩
  refine ⟨r, hr, hs,
    timeSynchronous_refines opened_twoSwitches hr fun rpc element release hmem hid => ?_⟩
  simp only [timedCommit, confirmed, candidatesLocked, List.cons_append, List.nil_append,
    List.mem_cons, Event.reply.injEq, reduceCtorEq, false_or, List.not_mem_nil, or_false] at hmem
  rcases hmem with h | h | h | h | h | h | h | h | h | h | h | h <;> obtain ⟨rfl, rfl, rfl⟩ := h <;>
    first | exact ⟨rfl, rfl⟩ | cases hid

end Run

end TsnReconfig.NetConf
