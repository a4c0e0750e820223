import TsnReconfig.Lib.Lists
import TsnReconfig.NetConf.Transaction

/-!
# What the handlers do

While the application waits for all switches, a reply to a request in flight changes the entry of
the switch that sent it, and the decision of the handler depends on whether somebody is still
waited for and whether one of the switches has an error.
-/

namespace TsnReconfig.NetConf

open TsnReconfig.Lib

/-! ## The switch that replies -/

/-- What a handler notes in the flags of the switch that replies. -/
def SwitchState.note (st : SwitchState) : TransactionAppState → ReplyElement → SwitchState
  | .waitOnCandidateConfirmation, .ok => { st with hasCandidate := true }
  | .waitOnCandidateLockResponse, .ok => { st with hasLockedCandidate := true }
  | .waitOnTimestampConfirmation, .ok => { st with hasCommitTimeStamp := true }
  | .waitOnCommitExecution, .ok => { st with hasCommited := true }
  | .waitOnDeleteOldConfiguration, .ok | .waitOnDeleteCandidate, .ok =>
    { st with hasCandidate := false, hasLockedCandidate := false }
  | .waitOnUnlock, .ok => { st with hasLockedRunning := false }
  | .waitOnCandidateConfirmation, .error | .waitOnTimestampConfirmation, .error =>
    { st with hasError := true }
  | _, _ => st

namespace Switch

/-- The switch with a new state of the change that was requested. -/
def confirm (sw : Switch) (done : List Configuration) (config : Configuration)
    (st : ConfigurationState) (rest : List Configuration) : Switch :=
  { sw with configurations := done ++ { config with state := st } :: rest }

/-- The switch after its reply has been handled. -/
inductive Answer (failing : Prop) (sw : Switch) :
    TransactionAppState → ReplyElement → Switch → Prop
  | flag {s : TransactionAppState} {element : ReplyElement}
      (hs : s ≠ .waitOnChangeConfirmation) :
      Answer failing sw s element { sw with state := sw.state.note s element }
  | next (done config first rest) (h : sw.Changing done config (first :: rest))
      (hf : ¬failing) :
      Answer failing sw .waitOnChangeConfirmation .ok
        (sw.confirm done config .success
          ({ first with type := .editConfig, target := .candidate, state := .requested } :: rest))
  | last (done config rest) (h : sw.Changing done config rest) (hl : failing ∨ rest = []) :
      Answer failing sw .waitOnChangeConfirmation .ok
        { sw.confirm done config .success rest with
          state := { sw.state with hasConfiguration := true } }
  | failed (done config rest) (h : sw.Changing done config rest) :
      Answer failing sw .waitOnChangeConfirmation .error
        { sw.confirm done config .error rest with
          state := { sw.state with hasError := true } }

variable {sw sw' : Switch} {failing : Prop} {s : TransactionAppState} {element : ReplyElement}
  {done rest : List Configuration} {config first : Configuration}

theorem Answer.profile (h : sw.Answer failing s element sw') : sw'.profile = sw.profile := by
  cases h with
  | flag => rfl
  | next done config first rest h => cases done <;> simp [Connection.profile, confirm, h.configurations]
  | last done config rest h => cases done <;> simp [Connection.profile, confirm, h.configurations]
  | failed done config rest h => cases done <;> simp [Connection.profile, confirm, h.configurations]

theorem Changing.requestedChange (h : sw.Changing done config rest) :
    sw.requestedChange = some (sw.createRPC config (.change done.length)) := by
  have hidx : sw.configurations.findIdx? (fun c => decide (c.state = .requested)) =
      some done.length := by
    rw [h.configurations, List.findIdx?_append, List.findIdx?_eq_none_iff.mpr]
    · simp [List.findIdx?_cons, h.requested]
    · intro c hc
      simp [h.success c hc]
  rw [Switch.requestedChange, hidx]
  simp [h.configurations]

theorem setConfigurationState_eq (h : sw.configurations = done ++ config :: rest)
    (st : ConfigurationState) :
    sw.setConfigurationState done.length st = sw.confirm done config st rest := by
  simp [setConfigurationState, confirm, h, List.modify_eq_take_drop]

/-- The search passes over what does not wait. -/
theorem nextConfiguration_append (hd : ∀ c ∈ done, c.state ≠ .waiting) (i : ℕ) :
    nextConfiguration (done ++ rest) i =
      (nextConfiguration rest (i + done.length)).map fun n => (done ++ n.1, n.2) := by
  induction done generalizing i with
  | nil => simp
  | cons c done ih =>
    have hc : c.state ≠ .waiting := hd c (List.mem_cons_self ..)
    have ih := ih (fun c hc => hd c (List.mem_cons_of_mem _ hc)) (i + 1)
    rw [List.cons_append, nextConfiguration, if_neg hc, ih, List.length_cons,
      show i + 1 + done.length = i + (done.length + 1) by omega]
    cases nextConfiguration rest (i + (done.length + 1)) <;> rfl

/-- The next change is requested. -/
theorem Changing.next (h : sw.Changing done config (first :: rest)) :
    (sw.confirm done config .success
      ({ first with type := .editConfig, target := .candidate, state := .requested } ::
        rest)).Changing (done ++ [{ config with state := .success }])
      { first with type := .editConfig, target := .candidate, state := .requested } rest where
  configurations := by simp [confirm]
  success c hc := by
    rcases List.mem_append.mp hc with hc | hc
    · exact h.success c hc
    · obtain rfl := List.mem_singleton.mp hc
      rfl
  requested := rfl
  target := rfl
  type _ := rfl
  waiting c hc := h.waiting c (List.mem_cons_of_mem _ hc)

/-- After a change the next one is the one behind it. -/
theorem Changing.applyNextChange (h : sw.Changing done config (first :: rest)) :
    (sw.confirm done config .success (first :: rest)).applyNextChange =
      some (sw.confirm done config .success
          ({ first with type := .editConfig, target := .candidate, state := .requested } :: rest),
        sw.createRPC { first with type := .editConfig, target := .candidate }
          (.change (done.length + 1))) := by
  have hdone : ∀ c ∈ done, c.state ≠ .waiting := fun c hc => by simp [h.success c hc]
  have hfirst : first.state = .waiting := h.waiting first (List.mem_cons_self ..)
  simp [Switch.applyNextChange, confirm, nextConfiguration_append hdone, nextConfiguration, hfirst,
    Connection.createRPC]

/-- After the last change there is none to apply. -/
theorem Changing.applyNextChange_last (h : sw.Changing done config []) :
    (sw.confirm done config .success []).applyNextChange = none := by
  have hdone : ∀ c ∈ done, c.state ≠ .waiting := fun c hc => by simp [h.success c hc]
  simp [Switch.applyNextChange, confirm, nextConfiguration_append hdone, nextConfiguration]

end Switch

namespace TransactionAppState

/-- The switch state that the handler of a state counts. -/
def goal : TransactionAppState → SwitchStateName
  | .waitOnCandidateConfirmation => .switchWithCandidate
  | .waitOnCandidateLockResponse => .switchWithLockedCandidate
  | .waitOnChangeConfirmation => .switchWithChangedCandidateConfiguration
  | .waitOnTimestampConfirmation => .switchWithTimestamp
  | .waitOnCommitExecution => .switchCommited
  | .waitOnDeleteOldConfiguration => .switchWithoutOldConfig
  | .waitOnDeleteCandidate => .switchWithoutCandidate
  | .waitOnUnlock => .switchUnlocked
  | _ => .switchLocked

/-- The states whose handlers note errors and count them as well. -/
def countsErrors : TransactionAppState → Bool
  | .waitOnCandidateConfirmation | .waitOnChangeConfirmation | .waitOnTimestampConfirmation => true
  | _ => false

/-- The states whose handlers accept `Ok` only. -/
def acceptsOkOnly : TransactionAppState → Bool
  | .waitOnCandidateLockResponse | .waitOnCommitExecution | .waitOnDeleteOldConfiguration
  | .waitOnDeleteCandidate | .waitOnUnlock => true
  | _ => false

end TransactionAppState

/-- The state in which the application waits for the reply to a request. -/
def MessageId.awaitedIn : MessageId → TransactionAppState
  | .lock => .waitOnLockResponse
  | .copyConfig => .waitOnCandidateConfirmation
  | .lockCandidate => .waitOnCandidateLockResponse
  | .change _ => .waitOnChangeConfirmation
  | .timestamp => .waitOnTimestampConfirmation
  | .commitApproved => .waitOnCommitExecution
  | .deleteOldConfig => .waitOnDeleteOldConfiguration
  | .deleteCandidate => .waitOnDeleteCandidate
  | .unlock => .waitOnUnlock

theorem MessageId.awaitedIn_eq_timestamp {m : MessageId} :
    m.awaitedIn = .waitOnTimestampConfirmation ↔ m = .timestamp := by
  cases m <;> simp [awaitedIn]

namespace Switch

variable {sw sw' : Switch} {failing : Prop} {s : TransactionAppState} {rpc : RPC}

theorem pending_change {done rest : List Configuration} {config : Configuration}
    (h : sw.Changing done config rest) (hc : ¬sw.state.hasConfiguration)
    (he : ¬sw.state.hasError) :
    sw.pending .waitOnChangeConfirmation =
      some (sw.createRPC config (.change done.length)) := by
  simp [pending, hc, he, h.requestedChange]

/-- The message id of a request tells in which state the application waits for its reply. -/
theorem pending_awaitedIn (h : sw.pending s = some rpc) : rpc.messageId.awaitedIn = s := by
  cases s <;> simp only [pending, reduceCtorEq, Option.ite_none_left_eq_some,
    Option.ite_none_right_eq_some, Option.some.injEq] at h
  case waitOnChangeConfirmation =>
    obtain ⟨-, h⟩ := h
    unfold requestedChange at h
    obtain ⟨i, -, h⟩ := Option.bind_eq_some_iff.mp h
    obtain ⟨config, -, h⟩ := Option.bind_eq_some_iff.mp h
    obtain rfl := Option.some.inj h
    rfl
  all_goals
    obtain ⟨-, rfl⟩ := h
    rfl

theorem Fits.goal_iff (h : sw.Fits failing s) (hs : s.acceptsOkOnly) :
    sw.state.isInState s.goal = sw.settled s := by
  cases s <;> simp only [TransactionAppState.acceptsOkOnly, Bool.false_eq_true] at hs
  case waitOnCandidateLockResponse =>
    obtain ⟨⟨l, hl⟩, -⟩ := h
    cases l <;> simp [settled, pending, TransactionAppState.goal, SwitchState.isInState, hl]
  case waitOnCommitExecution =>
    obtain ⟨⟨m, t, hm⟩, -⟩ := h
    cases m <;> simp [settled, pending, TransactionAppState.goal, SwitchState.isInState, hm]
  case waitOnDeleteOldConfiguration =>
    obtain ⟨c, t, hc⟩ := h
    cases c <;> simp [settled, pending, TransactionAppState.goal, SwitchState.isInState, hc]
  case waitOnDeleteCandidate =>
    obtain ⟨hl, hc⟩ := h
    cases hd : sw.state.hasCandidate <;>
      simp_all [settled, pending, TransactionAppState.goal, SwitchState.isInState]
  case waitOnUnlock =>
    cases hl : sw.state.hasLockedRunning <;>
      simp [settled, pending, TransactionAppState.goal, SwitchState.isInState, hl]

theorem Fits.goal_or_error (h : sw.Fits failing s) (hs : s.countsErrors) :
    ¬(sw.state.isInState s.goal ∧ sw.state.hasError) ∧
      (sw.state.isInState s.goal || sw.state.hasError) = sw.settled s := by
  cases s <;> simp only [TransactionAppState.countsErrors, Bool.false_eq_true] at hs
  case waitOnCandidateConfirmation =>
    obtain ⟨⟨c, e, hc, hce⟩, -⟩ := h
    cases c <;> cases e <;>
      simp_all [settled, pending, TransactionAppState.goal, SwitchState.isInState]
  case waitOnTimestampConfirmation =>
    obtain ⟨⟨t, e, ht, hte⟩, -⟩ := h
    cases t <;> cases e <;>
      simp_all [settled, pending, TransactionAppState.goal, SwitchState.isInState]
  case waitOnChangeConfirmation =>
    obtain ⟨c, e, hc, hce, hchanging, -⟩ := h
    cases c <;> cases e <;>
      simp_all [settled, pending, TransactionAppState.goal, SwitchState.isInState]
    obtain ⟨done, config, rest, hchanging⟩ := hchanging
    simp [hchanging.requestedChange]

theorem Fits.mono {failing' : Prop} (h : sw.Fits failing s) (himp : failing → failing') :
    sw.Fits failing' s := by
  cases s <;> try exact h
  obtain ⟨c, e, hc, hce, hchanging, hdone⟩ := h
  exact ⟨c, e, hc, hce, hchanging, fun hc => (hdone hc).imp_left himp⟩

/-- A reply to a request in flight keeps the entry of the switch in order. -/
theorem Fits.answer {element : ReplyElement} {rpc : RPC} (h : sw.Fits failing s)
    (hp : sw.pending s = some rpc) (ha : sw.Answer failing s element sw') :
    sw'.Fits failing s := by
  cases ha with
  | next done config first rest hch hf =>
    have hpending : ¬sw.state.hasConfiguration ∧ ¬sw.state.hasError := by
      simpa using (Option.ite_none_left_eq_some.mp hp).1
    obtain ⟨c, e, hc, hce, -, -⟩ := h
    refine ⟨c, e, hc, hce, fun _ _ => ⟨_, _, _, hch.next⟩, ?_⟩
    simp [hc] at hpending
    simp [hpending]
  | last done config rest hch hl =>
    have hpending : ¬sw.state.hasConfiguration ∧ ¬sw.state.hasError := by
      simpa using (Option.ite_none_left_eq_some.mp hp).1
    obtain ⟨c, e, hc, hce, -, -⟩ := h
    obtain rfl : e = false := by simpa [hc] using hpending.2
    refine ⟨true, false, by simp [hc], by simp, by simp, fun _ => hl.imp_right ?_⟩
    rintro rfl c hc
    rcases List.mem_append.mp hc with hc | hc
    · exact hch.success c hc
    · obtain rfl := List.mem_singleton.mp hc
      rfl
  | failed done config rest hch =>
    have hpending : ¬sw.state.hasConfiguration ∧ ¬sw.state.hasError := by
      simpa using (Option.ite_none_left_eq_some.mp hp).1
    obtain ⟨c, e, hc, hce, -, -⟩ := h
    obtain rfl : c = false := by simpa [hc] using hpending.1
    exact ⟨false, true, by simp [hc], by simp, by simp, by simp⟩
  -- in the other states a reply sets one flag of the entry
  | flag hs =>
    cases s <;> simp only [pending, reduceCtorEq] at hp
    case waitOnCandidateConfirmation =>
      obtain ⟨⟨c, e, hc, hce⟩, hw⟩ := h
      obtain ⟨rfl, rfl⟩ : c = false ∧ e = false := by
        simpa [hc] using (Option.ite_none_left_eq_some.mp hp).1
      cases element
      · exact ⟨⟨true, false, by simp [hc, SwitchState.note], by simp⟩, hw⟩
      · exact ⟨⟨false, true, by simp [hc, SwitchState.note], by simp⟩, hw⟩
      · exact ⟨⟨false, false, by simp [hc, SwitchState.note], by simp⟩, hw⟩
    case waitOnCandidateLockResponse =>
      obtain ⟨⟨l, hl⟩, hw⟩ := h
      cases element
      · exact ⟨⟨true, by simp [hl, SwitchState.note]⟩, hw⟩
      · exact ⟨⟨l, hl⟩, hw⟩
      · exact ⟨⟨l, hl⟩, hw⟩
    case waitOnTimestampConfirmation =>
      obtain ⟨⟨t, e, ht, hte⟩, hw⟩ := h
      obtain ⟨rfl, rfl⟩ : t = false ∧ e = false := by
        simpa [ht] using (Option.ite_none_left_eq_some.mp hp).1
      cases element
      · exact ⟨⟨true, false, by simp [ht, SwitchState.note], by simp⟩, hw⟩
      · exact ⟨⟨false, true, by simp [ht, SwitchState.note], by simp⟩, hw⟩
      · exact ⟨⟨false, false, by simp [ht, SwitchState.note], by simp⟩, hw⟩
    case waitOnCommitExecution =>
      obtain ⟨⟨m, t, hm⟩, hw⟩ := h
      cases element
      · exact ⟨⟨true, t, by simp [hm, SwitchState.note]⟩, hw⟩
      · exact ⟨⟨m, t, hm⟩, hw⟩
      · exact ⟨⟨m, t, hm⟩, hw⟩
    case waitOnDeleteOldConfiguration =>
      obtain ⟨c, t, hc⟩ := h
      cases element
      · exact ⟨false, t, by simp [hc, SwitchState.note]⟩
      · exact ⟨c, t, hc⟩
      · exact ⟨c, t, hc⟩
    case waitOnDeleteCandidate => cases element <;> exact h
    case waitOnUnlock => trivial
    case waitOnChangeConfirmation => exact absurd rfl hs

theorem pending_sessionId {rpc : RPC} (h : sw.pending s = some rpc) :
    rpc.sessionId = sw.sessionId := by
  cases s <;> simp only [pending, reduceCtorEq, Option.ite_none_left_eq_some,
    Option.ite_none_right_eq_some, Option.some.injEq] at h
  case waitOnChangeConfirmation =>
    obtain ⟨-, h⟩ := h
    unfold requestedChange at h
    obtain ⟨i, -, h⟩ := Option.bind_eq_some_iff.mp h
    obtain ⟨config, -, h⟩ := Option.bind_eq_some_iff.mp h
    obtain rfl := Option.some.inj h
    rfl
  all_goals
    obtain ⟨-, rfl⟩ := h
    rfl

end Switch

/-! ## The handlers -/

namespace TransactionApp

variable {app : TransactionApp} {l₁ l₂ : List Switch} {sw sw' : Switch} {reply : Reply}

/-- The application with other entries for its switches. -/
def withSwitches (app : TransactionApp) (switchStates : List Switch) : TransactionApp :=
  { app with switchStates }

theorem findConnectionForReply_eq (hsw : app.switchStates = l₁ ++ sw :: l₂)
    (hs : (app.switchStates.map (·.sessionId)).Nodup) {messageId : MessageId}
    {element : ReplyElement} :
    app.findConnectionForReply ⟨sw.sessionId, messageId, element⟩ = some sw := by
  have hmem : sw ∈ app.switchStates := by simp [hsw]
  exact find?_key hmem rfl fun x hx h => List.inj_on_of_nodup_map hs hx hmem h

theorem modifySwitch_eq (hsw : app.switchStates = l₁ ++ sw :: l₂)
    (hs : (app.switchStates.map (·.sessionId)).Nodup) (f : Switch → Switch) :
    app.modifySwitch sw.sessionId f = app.withSwitches (l₁ ++ f sw :: l₂) := by
  rw [hsw] at hs
  rw [modifySwitch, hsw, withSwitches, map_key f hs]

theorem modifyState_eq (hsw : app.switchStates = l₁ ++ sw :: l₂)
    (hs : (app.switchStates.map (·.sessionId)).Nodup) (f : SwitchState → SwitchState) :
    app.modifyState sw.sessionId f =
      app.withSwitches (l₁ ++ { sw with state := f sw.state } :: l₂) :=
  modifySwitch_eq hsw hs _

/-- The handlers that accept `Ok` go on when all switches are where they should be. -/
theorem collectOk_ok {messageId : MessageId} {note : SwitchState → SwitchState}
    {goal : SwitchStateName} {again : TransactionAppState} {goOn : TransactionApp → Handled}
    {sws : List Switch} (hsw : app.switchStates = l₁ ++ sw :: l₂)
    (hs : (app.switchStates.map (·.sessionId)).Nodup)
    (hsws : sws = l₁ ++ { sw with state := note sw.state } :: l₂) :
    app.collectOk ⟨sw.sessionId, messageId, .ok⟩ messageId note goal again goOn =
      if sws.all (·.state.isInState goal) then goOn (app.withSwitches sws)
      else (app.withSwitches sws).transitionToState again := by
  rw [collectOk, if_pos rfl, findConnectionForReply_eq hsw hs]
  simp only [Option.bind_eq_bind, Option.bind_some, ne_eq, not_true_eq_false, if_false,
    modifyState_eq hsw hs, ← hsws]
  exact count_ite

theorem collectOk_error {messageId : MessageId} {note : SwitchState → SwitchState}
    {goal : SwitchStateName} {again : TransactionAppState} {goOn : TransactionApp → Handled}
    (h : reply.element ≠ .ok) :
    app.collectOk reply messageId note goal again goOn = none := if_neg h

section Counts
variable {s : TransactionAppState} {failing : Prop} {sws : List Switch}

theorem length_goal_add_length_error (hfits : ∀ x ∈ sws, x.Fits failing s)
    (hs : s.countsErrors) :
    (sws.filter (·.state.isInState s.goal)).length +
      (sws.filter (·.state.isInState .switchError)).length = (sws.filter (·.settled s)).length := by
  have hdisjoint : ∀ x ∈ sws, ¬(x.state.isInState s.goal ∧ x.state.isInState .switchError) :=
    fun x hx => ((hfits x hx).goal_or_error hs).1
  rw [length_filter_add hdisjoint]
  congr 1
  exact List.filter_congr fun x hx => ((hfits x hx).goal_or_error hs).2

/-- What the counts of a handler that counts errors tell: `goal` and `error` are its counts. -/
theorem counts (hfits : ∀ x ∈ sws, x.Fits failing s) (hs : s.countsErrors) {goal error : ℕ}
    (hgoal : goal = (sws.filter (·.state.isInState s.goal)).length)
    (herror : error = (sws.filter (·.state.isInState .switchError)).length) :
    goal + error ≤ sws.length ∧ (goal + error = sws.length ↔ sws.all (·.settled s)) ∧
      (0 < error ↔ sws.any (·.state.hasError)) ∧
      (error = sws.length ↔ sws.all (·.state.hasError)) := by
  have hsum := length_goal_add_length_error hfits hs
  subst goal error
  rw [hsum, List.all_eq_true, List.all_eq_true, List.any_eq_true, length_filter_pos_iff]
  exact ⟨List.length_filter_le .., length_filter_eq_iff, Iff.rfl, length_filter_eq_iff⟩

end Counts

theorem handleMessageInWaitOnCandidateConfirmation_ok {failing : Prop} {sws : List Switch}
    (hsw : app.switchStates = l₁ ++ sw :: l₂)
    (hs : (app.switchStates.map (·.sessionId)).Nodup)
    (hsws : sws = l₁ ++ { sw with state := { sw.state with hasCandidate := true } } :: l₂)
    (hfits : ∀ x ∈ sws, x.Fits failing .waitOnCandidateConfirmation) :
    app.handleMessageInWaitOnCandidateConfirmation ⟨sw.sessionId, .copyConfig, .ok⟩ =
      if sws.all (·.settled .waitOnCandidateConfirmation) then
        if sws.any (·.state.hasError) then (app.withSwitches sws).transitionToState .errorState
        else (app.withSwitches sws).sendToAll Switch.lockCandidate .waitOnCandidateLockResponse
      else (app.withSwitches sws).transitionToState .waitOnCandidateConfirmation := by
  simp only [handleMessageInWaitOnCandidateConfirmation, findConnectionForReply_eq hsw hs,
    Option.bind_eq_bind, Option.bind_some, ne_eq, not_true_eq_false, if_false,
    modifyState_eq hsw hs, ← hsws]
  obtain ⟨hle, hall, hany, -⟩ := counts hfits rfl rfl rfl
  simp only [getSwitchesInState, withSwitches, TransactionAppState.goal] at hle hall hany ⊢
  split_ifs <;> first | rfl | grind

theorem handleMessageInWaitOnCandidateConfirmation_error {failing : Prop} {sws : List Switch}
    (hsw : app.switchStates = l₁ ++ sw :: l₂)
    (hs : (app.switchStates.map (·.sessionId)).Nodup)
    (hsws : sws = l₁ ++ { sw with state := { sw.state with hasError := true } } :: l₂)
    (hfits : ∀ x ∈ sws, x.Fits failing .waitOnCandidateConfirmation) :
    app.handleMessageInWaitOnCandidateConfirmation ⟨sw.sessionId, .copyConfig, .error⟩ =
      if sws.all (·.settled .waitOnCandidateConfirmation) then
        if sws.all (·.state.hasError) then
          (app.withSwitches sws).sendToAll Switch.unlock .waitOnUnlock
        else (app.withSwitches sws).transitionToState .errorState
      else (app.withSwitches sws).transitionToState .waitOnCandidateConfirmation := by
  simp only [handleMessageInWaitOnCandidateConfirmation, findConnectionForReply_eq hsw hs,
    Option.bind_eq_bind, Option.bind_some, ne_eq, not_true_eq_false, if_false,
    modifyState_eq hsw hs, ← hsws]
  obtain ⟨hle, hall, hany, herror⟩ := counts hfits rfl rfl rfl
  simp only [getSwitchesInState, withSwitches, TransactionAppState.goal] at hle hall hany herror ⊢
  split_ifs <;> first | rfl | grind

theorem handleMessageInWaitOnTimestampConfirmation_ok {failing : Prop} {sws : List Switch}
    {release : Bool} (hsw : app.switchStates = l₁ ++ sw :: l₂)
    (hs : (app.switchStates.map (·.sessionId)).Nodup)
    (hsws : sws = l₁ ++ { sw with state := { sw.state with hasCommitTimeStamp := true } } :: l₂)
    (hfits : ∀ x ∈ sws, x.Fits failing .waitOnTimestampConfirmation) :
    app.handleMessageInWaitOnTimestampConfirmation release ⟨sw.sessionId, .timestamp, .ok⟩ =
      if sws.all (·.settled .waitOnTimestampConfirmation) then
        if sws.any (·.state.hasError) || !release then
          (app.withSwitches sws).transitionToState .errorState
        else (app.withSwitches sws).sendToAll Switch.commitApproved .waitOnCommitExecution
      else (app.withSwitches sws).transitionToState .waitOnTimestampConfirmation := by
  simp only [handleMessageInWaitOnTimestampConfirmation, findConnectionForReply_eq hsw hs,
    Option.bind_eq_bind, Option.bind_some, ne_eq, not_true_eq_false, if_false,
    modifyState_eq hsw hs, ← hsws]
  obtain ⟨hle, hall, hany, -⟩ := counts hfits rfl rfl rfl
  simp only [getSwitchesInState, withSwitches, TransactionAppState.goal] at hle hall hany ⊢
  split_ifs <;> first | rfl | grind

theorem handleMessageInWaitOnTimestampConfirmation_error {failing : Prop} {sws : List Switch}
    {release : Bool} (hsw : app.switchStates = l₁ ++ sw :: l₂)
    (hs : (app.switchStates.map (·.sessionId)).Nodup)
    (hsws : sws = l₁ ++ { sw with state := { sw.state with hasError := true } } :: l₂)
    (hfits : ∀ x ∈ sws, x.Fits failing .waitOnTimestampConfirmation) :
    app.handleMessageInWaitOnTimestampConfirmation release ⟨sw.sessionId, .timestamp, .error⟩ =
      if sws.all (·.settled .waitOnTimestampConfirmation) then
        (app.withSwitches sws).transitionToState .errorState
      else (app.withSwitches sws).transitionToState .waitOnTimestampConfirmation := by
  simp only [handleMessageInWaitOnTimestampConfirmation, findConnectionForReply_eq hsw hs,
    Option.bind_eq_bind, Option.bind_some, ne_eq, not_true_eq_false, if_false,
    modifyState_eq hsw hs, ← hsws]
  obtain ⟨hle, hall, -⟩ := counts hfits rfl rfl rfl
  simp only [getSwitchesInState, withSwitches, TransactionAppState.goal] at hle hall ⊢
  split_ifs <;> first | rfl | grind

/-! ### Locks -/

section Lock
variable {failing : Prop} {sws : List Switch}

theorem isInState_switchLocked (h : sw.Fits failing .waitOnLockResponse) :
    sw.state.isInState .switchLocked = sw.state.hasLockedRunning ∧
      sw.state.isInState .switchAvailable = !sw.state.hasLockedRunning := by
  obtain ⟨⟨l, hl⟩, -⟩ := h
  simp [SwitchState.isInState, hl]

theorem getSwitchesInState_switchLocked
    (hfits : ∀ x ∈ app.switchStates, x.Fits failing .waitOnLockResponse) :
    app.getSwitchesInState .switchLocked = app.switchStates.filter (·.state.hasLockedRunning) :=
  List.filter_congr fun x hx => (isInState_switchLocked (hfits x hx)).1

theorem handleMessageInWaitOnLockResponse_ok (hsw : app.switchStates = l₁ ++ sw :: l₂)
    (hs : (app.switchStates.map (·.sessionId)).Nodup)
    (havailable : sw.state.isInState .switchAvailable)
    (hsws : sws = l₁ ++ { sw with state := { sw.state with hasLockedRunning := true } } :: l₂)
    (hfits : ∀ x ∈ sws, x.Fits failing .waitOnLockResponse) :
    app.handleMessageInWaitOnLockResponse ⟨sw.sessionId, .lock, .ok⟩ =
      if sws.all (·.state.hasLockedRunning) then
        (app.withSwitches sws).sendToAll Switch.copyConfig .waitOnCandidateConfirmation
      else (app.withSwitches sws).transitionToState .waitOnLockResponse := by
  simp only [handleMessageInWaitOnLockResponse, findConnectionForReply_eq hsw hs,
    Option.bind_eq_bind, Option.bind_some, havailable, and_self, if_true, modifyState_eq hsw hs,
    ← hsws]
  have hlocked : (app.withSwitches sws).getSwitchesInState .switchLocked =
      sws.filter (·.state.hasLockedRunning) := getSwitchesInState_switchLocked hfits
  rw [hlocked]
  exact count_ite

/-- The first lock is refused. -/
theorem handleMessageInWaitOnLockResponse_error_first
    (hfits : ∀ x ∈ app.switchStates, x.Fits failing .waitOnLockResponse)
    (hnone : ∀ x ∈ app.switchStates, ¬x.state.hasLockedRunning) {sessionId : ℕ} :
    app.handleMessageInWaitOnLockResponse ⟨sessionId, .lock, .error⟩ =
      some ({ app with transactionState := .endOfTransaction, result := true }, []) := by
  have hlocked : (app.getSwitchesInState .switchLocked).length = 0 := by
    rw [getSwitchesInState_switchLocked hfits, List.length_eq_zero_iff,
      List.filter_eq_nil_iff]
    exact hnone
  simp [handleMessageInWaitOnLockResponse, hlocked, transitionToState]

/-- A later lock is refused: the flags stay as they are, since the switch is not locked. -/
theorem handleMessageInWaitOnLockResponse_error_later
    (hsw : app.switchStates = l₁ ++ sw :: l₂)
    (hs : (app.switchStates.map (·.sessionId)).Nodup)
    (ha : (app.switchStates.map (·.remoteAddress)).Nodup)
    (havailable : sw.state.isInState .switchAvailable)
    (hfits : ∀ x ∈ app.switchStates, x.Fits failing .waitOnLockResponse)
    (hsome : ∃ x ∈ app.switchStates, x.state.hasLockedRunning) :
    app.handleMessageInWaitOnLockResponse ⟨sw.sessionId, .lock, .error⟩ =
      some ({ app with transactionState := .waitOnUnlock, result := false }, [sw.unlock]) := by
  have hlocked : (app.getSwitchesInState .switchLocked).length ≠ 0 := by
    rw [getSwitchesInState_switchLocked hfits]
    exact (length_filter_pos_iff.mpr hsome).ne'
  have hunlocked : sw.state.hasLockedRunning = false := by
    have := (isInState_switchLocked (hfits sw (by simp [hsw]))).2
    simpa [havailable] using this.symm
  have hkeep : { sw with state := { sw.state with hasLockedRunning := false } } = sw := by
    rw [← hunlocked]
  have hunlocks : app.switchStates.filter (fun x => x.remoteAddress = sw.remoteAddress) = [sw] := by
    rw [hsw] at ha ⊢
    exact filter_key ha
  simp only [handleMessageInWaitOnLockResponse, ne_eq, not_true_eq_false, if_false, hlocked,
    findConnectionForReply_eq hsw hs, Option.bind_eq_bind, Option.bind_some, hunlocks,
    modifyState_eq hsw hs, hkeep]
  simp [withSwitches, transitionToState, ← hsw]

end Lock

/-! ### Changes -/

section Change
variable {done rest : List Configuration} {config first : Configuration} {sws : List Switch}
  {failing : Prop} {goOn : TransactionApp → Handled}

theorem nodup_replace (sw' : Switch) (hsw : app.switchStates = l₁ ++ sw :: l₂)
    (hs : (app.switchStates.map (·.sessionId)).Nodup) (h : sw'.sessionId = sw.sessionId) :
    ((l₁ ++ sw' :: l₂).map (·.sessionId)).Nodup := by
  simpa [hsw, h] using hs

/-- What the change handlers note first. -/
theorem modify_change (hsw : app.switchStates = l₁ ++ sw :: l₂)
    (hs : (app.switchStates.map (·.sessionId)).Nodup) (hch : sw.Changing done config rest)
    (st : ConfigurationState) :
    app.modifySwitch sw.sessionId (·.setConfigurationState done.length st) =
      app.withSwitches (l₁ ++ sw.confirm done config st rest :: l₂) := by
  rw [modifySwitch_eq hsw hs, Switch.setConfigurationState_eq hch.configurations]

/-- What the change handlers note in the flags then. -/
theorem modify_change_state (hsw : app.switchStates = l₁ ++ sw :: l₂)
    (hs : (app.switchStates.map (·.sessionId)).Nodup) (st : ConfigurationState)
    (f : SwitchState → SwitchState) :
    (app.withSwitches (l₁ ++ sw.confirm done config st rest :: l₂)).modifyState sw.sessionId f =
      app.withSwitches
        (l₁ ++ { sw.confirm done config st rest with state := f sw.state } :: l₂) :=
  @modifyState_eq _ l₁ l₂ (sw.confirm done config st rest) rfl
    (nodup_replace (sw.confirm done config st rest) hsw hs rfl) f

theorem confirmChange_error (hsw : app.switchStates = l₁ ++ sw :: l₂)
    (hs : (app.switchStates.map (·.sessionId)).Nodup) (hch : sw.Changing done config rest)
    (hsws : sws = l₁ ++ { sw.confirm done config .error rest with
      state := { sw.state with hasError := true } } :: l₂)
    (hfits : ∀ x ∈ sws, x.Fits failing .waitOnChangeConfirmation) :
    app.confirmChange goOn ⟨sw.sessionId, .change done.length, .error⟩ =
      if sws.all (·.settled .waitOnChangeConfirmation) then
        (app.withSwitches sws).transitionToState .errorState
      else (app.withSwitches sws).transitionToState .waitOnChangeConfirmation := by
  have hconfig : sw.configurations[done.length]? = some config := by simp [hch.configurations]
  simp only [confirmChange, findConnectionForReply_eq hsw hs, MessageId.atoi, hconfig,
    hch.requested, Option.bind_eq_bind, Option.bind_some, ne_eq, not_true_eq_false, if_false,
    modify_change hsw hs hch, modify_change_state hsw hs, ← hsws]
  obtain ⟨hle, hall, -⟩ := counts hfits rfl rfl rfl
  simp only [getSwitchesInState, withSwitches, TransactionAppState.goal] at hle hall ⊢
  split_ifs <;> first | rfl | grind

theorem failing_iff : app.Failing ↔ 0 < (app.getSwitchesInState .switchError).length :=
  length_filter_pos_iff.symm

/-- A switch that replies does not lose its error. -/
theorem Failing.replace (h : app.Failing) (sw' : Switch) (hsw : app.switchStates = l₁ ++ sw :: l₂)
    (hstate : sw.state.hasError → sw'.state.hasError) :
    (app.withSwitches (l₁ ++ sw' :: l₂)).Failing := by
  obtain ⟨x, hx, he⟩ := h
  rw [hsw, List.mem_append, List.mem_cons] at hx
  rcases hx with hx | rfl | hx
  · exact ⟨x, List.mem_append_left _ hx, he⟩
  · exact ⟨sw', List.mem_append_right _ (List.mem_cons_self ..), hstate he⟩
  · exact ⟨x, List.mem_append_right _ (List.mem_cons_of_mem _ hx), he⟩

/-- After an error a switch makes no more changes. -/
theorem confirmChange_ok_failing (hsw : app.switchStates = l₁ ++ sw :: l₂)
    (hs : (app.switchStates.map (·.sessionId)).Nodup) (hch : sw.Changing done config rest)
    (herror : app.Failing)
    (hsws : sws = l₁ ++ { sw.confirm done config .success rest with
      state := { sw.state with hasConfiguration := true } } :: l₂)
    (hfits : ∀ x ∈ sws, x.Fits failing .waitOnChangeConfirmation) :
    app.confirmChange goOn ⟨sw.sessionId, .change done.length, .ok⟩ =
      if sws.all (·.settled .waitOnChangeConfirmation) then
        (app.withSwitches sws).transitionToState .errorState
      else (app.withSwitches sws).transitionToState .waitOnChangeConfirmation := by
  have hconfig : sw.configurations[done.length]? = some config := by simp [hch.configurations]
  have hfailing := failing_iff.mp (herror.replace (sw.confirm done config .success rest) hsw id)
  simp only [confirmChange, findConnectionForReply_eq hsw hs, MessageId.atoi, hconfig,
    hch.requested, Option.bind_eq_bind, Option.bind_some, ne_eq, not_true_eq_false, if_false,
    modify_change hsw hs hch, modify_change_state hsw hs, ← hsws]
  rw [if_pos hfailing]
  obtain ⟨hle, hall, -⟩ := counts hfits rfl rfl rfl
  simp only [getSwitchesInState, withSwitches, TransactionAppState.goal] at hle hall ⊢
  split_ifs <;> first | rfl | grind

theorem not_failing_replace (h : ¬app.Failing) (sw' : Switch)
    (hsw : app.switchStates = l₁ ++ sw :: l₂) (hstate : sw'.state.hasError → sw.state.hasError) :
    ¬(app.withSwitches (l₁ ++ sw' :: l₂)).Failing := by
  intro h'
  apply h
  have := h'.replace sw rfl hstate
  rwa [withSwitches, withSwitches, ← hsw] at this

/-- A switch that has more changes is asked for the next one, and the application still waits. -/
theorem confirmChange_ok_next (hsw : app.switchStates = l₁ ++ sw :: l₂)
    (hs : (app.switchStates.map (·.sessionId)).Nodup)
    (hch : sw.Changing done config (first :: rest)) (herror : ¬app.Failing)
    (hconf : ¬sw.state.hasConfiguration)
    (hsw' : sw' = sw.confirm done config .success
      ({ first with type := .editConfig, target := .candidate, state := .requested } :: rest)) :
    app.confirmChange goOn ⟨sw.sessionId, .change done.length, .ok⟩ =
      some ({ app.withSwitches (l₁ ++ sw' :: l₂) with
          transactionState := .waitOnChangeConfirmation },
        [sw.createRPC { first with type := .editConfig, target := .candidate }
          (.change (done.length + 1))]) := by
  have hconfig : sw.configurations[done.length]? = some config := by simp [hch.configurations]
  have hfailing := not_failing_replace herror (sw.confirm done config .success (first :: rest))
    hsw id
  rw [failing_iff] at hfailing
  have hnodup := nodup_replace (sw.confirm done config .success (first :: rest)) hsw hs rfl
  have hfind : (app.withSwitches (l₁ ++ sw.confirm done config .success (first :: rest) ::
      l₂)).findConnectionForReply ⟨sw.sessionId, .change done.length, .ok⟩ =
        some (sw.confirm done config .success (first :: rest)) :=
    @findConnectionForReply_eq _ l₁ l₂ (sw.confirm done config .success (first :: rest)) rfl
      hnodup _ _
  have hnext := hch.applyNextChange
  rw [← hsw'] at hnext
  have hmodify : (app.withSwitches (l₁ ++ sw.confirm done config .success (first :: rest) ::
      l₂)).modifySwitch sw'.sessionId (fun _ => sw') = app.withSwitches (l₁ ++ sw' :: l₂) := by
    rw [hsw']
    exact @modifySwitch_eq _ l₁ l₂ (sw.confirm done config .success (first :: rest)) rfl hnodup _
  have hnot : (sw'.state.isInState .switchWithChangedCandidateConfiguration) = false := by
    rw [hsw']
    simp [SwitchState.isInState, Switch.confirm, hconf]
  have hcount : ¬(((app.withSwitches (l₁ ++ sw' :: l₂)).getSwitchesInState
      .switchWithChangedCandidateConfiguration).length = (l₁ ++ sw' :: l₂).length) := by
    intro h
    have := length_filter_eq_iff.mp h sw' (List.mem_append_right _ (List.mem_cons_self ..))
    simp [hnot] at this
  simp only [confirmChange, findConnectionForReply_eq hsw hs, MessageId.atoi, hconfig,
    hch.requested, Option.bind_eq_bind, Option.bind_some, ne_eq, not_true_eq_false, if_false,
    modify_change hsw hs hch]
  rw [if_neg hfailing, hfind]
  simp only [Option.bind_some, hnext, hmodify]
  rw [if_neg fun h => hcount h.1]
  rfl

/-- A switch that has made its last change; when all have, the application goes on. -/
theorem confirmChange_ok_last (hsw : app.switchStates = l₁ ++ sw :: l₂)
    (hs : (app.switchStates.map (·.sessionId)).Nodup)
    (hch : sw.Changing done config []) (herror : ¬app.Failing)
    (hsws : sws = l₁ ++ { sw.confirm done config .success [] with
      state := { sw.state with hasConfiguration := true } } :: l₂)
    (hfits : ∀ x ∈ sws, x.Fits failing .waitOnChangeConfirmation) :
    app.confirmChange goOn ⟨sw.sessionId, .change done.length, .ok⟩ =
      if sws.all (·.settled .waitOnChangeConfirmation) then goOn (app.withSwitches sws)
      else (app.withSwitches sws).transitionToState .waitOnChangeConfirmation := by
  have hconfig : sw.configurations[done.length]? = some config := by simp [hch.configurations]
  have hfailing := not_failing_replace herror (sw.confirm done config .success []) hsw id
  rw [failing_iff] at hfailing
  have hnodup := nodup_replace (sw.confirm done config .success []) hsw hs rfl
  have hfind : (app.withSwitches (l₁ ++ sw.confirm done config .success [] ::
      l₂)).findConnectionForReply ⟨sw.sessionId, .change done.length, .ok⟩ =
        some (sw.confirm done config .success []) :=
    @findConnectionForReply_eq _ l₁ l₂ (sw.confirm done config .success []) rfl hnodup _ _
  have hstate : (app.withSwitches (l₁ ++ sw.confirm done config .success [] :: l₂)).modifyState
      sw.sessionId (fun s => { s with hasConfiguration := true }) = app.withSwitches sws := by
    rw [modify_change_state hsw hs, hsws]
  have hnone : ¬(app.withSwitches sws).Failing := by
    rw [hsws]
    exact not_failing_replace herror _ hsw id
  rw [failing_iff] at hnone
  simp only [confirmChange, findConnectionForReply_eq hsw hs, MessageId.atoi, hconfig,
    hch.requested, Option.bind_eq_bind, Option.bind_some, ne_eq, not_true_eq_false, if_false,
    modify_change hsw hs hch]
  rw [if_neg hfailing, hfind]
  have hsession : (sw.confirm done config .success []).sessionId = sw.sessionId := rfl
  simp only [Option.bind_some, hch.applyNextChange_last, hsession, hstate]
  have hiff : (((app.withSwitches sws).getSwitchesInState
      .switchWithChangedCandidateConfiguration).length = (app.withSwitches sws).switchStates.length ∧
      ((app.withSwitches sws).getSwitchesInState .switchError).length = 0) ↔
        sws.all (·.settled .waitOnChangeConfirmation) := by
    obtain ⟨hle, hall, -⟩ := counts hfits rfl rfl rfl
    simp only [getSwitchesInState, withSwitches, TransactionAppState.goal] at hle hall hnone ⊢
    grind
  simp only [hiff]
  split_ifs <;> simp

end Change

end TransactionApp

end TsnReconfig.NetConf
