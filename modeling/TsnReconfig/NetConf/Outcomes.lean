import TsnReconfig.NetConf.Moves

/-!
# Every handled event is a move

The handlers of `TransactionApp` and `TimeSynchronousTransactionApp` make the moves and no others.
With this a run of a transaction keeps the invariant, and the replies that are not handled are
known.
-/

namespace TsnReconfig.NetConf

open TsnReconfig.Lib

namespace TransactionApp

variable {app app' : TransactionApp} {out sent : List RPC} {e : Event} {rpc : RPC}
  {element : ReplyElement} {l₁ l₂ : List Switch} {sw sw' : Switch}

/-- A handler makes a move, or does not handle the reply. -/
def Outcome (app : TransactionApp) (rpc : RPC) (element : ReplyElement) (release : Bool) :
    Handled → Prop
  | none => app.Unhandled rpc element
  | some h => app.Move (.reply rpc element release) h.1 h.2

variable {release : Bool} {sws : List Switch} {s : TransactionAppState}

theorem map_enter (hs : s ≠ .waitOnChangeConfirmation) (sws : List Switch) :
    sws.map (·.enter s) = sws := by
  have : ∀ x ∈ sws, x.enter s = id x := fun x _ => by cases s <;> first | rfl | exact absurd rfl hs
  rw [List.map_congr_left this, List.map_id]

theorem requests_eq_map {request : Switch → RPC}
    (h : ∀ x ∈ sws, x.pending s = some (request x)) : requests s sws = sws.map request := by
  rw [requests, List.filterMap_congr h, List.filterMap_eq_map']

theorem all_goal_eq {failing : Prop} (hfits : ∀ x ∈ sws, x.Fits failing s)
    (hs : s.acceptsOkOnly) :
    sws.all (·.state.isInState s.goal) = sws.all (·.settled s) := by
  rw [Bool.eq_iff_iff, List.all_eq_true, List.all_eq_true]
  exact forall₂_congr fun x hx => by rw [(hfits x hx).goal_iff hs]

/-- A switch that has replied is not waited for. -/
theorem pending_note (h : sw.pending s = some rpc) (hs : s ≠ .waitOnChangeConfirmation)
    (hel : element = .ok ∨ element = .error ∧ s.countsErrors) :
    ({ sw with state := sw.state.note s element } : Switch).pending s = none := by
  rcases hel with rfl | ⟨rfl, hc⟩
  · cases s <;> first | rfl | exact absurd rfl hs
  · cases s <;> simp only [TransactionAppState.countsErrors, Bool.false_eq_true] at hc
    · simp [Switch.pending, SwitchState.note]
    · exact absurd rfl hs
    · simp [Switch.pending, SwitchState.note]

theorem transitionToState_same (hs : s.countsErrors ∨ s.acceptsOkOnly) :
    app.transitionToState s = some ({ app with transactionState := s }, []) := by
  cases s <;> first | rfl | simp [TransactionAppState.countsErrors,
    TransactionAppState.acceptsOkOnly] at hs

/-- The application waits for the others. -/
theorem outcome_stay (h : app.Noted rpc element l₁ sw l₂ sw') (hs : app.transactionState = s)
    (hel : element = .ok ∨ element = .error ∧ s.countsErrors) (hsettled : sw'.pending s = none)
    (hwait : ¬(l₁ ++ sw' :: l₂).all (·.settled s)) :
    app.Outcome rpc element release
      ((app.withSwitches (l₁ ++ sw' :: l₂)).transitionToState s) := by
  subst hs
  rw [List.all_eq_true] at hwait
  push Not at hwait
  have hmove := Move.stay l₁ sw l₂ sw' rpc element release h hel
    (by simpa only [Bool.not_eq_true] using hwait)
  rw [hsettled] at hmove
  rw [transitionToState_same (waits_of_pending h.pending)]
  exact hmove

/-- All have replied, and the application turns to the error state. -/
theorem outcome_fail (h : app.Noted rpc element l₁ sw l₂ sw') (hs : app.transactionState = s)
    (hel : element = .ok ∨ element = .error) (hcounts : s.countsErrors)
    (hall : (l₁ ++ sw' :: l₂).all (·.settled s))
    (herror : (∃ x ∈ l₁ ++ sw' :: l₂, x.state.hasError) ∨
      s = .waitOnTimestampConfirmation ∧ element = .ok ∧ release = false)
    (hcandidate : ∃ x ∈ l₁ ++ sw' :: l₂, x.state.hasCandidate) :
    app.Outcome rpc element release
      ((app.withSwitches (l₁ ++ sw' :: l₂)).transitionToState .errorState) := by
  subst hs
  exact Move.fail l₁ sw l₂ sw' rpc element release h hel hcounts (List.all_eq_true.mp hall) herror
    hcandidate

/-- No switch has a candidate: there is only the lock to give back. -/
theorem outcome_abort (hinv : app.Inv out) (h : app.Noted rpc .error l₁ sw l₂ sw')
    (hs : app.transactionState = .waitOnCandidateConfirmation)
    (hall : ∀ x ∈ l₁ ++ sw' :: l₂, x.state.hasError) :
    app.Outcome rpc .error release
      ((app.withSwitches (l₁ ++ sw' :: l₂)).sendToAll Switch.unlock .waitOnUnlock) := by
  have hunlock : ∀ x ∈ l₁ ++ sw' :: l₂, x.pending .waitOnUnlock = some x.unlock := by
    intro x hx
    have hfits := h.fits hinv.fits x hx
    rw [hs] at hfits
    simp [Switch.pending, (fits_errorState hfits rfl).1]
  have hmove := Move.abort _ _ _ _ _ release hs h hall
  rw [requests_eq_map hunlock] at hmove
  change app.Move _ _ (List.map Switch.unlock _ ++ [])
  rw [List.append_nil]
  exact hmove

/-- A handler that accepts `Ok` only. -/
theorem outcome_collectOk (hinv : app.Inv out) {messageId : MessageId} {operation : Operation}
    {note : SwitchState → SwitchState} {goal : SwitchStateName} {goOn : TransactionApp → Handled}
    (hsw : app.switchStates = l₁ ++ sw :: l₂) (hs : app.transactionState = s)
    (hnote : note = (·.note s .ok)) (hgoal : goal = s.goal) (hok : s.acceptsOkOnly)
    (hp : sw.pending s = some ⟨sw.sessionId, messageId, operation⟩)
    (hgoOn : ∀ sw', app.Noted ⟨sw.sessionId, messageId, operation⟩ .ok l₁ sw l₂ sw' →
      (∀ x ∈ l₁ ++ sw' :: l₂, x.settled s) →
      app.Outcome ⟨sw.sessionId, messageId, operation⟩ .ok release
        (goOn (app.withSwitches (l₁ ++ sw' :: l₂)))) :
    app.Outcome ⟨sw.sessionId, messageId, operation⟩ element release
      (app.collectOk (RPC.reply ⟨sw.sessionId, messageId, operation⟩ element) messageId note goal s
        goOn) := by
  subst hnote hgoal
  have hchange : s ≠ .waitOnChangeConfirmation := by
    rintro rfl
    cases hok
  by_cases hel : element = .ok
  · subst hel
    have hnoted : app.Noted ⟨sw.sessionId, messageId, operation⟩ .ok l₁ sw l₂
        { sw with state := sw.state.note s .ok } :=
      { switches := hsw, pending := hs ▸ hp, answer := by rw [hs]; exact .flag hchange }
    have hfits := hnoted.fits hinv.fits
    rw [hs] at hfits
    rw [RPC.reply, collectOk_ok hsw hinv.nodup.1 rfl, all_goal_eq hfits hok]
    split_ifs with hall
    · exact hgoOn _ hnoted (List.all_eq_true.mp hall)
    · exact outcome_stay hnoted hs (.inl rfl) (pending_note hp hchange (.inl rfl)) hall
  · rw [collectOk_error hel]
    cases element
    · exact absurd rfl hel
    · exact .inr (.inl ⟨rfl, hs ▸ hok⟩)
    · exact .inl rfl

/-- All switches are asked in the next state. -/
theorem outcome_sendToAll {request : Switch → RPC} (hinv : app.Inv out)
    (h : app.Noted rpc .ok l₁ sw l₂ sw')
    (hall : ∀ x ∈ l₁ ++ sw' :: l₂, x.settled app.transactionState)
    (hnone : app.transactionState.countsErrors → ∀ x ∈ l₁ ++ sw' :: l₂, ¬x.state.hasError)
    (hrelease : app.transactionState = .waitOnTimestampConfirmation → release)
    (hnext : s = app.transactionState.next app.timeSynchronous)
    (hchange : s ≠ .waitOnChangeConfirmation) (hs : s.countsErrors ∨ s.acceptsOkOnly)
    (hrequest : ∀ (x : Switch) rpc, x.pending s = some rpc → rpc = request x) :
    app.Outcome rpc .ok release ((app.withSwitches (l₁ ++ sw' :: l₂)).sendToAll request s) := by
  have hmove := Move.advance l₁ sw l₂ sw' rpc release s h hall hnone hrelease hnext
    fun hs => absurd hs hchange
  have hend : s ≠ .endOfTransaction := by
    rintro rfl
    simp [TransactionAppState.countsErrors, TransactionAppState.acceptsOkOnly] at hs
  have hpending : ∀ x ∈ l₁ ++ sw' :: l₂, x.pending s = some (request x) := by
    intro x hx
    have hf : app.transactionState.countsErrors ∧
        ¬(app.withSwitches (l₁ ++ sw' :: l₂)).Failing ∧ ¬x.state.hasError ∨
          app.transactionState.acceptsOkOnly := by
      refine (waits_of_pending h.pending).imp_left fun hc => ⟨hc, ?_, hnone hc x hx⟩
      rintro ⟨y, hy, he⟩
      exact hnone hc y hy he
    subst hnext
    have := ((h.fits hinv.fits x hx).enter False (hall x hx) hf
      fun hs => absurd hs hchange).2 hend
    obtain ⟨rpc, hrpc⟩ := Option.isSome_iff_exists.mp this
    have hx : x.enter (app.transactionState.next app.timeSynchronous) = x := by
      have := map_enter hchange [x]
      simpa using this
    rw [hx] at hrpc
    rw [hrpc, hrequest x rpc hrpc]
  rw [map_enter hchange, requests_eq_map hpending, if_neg hend] at hmove
  rw [sendToAll, transitionToState_same hs]
  change app.Move _ _ (List.map request _ ++ [])
  rw [List.append_nil]
  exact hmove

/-- The copies: a switch without one is in error. -/
theorem outcome_copyConfig (hinv : app.Inv out)
    (hs : app.transactionState = .waitOnCandidateConfirmation)
    (hsw : app.switchStates = l₁ ++ sw :: l₂)
    (hp : sw.pending .waitOnCandidateConfirmation = some sw.copyConfig) :
    app.Outcome sw.copyConfig element release
      (app.handleMessageInWaitOnCandidateConfirmation (sw.copyConfig.reply element)) := by
  have hnoted : app.Noted sw.copyConfig element l₁ sw l₂
      { sw with state := sw.state.note .waitOnCandidateConfirmation element } :=
    { switches := hsw, pending := hs ▸ hp, answer := by rw [hs]; exact .flag (by simp) }
  have hfits := hnoted.fits hinv.fits
  rw [hs] at hfits
  cases element with
  | data => exact .inl rfl
  | ok =>
    rw [show sw.copyConfig.reply .ok = ⟨sw.sessionId, .copyConfig, .ok⟩ from rfl,
      handleMessageInWaitOnCandidateConfirmation_ok hsw hinv.nodup.1 rfl hfits]
    split_ifs with hall herror
    · obtain ⟨x, hx, he⟩ := List.any_eq_true.mp herror
      exact outcome_fail hnoted hs (.inl rfl) rfl hall (.inl ⟨x, hx, he⟩)
        ⟨_, List.mem_append_right _ (List.mem_cons_self ..), rfl⟩
    · refine outcome_sendToAll hinv hnoted (by rw [hs]; exact List.all_eq_true.mp hall)
        (fun _ x hx he => herror (List.any_eq_true.mpr ⟨x, hx, he⟩)) (by simp [hs])
        (by rw [hs]; rfl) (by simp) (.inr rfl) fun x rpc hrpc => ?_
      exact (Option.some.inj (Option.ite_none_left_eq_some.mp hrpc).2).symm
    · exact outcome_stay hnoted hs (.inl rfl) (pending_note hp (by simp) (.inl rfl)) hall
  | error =>
    rw [show sw.copyConfig.reply .error = ⟨sw.sessionId, .copyConfig, .error⟩ from rfl,
      handleMessageInWaitOnCandidateConfirmation_error hsw hinv.nodup.1 rfl hfits]
    split_ifs with hall herror
    · exact outcome_abort hinv hnoted hs (List.all_eq_true.mp herror)
    · rw [List.all_eq_true] at herror
      push Not at herror
      obtain ⟨x, hx, he⟩ := herror
      refine outcome_fail hnoted hs (.inr rfl) rfl hall
        (.inl ⟨_, List.mem_append_right _ (List.mem_cons_self ..), rfl⟩) ⟨x, hx, ?_⟩
      have hset := List.all_eq_true.mp hall x hx
      simpa [Switch.settled, Switch.pending, he] using hset
    · exact outcome_stay hnoted hs (.inr ⟨rfl, rfl⟩) (pending_note hp (by simp) (.inr ⟨rfl, rfl⟩))
        hall

/-- The timestamps. -/
theorem outcome_timestamp (hinv : app.Inv out)
    (hs : app.transactionState = .waitOnTimestampConfirmation)
    (hsw : app.switchStates = l₁ ++ sw :: l₂)
    (hp : sw.pending .waitOnTimestampConfirmation = some sw.timestamp) :
    app.Outcome sw.timestamp element release
      (app.handleMessageInWaitOnTimestampConfirmation release (sw.timestamp.reply element)) := by
  have hnoted : app.Noted sw.timestamp element l₁ sw l₂
      { sw with state := sw.state.note .waitOnTimestampConfirmation element } :=
    { switches := hsw, pending := hs ▸ hp, answer := by rw [hs]; exact .flag (by simp) }
  have hfits := hnoted.fits hinv.fits
  rw [hs] at hfits
  have hcandidate : ∀ x ∈ l₁ ++ ({ sw with
      state := sw.state.note .waitOnTimestampConfirmation element } : Switch) :: l₂,
      x.state.hasCandidate := by
    intro x hx
    obtain ⟨⟨t, e, ht, -⟩, -⟩ := hfits x hx
    simp [ht]
  have hmem := List.mem_append_right l₁ (List.mem_cons_self
    (a := ({ sw with state := sw.state.note .waitOnTimestampConfirmation element } : Switch))
    (l := l₂))
  cases element with
  | data => exact .inl rfl
  | ok =>
    rw [show sw.timestamp.reply .ok = ⟨sw.sessionId, .timestamp, .ok⟩ from rfl,
      handleMessageInWaitOnTimestampConfirmation_ok hsw hinv.nodup.1 rfl hfits]
    split_ifs with hall herror
    · refine outcome_fail hnoted hs (.inl rfl) rfl hall ?_ ⟨_, hmem, hcandidate _ hmem⟩
      rcases Bool.or_eq_true_iff.mp herror with herror | hrelease
      · obtain ⟨x, hx, he⟩ := List.any_eq_true.mp herror
        exact .inl ⟨x, hx, he⟩
      · exact .inr ⟨rfl, rfl, by simpa using hrelease⟩
    · obtain ⟨herror, hrelease⟩ := Bool.or_eq_false_iff.mp (Bool.not_eq_true _ ▸ herror)
      refine outcome_sendToAll hinv hnoted (by rw [hs]; exact List.all_eq_true.mp hall)
        (fun _ x hx he => ?_) (fun _ => by simpa using hrelease)
        (by rw [hs]; rfl) (by simp) (.inr rfl) fun x rpc hrpc => ?_
      · exact (List.any_eq_false.mp herror) x hx he
      · exact (Option.some.inj (Option.ite_none_left_eq_some.mp hrpc).2).symm
    · exact outcome_stay hnoted hs (.inl rfl) (pending_note hp (by simp) (.inl rfl)) hall
  | error =>
    rw [show sw.timestamp.reply .error = ⟨sw.sessionId, .timestamp, .error⟩ from rfl,
      handleMessageInWaitOnTimestampConfirmation_error hsw hinv.nodup.1 rfl hfits]
    split_ifs with hall
    · exact outcome_fail hnoted hs (.inr rfl) rfl hall
        (.inl ⟨_, hmem, rfl⟩) ⟨_, hmem, hcandidate _ hmem⟩
    · exact outcome_stay hnoted hs (.inr ⟨rfl, rfl⟩) (pending_note hp (by simp) (.inr ⟨rfl, rfl⟩))
        hall

/-- The first changes fail for a connection without any. -/
theorem applyFirstChanges_eq_none {switches : List Switch}
    (h : ∃ x ∈ switches, x.configurations = []) :
    (app.withSwitches switches).applyFirstChanges = none := by
  have hnone : switches.mapM Switch.applyFirstChange = none := by
    obtain ⟨x, hx, hnil⟩ := h
    by_contra hsome
    obtain ⟨changed, hchanged⟩ := Option.ne_none_iff_exists'.mp hsome
    obtain ⟨y, -, hy⟩ := exists_zip_of_mem_left (forall₂_of_mapM_eq_some hchanged) hx
    simp [Switch.applyFirstChange, hnil] at hy
  simp only [applyFirstChanges, withSwitches, hnone]
  rfl

/-- Otherwise each connection gets its first change. -/
theorem applyFirstChanges_eq_some {switches : List Switch}
    (h : ∀ x ∈ switches, x.applyFirstChange = some (x.enter .waitOnChangeConfirmation,
      ((x.enter .waitOnChangeConfirmation).pending .waitOnChangeConfirmation).toList)) :
    (app.withSwitches switches).applyFirstChanges =
      some ({ app.withSwitches (switches.map (·.enter .waitOnChangeConfirmation)) with
          transactionState := .waitOnChangeConfirmation },
        requests .waitOnChangeConfirmation
          (switches.map (·.enter .waitOnChangeConfirmation))) := by
  have hsent : ∀ sws : List Switch, (sws.map fun x => (x.enter .waitOnChangeConfirmation,
      ((x.enter .waitOnChangeConfirmation).pending
        .waitOnChangeConfirmation).toList)).flatMap Prod.snd =
      requests .waitOnChangeConfirmation (sws.map (·.enter .waitOnChangeConfirmation)) := by
    intro sws
    rw [requests, List.filterMap_map, List.filterMap_eq_flatMap_toList, List.flatMap_map]
    rfl
  simp only [applyFirstChanges, withSwitches, mapM_eq_some_map h]
  change some (_, List.flatMap Prod.snd _ ++ []) = _
  rw [hsent, List.append_nil, List.map_map]
  rfl

/-- The first changes fail only for a connection without any. -/
theorem outcome_applyFirstChanges (hinv : app.Inv out) (h : app.Noted rpc .ok l₁ sw l₂ sw')
    (hs : app.transactionState = .waitOnCandidateLockResponse)
    (hall : ∀ x ∈ l₁ ++ sw' :: l₂, x.settled .waitOnCandidateLockResponse) :
    app.Outcome rpc .ok release (app.withSwitches (l₁ ++ sw' :: l₂)).applyFirstChanges := by
  have hfits := h.fits hinv.fits
  rw [hs] at hfits
  by_cases hempty : ∃ x ∈ l₁ ++ sw' :: l₂, x.configurations = []
  · rw [applyFirstChanges_eq_none hempty]
    refine .inr (.inr ⟨hs, fun x hx => ?_, ?_⟩)
    · rw [h.switches, List.mem_append, List.mem_cons] at hx
      rcases hx with hx | rfl | hx
      · exact .inr (hall x (List.mem_append_left _ hx))
      · exact .inl (Switch.pending_sessionId h.pending).symm
      · exact .inr (hall x (List.mem_append_right _ (List.mem_cons_of_mem _ hx)))
    · -- a reply leaves the number of the changes as it is
      obtain ⟨x, hx, hnil⟩ := hempty
      rcases List.mem_append.mp hx with hx | hx
      · exact ⟨x, by simp [h.switches, hx], hnil⟩
      · rcases List.mem_cons.mp hx with rfl | hx
        · refine ⟨sw, h.mem, ?_⟩
          have hprofile := congrArg (fun p => p.2.2.1) h.answer.profile
          have hlength : x.configurations.length = sw.configurations.length := hprofile
          rw [hnil, List.length_nil] at hlength
          exact List.eq_nil_of_length_eq_zero hlength.symm
        · exact ⟨x, by simp [h.switches, hx], hnil⟩
  · push Not at hempty
    have hmove := Move.advance l₁ sw l₂ sw' rpc release .waitOnChangeConfirmation h
      (by rwa [hs]) (by simp [hs, TransactionAppState.countsErrors]) (by simp [hs]) (by rw [hs]; rfl)
      fun _ => hempty
    rw [applyFirstChanges_eq_some fun x hx =>
      ((hfits x hx).enter_change False (hall x hx) (hempty x hx)).2.2]
    exact hmove

/-- The changes, for both applications. -/
theorem outcome_confirmChange (hinv : app.Inv out)
    (hs : app.transactionState = .waitOnChangeConfirmation)
    (hsw : app.switchStates = l₁ ++ sw :: l₂) {done rest : List Configuration}
    {config : Configuration} (hch : sw.Changing done config rest)
    (hflags : ¬sw.state.hasConfiguration ∧ ¬sw.state.hasError) {goOn : TransactionApp → Handled}
    (hgoOn : ∀ sw', app.Noted (sw.createRPC config (.change done.length)) .ok l₁ sw l₂ sw' →
      (∀ x ∈ l₁ ++ sw' :: l₂, x.settled .waitOnChangeConfirmation) →
      (∀ x ∈ l₁ ++ sw' :: l₂, ¬x.state.hasError) →
      app.Outcome (sw.createRPC config (.change done.length)) .ok release
        (goOn (app.withSwitches (l₁ ++ sw' :: l₂)))) :
    app.Outcome (sw.createRPC config (.change done.length)) element release
      (app.confirmChange goOn ((sw.createRPC config (.change done.length)).reply element)) := by
  have hp := Switch.pending_change hch hflags.1 hflags.2
  have hreply : (sw.createRPC config (.change done.length)).reply element =
      ⟨sw.sessionId, .change done.length, element⟩ := rfl
  rw [hreply]
  cases element with
  | data =>
    have hnone : app.confirmChange goOn ⟨sw.sessionId, .change done.length, .data⟩ = none := by
      simp [confirmChange, findConnectionForReply_eq hsw hinv.nodup.1, MessageId.atoi]
    rw [hnone]
    exact .inl rfl
  | error =>
    have hnoted : app.Noted (sw.createRPC config (.change done.length)) .error l₁ sw l₂ _ :=
      { switches := hsw, pending := hs ▸ hp, answer := by rw [hs]; exact .failed _ _ _ hch }
    have hfits := hnoted.fits hinv.fits
    rw [hs] at hfits
    rw [confirmChange_error hsw hinv.nodup.1 hch rfl hfits]
    have hmem := List.mem_append_right l₁ (List.mem_cons_self
      (a := { sw.confirm done config .error rest with
        state := { sw.state with hasError := true } }) (l := l₂))
    split_ifs with hall
    · exact outcome_fail hnoted hs (.inr rfl) rfl hall (.inl ⟨_, hmem, rfl⟩)
        ⟨_, hmem, (hfits _ hmem).hasCandidate⟩
    · exact outcome_stay hnoted hs (.inr ⟨rfl, rfl⟩) (by simp [Switch.pending]) hall
  | ok =>
    -- once a switch has failed no further change is sent
    by_cases hfailing : app.Failing
    · have hnoted : app.Noted (sw.createRPC config (.change done.length)) .ok l₁ sw l₂ _ :=
        { switches := hsw, pending := hs ▸ hp,
          answer := by rw [hs]; exact .last _ _ _ hch (.inl hfailing) }
      have hfits := hnoted.fits hinv.fits
      rw [hs] at hfits
      rw [confirmChange_ok_failing hsw hinv.nodup.1 hch hfailing rfl hfits]
      have hmem := List.mem_append_right l₁ (List.mem_cons_self
        (a := { sw.confirm done config .success rest with
          state := { sw.state with hasConfiguration := true } }) (l := l₂))
      split_ifs with hall
      · exact outcome_fail hnoted hs (.inl rfl) rfl hall
          (.inl (hfailing.replace _ hsw hnoted.answer.hasError))
          ⟨_, hmem, (hfits _ hmem).hasCandidate⟩
      · exact outcome_stay hnoted hs (.inl rfl) (by simp [Switch.pending]) hall
    · -- the last change of the switch, or the next one is sent
      cases rest with
      | nil =>
        have hnoted : app.Noted (sw.createRPC config (.change done.length)) .ok l₁ sw l₂ _ :=
          { switches := hsw, pending := hs ▸ hp,
            answer := by rw [hs]; exact .last _ _ _ hch (.inr rfl) }
        have hfits := hnoted.fits hinv.fits
        rw [hs] at hfits
        rw [confirmChange_ok_last hsw hinv.nodup.1 hch hfailing rfl hfits]
        split_ifs with hall
        · refine hgoOn _ hnoted (List.all_eq_true.mp hall) fun x hx he => ?_
          exact not_failing_replace hfailing
            { sw.confirm done config .success [] with
              state := { sw.state with hasConfiguration := true } } hsw id ⟨x, hx, he⟩
        · exact outcome_stay hnoted hs (.inl rfl) (by simp [Switch.pending]) hall
      | cons first rest =>
        have hnoted : app.Noted (sw.createRPC config (.change done.length)) .ok l₁ sw l₂ _ :=
          { switches := hsw, pending := hs ▸ hp,
            answer := by rw [hs]; exact .next _ _ _ _ hch hfailing }
        have hmem := List.mem_append_right l₁ (List.mem_cons_self
          (a := sw.confirm done config .success
            ({ first with type := .editConfig, target := .candidate, state := .requested } ::
              rest)) (l := l₂))
        have hp' := Switch.pending_change hch.next hflags.1 hflags.2
        have hmove := Move.stay l₁ sw l₂ _ _ .ok release hnoted (.inl rfl)
          ⟨_, hmem, by rw [hs, Switch.settled, hp']; simp⟩
        rw [hs, hp'] at hmove
        rw [confirmChange_ok_next hsw hinv.nodup.1 hch hfailing hflags.1 rfl, ← hs]
        simpa [Outcome, withSwitches, Switch.confirm, Connection.createRPC,
          Configuration.operation] using hmove

theorem outcome_change (hinv : app.Inv out)
    (hs : app.transactionState = .waitOnChangeConfirmation)
    (hsw : app.switchStates = l₁ ++ sw :: l₂)
    (hp : sw.pending .waitOnChangeConfirmation = some rpc) :
    app.Outcome rpc element release
      (if app.timeSynchronous then
        app.timeSynchronousHandleMessageInWaitOnChangeConfirmation (rpc.reply element)
      else app.handleMessageInWaitOnChangeConfirmation (rpc.reply element)) := by
  have hfits := hinv.fits sw (by simp [hsw])
  rw [hs] at hfits
  have hflags : ¬sw.state.hasConfiguration ∧ ¬sw.state.hasError := by
    simpa using (Option.ite_none_left_eq_some.mp hp).1
  obtain ⟨c, e, hc, -, hchanging, -⟩ := hfits
  obtain ⟨done, config, rest, hch⟩ := hchanging (by simpa [hc] using hflags.1)
    (by simpa [hc] using hflags.2)
  obtain rfl : sw.createRPC config (.change done.length) = rpc :=
    Option.some.inj ((Switch.pending_change hch hflags.1 hflags.2).symm.trans hp)
  split_ifs with hsync
  · refine outcome_confirmChange hinv hs hsw hch hflags fun sw' hnoted hall hnone => ?_
    have hfits := hnoted.fits hinv.fits
    rw [hs] at hfits
    have hsend : (app.withSwitches (l₁ ++ sw' :: l₂)).sendTimestamps =
        (app.withSwitches (l₁ ++ sw' :: l₂)).sendToAll Switch.timestamp
          .waitOnTimestampConfirmation := by
      -- nobody has an error, so every switch has reached the goal of the state
      have hchanged : (app.withSwitches (l₁ ++ sw' :: l₂)).getSwitchesInState
          .switchWithChangedCandidateConfiguration = l₁ ++ sw' :: l₂ := by
        refine List.filter_eq_self.mpr fun x hx => ?_
        have hgoal := ((hfits x hx).goal_or_error rfl).2
        have hx' : x.state.hasError = false := by simpa using hnone x hx
        rw [hall x hx, hx', Bool.or_false] at hgoal
        exact hgoal
      rw [sendTimestamps, hchanged]
      rfl
    rw [hsend]
    refine outcome_sendToAll hinv hnoted (by rwa [hs]) (fun _ => hnone) (by simp [hs])
      (by simp [hs, hsync, TransactionAppState.next]) (by simp) (.inl rfl) fun x rpc hrpc => ?_
    exact (Option.some.inj (Option.ite_none_left_eq_some.mp hrpc).2).symm
  · refine outcome_confirmChange hinv hs hsw hch hflags fun sw' hnoted hall hnone => ?_
    refine outcome_sendToAll hinv hnoted (by rwa [hs]) (fun _ => hnone) (by simp [hs])
      (by simp [hs, hsync, TransactionAppState.next]) (by simp) (.inr rfl) fun x rpc hrpc => ?_
    exact (Option.some.inj (Option.ite_none_left_eq_some.mp hrpc).2).symm

/-- The locks, one after the other. -/
theorem outcome_lock (hinv : app.Inv out) (hs : app.transactionState = .waitOnLockResponse)
    (hfind : app.switchStates.find? (·.state.isInState .switchAvailable) = some sw) :
    app.Outcome sw.lock element release
      (app.handleMessageInWaitOnLockResponse (sw.lock.reply element)) := by
  have havailable : sw.state.isInState .switchAvailable := by
    simpa using List.find?_some hfind
  have hmem := List.mem_of_find?_eq_some hfind
  obtain ⟨l₁, l₂, hsw⟩ := List.append_of_mem hmem
  have hfits := hinv.fits
  rw [hs] at hfits
  have hunlocked : ¬sw.state.hasLockedRunning := by
    have := (isInState_switchLocked (hfits sw hmem)).2
    rw [havailable] at this
    simpa using this.symm
  have hreply : sw.lock.reply element = ⟨sw.sessionId, .lock, element⟩ := rfl
  rw [hreply]
  cases element with
  | data => exact .inl rfl
  | ok =>
    have hlocked := fits_replace_locked hinv hs hsw
    rw [handleMessageInWaitOnLockResponse_ok hsw hinv.nodup.1 havailable rfl
      fun x hx => hlocked x hx False]
    -- the last switch, or the next one that is available
    split_ifs with hall
    · have hmove := Move.lockAll l₁ sw l₂ release hs hsw hunlocked (List.all_eq_true.mp hall)
      have hpending : ∀ x ∈ l₁ ++ sw.locked :: l₂,
          x.pending .waitOnCandidateConfirmation = some x.copyConfig := by
        intro x hx
        obtain ⟨⟨l, hl⟩, -⟩ := hlocked x hx False
        simp [Switch.pending, hl]
      rw [requests_eq_map hpending] at hmove
      change app.Move _ _ (List.map Switch.copyConfig _ ++ [])
      rw [List.append_nil]
      exact hmove
    · rw [List.all_eq_true] at hall
      push Not at hall
      obtain ⟨x, hx, hl⟩ := hall
      have hsome : ((l₁ ++ sw.locked :: l₂).find? (·.state.isInState .switchAvailable)).isSome := by
        rw [List.find?_isSome]
        refine ⟨x, hx, ?_⟩
        rw [(isInState_switchLocked (hlocked x hx False)).2]
        simpa using hl
      obtain ⟨next, hnext⟩ := Option.isSome_iff_exists.mp hsome
      have hmove := Move.lockNext l₁ sw l₂ next release hs hsw hunlocked hnext
      have hresult : (app.withSwitches (l₁ ++ sw.locked :: l₂)).transitionToState
          .waitOnLockResponse = some (app.withSwitches (l₁ ++ sw.locked :: l₂), [next.lock]) := by
        simp [transitionToState, withSwitches, hnext, hs]
      change app.Outcome _ _ _ ((app.withSwitches (l₁ ++ sw.locked :: l₂)).transitionToState
        .waitOnLockResponse)
      rw [hresult]
      exact hmove
  | error =>
    -- the locks that were granted before are given back
    by_cases hsome : ∃ x ∈ app.switchStates, x.state.hasLockedRunning
    · rw [handleMessageInWaitOnLockResponse_error_later hsw hinv.nodup.1 hinv.nodup.2 havailable
        hfits hsome]
      exact Move.refusedLater sw release hs hmem hunlocked hsome
    · push Not at hsome
      rw [handleMessageInWaitOnLockResponse_error_first hfits hsome]
      exact Move.refusedFirst sw release hs hmem hsome

/-- The unlock requests: of all switches, or of the one that refused its lock. -/
theorem outcome_unlock (hinv : app.Inv out) (hs : app.transactionState = .waitOnUnlock)
    (hrpc : rpc ∈ out) :
    app.Outcome rpc element release (app.handleMessageInWaitOnUnlock (rpc.reply element)) := by
  rcases hinv.requests with hout | hR
  · unfold Outstanding at hout
    rw [hs] at hout
    obtain ⟨l₁, sw, l₂, hsw, hp⟩ := hout.1.exists_of_mem hrpc
    obtain rfl : sw.unlock = rpc := Option.some.inj (Option.ite_none_right_eq_some.mp hp).2
    refine outcome_collectOk hinv hsw hs rfl rfl rfl hp fun sw' hnoted hall => ?_
    have hmove := Move.advance l₁ sw l₂ sw' sw.unlock release .endOfTransaction hnoted
      (by rwa [hs]) (by simp [hs, TransactionAppState.countsErrors]) (by simp [hs])
      (by rw [hs]; rfl) (by simp)
    rw [map_enter (by simp), if_pos rfl] at hmove
    have hnil : requests .endOfTransaction (l₁ ++ sw' :: l₂) = [] :=
      List.filterMap_eq_nil_iff.mpr fun _ _ => rfl
    rw [hnil] at hmove
    exact hmove
  · obtain ⟨-, hsome, hcommit, hfirst⟩ := hR
    obtain ⟨hone, sw, hmem, hunlocked, rfl⟩ := hfirst rpc hrpc
    obtain ⟨l₁, l₂, hsw⟩ := List.append_of_mem hmem
    have hflag : sw.state.hasLockedRunning = false := by simpa using hunlocked
    have hkeep : { sw with state := { sw.state with hasLockedRunning := false } } = sw := by
      rw [← hflag]
    cases element with
    | data => exact .inl rfl
    | error => exact .inr (.inl ⟨rfl, by rw [hs]; rfl⟩)
    | ok =>
      have hcollect := @collectOk_ok app l₁ l₂ sw .unlock
        (fun s => { s with hasLockedRunning := false }) .switchUnlocked .waitOnUnlock
        (·.transitionToState .endOfTransaction) _ hsw hinv.nodup.1 rfl
      rw [hkeep, ← hsw] at hcollect
      have hnot : ¬app.switchStates.all (·.state.isInState .switchUnlocked) := by
        intro hall
        obtain ⟨x, hx, hl⟩ := hsome
        have := List.all_eq_true.mp hall x hx
        simp [SwitchState.isInState, hl] at this
      rw [if_neg hnot] at hcollect
      change app.Outcome _ _ _ (app.collectOk ⟨sw.sessionId, .unlock, .ok⟩ .unlock _ _ _ _)
      rw [hcollect]
      have hmove := Move.unlockRefused sw.unlock release
        ⟨hs, hsome, hcommit, fun rpc hrpc => ?_⟩
      · change app.Move _ ({ app with transactionState := .waitOnUnlock }) []
        rw [← hs]
        exact hmove
      · obtain rfl := List.mem_singleton.mp hrpc
        exact ⟨rfl, sw, hmem, hunlocked, rfl⟩

/-- When all switches have answered `Ok` they are asked in the next state. -/
theorem outcome_collectOk_sendToAll (hinv : app.Inv out) {messageId : MessageId}
    {operation : Operation} {note : SwitchState → SwitchState} {goal : SwitchStateName}
    {request : Switch → RPC} {s' : TransactionAppState}
    (hsw : app.switchStates = l₁ ++ sw :: l₂) (hs : app.transactionState = s)
    (hnote : note = (·.note s .ok)) (hgoal : goal = s.goal) (hok : s.acceptsOkOnly)
    (hp : sw.pending s = some ⟨sw.sessionId, messageId, operation⟩)
    (hcounts : ¬s.countsErrors) (htimestamp : s ≠ .waitOnTimestampConfirmation)
    (hnext : s' = s.next app.timeSynchronous) (hchange : s' ≠ .waitOnChangeConfirmation)
    (hs' : s'.countsErrors ∨ s'.acceptsOkOnly)
    (hrequest : ∀ (x : Switch) rpc, x.pending s' = some rpc → rpc = request x) :
    app.Outcome ⟨sw.sessionId, messageId, operation⟩ element release
      (app.collectOk (RPC.reply ⟨sw.sessionId, messageId, operation⟩ element) messageId note goal s
        (·.sendToAll request s')) := by
  refine outcome_collectOk hinv hsw hs hnote hgoal hok hp fun sw' hnoted hall => ?_
  subst hs
  exact outcome_sendToAll hinv hnoted hall (fun hc => absurd hc hcounts)
    (fun ht => absurd ht htimestamp) hnext hchange hs' hrequest

/-- The other states that accept `Ok` only. -/
theorem outcome_commit (hinv : app.Inv out) (hs : app.transactionState = .waitOnCommitExecution)
    (hsw : app.switchStates = l₁ ++ sw :: l₂)
    (hp : sw.pending .waitOnCommitExecution = some sw.commitApproved) :
    app.Outcome sw.commitApproved element release
      (app.handleMessageInWaitOnCommitExecution (sw.commitApproved.reply element)) := by
  refine outcome_collectOk_sendToAll hinv hsw hs rfl rfl rfl hp (by decide) (by decide) rfl
    (by decide) (.inr rfl) fun x rpc hrpc => ?_
  exact (Option.some.inj (Option.ite_none_right_eq_some.mp hrpc).2).symm

theorem outcome_deleteOldConfig (hinv : app.Inv out)
    (hs : app.transactionState = .waitOnDeleteOldConfiguration)
    (hsw : app.switchStates = l₁ ++ sw :: l₂)
    (hp : sw.pending .waitOnDeleteOldConfiguration = some sw.deleteOldConfig) :
    app.Outcome sw.deleteOldConfig element release
      (app.handleMessageInWaitOnDeleteOldConfiguration (sw.deleteOldConfig.reply element)) := by
  refine outcome_collectOk_sendToAll hinv hsw hs rfl rfl rfl hp (by decide) (by decide) rfl
    (by decide) (.inr rfl) fun x rpc hrpc => ?_
  exact (Option.some.inj (Option.ite_none_right_eq_some.mp hrpc).2).symm

theorem outcome_deleteCandidate (hinv : app.Inv out)
    (hs : app.transactionState = .waitOnDeleteCandidate)
    (hsw : app.switchStates = l₁ ++ sw :: l₂)
    (hp : sw.pending .waitOnDeleteCandidate = some sw.deleteCandidate) :
    app.Outcome sw.deleteCandidate element release
      (app.handleMessageInWaitOnDeleteCandidate (sw.deleteCandidate.reply element)) := by
  refine outcome_collectOk_sendToAll hinv hsw hs rfl rfl rfl hp (by decide) (by decide) rfl
    (by decide) (.inr rfl) fun x rpc hrpc => ?_
  exact (Option.some.inj (Option.ite_none_right_eq_some.mp hrpc).2).symm

/-- A reply to a request in flight makes a move, unless it is one of those that are not
handled. -/
theorem reply_outcome (hinv : app.Inv out) (hrpc : rpc ∈ out) :
    app.Outcome rpc element release
      (app.finiteStateMachine release (.rpcReply (rpc.reply element))) := by
  have hwait : ∀ s, app.transactionState = s → s.countsErrors ∨ s.acceptsOkOnly →
      s ≠ .waitOnUnlock →
      ∃ l₁ sw l₂, app.switchStates = l₁ ++ sw :: l₂ ∧ sw.pending s = some rpc := by
    intro s hs hwaits hne
    rcases hinv.requests with hout | ⟨hs', -⟩
    · unfold Outstanding at hout
      rw [hs] at hout
      cases s <;> first
        | exact hout.1.exists_of_mem hrpc
        | simp [TransactionAppState.countsErrors, TransactionAppState.acceptsOkOnly] at hwaits
    · exact absurd (hs ▸ hs') hne
  unfold finiteStateMachine
  cases hs : app.transactionState
  case waitOnLockResponse =>
    obtain ⟨sw, hfind, rfl, -⟩ := hinv.lock_eq hs hrpc
    exact outcome_lock hinv hs hfind
  case waitOnCandidateConfirmation =>
    obtain ⟨l₁, sw, l₂, hsw, hp⟩ := hwait _ hs (.inl rfl) (by simp)
    obtain rfl : sw.copyConfig = rpc := Option.some.inj (Option.ite_none_left_eq_some.mp hp).2
    exact outcome_copyConfig hinv hs hsw hp
  case waitOnCandidateLockResponse =>
    obtain ⟨l₁, sw, l₂, hsw, hp⟩ := hwait _ hs (.inr rfl) (by simp)
    obtain rfl : sw.lockCandidate = rpc := Option.some.inj (Option.ite_none_left_eq_some.mp hp).2
    exact outcome_collectOk hinv hsw hs rfl rfl rfl hp fun sw' hnoted hall =>
      outcome_applyFirstChanges hinv hnoted hs hall
  case waitOnChangeConfirmation =>
    obtain ⟨l₁, sw, l₂, hsw, hp⟩ := hwait _ hs (.inl rfl) (by simp)
    exact outcome_change hinv hs hsw hp
  case waitOnTimestampConfirmation =>
    obtain ⟨l₁, sw, l₂, hsw, hp⟩ := hwait _ hs (.inl rfl) (by simp)
    obtain rfl : sw.timestamp = rpc := Option.some.inj (Option.ite_none_left_eq_some.mp hp).2
    have hsync : app.timeSynchronous = true := hinv.timestamp hs
    rw [hsync]
    exact outcome_timestamp hinv hs hsw hp
  case waitOnCommitExecution =>
    obtain ⟨l₁, sw, l₂, hsw, hp⟩ := hwait _ hs (.inr rfl) (by simp)
    obtain rfl : sw.commitApproved = rpc := Option.some.inj (Option.ite_none_left_eq_some.mp hp).2
    exact outcome_commit hinv hs hsw hp
  case waitOnDeleteOldConfiguration =>
    obtain ⟨l₁, sw, l₂, hsw, hp⟩ := hwait _ hs (.inr rfl) (by simp)
    obtain rfl : sw.deleteOldConfig = rpc := Option.some.inj (Option.ite_none_right_eq_some.mp hp).2
    exact outcome_deleteOldConfig hinv hs hsw hp
  case waitOnDeleteCandidate =>
    obtain ⟨l₁, sw, l₂, hsw, hp⟩ := hwait _ hs (.inr rfl) (by simp)
    obtain rfl : sw.deleteCandidate = rpc := Option.some.inj (Option.ite_none_right_eq_some.mp hp).2
    exact outcome_deleteCandidate hinv hs hsw hp
  case waitOnUnlock => exact outcome_unlock hinv hs hrpc
  -- the other states have no request outstanding
  all_goals
    rcases hinv.requests with hout | ⟨hs', -⟩
    · unfold Outstanding at hout
      rw [hs] at hout
      first
        | rw [hout] at hrpc
          cases hrpc
        | rw [hout.1] at hrpc
          cases hrpc
    · rw [hs] at hs'
      cases hs'

/-- The event that starts the transaction. -/
theorem move_of_start (h : app.finiteStateMachine false .startTransaction = some (app', sent)) :
    app.Move .startTransaction app' sent := by
  unfold finiteStateMachine at h
  cases hs : app.transactionState <;> rw [hs] at h <;> try cases h
  obtain ⟨sw, hfind, h⟩ := Option.bind_eq_some_iff.mp h
  obtain ⟨rfl, rfl⟩ := Prod.mk.inj (Option.some.inj h)
  exact .start sw hs hfind

theorem move_of_lambda (h : app.finiteStateMachine false .lambda = some (app', sent)) :
    app.Move .lambda app' sent := by
  unfold finiteStateMachine at h
  cases hs : app.transactionState <;> rw [hs] at h <;> try cases h
  have hrequests : requests .waitOnDeleteCandidate app.switchStates =
      (app.switchStates.filter (·.state.hasCandidate)).map Switch.deleteCandidate := by
    have hpending : ∀ x ∈ app.switchStates, x.pending .waitOnDeleteCandidate =
        (Option.guard (·.state.hasCandidate) x).map Switch.deleteCandidate := by
      intro x _
      cases hc : x.state.hasCandidate <;> simp [Switch.pending, Option.guard, hc]
    rw [requests, List.filterMap_congr hpending, ← List.map_filterMap, List.filterMap_eq_filter]
  have hmove := Move.lambda hs
  rw [hrequests, ← List.append_nil (List.map _ _)] at hmove
  exact hmove

/-- What an application does with an event that it handles. -/
theorem move_of_handled (hinv : app.Inv out) (he : e.Possible out)
    (h : app.finiteStateMachine e.release e.message = some (app', sent)) : app.Move e app' sent := by
  cases e with
  | startTransaction => exact move_of_start h
  | lambda => exact move_of_lambda h
  | reply rpc element release =>
    have hout : app.Outcome rpc element release
        (app.finiteStateMachine release (.rpcReply (rpc.reply element))) := reply_outcome hinv he
    change app.finiteStateMachine release (.rpcReply (rpc.reply element)) = _ at h
    rw [h] at hout
    exact hout

end TransactionApp

/-! ## Runs -/

namespace Run

variable {r r' : Run} {e : Event}

theorem possible_of_step (h : r.step e = some r') : e.Possible r.outstanding := by
  have hp := (step_eq_some h).1
  cases e with
  | reply rpc element release =>
    change rpc ∈ r.outstanding
    simpa [possible] using hp
  | _ => trivial

theorem inv_new {timeSynchronous : Bool} {connections : List Connection}
    (h : Opened connections) :
    (new timeSynchronous connections).app.Inv (new timeSynchronous connections).outstanding where
  opened := h
  lambda := by simp [new]
  switches hne := absurd rfl hne
  timestamp := nofun
  fits := nofun
  requests := .inl rfl

/-- A step is a move, and the rest of the run is what the move leaves. -/
theorem step_move (hinv : r.app.Inv r.outstanding) (h : r.step e = some r') :
    ∃ app sent, r.app.Move e app sent ∧ r' = r.after e app sent := by
  obtain ⟨-, app, sent, hh, rfl⟩ := step_eq_some h
  exact ⟨app, sent, TransactionApp.move_of_handled hinv (possible_of_step h) hh, rfl⟩

theorem inv_step (hinv : r.app.Inv r.outstanding) (h : r.step e = some r') :
    r'.app.Inv r'.outstanding := by
  obtain ⟨app, sent, hmove, rfl⟩ := step_move hinv h
  exact hmove.inv hinv (possible_of_step h)

/-- Every reachable state of a transaction is in order. -/
theorem inv_of_reachable (h : transaction.Reachable r) : r.app.Inv r.outstanding := by
  apply h.invariant (P := fun r => r.app.Inv r.outstanding)
  · rintro r ⟨timeSynchronous, connections, hopened, rfl⟩
    exact inv_new hopened
  · intro r e r' hinv hs
    exact inv_step hinv hs

end Run

end TsnReconfig.NetConf
