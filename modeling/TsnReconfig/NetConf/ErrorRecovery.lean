import TsnReconfig.NetConf.CommitUnanimity

/-!
# Recovery from an error

When a copy, a change or a timestamp fails, the application collects the replies that are still
in flight, deletes the candidates that were created, gives the locks back and ends.
-/

namespace TsnReconfig.NetConf

open TsnReconfig.Lib

/-- The requests whose failure is noted and undone. -/
def MessageId.mayFail : MessageId → Bool
  | .copyConfig | .change _ | .timestamp => true
  | _ => false

/-- A copy, a change or a timestamp has been answered with an error. -/
def Failed (log : List Event) : Prop :=
  ∃ rpc release, .reply rpc .error release ∈ log ∧ rpc.messageId.mayFail

variable {log : List Event} {rpc : RPC} {element : ReplyElement} {release : Bool} {e : Event}

theorem MessageId.mayFail_eq (m : MessageId) : m.mayFail = m.awaitedIn.countsErrors := by
  cases m <;> rfl

theorem not_noError_of_failed (h : Failed log) : ¬NoError log := by
  obtain ⟨rpc, release, hlog, -⟩ := h
  exact fun hno => hno rpc release hlog

theorem not_successful_of_failed (h : Failed log) : ¬Successful log := fun hs =>
  not_noError_of_failed h hs.1

theorem Failed.append (h : Failed log) (e : Event) : Failed (log ++ [e]) := by
  obtain ⟨rpc, release, hlog, hid⟩ := h
  exact ⟨rpc, release, List.mem_append_left _ hlog, hid⟩

/-- An event that is no reply to such a request does not add a failure. -/
theorem failed_append (he : ∀ rpc release, e = .reply rpc .error release → ¬rpc.messageId.mayFail) :
    Failed (log ++ [e]) ↔ Failed log := by
  refine ⟨?_, fun h => h.append e⟩
  rintro ⟨rpc, release, hlog, hid⟩
  rcases List.mem_append.mp hlog with hlog | hlog
  · exact ⟨rpc, release, hlog, hid⟩
  · exact absurd hid (he rpc release (List.mem_singleton.mp hlog).symm)

theorem failed_append_reply (hid : ¬rpc.messageId.mayFail) :
    Failed (log ++ [.reply rpc element release]) ↔ Failed log := by
  apply failed_append
  intro rpc' release' heq
  cases heq
  exact hid

theorem answered_append {sessionId : ℕ} {messageId : MessageId} {element : ReplyElement} :
    Answered (log ++ [e]) sessionId messageId element ↔ Answered log sessionId messageId element ∨
      ∃ operation release, e = .reply ⟨sessionId, messageId, operation⟩ element release := by
  simp only [Answered, List.mem_append, List.mem_singleton, exists_or]
  exact or_congr_right (exists₂_congr fun _ _ => eq_comm)

theorem answered_append_ne {sessionId : ℕ} {messageId : MessageId} {element' : ReplyElement}
    (hid : rpc.messageId ≠ messageId) :
    Answered (log ++ [.reply rpc element release]) sessionId messageId element' ↔
      Answered log sessionId messageId element' := by
  rw [answered_append, or_iff_left]
  rintro ⟨operation, release', heq⟩
  cases heq
  exact hid rfl

/-- The states in which the candidates are given up. -/
def TransactionAppState.isClosing : TransactionAppState → Bool
  | .waitOnDeleteOldConfiguration | .waitOnDeleteCandidate | .waitOnUnlock
  | .endOfTransaction => true
  | _ => false

theorem Switch.Answer.hasCandidate {sw sw' : Switch} {failing : Prop} {s : TransactionAppState}
    (h : sw.Answer failing s element sw') (hs : ¬s.isClosing) (hc : sw.state.hasCandidate) :
    sw'.state.hasCandidate := by
  cases h with
  | flag =>
    cases s <;> cases element <;>
      first | exact hc | rfl | exact absurd rfl hs
  | next => exact hc
  | last => exact hc
  | failed => exact hc

namespace TransactionApp
variable {app app' : TransactionApp} {out sent : List RPC} {l₁ l₂ : List Switch} {sw sw' : Switch}

/-- A reply in flight is one of those the state waits for. -/
theorem Inv.awaitedIn (hinv : app.Inv out) (hrpc : rpc ∈ out) :
    rpc.messageId.awaitedIn = app.transactionState := by
  obtain ⟨sw, -, ⟨hs, rfl⟩ | hp | ⟨hs, rfl⟩⟩ := hinv.request_cases hrpc
  · exact hs.symm
  · exact Switch.pending_awaitedIn hp
  · exact hs.symm

/-- A switch that is still waited for tells that the unlocks are those of all switches. -/
theorem Inv.outstanding_of_pending (hinv : app.Inv out) (hsw : sw ∈ app.switchStates)
    (hp : sw.pending app.transactionState = some rpc) (hrpc : rpc ∈ out) :
    app.Outstanding out :=
  .of_round (hinv.round hsw hp hrpc) (List.ne_nil_of_mem hrpc)

theorem Inv.outstanding_of_ne (hinv : app.Inv out) (hs : app.transactionState ≠ .waitOnUnlock) :
    app.Outstanding out :=
  hinv.requests.resolve_right fun hR => hs hR.1

/-- The switches with a candidate include those that have confirmed the copy. -/
theorem Noted.candidate (h : app.Noted rpc element l₁ sw l₂ sw')
    (hs : ¬app.transactionState.isClosing) {k : ℕ}
    (hold : Answered log k .copyConfig .ok →
      ∃ x ∈ app.switchStates, x.sessionId = k ∧ x.state.hasCandidate)
    (ha : Answered (log ++ [.reply rpc element release]) k .copyConfig .ok) :
    ∃ x ∈ l₁ ++ sw' :: l₂, x.sessionId = k ∧ x.state.hasCandidate := by
  have hsession : sw'.sessionId = sw.sessionId := congrArg (fun p => p.2.1) h.answer.profile
  have hmem : sw' ∈ l₁ ++ sw' :: l₂ := List.mem_append_right _ (List.mem_cons_self ..)
  rcases answered_append.mp ha with ha | ⟨operation, release', heq⟩
  · obtain ⟨x, hx, hk, hc⟩ := hold ha
    rw [h.switches, List.mem_append, List.mem_cons] at hx
    rcases hx with hx | rfl | hx
    · exact ⟨x, List.mem_append_left _ hx, hk, hc⟩
    · exact ⟨sw', hmem, hsession.trans hk, h.answer.hasCandidate hs hc⟩
    · exact ⟨x, List.mem_append_right _ (List.mem_cons_of_mem _ hx), hk, hc⟩
  · cases heq
    have hstate := Switch.pending_awaitedIn h.pending
    have hanswer := h.answer
    rw [← hstate] at hanswer
    refine ⟨sw', hmem, hsession.trans (Switch.pending_sessionId h.pending).symm, ?_⟩
    cases hanswer
    rfl

/-- The application asks every switch to unlock when all are locked. -/
theorem unlock_mem_requests {sws : List Switch} {x : Switch} (hx : x ∈ sws)
    (hlocked : x.state.hasLockedRunning) :
    x.unlock ∈ requests .waitOnUnlock sws :=
  List.mem_filterMap.mpr ⟨x, hx, by simp [Switch.pending, hlocked]⟩

/-- All switches are locked when a reply leads to the unlocks. -/
theorem locked_of_next (hinv : app.Inv out) (h : app.Noted rpc element l₁ sw l₂ sw')
    (hnext : app.transactionState.next app.timeSynchronous = .waitOnUnlock) :
    ∀ x ∈ l₁ ++ sw' :: l₂, x.state.hasLockedRunning := by
  have hwaits := waits_of_pending h.pending
  intro x hx
  have hfits := h.fits hinv.fits x hx
  cases hs : app.transactionState <;> rw [hs] at hnext hwaits hfits <;>
    cases hsync : app.timeSynchronous <;> rw [hsync] at hnext <;>
    simp [TransactionAppState.next] at hnext
  case waitOnDeleteOldConfiguration.false | waitOnDeleteOldConfiguration.true =>
    obtain ⟨c, t, hc⟩ := hfits
    simp [hc]
  case waitOnDeleteCandidate.false | waitOnDeleteCandidate.true => exact hfits.1

/-- Unless a lock is refused after others were granted, the requests in flight are those of the
state. -/
theorem Move.outstanding (hm : app.Move e app' sent) (hinv : app.Inv out) (he : e.Possible out)
    (hout : app.Outstanding out)
    (hrefused : ∀ (sw : Switch) (release : Bool), e = .reply sw.lock .error release →
      app.transactionState = .waitOnLockResponse →
        ¬∃ x ∈ app.switchStates, x.state.hasLockedRunning) :
    app'.Outstanding (e.unanswered out ++ sent) := by
  have hinv' := hm.inv hinv he
  by_cases hs : app'.transactionState = .waitOnUnlock
  · cases hm with
    | start sw hs' hfind => cases hs
    | lockNext l₁ sw l₂ next release hs' => simp [withSwitches, hs'] at hs
    | lockAll l₁ sw l₂ release hs' => cases hs
    | refusedFirst sw release hs' => cases hs
    | refusedLater sw release hs' hsw hunlocked hsome =>
      exact absurd hsome (hrefused sw release rfl hs')
    | unlockRefused rpc release h => exact absurd hout (h.not_outstanding hinv he)
    | stay l₁ sw l₂ sw' rpc element release h hel hwait =>
      -- the switch that is waited for has a request in flight
      obtain ⟨x, hx, hset⟩ := hwait
      obtain ⟨rpc', hp⟩ : ∃ rpc', x.pending app.transactionState = some rpc' := by
        simpa [Switch.settled, Option.isNone_iff_eq_none, Option.ne_none_iff_exists'] using hset
      exact hinv'.outstanding_of_pending hx hp ((h.round hinv he).mem hx hp)
    | advance l₁ sw l₂ sw' rpc release s h hall hnone hrelease hnext hfirst =>
      have hs : s = .waitOnUnlock := hs
      subst hs
      have hmem : sw' ∈ l₁ ++ sw' :: l₂ := List.mem_append_right _ (List.mem_cons_self ..)
      -- the switch of the last reply is locked, so its unlock is among the new requests
      have hlocked := locked_of_next hinv h hnext.symm sw' hmem
      have hmem' : sw'.enter .waitOnUnlock ∈ (l₁ ++ sw' :: l₂).map (·.enter .waitOnUnlock) :=
        List.mem_map_of_mem hmem
      have hp : (sw'.enter .waitOnUnlock).pending .waitOnUnlock = some sw'.unlock := by
        simp [Switch.pending, Switch.enter, hlocked]
      exact hinv'.outstanding_of_pending hmem' hp
        (List.mem_append_right _ (unlock_mem_requests hmem' hlocked))
    | fail l₁ sw l₂ sw' rpc element release h => cases hs
    | abort l₁ sw l₂ sw' rpc release hs' h hall =>
      have hmem : sw' ∈ l₁ ++ sw' :: l₂ := List.mem_append_right _ (List.mem_cons_self ..)
      have hfits := h.fits hinv.fits sw' hmem
      rw [hs'] at hfits
      have hlocked := (fits_errorState hfits rfl).1
      refine hinv'.outstanding_of_pending hmem ?_
        (List.mem_append_right _ (unlock_mem_requests hmem hlocked))
      simp [Switch.pending, hlocked]
    | lambda hs' => cases hs
  · exact hinv'.outstanding_of_ne hs

end TransactionApp

/-! ## The way to the end -/

namespace Run
variable {r r' : Run} {app : TransactionApp} {sent : List RPC} {l₁ l₂ : List Switch}
  {sw sw' : Switch}

/-- After a failure an error is noted, or the application is on its way back. -/
theorem Judged.of_failed (hj : r.Judged) (hf : Failed r.log) :
    r.app.transactionState.countsErrors ∧ r.app.Failing ∨
      r.app.transactionState = .errorState ∨ r.app.transactionState = .waitOnDeleteCandidate ∨
      r.app.transactionState = .waitOnUnlock ∨ r.app.transactionState = .endOfTransaction := by
  have hno := not_noError_of_failed hf
  have hsucc := not_successful_of_failed hf
  cases hs : r.app.transactionState <;> simp only [Judged, hs] at hj
  case waitOnCandidateConfirmation | waitOnChangeConfirmation =>
    exact .inl ⟨rfl, by rwa [hj, not_not] at hsucc⟩
  case waitOnTimestampConfirmation => exact .inl ⟨rfl, by rwa [hj, not_not] at hno⟩
  all_goals first | exact absurd hj hsucc | simp

/-- What the recovery relies on: the candidates that were created are known until they are
given up, and the way back deletes each of them and unlocks every switch. -/
structure Recovering (r : Run) : Prop where
  candidate : ¬r.app.transactionState.isClosing → ∀ c ∈ r.app.connections,
    Answered r.log c.sessionId .copyConfig .ok →
      ∃ sw ∈ r.app.switchStates, sw.sessionId = c.sessionId ∧ sw.state.hasCandidate
  created : ∀ rpc ∈ r.sent, rpc.operation = .deleteConfig .candidate →
    Answered r.log rpc.sessionId .copyConfig .ok
  deleted : Failed r.log → r.app.transactionState.isClosing → ∀ c ∈ r.app.connections,
    Answered r.log c.sessionId .copyConfig .ok →
      ∃ rpc ∈ r.sent, rpc.sessionId = c.sessionId ∧ rpc.operation = .deleteConfig .candidate
  unlocked : Failed r.log →
    r.app.transactionState = .waitOnUnlock ∨ r.app.transactionState = .endOfTransaction →
    ∀ c ∈ r.app.connections,
      ∃ rpc ∈ r.sent, rpc.sessionId = c.sessionId ∧ rpc.operation = .unlock .running
  outstanding : Failed r.log → r.app.Outstanding r.outstanding

/-- A candidate is deleted only where it has been created. -/
theorem answered_of_deleteConfig (hinv : r.app.Inv r.outstanding) (hd : r.Documented)
    (hrpc : rpc ∈ r.outstanding) (hop : rpc.operation = .deleteConfig .candidate) :
    Answered r.log rpc.sessionId .copyConfig .ok := by
  obtain ⟨sw, hsw, ⟨-, rfl⟩ | hp | ⟨-, rfl⟩⟩ := hinv.request_cases hrpc
  · cases hop
  · rw [Switch.pending_sessionId hp]
    apply (hd.switches sw hsw).copyConfig
    have hfits := hinv.fits sw hsw
    cases hs : r.app.transactionState <;> rw [hs] at hp hfits <;>
      simp only [Switch.pending, reduceCtorEq, Option.ite_none_left_eq_some,
        Option.ite_none_right_eq_some, Option.some.injEq] at hp
    case waitOnChangeConfirmation => exact hfits.hasCandidate
    case waitOnDeleteOldConfiguration | waitOnDeleteCandidate => exact hp.1
    all_goals
      obtain ⟨-, rfl⟩ := hp
      cases hop
  · cases hop

/-- A reply on the way back is no failure, and creates no candidate. -/
theorem reply_closing (hinv : r.app.Inv r.outstanding) (hrpc : rpc ∈ r.outstanding)
    (hs : r.app.transactionState.isClosing) (element : ReplyElement) (release : Bool) :
    (Failed (r.log ++ [.reply rpc element release]) ↔ Failed r.log) ∧
      ∀ k, Answered (r.log ++ [.reply rpc element release]) k .copyConfig .ok ↔
        Answered r.log k .copyConfig .ok := by
  have hstate := hinv.awaitedIn hrpc
  constructor
  · apply failed_append_reply
    rw [MessageId.mayFail_eq, hstate]
    cases h : r.app.transactionState <;> rw [h] at hs <;> first | exact absurd hs (by decide) | decide
  · intro k
    apply answered_append_ne
    intro hid
    rw [hid] at hstate
    rw [← hstate] at hs
    cases hs

/-- The lock requests are no copies. -/
theorem answered_lock (sw : Switch) (k : ℕ) (element : ReplyElement) (release : Bool) :
    Answered (r.log ++ [.reply sw.lock element release]) k .copyConfig .ok ↔
      Answered r.log k .copyConfig .ok :=
  answered_append_ne (by simp [Switch.lock, Connection.createRPC])

theorem candidate_locked (hsw : r.app.switchStates = l₁ ++ sw :: l₂) {k : ℕ}
    (h : ∃ x ∈ r.app.switchStates, x.sessionId = k ∧ x.state.hasCandidate) :
    ∃ x ∈ l₁ ++ sw.locked :: l₂, x.sessionId = k ∧ x.state.hasCandidate := by
  obtain ⟨x, hx, hk, hc⟩ := h
  rw [hsw, List.mem_append, List.mem_cons] at hx
  rcases hx with hx | rfl | hx
  · exact ⟨x, List.mem_append_left _ hx, hk, hc⟩
  · exact ⟨x.locked, List.mem_append_right _ (List.mem_cons_self ..), hk, hc⟩
  · exact ⟨x, List.mem_append_right _ (List.mem_cons_of_mem _ hx), hk, hc⟩

theorem Recovering.candidate_step (hrec : r.Recovering) (hinv : r.app.Inv r.outstanding)
    (hm : r.app.Move e app sent) (hs : ¬app.transactionState.isClosing) {c : Connection}
    (hc : c ∈ app.connections) (ha : Answered (r.log ++ [e]) c.sessionId .copyConfig .ok) :
    ∃ sw ∈ app.switchStates, sw.sessionId = c.sessionId ∧ sw.state.hasCandidate := by
  rw [hm.connections.1] at hc
  have hold := fun hs => hrec.candidate hs c hc
  cases hm with
  | start sw hs' hfind =>
    have ha : Answered r.log c.sessionId .copyConfig .ok := by simpa [answered_append] using ha
    obtain ⟨x, hx, -⟩ := hold (by rw [hs']; decide) ha
    exact absurd hs' (hinv.notBegin hx)
  | lockNext l₁ sw l₂ next release hs' hsw hunlocked hnext =>
    rw [answered_lock] at ha
    exact candidate_locked hsw (hold (by rw [hs']; decide) ha)
  | lockAll l₁ sw l₂ release hs' hsw hunlocked hall =>
    rw [answered_lock] at ha
    exact candidate_locked hsw (hold (by rw [hs']; decide) ha)
  | refusedFirst sw release => exact absurd rfl hs
  | refusedLater sw release => exact absurd rfl hs
  | unlockRefused rpc release h =>
    rw [h.1] at hs
    exact absurd rfl hs
  | stay l₁ sw l₂ sw' rpc element release h hel hwait => exact h.candidate hs (hold hs) ha
  | advance l₁ sw l₂ sw' rpc release s h hall hnone hrelease hnext hfirst =>
    have hs' : ¬r.app.transactionState.isClosing := by
      subst hnext
      intro hclosing
      apply hs
      cases hstate : r.app.transactionState <;> rw [hstate] at hclosing <;>
        first | rfl | cases hclosing
    obtain ⟨x, hx, hk, hcand⟩ := h.candidate hs' (hold hs') ha
    refine ⟨x.enter s, List.mem_map_of_mem hx, ?_, by rwa [state_enter]⟩
    exact (congrArg (fun p => p.2.1) (TransactionApp.profile_enter x s)).trans hk
  | fail l₁ sw l₂ sw' rpc element release h hel hcounts hall herror hcandidate =>
    have hs' : ¬r.app.transactionState.isClosing := by
      cases hstate : r.app.transactionState <;> rw [hstate] at hcounts <;>
        first | decide | cases hcounts
    exact h.candidate hs' (hold hs') ha
  | abort l₁ sw l₂ sw' rpc release hs' h hall => exact absurd rfl hs
  | lambda hs' => exact absurd rfl hs

/-- Before the locks are complete nothing has failed that is undone. -/
theorem Judged.not_failed_lock (hj : r.Judged)
    (hs : r.app.transactionState = .waitOnLockResponse) (sw : Switch) (release : Bool) :
    ¬Failed (r.log ++ [.reply sw.lock .error release]) := by
  rw [failed_append_reply (by simp [Switch.lock, Connection.createRPC, MessageId.mayFail])]
  intro hf
  simp only [Judged, hs] at hj
  exact not_successful_of_failed hf hj

theorem Recovering.deleted_step (hrec : r.Recovering) (hinv : r.app.Inv r.outstanding)
    (hj : r.Judged) (hj' : (r.after e app sent).Judged) (he : e.Possible r.outstanding)
    (hm : r.app.Move e app sent) (hf : Failed (r.log ++ [e])) (hs : app.transactionState.isClosing)
    {c : Connection} (hc : c ∈ app.connections)
    (ha : Answered (r.log ++ [e]) c.sessionId .copyConfig .ok) :
    ∃ rpc ∈ r.sent ++ sent, rpc.sessionId = c.sessionId ∧
      rpc.operation = .deleteConfig .candidate := by
  rw [hm.connections.1] at hc
  -- on the way back the reply changes neither what has failed nor who has a candidate
  have hclosing : ∀ rpc element release, e = .reply rpc element release →
      r.app.transactionState.isClosing → ∃ rpc ∈ r.sent ++ sent, rpc.sessionId = c.sessionId ∧
        rpc.operation = .deleteConfig .candidate := by
    rintro rpc element release rfl hs'
    obtain ⟨hfailed, hanswered⟩ := reply_closing hinv he hs' element release
    obtain ⟨rpc', hrpc', hk⟩ := hrec.deleted (hfailed.mp hf) hs' c hc ((hanswered _).mp ha)
    exact ⟨rpc', List.mem_append_left _ hrpc', hk⟩
  cases hm with
  | start sw hs' hfind => cases hs
  | lockNext l₁ sw l₂ next release hs' =>
    simp [TransactionApp.withSwitches, hs', TransactionAppState.isClosing] at hs
  | lockAll l₁ sw l₂ release hs' => cases hs
  | refusedFirst sw release hs' => exact absurd hf (hj.not_failed_lock hs' sw release)
  | refusedLater sw release hs' => exact absurd hf (hj.not_failed_lock hs' sw release)
  | unlockRefused rpc release h => exact hclosing _ _ _ rfl (by rw [h.1]; rfl)
  | stay l₁ sw l₂ sw' rpc element release h hel hwait => exact hclosing _ _ _ rfl hs
  | advance l₁ sw l₂ sw' rpc release s h hall hnone hrelease hnext hfirst =>
    by_cases hs' : r.app.transactionState.isClosing
    · exact hclosing _ _ _ rfl hs'
    · -- the old configurations are deleted after a success only
      exfalso
      have hdelete : s = .waitOnDeleteOldConfiguration := by
        subst hnext
        cases hstate : r.app.transactionState <;> rw [hstate] at hs hs' <;>
          cases hsync : r.app.timeSynchronous <;> rw [hsync] at hs <;>
            first | rfl | exact absurd rfl hs' | cases hs
      subst hdelete
      exact not_successful_of_failed hf hj'
  | fail l₁ sw l₂ sw' rpc element release h => cases hs
  | abort l₁ sw l₂ sw' rpc release hs' h hall =>
    exfalso
    obtain ⟨x, hx, -, hcandidate⟩ := h.candidate (by rw [hs']; decide)
      (hrec.candidate (by rw [hs']; decide) c hc) ha
    have hfits := h.fits hinv.fits x hx
    rw [hs'] at hfits
    obtain ⟨⟨c, e, hce, hnot⟩, -⟩ := hfits
    exact hnot ⟨by simpa [hce] using hcandidate, by simpa [hce] using hall x hx⟩
  | lambda hs' =>
    have ha : Answered r.log c.sessionId .copyConfig .ok := by simpa [answered_append] using ha
    obtain ⟨x, hx, hk, hcandidate⟩ :=
      hrec.candidate (by rw [hs']; decide) c hc ha
    refine ⟨x.deleteCandidate, List.mem_append_right _ ?_, hk, rfl⟩
    exact List.mem_filterMap.mpr ⟨x, hx, by simp [Switch.pending, hcandidate]⟩

theorem Recovering.unlocked_step (hrec : r.Recovering) (hinv : r.app.Inv r.outstanding)
    (hj : r.Judged) (he : e.Possible r.outstanding) (hm : r.app.Move e app sent)
    (hinv' : app.Inv (r.after e app sent).outstanding) (hf : Failed (r.log ++ [e]))
    (hs : app.transactionState = .waitOnUnlock ∨ app.transactionState = .endOfTransaction)
    {c : Connection} (hc : c ∈ app.connections) :
    ∃ rpc ∈ r.sent ++ sent, rpc.sessionId = c.sessionId ∧ rpc.operation = .unlock .running := by
  have hswitch : ∃ sw ∈ app.switchStates, sw.sessionId = c.sessionId := by
    obtain ⟨sw, hsw, hprofile⟩ := @exists_switch (r.after e app sent) hinv'
      (by rcases hs with hs | hs <;> simp [after, hs]) c hc
    exact ⟨sw, hsw, congrArg (fun p => p.2.1) hprofile⟩
  rw [hm.connections.1] at hc
  -- the unlocks have been sent before
  have hunlock : ∀ rpc element release, e = .reply rpc element release →
      r.app.transactionState = .waitOnUnlock → ∃ rpc ∈ r.sent ++ sent,
        rpc.sessionId = c.sessionId ∧ rpc.operation = .unlock .running := by
    rintro rpc element release rfl hs'
    have hfailed := (reply_closing hinv he (by rw [hs']; rfl) element release).1.mp hf
    obtain ⟨rpc', hrpc', hk⟩ := hrec.unlocked hfailed (.inl hs') c hc
    exact ⟨rpc', List.mem_append_left _ hrpc', hk⟩
  cases hm with
  | start sw hs' hfind => rcases hs with hs | hs <;> cases hs
  | lockNext l₁ sw l₂ next release hs' =>
    simp [TransactionApp.withSwitches, hs'] at hs
  | lockAll l₁ sw l₂ release hs' => rcases hs with hs | hs <;> cases hs
  | refusedFirst sw release hs' => exact absurd hf (hj.not_failed_lock hs' sw release)
  | refusedLater sw release hs' => exact absurd hf (hj.not_failed_lock hs' sw release)
  | unlockRefused rpc release h => exact hunlock _ _ _ rfl h.1
  | stay l₁ sw l₂ sw' rpc element release h hel hwait =>
    rcases hs with hs | hs
    · exact hunlock _ _ _ rfl hs
    · have hp := h.pending
      rw [show r.app.transactionState = .endOfTransaction from hs] at hp
      cases hp
  | advance l₁ sw l₂ sw' rpc release s h hall hnone hrelease hnext hfirst =>
    by_cases hs' : r.app.transactionState = .waitOnUnlock
    · exact hunlock _ _ _ rfl hs'
    · have hunlocked : s = .waitOnUnlock := by
        refine hs.resolve_right fun (hend : s = .endOfTransaction) => ?_
        rw [hend] at hnext
        exact hs' (TransactionAppState.eq_waitOnUnlock_of_next
          (TransactionApp.waits_of_pending h.pending) hnext.symm)
      subst hunlocked
      have hlocked := TransactionApp.locked_of_next hinv h hnext.symm
      obtain ⟨x, hx, hk⟩ := hswitch
      obtain ⟨y, hy, rfl⟩ := List.mem_map.mp hx
      exact ⟨_, List.mem_append_right _ (TransactionApp.unlock_mem_requests hx (hlocked y hy)), hk,
        rfl⟩
  | fail l₁ sw l₂ sw' rpc element release h => rcases hs with hs | hs <;> cases hs
  | abort l₁ sw l₂ sw' rpc release hs' h hall =>
    obtain ⟨x, hx, hk⟩ := hswitch
    have hfits := h.fits hinv.fits x hx
    rw [hs'] at hfits
    have hlocked := (TransactionApp.fits_errorState hfits rfl).1
    exact ⟨_, List.mem_append_right _ (TransactionApp.unlock_mem_requests hx hlocked), hk, rfl⟩
  | lambda hs' => rcases hs with hs | hs <;> cases hs

theorem Recovering.outstanding_step (hrec : r.Recovering) (hinv : r.app.Inv r.outstanding)
    (hj : r.Judged) (he : e.Possible r.outstanding) (hm : r.app.Move e app sent)
    (hf : Failed (r.log ++ [e])) : app.Outstanding (r.after e app sent).outstanding := by
  refine hm.outstanding hinv he ?_ ?_
  · by_cases hs : r.app.transactionState = .waitOnUnlock
    · refine hrec.outstanding ?_
      cases e with
      | reply rpc element release =>
        exact (reply_closing hinv he (by rw [hs]; rfl) element release).1.mp hf
      | _ => simpa [Failed] using hf
    · exact hinv.outstanding_of_ne hs
  · rintro sw release rfl hs
    exact absurd hf (hj.not_failed_lock hs sw release)

theorem recovering_of_reachable (h : transaction.Reachable r) : r.Recovering := by
  apply System.ReachableUnder.invariant h (P := Recovering)
  · rintro r ⟨timeSynchronous, connections, hopened, rfl⟩
    exact
      { candidate := by simp [new, Answered]
        created := by simp [new]
        deleted := by simp [new, Failed]
        unlocked := by simp [new, Failed]
        outstanding := by simp [new, Failed] }
  · intro r e r' hr hrec _ hs
    have hr' : transaction.Reachable r' := hr.step trivial hs
    have he := possible_of_step hs
    have hinv := inv_of_reachable hr
    have hj := judged_of_reachable hr
    obtain ⟨app, sent, hm, rfl⟩ := step_move hinv hs
    have hinv' := inv_of_reachable hr'
    exact
      { candidate := fun hs c hc ha => hrec.candidate_step hinv hm hs hc ha
        created := fun rpc hrpc hop => by
          rcases List.mem_append.mp hrpc with hold | hnew
          · exact (hrec.created rpc hold hop).append e
          · exact answered_of_deleteConfig hinv' (documented_of_reachable hr')
              (List.mem_append_right _ hnew) hop
        deleted := fun hf hs c hc ha =>
          hrec.deleted_step hinv hj (judged_of_reachable hr') he hm hf hs hc ha
        unlocked := fun hf hs c hc => hrec.unlocked_step hinv hj he hm hinv' hf hs hc
        outstanding := fun hf => hrec.outstanding_step hinv hj he hm hf }

end Run

/-! ## The end of the recovery -/

/-- The rounds that are left on the way back. -/
def TransactionAppState.distance : TransactionAppState → ℕ
  | .endOfTransaction => 0
  | .waitOnUnlock => 1
  | .waitOnDeleteCandidate => 2
  | .errorState => 3
  | _ => 4

namespace Run
variable {r r' : Run} {app : TransactionApp} {sent : List RPC} {l₁ l₂ : List Switch}
  {sw sw' : Switch}

/-- A bound of the events that are left on the way back. -/
def remaining (r : Run) : ℕ :=
  r.app.transactionState.distance * (r.app.switchStates.length + 1) + r.outstanding.length

/-- After an error no switch is asked for another change. -/
theorem pending_of_failing (h : r.app.Noted rpc element l₁ sw l₂ sw')
    (hel : element = .ok ∨ element = .error ∧ r.app.transactionState.countsErrors)
    (hfailing : r.app.transactionState.countsErrors → r.app.Failing) :
    sw'.pending r.app.transactionState = none := by
  have hp := h.pending
  have ha := h.answer
  generalize r.app.transactionState = s at *
  by_cases hs : s = .waitOnChangeConfirmation
  · subst hs
    cases ha with
    | flag hne => exact absurd rfl hne
    | next done config first rest hch hf => exact absurd (hfailing rfl) hf
    | last => simp [Switch.pending]
    | failed => simp [Switch.pending]
  · cases ha with
    | flag => exact TransactionApp.pending_note hp hs hel
    | next => exact absurd rfl hs
    | last => exact absurd rfl hs
    | failed => exact absurd rfl hs

theorem length_requests_le (s : TransactionAppState) (sws : List Switch) :
    (TransactionApp.requests s sws).length ≤ sws.length :=
  List.length_filterMap_le _ _

/-- Every event brings the way back closer to its end. -/
theorem Recovering.remaining_lt (hrec : r.Recovering) (hinv : r.app.Inv r.outstanding)
    (hj : r.Judged) (he : e.Possible r.outstanding) (hm : r.app.Move e app sent)
    (hf : Failed r.log) : (r.after e app sent).remaining < r.remaining := by
  have hstates := hj.of_failed hf
  have hfailing : r.app.transactionState.countsErrors → r.app.Failing := by
    intro hcounts
    rcases hstates with ⟨-, hfailing⟩ | hs | hs | hs | hs
    · exact hfailing
    all_goals
      rw [hs] at hcounts
      cases hcounts
  cases hm with
  | start sw hs hfind => simp [hs, TransactionAppState.countsErrors] at hstates
  | lockNext l₁ sw l₂ next release hs => simp [hs, TransactionAppState.countsErrors] at hstates
  | lockAll l₁ sw l₂ release hs => simp [hs, TransactionAppState.countsErrors] at hstates
  | refusedFirst sw release hs => simp [hs, TransactionAppState.countsErrors] at hstates
  | refusedLater sw release hs => simp [hs, TransactionAppState.countsErrors] at hstates
  | unlockRefused rpc release h =>
    exact absurd (hrec.outstanding hf) (h.not_outstanding hinv he)
  -- one reply less is outstanding
  | stay l₁ sw l₂ sw' rpc element release h hel hwait =>
    have hlength := List.length_erase_of_mem he
    have hpos := List.length_pos_of_mem he
    simp only [remaining, after, TransactionApp.withSwitches, Event.unanswered,
      pending_of_failing h hel hfailing, h.switches, Option.toList_none, List.append_nil,
      List.length_append, List.length_cons, hlength]
    omega
  | advance l₁ sw l₂ sw' rpc release s h hall hnone hrelease hnext hfirst =>
    have hlength := length_requests_le s ((l₁ ++ sw' :: l₂).map (·.enter s))
    rw [List.length_map] at hlength
    -- the next round has at most one request for each switch, and the state is closer
    have hdistance : s.distance + 1 ≤ r.app.transactionState.distance := by
      subst hnext
      have hwaits := TransactionApp.waits_of_pending h.pending
      rcases hstates with ⟨hcounts, hfailing⟩ | hs | hs | hs | hs
      · obtain ⟨x, hx, hxe⟩ := h.failing_ok.mpr hfailing
        exact absurd hxe (hnone hcounts x hx)
      · simp [hs, TransactionAppState.countsErrors, TransactionAppState.acceptsOkOnly] at hwaits
      · rw [hs]
        exact le_refl 2
      · rw [hs]
        exact le_refl 1
      · simp [hs, TransactionAppState.countsErrors, TransactionAppState.acceptsOkOnly] at hwaits
    have hmul := Nat.mul_le_mul_right ((l₁ ++ sw' :: l₂).length + 1) hdistance
    rw [Nat.add_mul, Nat.one_mul] at hmul
    have hsame : r.app.switchStates.length = (l₁ ++ sw' :: l₂).length := by simp [h.switches]
    simp only [remaining, after, TransactionApp.withSwitches, Event.unanswered,
      h.erase_eq_nil hinv he hall, List.nil_append, List.length_map, hsame]
    omega
  | fail l₁ sw l₂ sw' rpc element release h hel hcounts hall herror hcandidate =>
    have hdistance : r.app.transactionState.distance = 4 := by
      cases hs : r.app.transactionState <;> rw [hs] at hcounts <;> first | rfl | cases hcounts
    have hsame : r.app.switchStates.length = (l₁ ++ sw' :: l₂).length := by simp [h.switches]
    simp only [remaining, after, TransactionApp.withSwitches, Event.unanswered,
      h.erase_eq_nil hinv he hall, List.nil_append, List.length_nil, hsame, hdistance]
    rw [show TransactionAppState.errorState.distance = 3 from rfl]
    omega
  | abort l₁ sw l₂ sw' rpc release hs h hall =>
    have hlength := length_requests_le .waitOnUnlock (l₁ ++ sw' :: l₂)
    have hsame : r.app.switchStates.length = (l₁ ++ sw' :: l₂).length := by simp [h.switches]
    have hnil := h.erase_eq_nil hinv he fun x hx => by
      simp [hs, Switch.settled, Switch.pending, hall x hx]
    simp only [remaining, after, TransactionApp.withSwitches, Event.unanswered, hnil,
      List.nil_append, hsame, hs, TransactionAppState.distance]
    omega
  | lambda hs =>
    have hlength := length_requests_le .waitOnDeleteCandidate r.app.switchStates
    have hnil : r.outstanding = [] := by
      have hout := hrec.outstanding hf
      unfold TransactionApp.Outstanding at hout
      rw [hs] at hout
      exact hout.1
    simp only [remaining, after, Event.unanswered, hnil, List.nil_append, hs,
      TransactionAppState.distance, List.length_nil]
    omega

/-- The transaction has been undone: no reply is on its way, the candidates that were created
have been deleted and no others, and every switch has been unlocked. -/
structure Recovered (r : Run) : Prop where
  outstanding : r.outstanding = []
  lambda : ¬r.app.lambdaScheduled
  deleted : ∀ c ∈ r.app.connections,
    (∃ rpc ∈ r.sent, rpc.sessionId = c.sessionId ∧ rpc.operation = .deleteConfig .candidate) ↔
      Answered r.log c.sessionId .copyConfig .ok
  unlocked : ∀ c ∈ r.app.connections,
    ∃ rpc ∈ r.sent, rpc.sessionId = c.sessionId ∧ rpc.operation = .unlock .running

theorem recovered_of_end (h : transaction.Reachable r) (hf : Failed r.log)
    (hs : r.app.transactionState = .endOfTransaction) : r.Recovered := by
  have hinv := inv_of_reachable h
  have hrec := recovering_of_reachable h
  refine { outstanding := ?_, lambda := ?_, deleted := fun c hc => ⟨?_, ?_⟩,
           unlocked := hrec.unlocked hf (.inr hs) }
  · have hout := hrec.outstanding hf
    unfold TransactionApp.Outstanding at hout
    rwa [hs] at hout
  · rw [hinv.lambda, hs]
    decide
  · rintro ⟨rpc, hrpc, hsession, hop⟩
    rw [← hsession]
    exact hrec.created rpc hrpc hop
  · exact hrec.deleted hf (by rw [hs]; rfl) c hc

/-- Nothing is in flight and nothing scheduled at the end only. -/
theorem end_of_quiet (h : transaction.Reachable r) (hf : Failed r.log)
    (hout : r.outstanding = []) (hlambda : ¬r.app.lambdaScheduled) :
    r.app.transactionState = .endOfTransaction := by
  have hinv := inv_of_reachable h
  have hrequests := (recovering_of_reachable h).outstanding hf
  rw [hinv.lambda] at hlambda
  unfold TransactionApp.Outstanding at hrequests
  rcases (judged_of_reachable h).of_failed hf with ⟨hcounts, -⟩ | hs | hs | hs | hs
  · cases hs : r.app.transactionState <;> rw [hs] at hcounts hrequests <;>
      first | exact absurd hout hrequests.2 | cases hcounts
  · exact absurd hs hlambda
  · rw [hs] at hrequests
    exact absurd hout hrequests.2
  · rw [hs] at hrequests
    exact absurd hout hrequests.2
  · exact hs

/-- After a failure every reply is handled, if deletions and unlocks are answered with `Ok`. -/
theorem handled_of_failed (h : transaction.Reachable r) (hf : Failed r.log)
    (hrpc : rpc ∈ r.outstanding)
    (hel : element = .ok ∨ element = .error ∧ rpc.messageId.mayFail) (release : Bool) :
    (r.step (.reply rpc element release)).isSome := by
  have hinv := inv_of_reachable h
  have hout : r.app.Outcome rpc element release
      (r.app.finiteStateMachine release (.rpcReply (rpc.reply element))) :=
    TransactionApp.reply_outcome hinv hrpc
  have hhandled : (r.app.finiteStateMachine release (.rpcReply (rpc.reply element))).isSome := by
    by_contra hnone
    rw [Option.not_isSome_iff_eq_none] at hnone
    rw [hnone] at hout
    rcases hout with rfl | ⟨rfl, hok⟩ | ⟨hs, -⟩
    · simp at hel
    · have hfail := (hel.resolve_left (by simp)).2
      rw [MessageId.mayFail_eq, hinv.awaitedIn hrpc] at hfail
      cases hs : r.app.transactionState <;> rw [hs] at hfail hok <;>
        first | exact absurd hfail (by decide) | exact absurd hok (by decide)
    · have hstates := (judged_of_reachable h).of_failed hf
      simp [hs, TransactionAppState.countsErrors] at hstates
  rw [step, if_pos (by simpa [possible] using hrpc), Option.isSome_map]
  exact hhandled

/-- When a copy, a change or a timestamp has failed, the application accepts each reply up to the
end of the transaction, which it reaches when all have been delivered, and has then undone
everything. -/
theorem recovery (h : transaction.Reachable r) (hf : Failed r.log) :
    (∀ rpc ∈ r.outstanding, ∀ element release,
      element = .ok ∨ element = .error ∧ rpc.messageId.mayFail →
        (r.step (.reply rpc element release)).isSome) ∧
    (r.app.lambdaScheduled → (r.step .lambda).isSome) ∧
    (r.outstanding = [] → ¬r.app.lambdaScheduled →
      r.app.transactionState = .endOfTransaction) ∧
    (r.app.transactionState = .endOfTransaction → r.Recovered) ∧
    ∀ e r', r.step e = some r' → r'.remaining < r.remaining := by
  have hinv := inv_of_reachable h
  refine ⟨fun rpc hrpc element release hel => handled_of_failed h hf hrpc hel release,
    fun hlambda => ?_, end_of_quiet h hf, recovered_of_end h hf, fun e r' hs => ?_⟩
  · have hstate := hinv.lambda.mp hlambda
    rw [step, if_pos (by simpa [possible] using hlambda), Option.isSome_map]
    simp [TransactionApp.finiteStateMachine, Event.message, hstate,
      TransactionApp.handleMessageInErrorState, TransactionApp.transitionToState]
  · obtain ⟨app, sent, hm, rfl⟩ := step_move hinv hs
    exact (recovering_of_reachable h).remaining_lt hinv (judged_of_reachable h)
      (possible_of_step hs) hm hf

/-- The change of the second switch fails, and that of the first one is confirmed later. -/
def failedChange : List Event :=
  candidatesLocked ++
    [.reply ⟨12, .change 0, .editConfig .candidate (.config 6)⟩ .error false,
      .reply ⟨11, .change 0, .editConfig .candidate (.config 5)⟩ .ok false,
      .lambda,
      .reply ⟨12, .deleteCandidate, .deleteConfig .candidate⟩ .ok false,
      .reply ⟨11, .deleteCandidate, .deleteConfig .candidate⟩ .ok false,
      .reply ⟨11, .unlock, .unlock .running⟩ .ok false,
      .reply ⟨12, .unlock, .unlock .running⟩ .ok false]

theorem recovery_failedChange :
    ∃ r, transaction.runFrom (.new false twoSwitches) failedChange = some r ∧
      r.app.transactionState = .endOfTransaction ∧ r.Recovered := by
  obtain ⟨r, hr, hs, hlog⟩ : ∃ r,
      transaction.runFrom (.new false twoSwitches) failedChange = some r ∧
      r.app.transactionState = .endOfTransaction ∧ r.log = failedChange := ⟨_, rfl, rfl, rfl⟩
  have hreachable : transaction.Reachable r :=
    System.reachable_of_runFrom ⟨false, twoSwitches, opened_twoSwitches, rfl⟩ hr
  have hfailed : Failed r.log :=
    ⟨⟨12, .change 0, .editConfig .candidate (.config 6)⟩, false, by rw [hlog]; decide, rfl⟩
  exact ⟨r, hr, hs, (recovery hreachable hfailed).2.2.2.1 hs⟩

end Run

end TsnReconfig.NetConf
