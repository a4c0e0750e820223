import TsnReconfig.NetConf.Outcomes

/-!
# The result of a transaction

`result` is true for a successful transaction, and a transaction has been successful if all
switches have committed. The entry action of `EndOfTransaction` sets it to true on every path, so
it is right for the transactions without an error only.
-/

namespace TsnReconfig.NetConf

open TsnReconfig.Lib

/-! ## Transactions without an error -/

/-- What `checkCommitrelease` returns if the event is the reply to a timestamp. -/
def Event.timestampRelease : Event → Option Bool
  | .reply rpc _ release => if rpc.messageId = .timestamp then some release else none
  | _ => none

/-- No request has been answered with an error. -/
def NoError (log : List Event) : Prop := ∀ rpc release, .reply rpc .error release ∉ log

/-- No request has been answered with an error, and the commit timestamp was not over when the
last switch confirmed it. -/
def Successful (log : List Event) : Prop :=
  NoError log ∧ (log.filterMap Event.timestampRelease).getLast? ≠ some false

variable {log : List Event} {rpc : RPC} {release : Bool}

theorem noError_append_error : ¬NoError (log ++ [.reply rpc .error release]) := fun h =>
  h rpc release (by simp)

theorem noError_append {e : Event} (he : ∀ rpc release, e ≠ .reply rpc .error release) :
    NoError (log ++ [e]) ↔ NoError log := by
  refine forall₂_congr fun rpc release => not_congr ?_
  rw [List.mem_append, List.mem_singleton, or_iff_left (he rpc release).symm]

theorem successful_append_error : ¬Successful (log ++ [.reply rpc .error release]) := fun h =>
  noError_append_error h.1

theorem successful_append {e : Event} (he : ∀ rpc release, e ≠ .reply rpc .error release)
    (ht : e.timestampRelease = none) : Successful (log ++ [e]) ↔ Successful log := by
  rw [Successful, noError_append he, List.filterMap_append, List.filterMap_cons_none ht,
    List.filterMap_nil, List.append_nil, Successful]

theorem successful_append_timestamp (ht : rpc.messageId = .timestamp) :
    Successful (log ++ [.reply rpc .ok release]) ↔ NoError log ∧ release = true := by
  rw [Successful, noError_append (by simp), List.filterMap_append]
  simp [Event.timestampRelease, ht]

/-! ## The verdict in every state -/

namespace Switch
variable {sw sw' : Switch} {s : TransactionAppState} {failing : Prop}

theorem pending_timestamp_iff (h : sw.pending s = some rpc) :
    rpc.messageId = .timestamp ↔ s = .waitOnTimestampConfirmation := by
  rw [← pending_awaitedIn h, MessageId.awaitedIn_eq_timestamp]

/-- An `Ok` leaves the error of a switch as it is. -/
theorem Answer.hasError_ok (h : sw.Answer failing s .ok sw') :
    sw'.state.hasError = sw.state.hasError := by
  cases h with
  | flag => cases s <;> rfl
  | next => rfl
  | last => rfl

theorem Answer.hasError_error (h : sw.Answer failing s .error sw') (hs : s.countsErrors) :
    sw'.state.hasError := by
  cases h with
  | flag => cases s <;> first | rfl | contradiction
  | failed => rfl

end Switch

namespace TransactionApp
variable {app app' : TransactionApp} {element : ReplyElement} {l₁ l₂ : List Switch}
  {sw sw' : Switch}

theorem Noted.failing_ok (h : app.Noted rpc .ok l₁ sw l₂ sw') :
    (app.withSwitches (l₁ ++ sw' :: l₂)).Failing ↔ app.Failing := by
  constructor
  · intro hf
    by_contra hnot
    exact not_failing_replace hnot sw' h.switches (by rw [h.answer.hasError_ok]; exact id) hf
  · exact fun hf => hf.replace sw' h.switches h.answer.hasError

theorem Noted.failing_error (h : app.Noted rpc .error l₁ sw l₂ sw')
    (hs : app.transactionState.countsErrors) : (app.withSwitches (l₁ ++ sw' :: l₂)).Failing :=
  ⟨sw', List.mem_append_right _ (List.mem_cons_self ..), h.answer.hasError_error hs⟩

end TransactionApp

namespace Run

/-- The log of a run and the flags of its switches tell the same in every state. -/
def Judged (r : Run) : Prop :=
  match r.app.transactionState with
  | .beginOfTransaction | .waitOnLockResponse | .waitOnCandidateLockResponse
  | .waitOnCommitExecution | .waitOnDeleteOldConfiguration => Successful r.log
  | .waitOnCandidateConfirmation | .waitOnChangeConfirmation =>
    Successful r.log ↔ ¬r.app.Failing
  | .waitOnTimestampConfirmation => NoError r.log ↔ ¬r.app.Failing
  | .errorState | .waitOnDeleteCandidate => ¬Successful r.log
  | .waitOnUnlock =>
    Successful r.log ∧ (∀ sw ∈ r.app.switchStates, sw.state.hasCommited) ∨
      ¬Successful r.log ∧ ∃ sw ∈ r.app.switchStates, ¬sw.state.hasCommited
  | .endOfTransaction =>
    r.app.result = true ∧ (Successful r.log ↔ ∀ sw ∈ r.app.switchStates, sw.state.hasCommited)

variable {r r' : Run} {e : Event} {app : TransactionApp} {sent : List RPC}
  {element : ReplyElement} {l₁ l₂ : List Switch} {sw sw' : Switch}

/-- A reply that is no timestamp. -/
theorem successful_reply (h : sw.pending r.app.transactionState = some rpc)
    (hs : r.app.transactionState ≠ .waitOnTimestampConfirmation) (release : Bool) :
    Successful (r.log ++ [.reply rpc .ok release]) ↔ Successful r.log := by
  have hid : rpc.messageId ≠ .timestamp := fun hid => hs ((Switch.pending_timestamp_iff h).mp hid)
  exact successful_append (by simp) (by simp [Event.timestampRelease, hid])

theorem successful_lock (sw : Switch) (release : Bool) :
    Successful (r.log ++ [.reply sw.lock .ok release]) ↔ Successful r.log :=
  successful_append (by simp) (by simp [Event.timestampRelease, Switch.lock, Connection.createRPC])

/-- In `WaitOnUnlock` a reply does not change who has committed. -/
theorem commited_unlock (h : r.app.Noted rpc .ok l₁ sw l₂ sw')
    (hs : r.app.transactionState = .waitOnUnlock) :
    (l₁ ++ sw' :: l₂).map (·.state.hasCommited) =
      r.app.switchStates.map (·.state.hasCommited) := by
  have ha := h.answer
  rw [hs] at ha
  cases ha
  simp [h.switches, SwitchState.note]

/-- The flags that a verdict is about. -/
theorem forall_commited_iff {sws sws' : List Switch}
    (h : sws'.map (·.state.hasCommited) = sws.map (·.state.hasCommited)) :
    (∀ x ∈ sws', x.state.hasCommited) ↔ ∀ x ∈ sws, x.state.hasCommited := by
  have hmap : ∀ l : List Switch, (∀ x ∈ l, x.state.hasCommited) ↔
      ∀ b ∈ l.map (·.state.hasCommited), b = true := by simp
  rw [hmap, h, ← hmap]

/-- A reply that lets the application wait on keeps the verdict. -/
theorem Judged.stay_ok (hj : r.Judged) (h : r.app.Noted rpc .ok l₁ sw l₂ sw') (release : Bool) :
    (r.after (.reply rpc .ok release) (r.app.withSwitches (l₁ ++ sw' :: l₂)) sent).Judged := by
  have hp := h.pending
  have hok := successful_reply hp
  have hfailing := h.failing_ok
  have hcommited := commited_unlock h
  cases hs : r.app.transactionState <;> rw [hs] at hp hok hcommited <;> try cases hp
  case waitOnCandidateConfirmation | waitOnChangeConfirmation =>
    simp only [Judged, after, TransactionApp.withSwitches, hs] at hj hfailing ⊢
    rw [hok (by simp), hj, hfailing]
  case waitOnTimestampConfirmation =>
    simp only [Judged, after, TransactionApp.withSwitches, hs] at hj hfailing ⊢
    rw [noError_append (by simp), hj, hfailing]
  case waitOnUnlock =>
    have hall := forall_commited_iff (hcommited rfl)
    simp only [Judged, after, TransactionApp.withSwitches, hs] at hj ⊢
    rw [hok (by simp)]
    refine hj.imp (And.imp_right hall.mpr) (And.imp_right ?_)
    rintro ⟨x, hx, hcom⟩
    by_contra hnone
    push Not at hnone
    exact hcom (hall.mp hnone x hx)
  all_goals
    simp only [Judged, after, TransactionApp.withSwitches, hs] at hj ⊢
    rwa [hok (by simp)]

theorem Judged.stay_error (h : r.app.Noted rpc .error l₁ sw l₂ sw')
    (hcounts : r.app.transactionState.countsErrors) (release : Bool) :
    (r.after (.reply rpc .error release) (r.app.withSwitches (l₁ ++ sw' :: l₂)) sent).Judged := by
  have hfailing := h.failing_error hcounts
  cases hs : r.app.transactionState <;> rw [hs] at hcounts <;>
    simp only [TransactionAppState.countsErrors, Bool.false_eq_true] at hcounts
  all_goals
    simp only [Judged, after, TransactionApp.withSwitches, hs] at hfailing ⊢
    simp [hfailing, successful_append_error, noError_append_error]

theorem state_enter (x : Switch) (s : TransactionAppState) :
    (x.enter s).state = x.state := by
  cases s <;> rfl

/-- The verdict when all switches have replied. -/
theorem Judged.advance (hinv : r.app.Inv r.outstanding) (hj : r.Judged)
    (h : r.app.Noted rpc .ok l₁ sw l₂ sw') {s : TransactionAppState} {release : Bool}
    (hnone : r.app.transactionState.countsErrors → ∀ x ∈ l₁ ++ sw' :: l₂, ¬x.state.hasError)
    (hrelease : r.app.transactionState = .waitOnTimestampConfirmation → release)
    (hnext : s = r.app.transactionState.next r.app.timeSynchronous) :
    (r.after (.reply rpc .ok release)
      { r.app.withSwitches ((l₁ ++ sw' :: l₂).map (·.enter s)) with
        transactionState := s
        result := if s = .endOfTransaction then true else r.app.result } sent).Judged := by
  have hp := h.pending
  have hok := successful_reply hp
  have hfits := h.fits hinv.fits
  have hcommited := commited_unlock h
  have hnotFailing : r.app.transactionState.countsErrors → ¬r.app.Failing := fun hc hf => by
    obtain ⟨x, hx, he⟩ := h.failing_ok.mpr hf
    exact hnone hc x hx he
  have hmap : ∀ s, ((l₁ ++ sw' :: l₂).map (·.enter s)).map (·.state.hasCommited) =
      (l₁ ++ sw' :: l₂).map (·.state.hasCommited) := by
    intro s
    rw [List.map_map]
    exact List.map_congr_left fun x _ => by simp [state_enter]
  subst hnext
  cases hs : r.app.transactionState <;>
    rw [hs] at hp hok hcommited hfits hnotFailing hrelease <;> try cases hp
  case waitOnCandidateConfirmation =>
    simp only [Judged, after, hs, TransactionAppState.next] at hj ⊢
    rw [hok (by simp), hj]
    exact hnotFailing rfl
  -- the entries that go on to the changes have no error
  case waitOnCandidateLockResponse =>
    simp only [Judged, after, hs, TransactionAppState.next] at hj ⊢
    rw [hok (by simp)]
    refine iff_of_true hj ?_
    rintro ⟨y, hy, he⟩
    obtain ⟨x, hx, rfl⟩ := List.mem_map.mp hy
    obtain ⟨⟨l, hl⟩, -⟩ := hfits x hx
    rw [state_enter, hl] at he
    cases he
  case waitOnChangeConfirmation =>
    have hsucc := hj
    simp only [Judged, hs] at hsucc
    have hsuccessful := (hok (by simp) release).mpr (hsucc.mpr (hnotFailing rfl))
    cases hsync : r.app.timeSynchronous
    · simpa [Judged, after, TransactionAppState.next] using hsuccessful
    · have hfailing : ∀ x ∈ l₁ ++ sw' :: l₂, ¬x.state.hasError := hnone (by rw [hs]; rfl)
      simp only [Judged, after, TransactionAppState.next, if_true]
      refine iff_of_true hsuccessful.1 ?_
      rintro ⟨y, hy, he⟩
      obtain ⟨x, hx, rfl⟩ := List.mem_map.mp hy
      rw [state_enter] at he
      exact hfailing x hx he
  case waitOnTimestampConfirmation =>
    simp only [Judged, after, hs, TransactionAppState.next] at hj ⊢
    rw [successful_append_timestamp ((Switch.pending_timestamp_iff hp).mpr rfl), hj]
    exact ⟨hnotFailing rfl, hrelease rfl⟩
  case waitOnCommitExecution =>
    simp only [Judged, after, hs, TransactionAppState.next] at hj ⊢
    rwa [hok (by simp)]
  case waitOnDeleteOldConfiguration =>
    simp only [Judged, after, hs, TransactionAppState.next] at hj ⊢
    rw [hok (by simp)]
    refine .inl ⟨hj, (forall_commited_iff (hmap _)).mpr fun x hx => ?_⟩
    obtain ⟨c, t, hc⟩ := hfits x hx
    rw [hc]
  -- the way back of a failed transaction
  case waitOnDeleteCandidate =>
    simp only [Judged, after, hs, TransactionAppState.next] at hj ⊢
    rw [hok (by simp)]
    have hmem : sw' ∈ l₁ ++ sw' :: l₂ := List.mem_append_right _ (List.mem_cons_self ..)
    refine .inr ⟨hj, _, List.mem_map_of_mem hmem, ?_⟩
    rw [state_enter]
    exact (hfits sw' hmem).2
  case waitOnUnlock =>
    have hiff := forall_commited_iff ((hmap .endOfTransaction).trans (hcommited rfl))
    simp only [Judged, after, hs, TransactionAppState.next] at hj ⊢
    rw [hok (by simp)]
    refine ⟨by simp, ?_⟩
    change _ ↔ ∀ x ∈ (l₁ ++ sw' :: l₂).map (·.enter .endOfTransaction), x.state.hasCommited
    rw [hiff]
    -- all switches have committed, or one of them has not
    rcases hj with ⟨hsucc, hcom⟩ | ⟨hsucc, x, hx, hcom⟩
    · exact iff_of_true hsucc hcom
    · exact iff_of_false hsucc fun hall => hcom (hall x hx)

/-- The log tells of the failure when a transaction turns to the error state. -/
theorem not_successful_fail (hj : r.Judged) (h : r.app.Noted rpc element l₁ sw l₂ sw')
    {release : Bool} (hel : element = .ok ∨ element = .error)
    (hcounts : r.app.transactionState.countsErrors)
    (herror : (∃ x ∈ l₁ ++ sw' :: l₂, x.state.hasError) ∨
      r.app.transactionState = .waitOnTimestampConfirmation ∧ element = .ok ∧ release = false) :
    ¬Successful (r.log ++ [.reply rpc element release]) := by
  rcases hel with rfl | rfl
  · have hp := h.pending
    have hok := successful_reply hp
    rcases herror with ⟨x, hx, he⟩ | ⟨hs, -, rfl⟩
    · have hfailing := h.failing_ok.mp ⟨x, hx, he⟩
      cases hs : r.app.transactionState <;> rw [hs] at hcounts hok hp <;>
        simp only [TransactionAppState.countsErrors, Bool.false_eq_true] at hcounts
      case waitOnTimestampConfirmation =>
        simp only [Judged, hs] at hj
        rw [successful_append_timestamp ((Switch.pending_timestamp_iff hp).mpr rfl), hj]
        exact fun hsucc => hsucc.1 hfailing
      all_goals
        simp only [Judged, hs] at hj
        rw [hok (by simp), hj, not_not]
        exact hfailing
    · rw [hs] at hp
      rw [successful_append_timestamp ((Switch.pending_timestamp_iff hp).mpr rfl)]
      simp
  · exact successful_append_error

/-- Every step keeps the verdict. -/
theorem Judged.step (hinv : r.app.Inv r.outstanding) (hj : r.Judged)
    (hm : r.app.Move e app sent) : (r.after e app sent).Judged := by
  cases hm with
  | start sw hs hfind =>
    simp only [Judged, after, hs] at hj ⊢
    rwa [successful_append (by simp) rfl]
  | lockNext l₁ sw l₂ next release hs hsw hunlocked hnext =>
    simp only [Judged, after, TransactionApp.withSwitches, hs] at hj ⊢
    rwa [successful_lock]
  | lockAll l₁ sw l₂ release hs hsw hunlocked hall =>
    simp only [Judged, after, hs] at hj ⊢
    rw [successful_lock]
    -- no switch has an error before the changes
    refine iff_of_true hj ?_
    rintro ⟨x, hx, he⟩
    obtain ⟨⟨l, hl⟩, -⟩ := TransactionApp.fits_replace_locked hinv hs hsw x hx False
    rw [hl] at he
    cases he
  | refusedFirst sw release hs hsw hnone =>
    have hfits := hinv.fits sw hsw
    rw [hs] at hfits
    obtain ⟨⟨l, hl⟩, -⟩ := hfits
    exact ⟨rfl, iff_of_false successful_append_error fun hall => by simpa [hl] using hall sw hsw⟩
  | refusedLater sw release hs hsw hunlocked hsome =>
    have hfits := hinv.fits sw hsw
    rw [hs] at hfits
    obtain ⟨⟨l, hl⟩, -⟩ := hfits
    exact .inr ⟨successful_append_error, sw, hsw, by simp [hl]⟩
  | unlockRefused rpc release h =>
    obtain ⟨hs, hsome, hcommit, hR⟩ := h
    obtain ⟨-, x, hx, -, rfl⟩ := hR rpc (List.mem_singleton.mpr rfl)
    simp only [Judged, after, hs] at hj ⊢
    rwa [successful_append (by simp)
      (by simp [Event.timestampRelease, Switch.unlock, Connection.createRPC])]
  | stay l₁ sw l₂ sw' rpc element release h hel hwait =>
    rcases hel with rfl | ⟨rfl, hcounts⟩
    · exact hj.stay_ok h release
    · exact .stay_error h hcounts release
  | advance l₁ sw l₂ sw' rpc release s h hall hnone hrelease hnext hfirst =>
    exact hj.advance hinv h hnone hrelease hnext
  | fail l₁ sw l₂ sw' rpc element release h hel hcounts hall herror hcandidate =>
    exact not_successful_fail hj h hel hcounts herror
  | abort l₁ sw l₂ sw' rpc release hs h hall =>
    have hmem : sw' ∈ l₁ ++ sw' :: l₂ := List.mem_append_right _ (List.mem_cons_self ..)
    have hfits := h.fits hinv.fits sw' hmem
    rw [hs] at hfits
    exact .inr ⟨successful_append_error, sw', hmem, (TransactionApp.fits_errorState hfits rfl).2⟩
  | lambda hs =>
    simp only [Judged, after, hs] at hj ⊢
    rwa [successful_append (by simp) rfl]

theorem judged_of_reachable (h : transaction.Reachable r) : r.Judged := by
  have hboth : r.app.Inv r.outstanding ∧ r.Judged := by
    apply h.invariant (P := fun r => r.app.Inv r.outstanding ∧ r.Judged)
    · rintro r ⟨timeSynchronous, connections, hopened, rfl⟩
      exact ⟨inv_new hopened, by simp [Judged, new, Successful, NoError]⟩
    · rintro r e r' ⟨hinv, hj⟩ hs
      have hinv' := inv_step hinv hs
      obtain ⟨app, sent, hm, rfl⟩ := step_move hinv hs
      exact ⟨hinv', hj.step hinv hm⟩
  exact hboth.2

/-! ## The result -/

/-- `result` tells whether every switch has committed. -/
def ResultRight (r : Run) : Prop :=
  r.app.result = true ↔ ∀ sw ∈ r.app.switchStates, sw.state.hasCommited

/-- At the end the result is right if and only if nothing went wrong: it is true also after a
refused lock, a failed candidate or change, and a missed timestamp. -/
theorem resultRight_iff (h : transaction.Reachable r)
    (hend : r.app.transactionState = .endOfTransaction) : r.ResultRight ↔ Successful r.log := by
  have hj := judged_of_reachable h
  simp only [Judged, hend] at hj
  rw [ResultRight, hj.1, eq_self_iff_true, true_iff]
  exact hj.2.symm

/-- Two switches with one change each. -/
def twoSwitches : List Connection :=
  [⟨1, 11, [{ type := .editConfig, target := .candidate, data := .config 5 }]⟩,
    ⟨2, 12, [{ type := .editConfig, target := .candidate, data := .config 6 }]⟩]

theorem opened_twoSwitches : Opened twoSwitches where
  addresses := by decide
  sessions := by decide
  waiting := by decide

/-- Neither switch can create its candidate. -/
def noCandidate : List Event :=
  [.startTransaction,
    .reply ⟨11, .lock, .lock .running⟩ .ok false,
    .reply ⟨12, .lock, .lock .running⟩ .ok false,
    .reply ⟨12, .copyConfig, .copyConfig .running .candidate⟩ .error false,
    .reply ⟨11, .copyConfig, .copyConfig .running .candidate⟩ .error false,
    .reply ⟨11, .unlock, .unlock .running⟩ .ok false,
    .reply ⟨12, .unlock, .unlock .running⟩ .ok false]

theorem resultRight_iff_noCandidate :
    ∃ r, transaction.runFrom (.new false twoSwitches) noCandidate = some r ∧
      r.app.transactionState = .endOfTransaction ∧ (r.ResultRight ↔ Successful r.log) := by
  obtain ⟨r, hr, hend⟩ : ∃ r, transaction.runFrom (.new false twoSwitches) noCandidate = some r ∧
      r.app.transactionState = .endOfTransaction := ⟨_, rfl, rfl⟩
  have hreachable : transaction.Reachable r :=
    System.reachable_of_runFrom ⟨false, twoSwitches, opened_twoSwitches, rfl⟩ hr
  exact ⟨r, hr, hend, resultRight_iff hreachable hend⟩

/-- The lock of the first switch is refused: nothing is committed, and the result is true. -/
theorem refusedLock_not_right :
    ¬∀ r, transaction.Reachable r → r.app.transactionState = .endOfTransaction → r.ResultRight := by
  intro hall
  obtain ⟨r, hr, hend, hresult, hcommited⟩ : ∃ r, transaction.runFrom (.new false twoSwitches)
      [.startTransaction, .reply ⟨11, .lock, .lock .running⟩ .error false] = some r ∧
      r.app.transactionState = .endOfTransaction ∧ r.app.result = true ∧
      r.app.switchStates.map (·.state.hasCommited) = [false, false] := ⟨_, rfl, rfl, rfl, rfl⟩
  have hreachable : transaction.Reachable r :=
    System.reachable_of_runFrom ⟨false, twoSwitches, opened_twoSwitches, rfl⟩ hr
  have hright := (hall r hreachable hend).mp hresult
  have : ∀ b ∈ r.app.switchStates.map (·.state.hasCommited), b = true := by simpa using hright
  rw [hcommited] at this
  exact absurd (this false (List.mem_cons_self ..)) (by decide)

end Run

end TsnReconfig.NetConf
