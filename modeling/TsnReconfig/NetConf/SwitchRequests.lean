import TsnReconfig.NetConf.ErrorRecovery

/-!
# The requests to a switch and its locks

Which requests an application has in flight in each of its states, and what an event tells about
the locks that the switches have granted.
-/

namespace TsnReconfig.NetConf

open TsnReconfig.Lib

/-! ## Requests -/

namespace Switch

/-- The type of the first change, none for a switch without changes. -/
def firstType (sw : Switch) : Option NetConfMessageType := sw.configurations.head?.map (·.type)

/-- The requests to a switch, with the states that wait for their replies. Only the first change
keeps the type that its configuration has. -/
inductive Request (sw : Switch) : TransactionAppState → RPC → Prop
  | lock : Request sw .waitOnLockResponse sw.lock
  | copyConfig : Request sw .waitOnCandidateConfirmation sw.copyConfig
  | lockCandidate : Request sw .waitOnCandidateLockResponse sw.lockCandidate
  | change (config : Configuration) (i : ℕ) (htarget : config.target = .candidate)
      (htype : sw.firstType = some config.type ∨ config.type = .editConfig) :
      Request sw .waitOnChangeConfirmation (sw.createRPC config (.change i))
  | timestamp : Request sw .waitOnTimestampConfirmation sw.timestamp
  | commitApproved : Request sw .waitOnCommitExecution sw.commitApproved
  | deleteOldConfig (hlocked : sw.state.hasLockedCandidate) :
      Request sw .waitOnDeleteOldConfiguration sw.deleteOldConfig
  | deleteCandidate : Request sw .waitOnDeleteCandidate sw.deleteCandidate
  | unlock : Request sw .waitOnUnlock sw.unlock

variable {sw : Switch} {failing : Prop} {s : TransactionAppState} {rpc : RPC}

theorem Request.sessionId (h : sw.Request s rpc) : rpc.sessionId = sw.sessionId := by
  cases h <;> rfl

/-- The first change, or one that has been made an edit. -/
theorem Changing.request {done rest : List Configuration} {config : Configuration}
    (h : sw.Changing done config rest) :
    sw.Request .waitOnChangeConfirmation (sw.createRPC config (.change done.length)) := by
  refine .change config done.length h.target ?_
  cases done with
  | nil => exact .inl (by simp [firstType, h.configurations])
  | cons c done => exact .inr (h.type (by simp))

theorem Fits.request (h : sw.Fits failing s) (hp : sw.pending s = some rpc) : sw.Request s rpc := by
  cases s <;> simp only [pending, reduceCtorEq, Option.ite_none_left_eq_some,
    Option.ite_none_right_eq_some, Option.some.injEq] at hp
  case waitOnChangeConfirmation =>
    obtain ⟨c, e, hc, -, hchanging, -⟩ := h
    obtain ⟨rfl, rfl⟩ : c = false ∧ e = false := by simpa [hc] using hp.1
    obtain ⟨done, config, rest, hch⟩ := hchanging (by simp) (by simp)
    have hrpc := hp.2
    rw [hch.requestedChange] at hrpc
    obtain rfl := Option.some.inj hrpc
    exact hch.request
  case waitOnDeleteOldConfiguration =>
    obtain ⟨hcandidate, rfl⟩ := hp
    obtain ⟨c, t, hc⟩ := h
    refine .deleteOldConfig ?_
    simpa [hc] using hcandidate
  all_goals
    obtain ⟨-, rfl⟩ := hp
    constructor

/-- Only one of the requests locks the running store. -/
theorem Request.eq_lock_iff (h : sw.Request s rpc) :
    rpc = sw.lock ↔ rpc.operation = .lock .running := by
  cases h with
  | change config i htarget =>
    cases htype : config.type <;>
      simp [Switch.lock, Connection.createRPC, Configuration.operation, htype, htarget]
  | _ => simp [Switch.lock, Switch.copyConfig, Switch.lockCandidate, Switch.timestamp,
      Switch.commitApproved, Switch.deleteOldConfig, Switch.deleteCandidate, Switch.unlock,
      Connection.createRPC, Configuration.operation]

/-- Only one of the requests unlocks it. -/
theorem Request.eq_unlock_iff (h : sw.Request s rpc) :
    rpc = sw.unlock ↔ rpc.operation = .unlock .running := by
  cases h with
  | change config i htarget =>
    cases htype : config.type <;>
      simp [Switch.unlock, Connection.createRPC, Configuration.operation, htype, htarget]
  | _ => simp [Switch.lock, Switch.copyConfig, Switch.lockCandidate, Switch.timestamp,
      Switch.commitApproved, Switch.deleteOldConfig, Switch.deleteCandidate, Switch.unlock,
      Connection.createRPC, Configuration.operation]

end Switch

namespace TransactionApp
variable {app app' : TransactionApp} {out sent : List RPC} {e : Event} {rpc : RPC}

/-- A request in flight is one to a switch. -/
theorem Inv.request (h : app.Inv out) (hrpc : rpc ∈ out) :
    ∃ sw ∈ app.switchStates, sw.Request app.transactionState rpc := by
  obtain ⟨sw, hsw, ⟨hs, rfl⟩ | hp | ⟨hs, rfl⟩⟩ := h.request_cases hrpc
  · exact ⟨sw, hsw, hs ▸ .lock⟩
  · exact ⟨sw, hsw, (h.fits sw hsw).request hp⟩
  · exact ⟨sw, hsw, hs ▸ .unlock⟩

/-- The request to a switch of the application. -/
theorem Inv.request_of_sessionId (h : app.Inv out) (hrpc : rpc ∈ out) {sw : Switch}
    (hsw : sw ∈ app.switchStates) (hsession : rpc.sessionId = sw.sessionId) :
    sw.Request app.transactionState rpc := by
  obtain ⟨x, hx, hrequest⟩ := h.request hrpc
  obtain rfl : x = sw := h.eq_of_sessionId hx hsw (hrequest.sessionId.symm.trans hsession)
  exact hrequest

/-- No two requests in flight have the same session. -/
theorem Inv.nodup_outstanding (h : app.Inv out) : (out.map (·.sessionId)).Nodup := by
  have hround : ∀ s, Round (·.pending s) app.switchStates out → (out.map (·.sessionId)).Nodup := by
    intro s hround
    rw [(hround.map (·.sessionId)).nodup_iff]
    exact h.nodup.1.sublist (map_filterMap_sublist fun sw _ rpc => Switch.pending_sessionId)
  rcases h.requests with hout | ⟨hs, -, -, hR⟩
  · unfold Outstanding at hout
    cases hs : app.transactionState <;> rw [hs] at hout
    case beginOfTransaction | endOfTransaction => simp [hout]
    case errorState => simp [hout.1]
    case waitOnLockResponse =>
      obtain ⟨sw, -, rfl⟩ := hout
      simp
    all_goals exact hround _ hout.1
  · cases out with
    | nil => simp
    | cons rpc out =>
      rw [(hR rpc (List.mem_cons_self ..)).1]
      simp

end TransactionApp

/-! ## Locks -/

/-- The entry of a switch before and after an event, which notes the locks that are granted and
given back. -/
structure Noting (e : Event) (x x' : Switch) : Prop where
  profile : x'.profile = x.profile
  running : x'.state.hasLockedRunning ↔
    (∃ release, e = .reply x.lock .ok release) ∨
      x.state.hasLockedRunning ∧ ¬∃ release, e = .reply x.unlock .ok release
  candidate : x'.state.hasLockedCandidate ↔
    (∃ release, e = .reply x.lockCandidate .ok release) ∨
      x.state.hasLockedCandidate ∧ ¬∃ release,
        e = .reply x.deleteOldConfig .ok release ∨ e = .reply x.deleteCandidate .ok release

namespace Noting
variable {e : Event} {x x' sw sw' : Switch} {rpc : RPC} {element : ReplyElement} {release : Bool}
  {failing : Prop} {s : TransactionAppState} {l₁ l₂ : List Switch}

theorem sessionId (h : Noting e x x') : x'.sessionId = x.sessionId :=
  congrArg (fun p => p.2.1) h.profile

theorem remoteAddress (h : Noting e x x') : x'.remoteAddress = x.remoteAddress :=
  congrArg (fun p => p.1) h.profile

theorem firstType (h : Noting e x x') : x'.firstType = x.firstType :=
  congrArg (fun p => p.2.2.2) h.profile

/-- An event of another switch. -/
theorem other (h : rpc.sessionId ≠ x.sessionId) : Noting (.reply rpc element release) x x where
  profile := rfl
  running := by
    have hne : ∀ rpc', rpc'.sessionId = x.sessionId → rpc ≠ rpc' := by
      rintro rpc' hrpc' rfl
      exact h hrpc'
    simp [hne x.lock rfl, hne x.unlock rfl]
  candidate := by
    have hne : ∀ rpc', rpc'.sessionId = x.sessionId → rpc ≠ rpc' := by
      rintro rpc' hrpc' rfl
      exact h hrpc'
    simp [hne x.lockCandidate rfl, hne x.deleteOldConfig rfl, hne x.deleteCandidate rfl]

/-- No lock is granted or given back. -/
theorem of_ne (h : ∀ rpc release, e ≠ .reply rpc .ok release) (x : Switch) : Noting e x x where
  profile := rfl
  running := by simp [h]
  candidate := by simp [h]

/-- The switch of a reply to a lock request. -/
theorem lock (x : Switch) (release : Bool) : Noting (.reply x.lock .ok release) x x.locked where
  profile := rfl
  running := by simp [Switch.locked]
  candidate := by
    simp [Switch.locked, Switch.lock, Switch.lockCandidate, Switch.deleteOldConfig,
      Switch.deleteCandidate, Connection.createRPC]

/-- The switch of a reply that the application waited for. -/
theorem answer (hp : sw.pending s = some rpc) (ha : sw.Answer failing s element sw') :
    Noting (.reply rpc element release) sw sw' := by
  have hid := Switch.pending_awaitedIn hp
  have hprofile := ha.profile
  cases ha with
  | flag hs =>
    cases s <;> simp only [Switch.pending, reduceCtorEq, Option.ite_none_left_eq_some,
      Option.ite_none_right_eq_some, Option.some.injEq] at hp
    case waitOnChangeConfirmation => exact absurd rfl hs
    all_goals
      obtain ⟨-, rfl⟩ := hp
      refine ⟨hprofile, ?_, ?_⟩ <;> cases element <;>
        simp [SwitchState.note, Switch.lock, Switch.copyConfig, Switch.lockCandidate,
          Switch.timestamp, Switch.commitApproved, Switch.deleteOldConfig, Switch.deleteCandidate,
          Switch.unlock, Connection.createRPC]
  | _ =>
    -- the reply to a change notes no lock
    have hne : ∀ m : MessageId, m.awaitedIn ≠ .waitOnChangeConfirmation →
        ∀ rpc', rpc'.messageId = m → rpc ≠ rpc' := by
      rintro m hm rpc' rfl rfl
      exact hm hid
    refine ⟨hprofile, ?_, ?_⟩
    · simp [Switch.confirm, hne .lock (by decide) sw.lock rfl,
        hne .unlock (by decide) sw.unlock rfl]
    · simp [Switch.confirm, hne .lockCandidate (by decide) sw.lockCandidate rfl,
        hne .deleteOldConfig (by decide) sw.deleteOldConfig rfl,
        hne .deleteCandidate (by decide) sw.deleteCandidate rfl]

theorem enter (h : Noting e x x') (s : TransactionAppState) : Noting e x (x'.enter s) where
  profile := (TransactionApp.profile_enter x' s).trans h.profile
  running := by cases s <;> exact h.running
  candidate := by cases s <;> exact h.candidate

/-- The entries of all switches when one of them changes. -/
theorem replace (hother : ∀ x ∈ l₁ ++ l₂, rpc.sessionId ≠ x.sessionId)
    (h : Noting (.reply rpc element release) sw sw') :
    List.Forall₂ (Noting (.reply rpc element release)) (l₁ ++ sw :: l₂) (l₁ ++ sw' :: l₂) := by
  have hsame : ∀ l : List Switch, (∀ x ∈ l, rpc.sessionId ≠ x.sessionId) →
      List.Forall₂ (Noting (.reply rpc element release)) l l := fun l hl =>
    List.forall₂_same.mpr fun x hx => .other (hl x hx)
  exact List.rel_append (hsame l₁ fun x hx => hother x (List.mem_append_left _ hx))
    (.cons h (hsame l₂ fun x hx => hother x (List.mem_append_right _ hx)))

end Noting

namespace TransactionApp
variable {app app' : TransactionApp} {out sent : List RPC} {e : Event} {rpc : RPC}
  {element : ReplyElement} {l₁ l₂ : List Switch} {sw sw' : Switch} {release : Bool}

/-- The switches beside one have other sessions. -/
theorem Inv.sessionId_ne (h : app.Inv out) (hsw : app.switchStates = l₁ ++ sw :: l₂) :
    ∀ x ∈ l₁ ++ l₂, sw.sessionId ≠ x.sessionId := by
  have hnodup := h.nodup.1
  rw [hsw] at hnodup
  have hkey := key_notMem_of_nodup hnodup
  intro x hx heq
  rcases List.mem_append.mp hx with hx | hx
  · exact hkey.1 (heq ▸ List.mem_map_of_mem hx)
  · exact hkey.2 (heq ▸ List.mem_map_of_mem hx)

theorem Noted.noting (h : app.Noted rpc element l₁ sw l₂ sw') (hinv : app.Inv out) :
    List.Forall₂ (Noting (.reply rpc element release)) app.switchStates (l₁ ++ sw' :: l₂) := by
  rw [h.switches]
  refine Noting.replace (fun x hx => ?_) (.answer h.pending h.answer)
  rw [Switch.pending_sessionId h.pending]
  exact hinv.sessionId_ne h.switches x hx

/-- When the transaction starts no lock is noted. -/
theorem Move.of_begin (hm : app.Move e app' sent) (hinv : app.Inv out) (he : e.Possible out)
    (hs : app.transactionState = .beginOfTransaction) :
    e = .startTransaction ∧ ∀ x ∈ app'.switchStates, x.state = {} := by
  have hout := hinv.outstanding_of_ne (by simp [hs])
  unfold Outstanding at hout
  rw [hs] at hout
  subst hout
  cases hm with
  | start sw hs' hfind =>
    refine ⟨rfl, fun x hx => ?_⟩
    obtain ⟨c, -, rfl⟩ := List.mem_map.mp hx
    rfl
  | lambda hs' => simp [hs] at hs'
  | _ => exact absurd he List.not_mem_nil

/-- Every move notes what the event tells about the locks. -/
theorem Move.noting (hm : app.Move e app' sent) (hinv : app.Inv out) (he : e.Possible out)
    (hs : app.transactionState ≠ .beginOfTransaction) :
    List.Forall₂ (Noting e) app.switchStates app'.switchStates := by
  have hsame : ∀ e, (∀ rpc release, e ≠ .reply rpc .ok release) →
      List.Forall₂ (Noting e) app.switchStates app.switchStates := fun e he =>
    List.forall₂_same.mpr fun x _ => .of_ne he x
  cases hm with
  | start sw hs' => exact absurd hs' hs
  | lockNext l₁ sw l₂ next release hs' hsw hunlocked hnext =>
    rw [hsw]
    exact Noting.replace (hinv.sessionId_ne hsw) (.lock sw release)
  | lockAll l₁ sw l₂ release hs' hsw hunlocked hall =>
    rw [hsw]
    exact Noting.replace (hinv.sessionId_ne hsw) (.lock sw release)
  | refusedFirst sw release hs' hsw hnone => exact hsame _ (by simp)
  | refusedLater sw release hs' hsw hunlocked hsome => exact hsame _ (by simp)
  | unlockRefused rpc release h =>
    obtain ⟨hs', hsome, hcommit, hR⟩ := h
    obtain ⟨-, sw, hsw, hunlocked, rfl⟩ := hR rpc (List.mem_singleton.mpr rfl)
    obtain ⟨l₁, l₂, hsw⟩ := List.append_of_mem hsw
    rw [hsw]
    refine Noting.replace (hinv.sessionId_ne hsw) ⟨rfl, ?_, ?_⟩
    · simp [hunlocked, Switch.unlock, Switch.lock, Connection.createRPC]
    · simp [Switch.unlock, Switch.lockCandidate, Switch.deleteOldConfig, Switch.deleteCandidate,
        Connection.createRPC]
  | stay l₁ sw l₂ sw' rpc element release h hel hwait => exact h.noting hinv
  | advance l₁ sw l₂ sw' rpc release s h hall hnone hrelease hnext hfirst =>
    have hnoting : List.Forall₂ (Noting (.reply rpc .ok release)) app.switchStates
      (l₁ ++ sw' :: l₂) := h.noting hinv
    show List.Forall₂ _ _ ((l₁ ++ sw' :: l₂).map (·.enter s))
    rw [List.forall₂_map_right_iff]
    exact hnoting.imp fun x x' h => h.enter s
  | fail l₁ sw l₂ sw' rpc element release h hel hcounts hall herror hcandidate =>
    exact h.noting hinv
  | abort l₁ sw l₂ sw' rpc release hs' h hall => exact h.noting hinv
  | lambda hs' => exact hsame _ (by simp)

/-- The transaction ends when no lock is noted. -/
theorem Move.of_end (hm : app.Move e app' sent)
    (hs : app'.transactionState = .endOfTransaction) :
    ∀ x ∈ app'.switchStates, ¬x.state.hasLockedRunning := by
  have hpending : ∀ {rpc element l₁ sw l₂ sw'}, app.Noted rpc element l₁ sw l₂ sw' →
      app.transactionState ≠ .endOfTransaction := by
    intro rpc element l₁ sw l₂ sw' h hs
    have hp := h.pending
    rw [hs] at hp
    cases hp
  cases hm with
  | start => cases hs
  | lockNext l₁ sw l₂ next release hs' => simp [withSwitches, hs'] at hs
  | lockAll => cases hs
  | refusedFirst sw release hs' hsw hnone => exact hnone
  | refusedLater => cases hs
  | unlockRefused rpc release h => simp [h.1] at hs
  | stay l₁ sw l₂ sw' rpc element release h => exact absurd hs (hpending h)
  | advance l₁ sw l₂ sw' rpc release s h hall hnone hrelease hnext =>
    have hunlock := TransactionAppState.eq_waitOnUnlock_of_next (waits_of_pending h.pending)
      (hnext.symm.trans hs)
    intro x hx
    obtain ⟨y, hy, rfl⟩ := List.mem_map.mp hx
    obtain rfl : s = .endOfTransaction := hs
    have hset := hall y hy
    rw [hunlock] at hset
    simpa [Switch.settled, Switch.pending, Switch.enter] using hset
  | fail => cases hs
  | abort => cases hs
  | lambda => cases hs

/-- In the states that accept `Ok` only, nothing else is handled. -/
theorem Move.eq_ok (hm : app.Move (.reply rpc element release) app' sent)
    (hs : app.transactionState.acceptsOkOnly) : element = .ok := by
  have hcounts : ¬app.transactionState.countsErrors := by
    intro hc
    cases h : app.transactionState <;>
      simp [h, TransactionAppState.acceptsOkOnly, TransactionAppState.countsErrors] at hs hc
  cases hm with
  | refusedFirst sw release hs' => simp [hs', TransactionAppState.acceptsOkOnly] at hs
  | refusedLater sw release hs' => simp [hs', TransactionAppState.acceptsOkOnly] at hs
  | stay l₁ sw l₂ sw' rpc element release h hel => exact hel.resolve_right fun he => hcounts he.2
  | fail l₁ sw l₂ sw' rpc element release h hel hcounts' => exact absurd hcounts' hcounts
  | abort l₁ sw l₂ sw' rpc release hs' => simp [hs', TransactionAppState.acceptsOkOnly] at hs
  | _ => rfl

/-- A connection of the application has a switch once the transaction has started. -/
theorem Inv.exists_connection (h : app.Inv out) (hsw : sw ∈ app.switchStates) :
    ∃ c ∈ app.connections, c.profile = sw.profile := by
  have hmem := (h.switches (h.notBegin hsw)).mem_iff.mp (List.mem_map_of_mem hsw)
  exact List.mem_map.mp hmem

end TransactionApp

/-- At the end of a transaction no lock is noted. -/
theorem Run.unlocked_of_end {r : Run} (h : transaction.Reachable r)
    (hs : r.app.transactionState = .endOfTransaction) :
    ∀ x ∈ r.app.switchStates, ¬x.state.hasLockedRunning := by
  revert hs
  apply System.ReachableUnder.invariant h
    (P := fun r => r.app.transactionState = .endOfTransaction →
      ∀ x ∈ r.app.switchStates, ¬x.state.hasLockedRunning)
  · rintro r ⟨timeSynchronous, connections, -, rfl⟩ hs
    cases hs
  · intro r e r' hr _ _ hstep
    obtain ⟨app, sent, hm, rfl⟩ := step_move (inv_of_reachable hr) hstep
    exact hm.of_end

end TsnReconfig.NetConf
