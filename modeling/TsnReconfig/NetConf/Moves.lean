import TsnReconfig.NetConf.Handlers

/-!
# The moves of a transaction

Every event that an application handles is one of a few moves: it locks the next switch, notes
the reply of a switch while it waits for others, advances when all have replied, or turns to the
way back. The invariant of a transaction is kept by each of them.
-/

namespace TsnReconfig.NetConf

open TsnReconfig.Lib

namespace TransactionAppState

/-- The state after `s` when all switches have replied without an error. -/
def next (timeSynchronous : Bool) : TransactionAppState → TransactionAppState
  | .waitOnCandidateConfirmation => .waitOnCandidateLockResponse
  | .waitOnCandidateLockResponse => .waitOnChangeConfirmation
  | .waitOnChangeConfirmation =>
    if timeSynchronous then .waitOnTimestampConfirmation else .waitOnCommitExecution
  | .waitOnTimestampConfirmation => .waitOnCommitExecution
  | .waitOnCommitExecution => .waitOnDeleteOldConfiguration
  | .waitOnDeleteOldConfiguration => .waitOnUnlock
  | .waitOnDeleteCandidate => .waitOnUnlock
  | .waitOnUnlock => .endOfTransaction
  | s => s

theorem timeSynchronous_of_next {timeSynchronous : Bool} {s : TransactionAppState}
    (h : s.next timeSynchronous = .waitOnTimestampConfirmation) : timeSynchronous := by
  cases s <;> cases timeSynchronous <;> simp [next] at h ⊢

theorem eq_waitOnUnlock_of_next {timeSynchronous : Bool} {s : TransactionAppState}
    (hs : s.countsErrors ∨ s.acceptsOkOnly) (h : s.next timeSynchronous = .endOfTransaction) :
    s = .waitOnUnlock := by
  cases s <;> cases timeSynchronous <;> simp [next, countsErrors, acceptsOkOnly] at h hs ⊢

end TransactionAppState

namespace Switch

/-- The switch when the application enters a state: for the changes the first one is requested. -/
def enter (sw : Switch) : TransactionAppState → Switch
  | .waitOnChangeConfirmation =>
    { sw with
      configurations :=
        match sw.configurations with
        | [] => []
        | config :: rest => { config with target := .candidate, state := .requested } :: rest }
  | _ => sw

/-- The switch with its running store locked. -/
def locked (sw : Switch) : Switch := { sw with state := { sw.state with hasLockedRunning := true } }

end Switch

namespace TransactionApp

/-- The requests of a state to all switches. -/
def requests (s : TransactionAppState) (sws : List Switch) : List RPC := sws.filterMap (·.pending s)

/-- A reply to a request in flight, and the switch that sent it before and after. -/
structure Noted (app : TransactionApp) (rpc : RPC) (element : ReplyElement) (l₁ : List Switch)
    (sw : Switch) (l₂ : List Switch) (sw' : Switch) : Prop where
  switches : app.switchStates = l₁ ++ sw :: l₂
  pending : sw.pending app.transactionState = some rpc
  answer : sw.Answer app.Failing app.transactionState element sw'

/-- What an application does with an event. -/
inductive Move (app : TransactionApp) : Event → TransactionApp → List RPC → Prop
  | start (sw : Switch) (hs : app.transactionState = .beginOfTransaction)
      (hfind : app.determineLockOrder.switchStates.find? (·.state.isInState .switchAvailable) =
        some sw) :
      Move app .startTransaction
        { app.determineLockOrder with transactionState := .waitOnLockResponse } [sw.lock]
  | lockNext (l₁ : List Switch) (sw : Switch) (l₂ : List Switch) (next : Switch) (release : Bool)
      (hs : app.transactionState = .waitOnLockResponse)
      (hsw : app.switchStates = l₁ ++ sw :: l₂) (hunlocked : ¬sw.state.hasLockedRunning)
      (hnext : (l₁ ++ sw.locked :: l₂).find? (·.state.isInState .switchAvailable) = some next) :
      Move app (.reply sw.lock .ok release) (app.withSwitches (l₁ ++ sw.locked :: l₂)) [next.lock]
  | lockAll (l₁ : List Switch) (sw : Switch) (l₂ : List Switch) (release : Bool)
      (hs : app.transactionState = .waitOnLockResponse)
      (hsw : app.switchStates = l₁ ++ sw :: l₂) (hunlocked : ¬sw.state.hasLockedRunning)
      (hall : ∀ x ∈ l₁ ++ sw.locked :: l₂, x.state.hasLockedRunning) :
      Move app (.reply sw.lock .ok release)
        { app.withSwitches (l₁ ++ sw.locked :: l₂) with
          transactionState := .waitOnCandidateConfirmation }
        (requests .waitOnCandidateConfirmation (l₁ ++ sw.locked :: l₂))
  | refusedFirst (sw : Switch) (release : Bool)
      (hs : app.transactionState = .waitOnLockResponse) (hsw : sw ∈ app.switchStates)
      (hnone : ∀ x ∈ app.switchStates, ¬x.state.hasLockedRunning) :
      Move app (.reply sw.lock .error release)
        { app with transactionState := .endOfTransaction, result := true } []
  | refusedLater (sw : Switch) (release : Bool)
      (hs : app.transactionState = .waitOnLockResponse) (hsw : sw ∈ app.switchStates)
      (hunlocked : ¬sw.state.hasLockedRunning)
      (hsome : ∃ x ∈ app.switchStates, x.state.hasLockedRunning) :
      Move app (.reply sw.lock .error release)
        { app with transactionState := .waitOnUnlock, result := false } [sw.unlock]
  | unlockRefused (rpc : RPC) (release : Bool) (h : app.Refused [rpc]) :
      Move app (.reply rpc .ok release) app []
  | stay (l₁ : List Switch) (sw : Switch) (l₂ : List Switch) (sw' : Switch) (rpc : RPC)
      (element : ReplyElement) (release : Bool) (h : app.Noted rpc element l₁ sw l₂ sw')
      (hel : element = .ok ∨ element = .error ∧ app.transactionState.countsErrors)
      (hwait : ∃ x ∈ l₁ ++ sw' :: l₂, ¬x.settled app.transactionState) :
      Move app (.reply rpc element release) (app.withSwitches (l₁ ++ sw' :: l₂))
        (sw'.pending app.transactionState).toList
  | advance (l₁ : List Switch) (sw : Switch) (l₂ : List Switch) (sw' : Switch) (rpc : RPC)
      (release : Bool) (s : TransactionAppState) (h : app.Noted rpc .ok l₁ sw l₂ sw')
      (hall : ∀ x ∈ l₁ ++ sw' :: l₂, x.settled app.transactionState)
      (hnone : app.transactionState.countsErrors → ∀ x ∈ l₁ ++ sw' :: l₂, ¬x.state.hasError)
      (hrelease : app.transactionState = .waitOnTimestampConfirmation → release)
      (hnext : s = app.transactionState.next app.timeSynchronous)
      (hfirst : s = .waitOnChangeConfirmation →
        ∀ x ∈ l₁ ++ sw' :: l₂, x.configurations ≠ []) :
      Move app (.reply rpc .ok release)
        { app.withSwitches ((l₁ ++ sw' :: l₂).map (·.enter s)) with
          transactionState := s
          result := if s = .endOfTransaction then true else app.result }
        (requests s ((l₁ ++ sw' :: l₂).map (·.enter s)))
  | fail (l₁ : List Switch) (sw : Switch) (l₂ : List Switch) (sw' : Switch) (rpc : RPC)
      (element : ReplyElement) (release : Bool) (h : app.Noted rpc element l₁ sw l₂ sw')
      (hel : element = .ok ∨ element = .error) (hcounts : app.transactionState.countsErrors)
      (hall : ∀ x ∈ l₁ ++ sw' :: l₂, x.settled app.transactionState)
      (herror : (∃ x ∈ l₁ ++ sw' :: l₂, x.state.hasError) ∨
        app.transactionState = .waitOnTimestampConfirmation ∧ element = .ok ∧ release = false)
      (hcandidate : ∃ x ∈ l₁ ++ sw' :: l₂, x.state.hasCandidate) :
      Move app (.reply rpc element release)
        { app.withSwitches (l₁ ++ sw' :: l₂) with
          transactionState := .errorState, result := false, lambdaScheduled := true } []
  | abort (l₁ : List Switch) (sw : Switch) (l₂ : List Switch) (sw' : Switch) (rpc : RPC)
      (release : Bool) (hs : app.transactionState = .waitOnCandidateConfirmation)
      (h : app.Noted rpc .error l₁ sw l₂ sw') (hall : ∀ x ∈ l₁ ++ sw' :: l₂, x.state.hasError) :
      Move app (.reply rpc .error release)
        { app.withSwitches (l₁ ++ sw' :: l₂) with transactionState := .waitOnUnlock }
        (requests .waitOnUnlock (l₁ ++ sw' :: l₂))
  | lambda (hs : app.transactionState = .errorState) :
      Move app .lambda
        { app with
          transactionState := .waitOnDeleteCandidate, result := false, lambdaScheduled := false }
        (requests .waitOnDeleteCandidate app.switchStates)

/-- The connections and the kind of the application stay. -/
theorem Move.connections {app app' : TransactionApp} {e : Event} {sent : List RPC}
    (h : app.Move e app' sent) :
    app'.connections = app.connections ∧ app'.timeSynchronous = app.timeSynchronous := by
  cases h <;> exact ⟨rfl, rfl⟩

/-- The replies to requests in flight that an application does not handle. -/
def Unhandled (app : TransactionApp) (rpc : RPC) (element : ReplyElement) : Prop :=
  element = .data ∨ element = .error ∧ app.transactionState.acceptsOkOnly ∨
    app.transactionState = .waitOnCandidateLockResponse ∧
      (∀ x ∈ app.switchStates, x.sessionId = rpc.sessionId ∨
        x.settled .waitOnCandidateLockResponse) ∧
      ∃ x ∈ app.switchStates, x.configurations = []

end TransactionApp

/-! ## Entering a state -/

namespace Switch

variable {x : Switch} {failing : Prop} {s : TransactionAppState} {timeSynchronous : Bool}

/-- The first change is requested. -/
theorem Fits.enter_change (h : x.Fits failing .waitOnCandidateLockResponse) (failing' : Prop)
    (hset : x.settled .waitOnCandidateLockResponse) (hfirst : x.configurations ≠ []) :
    (x.enter .waitOnChangeConfirmation).Fits failing' .waitOnChangeConfirmation ∧
      ((x.enter .waitOnChangeConfirmation).pending .waitOnChangeConfirmation).isSome ∧
      x.applyFirstChange = some (x.enter .waitOnChangeConfirmation,
        ((x.enter .waitOnChangeConfirmation).pending .waitOnChangeConfirmation).toList) := by
  obtain ⟨⟨l, hl⟩, hw⟩ := h
  obtain rfl : l = true := by simpa [settled, pending, hl] using hset
  obtain ⟨config, rest, hc⟩ := List.exists_cons_of_ne_nil hfirst
  have hwait : config.state = .waiting := hw config (hc ▸ List.mem_cons_self ..)
  have hch : (x.enter .waitOnChangeConfirmation).Changing []
      { config with target := .candidate, state := .requested } rest :=
    { configurations := by simp [enter, hc], success := by simp, requested := rfl, target := rfl,
      type := fun h => absurd rfl h,
      waiting := fun c hmem => hw c (hc ▸ List.mem_cons_of_mem _ hmem) }
  have hstate : (x.enter .waitOnChangeConfirmation).state = x.state := rfl
  have hp := pending_change hch (by simp [hstate, hl]) (by simp [hstate, hl])
  refine ⟨⟨false, false, by rw [hstate, hl], by simp, fun _ _ => ⟨_, _, _, hch⟩, by simp⟩,
    by rw [hp]; rfl, ?_⟩
  rw [hp]
  simp [applyFirstChange, hc, hwait, enter, Connection.createRPC, Configuration.operation]

/-- A switch that has replied without an error is asked again in the next state. -/
theorem Fits.enter (h : x.Fits failing s) (failing' : Prop) (hset : x.settled s)
    (hs : s.countsErrors ∧ ¬failing ∧ ¬x.state.hasError ∨ s.acceptsOkOnly)
    (hfirst : s.next timeSynchronous = .waitOnChangeConfirmation → x.configurations ≠ []) :
    (x.enter (s.next timeSynchronous)).Fits failing' (s.next timeSynchronous) ∧
      (s.next timeSynchronous ≠ .endOfTransaction →
        ((x.enter (s.next timeSynchronous)).pending (s.next timeSynchronous)).isSome) := by
  cases s <;> simp only [TransactionAppState.countsErrors, TransactionAppState.acceptsOkOnly,
    Bool.false_eq_true, false_and, or_self, or_false, false_or, true_and] at hs
  case waitOnCandidateConfirmation =>
    obtain ⟨⟨c, e, hc, hce⟩, hw⟩ := h
    obtain rfl : e = false := by simpa [hc] using hs.2
    obtain rfl : c = true := by simpa [settled, pending, hc] using hset
    exact ⟨⟨⟨false, hc⟩, hw⟩, fun _ => by
      simp [TransactionAppState.next, enter, pending, hc]⟩
  case waitOnCandidateLockResponse =>
    obtain ⟨hfits, hp, -⟩ := h.enter_change failing' hset (hfirst rfl)
    exact ⟨hfits, fun _ => hp⟩
  case waitOnChangeConfirmation =>
    obtain ⟨c, e, hc, hce, hchanging, hdone⟩ := h
    obtain rfl : e = false := by simpa [hc] using hs.2
    -- the switch is settled, so that its last change has been confirmed
    have hcon : c = true := by
      by_contra hne
      obtain ⟨done, config, rest, hch⟩ := hchanging hne (by simp)
      have := pending_change hch (by simpa [hc] using hne) (by simp [hc])
      simp [settled, this] at hset
    subst hcon
    have hsuccess := (hdone rfl).resolve_left hs.1
    cases timeSynchronous
    · exact ⟨⟨⟨false, false, hc⟩, hsuccess⟩, fun _ => by
        simp [TransactionAppState.next, enter, pending, hc]⟩
    · exact ⟨⟨⟨false, false, hc, by simp⟩, hsuccess⟩, fun _ => by
        simp [TransactionAppState.next, enter, pending, hc]⟩
  case waitOnTimestampConfirmation =>
    obtain ⟨⟨t, e, ht, hte⟩, hsuccess⟩ := h
    obtain rfl : e = false := by simpa [ht] using hs.2
    exact ⟨⟨⟨false, t, ht⟩, hsuccess⟩, fun _ => by
      simp [TransactionAppState.next, enter, pending, ht]⟩
  case waitOnCommitExecution =>
    obtain ⟨⟨m, t, hm⟩, hsuccess⟩ := h
    obtain rfl : m = true := by simpa [settled, pending, hm] using hset
    exact ⟨⟨true, t, hm⟩, fun _ => by simp [TransactionAppState.next, enter, pending, hm]⟩
  case waitOnDeleteOldConfiguration =>
    obtain ⟨c, t, hc⟩ := h
    exact ⟨trivial, fun _ => by simp [TransactionAppState.next, enter, pending, hc]⟩
  case waitOnDeleteCandidate =>
    exact ⟨trivial, fun _ => by simp [TransactionAppState.next, enter, pending, h.1]⟩
  case waitOnUnlock => exact ⟨trivial, fun hne => absurd rfl hne⟩

end Switch

/-! ## The invariant -/

theorem Switch.Answer.hasError {sw sw' : Switch} {failing : Prop} {s : TransactionAppState}
    {element : ReplyElement} (h : sw.Answer failing s element sw') (he : sw.state.hasError) :
    sw'.state.hasError := by
  cases h with
  | flag => cases s <;> cases element <;> first | exact he | rfl
  | next => exact he
  | last => exact he
  | failed => rfl

theorem Switch.Fits.hasCandidate {x : Switch} {failing : Prop}
    (h : x.Fits failing .waitOnChangeConfirmation) : x.state.hasCandidate := by
  obtain ⟨c, e, hc, -⟩ := h
  rw [hc]

namespace TransactionApp

variable {app app' : TransactionApp} {out sent : List RPC} {e : Event} {rpc : RPC}
  {element : ReplyElement} {l₁ l₂ : List Switch} {sw sw' : Switch}

theorem Inv.notBegin (h : app.Inv out) (hsw : sw ∈ app.switchStates) :
    app.transactionState ≠ .beginOfTransaction := by
  intro hs
  have := h.fits sw hsw
  rw [hs] at this
  exact this

theorem Inv.nodup (h : app.Inv out) :
    (app.switchStates.map (·.sessionId)).Nodup ∧ (app.switchStates.map (·.remoteAddress)).Nodup := by
  by_cases hs : app.transactionState = .beginOfTransaction
  · have hnil : app.switchStates = [] :=
      List.eq_nil_iff_forall_not_mem.mpr fun x hx => h.notBegin hx hs
    simp [hnil]
  · have hperm := h.switches hs
    constructor
    · have := hperm.map fun p => p.2.1
      simp only [List.map_map] at this
      exact this.nodup_iff.mpr h.opened.sessions
    · have := hperm.map fun p => p.1
      simp only [List.map_map] at this
      exact this.nodup_iff.mpr h.opened.addresses

/-- A reply to a request in flight leaves the entries of the switches in order. -/
theorem Noted.fits (h : app.Noted rpc element l₁ sw l₂ sw')
    (hfits : ∀ x ∈ app.switchStates, x.Fits app.Failing app.transactionState) :
    ∀ x ∈ l₁ ++ sw' :: l₂,
      x.Fits (app.withSwitches (l₁ ++ sw' :: l₂)).Failing app.transactionState := by
  have hfailing : app.Failing → (app.withSwitches (l₁ ++ sw' :: l₂)).Failing :=
    fun hf => hf.replace sw' h.switches h.answer.hasError
  intro x hx
  rcases List.mem_append.mp hx with hx | hx
  · exact (hfits x (by simp [h.switches, hx])).mono hfailing
  · rcases List.mem_cons.mp hx with rfl | hx
    · exact ((hfits sw (by simp [h.switches])).answer h.pending h.answer).mono hfailing
    · exact (hfits x (by simp [h.switches, hx])).mono hfailing

theorem Noted.profiles (h : app.Noted rpc element l₁ sw l₂ sw') :
    (l₁ ++ sw' :: l₂).map (·.profile) = app.switchStates.map (·.profile) := by
  simp [h.switches, h.answer.profile]

/-- Only one of the switches has a session. -/
theorem Inv.eq_of_sessionId (h : app.Inv out) {x y : Switch} (hx : x ∈ app.switchStates)
    (hy : y ∈ app.switchStates) (hxy : x.sessionId = y.sessionId) : x = y :=
  List.inj_on_of_nodup_map h.nodup.1 hx hy hxy

/-- While the application waits for all switches, its requests in flight are those to the
switches that have not replied. -/
theorem Inv.round (h : app.Inv out) (hsw : sw ∈ app.switchStates)
    (hp : sw.pending app.transactionState = some rpc) (hrpc : rpc ∈ out) :
    Round (·.pending app.transactionState) app.switchStates out := by
  rcases h.requests with hout | ⟨hs, -, -, hR⟩
  · unfold Outstanding at hout
    cases hs : app.transactionState <;> rw [hs] at hp hout <;>
      first | exact hout.1 | simp [Switch.pending] at hp
  · exfalso
    obtain ⟨-, x, hx, hunlocked, rfl⟩ := hR rpc hrpc
    have hsession := Switch.pending_sessionId hp
    obtain rfl : x = sw := h.eq_of_sessionId hx hsw hsession
    simp [hs, Switch.pending, hunlocked] at hp

theorem Outstanding.of_round (h : Round (·.pending app.transactionState) app.switchStates out)
    (hne : out ≠ []) : app.Outstanding out := by
  have hpending : ∃ x ∈ app.switchStates, x.pending app.transactionState ≠ none := by
    by_contra hall
    push Not at hall
    exact hne (h.eq_nil_iff.mpr hall)
  obtain ⟨x, -, hx⟩ := hpending
  unfold Outstanding
  cases hs : app.transactionState <;> rw [hs] at h hx <;>
    first | exact ⟨h, hne⟩ | exact absurd rfl hx

/-- The requests of a state that asks some switch. -/
theorem Outstanding.requests
    (h : ∃ x ∈ app.switchStates, (x.pending app.transactionState).isSome) :
    app.Outstanding (requests app.transactionState app.switchStates) := by
  apply Outstanding.of_round (List.Perm.refl _)
  obtain ⟨x, hx, hp⟩ := h
  obtain ⟨rpc, hp⟩ := Option.isSome_iff_exists.mp hp
  exact List.ne_nil_of_mem (List.mem_filterMap.mpr ⟨x, hx, hp⟩)

theorem Noted.mem (h : app.Noted rpc element l₁ sw l₂ sw') : sw ∈ app.switchStates := by
  simp [h.switches]

/-- Every request in flight has been made for one of the switches. -/
theorem Inv.request_cases (h : app.Inv out) (hrpc : rpc ∈ out) :
    ∃ sw ∈ app.switchStates, app.transactionState = .waitOnLockResponse ∧ rpc = sw.lock ∨
      sw.pending app.transactionState = some rpc ∨
      app.transactionState = .waitOnUnlock ∧ rpc = sw.unlock := by
  rcases h.requests with hout | ⟨hs, -, -, hR⟩
  · unfold Outstanding at hout
    cases hs : app.transactionState <;> rw [hs] at hout
    case waitOnLockResponse =>
      obtain ⟨sw, hfind, rfl⟩ := hout
      exact ⟨sw, List.mem_of_find?_eq_some hfind, .inl ⟨rfl, List.mem_singleton.mp hrpc⟩⟩
    case beginOfTransaction | endOfTransaction =>
      rw [hout] at hrpc
      cases hrpc
    case errorState =>
      rw [hout.1] at hrpc
      cases hrpc
    all_goals
      obtain ⟨l₁, sw, l₂, hsw, hp⟩ := hout.1.exists_of_mem hrpc
      exact ⟨sw, by simp [hsw], .inr (.inl hp)⟩
  · obtain ⟨-, sw, hsw, -, rfl⟩ := hR rpc hrpc
    exact ⟨sw, hsw, .inr (.inr ⟨hs, rfl⟩)⟩

/-- The requests in flight after a reply. -/
theorem Noted.round (h : app.Noted rpc element l₁ sw l₂ sw') (hinv : app.Inv out)
    (hrpc : rpc ∈ out) :
    Round (·.pending app.transactionState) (l₁ ++ sw' :: l₂)
      (out.erase rpc ++ (sw'.pending app.transactionState).toList) := by
  have hround := hinv.round h.mem h.pending hrpc
  rw [h.switches] at hround
  exact hround.answer h.pending

/-- Nothing is in flight when all switches have replied. -/
theorem Noted.erase_eq_nil (h : app.Noted rpc element l₁ sw l₂ sw') (hinv : app.Inv out)
    (hrpc : rpc ∈ out) (hall : ∀ x ∈ l₁ ++ sw' :: l₂, x.settled app.transactionState) :
    out.erase rpc = [] := by
  have hnil := (h.round hinv hrpc).eq_nil_iff.mpr fun x hx => by
    simpa [Switch.settled] using hall x hx
  exact (List.append_eq_nil_iff.mp hnil).1

/-- Only the first switch that is available has a lock request in flight. -/
theorem Inv.lock_eq (h : app.Inv out) (hs : app.transactionState = .waitOnLockResponse)
    (hrpc : rpc ∈ out) :
    ∃ sw, app.switchStates.find? (·.state.isInState .switchAvailable) = some sw ∧
      rpc = sw.lock ∧ out = [rpc] := by
  rcases h.requests with hout | ⟨hs', -⟩
  · unfold Outstanding at hout
    rw [hs] at hout
    obtain ⟨sw, hfind, rfl⟩ := hout
    obtain rfl := List.mem_singleton.mp hrpc
    exact ⟨sw, hfind, rfl, rfl⟩
  · rw [hs] at hs'
    cases hs'

theorem Noted.inv_stay (h : app.Noted rpc element l₁ sw l₂ sw') (hinv : app.Inv out)
    (hrpc : rpc ∈ out) (hwait : ∃ x ∈ l₁ ++ sw' :: l₂, ¬x.settled app.transactionState) :
    (app.withSwitches (l₁ ++ sw' :: l₂)).Inv
      (out.erase rpc ++ (sw'.pending app.transactionState).toList) where
  opened := hinv.opened
  lambda := hinv.lambda
  switches hs := by
    rw [show (app.withSwitches (l₁ ++ sw' :: l₂)).switchStates = l₁ ++ sw' :: l₂ from rfl,
      h.profiles]
    exact hinv.switches hs
  timestamp := hinv.timestamp
  fits := h.fits hinv.fits
  requests := by
    refine .inl (Outstanding.of_round (h.round hinv hrpc) fun hnil => ?_)
    obtain ⟨x, hx, hset⟩ := hwait
    have := (h.round hinv hrpc).eq_nil_iff.mp hnil x hx
    simp [Switch.settled, this] at hset

theorem profile_enter (x : Switch) (s : TransactionAppState) : (x.enter s).profile = x.profile := by
  cases s <;> try rfl
  cases hc : x.configurations <;> simp [Connection.profile, Switch.enter, hc]

/-- Only states that wait for all switches have requests to them. -/
theorem waits_of_pending {s : TransactionAppState} (h : sw.pending s = some rpc) :
    s.countsErrors ∨ s.acceptsOkOnly := by
  cases s <;> first | exact .inl rfl | exact .inr rfl | cases h

theorem Noted.inv_advance (h : app.Noted rpc .ok l₁ sw l₂ sw') (hinv : app.Inv out)
    (hrpc : rpc ∈ out) {s : TransactionAppState}
    (hall : ∀ x ∈ l₁ ++ sw' :: l₂, x.settled app.transactionState)
    (hnone : app.transactionState.countsErrors → ∀ x ∈ l₁ ++ sw' :: l₂, ¬x.state.hasError)
    (hnext : s = app.transactionState.next app.timeSynchronous)
    (hfirst : s = .waitOnChangeConfirmation → ∀ x ∈ l₁ ++ sw' :: l₂, x.configurations ≠ [])
    {result : Bool} :
    ({ app.withSwitches ((l₁ ++ sw' :: l₂).map (·.enter s)) with
      transactionState := s, result := result } : TransactionApp).Inv
      (out.erase rpc ++ TransactionApp.requests s ((l₁ ++ sw' :: l₂).map (·.enter s))) := by
  have hwaits := waits_of_pending h.pending
  -- all switches are asked again, as none has an error
  have henter : ∀ failing, ∀ x ∈ l₁ ++ sw' :: l₂, (x.enter s).Fits failing s ∧
      (s ≠ .endOfTransaction → ((x.enter s).pending s).isSome) := by
    intro failing x hx
    subst hnext
    refine (h.fits hinv.fits x hx).enter failing (hall x hx) (hwaits.imp_left fun hc => ⟨hc, ?_, ?_⟩)
      fun hs => hfirst hs x hx
    · rintro ⟨y, hy, he⟩
      exact hnone hc y hy he
    · exact hnone hc x hx
  have hstate : app.transactionState ≠ .errorState ∧ s ≠ .errorState := by
    subst hnext
    cases hs : app.transactionState <;> rw [hs] at hwaits <;>
      simp [TransactionAppState.countsErrors, TransactionAppState.acceptsOkOnly] at hwaits <;>
      cases app.timeSynchronous <;> simp [TransactionAppState.next]
  rw [h.erase_eq_nil hinv hrpc hall, List.nil_append]
  refine { opened := hinv.opened, lambda := ?_, switches := fun _ => ?_, timestamp := ?_,
           fits := ?_, requests := .inl ?_ }
  · simpa [withSwitches, hstate] using hinv.lambda
  · have : ((l₁ ++ sw' :: l₂).map (·.enter s)).map (·.profile) =
        app.switchStates.map (·.profile) := by
      rw [List.map_map, ← h.profiles]
      exact List.map_congr_left fun x _ => profile_enter x s
    rw [show ({ app.withSwitches ((l₁ ++ sw' :: l₂).map (·.enter s)) with
      transactionState := s, result := result } : TransactionApp).switchStates =
        (l₁ ++ sw' :: l₂).map (·.enter s) from rfl, this]
    exact hinv.switches (hinv.notBegin h.mem)
  · intro hs
    exact TransactionAppState.timeSynchronous_of_next (hnext.symm.trans hs)
  · intro y hy
    obtain ⟨x, hx, rfl⟩ := List.mem_map.mp hy
    exact (henter _ x hx).1
  · by_cases hs : s = .endOfTransaction
    · subst hs
      exact List.filterMap_eq_nil_iff.mpr fun _ _ => rfl
    · have hmem : sw' ∈ l₁ ++ sw' :: l₂ := List.mem_append_right _ (List.mem_cons_self ..)
      exact Outstanding.requests ⟨_, List.mem_map_of_mem hmem, (henter False sw' hmem).2 hs⟩

/-- A switch that has been locked and has not committed. -/
theorem fits_errorState {failing : Prop} {x : Switch} {s : TransactionAppState}
    (h : x.Fits failing s) (hs : s.countsErrors) :
    x.state.hasLockedRunning ∧ ¬x.state.hasCommited := by
  cases s <;> simp only [TransactionAppState.countsErrors, Bool.false_eq_true] at hs
  case waitOnCandidateConfirmation =>
    obtain ⟨⟨c, e, hc, -⟩, -⟩ := h
    simp [hc]
  case waitOnChangeConfirmation =>
    obtain ⟨c, e, hc, -⟩ := h
    simp [hc]
  case waitOnTimestampConfirmation =>
    obtain ⟨⟨t, e, ht, -⟩, -⟩ := h
    simp [ht]

theorem Noted.inv_fail (h : app.Noted rpc element l₁ sw l₂ sw') (hinv : app.Inv out)
    (hrpc : rpc ∈ out) (hcounts : app.transactionState.countsErrors)
    (hall : ∀ x ∈ l₁ ++ sw' :: l₂, x.settled app.transactionState)
    (hcandidate : ∃ x ∈ l₁ ++ sw' :: l₂, x.state.hasCandidate) :
    ({ app.withSwitches (l₁ ++ sw' :: l₂) with
      transactionState := .errorState, result := false, lambdaScheduled := true } :
      TransactionApp).Inv (out.erase rpc ++ []) where
  opened := hinv.opened
  lambda := by simp
  switches _ := by
    have := hinv.switches (hinv.notBegin h.mem)
    rwa [← h.profiles] at this
  timestamp := nofun
  fits x hx := fits_errorState (h.fits hinv.fits x hx) hcounts
  requests := by
    rw [h.erase_eq_nil hinv hrpc hall]
    exact .inl ⟨rfl, hcandidate⟩

theorem Noted.inv_abort (h : app.Noted rpc element l₁ sw l₂ sw') (hinv : app.Inv out)
    (hrpc : rpc ∈ out) (hs : app.transactionState = .waitOnCandidateConfirmation)
    (hall : ∀ x ∈ l₁ ++ sw' :: l₂, x.state.hasError) :
    ({ app.withSwitches (l₁ ++ sw' :: l₂) with transactionState := .waitOnUnlock } :
      TransactionApp).Inv (out.erase rpc ++ TransactionApp.requests .waitOnUnlock
        (l₁ ++ sw' :: l₂)) where
  opened := hinv.opened
  lambda := by simpa [withSwitches, hs] using hinv.lambda
  switches _ := by
    have := hinv.switches (hinv.notBegin h.mem)
    rwa [← h.profiles] at this
  timestamp := nofun
  fits _ _ := trivial
  requests := by
    rw [h.erase_eq_nil hinv hrpc fun x hx => by
      simp [hs, Switch.settled, Switch.pending, hall x hx], List.nil_append]
    have hmem : sw' ∈ l₁ ++ sw' :: l₂ := List.mem_append_right _ (List.mem_cons_self ..)
    have hfits := h.fits hinv.fits sw' hmem
    rw [hs] at hfits
    refine .inl (Outstanding.requests ⟨sw', hmem, ?_⟩)
    simp [Switch.pending, (fits_errorState hfits rfl).1]

/-! ### Locks -/

theorem fits_locked {failing failing' : Prop} (h : sw.Fits failing .waitOnLockResponse) :
    sw.locked.Fits failing' .waitOnLockResponse := by
  obtain ⟨⟨l, hl⟩, hw⟩ := h
  exact ⟨⟨true, by simp [Switch.locked, hl]⟩, hw⟩

theorem fits_replace_locked (hinv : app.Inv out) (hs : app.transactionState = .waitOnLockResponse)
    (hsw : app.switchStates = l₁ ++ sw :: l₂) :
    ∀ x ∈ l₁ ++ sw.locked :: l₂, ∀ failing, x.Fits failing .waitOnLockResponse := by
  have hfits := hinv.fits
  rw [hs, hsw] at hfits
  intro x hx failing
  rcases List.mem_append.mp hx with hx | hx
  · exact hfits x (List.mem_append_left _ hx)
  · rcases List.mem_cons.mp hx with rfl | hx
    · exact fits_locked (hfits sw (List.mem_append_right _ (List.mem_cons_self ..)))
    · exact hfits x (List.mem_append_right _ (List.mem_cons_of_mem _ hx))

theorem profiles_locked (hsw : app.switchStates = l₁ ++ sw :: l₂) :
    (l₁ ++ sw.locked :: l₂).map (·.profile) = app.switchStates.map (·.profile) := by
  simp [hsw, Switch.locked]

theorem Inv.start (hinv : app.Inv out) (hs : app.transactionState = .beginOfTransaction)
    (hfind : app.determineLockOrder.switchStates.find? (·.state.isInState .switchAvailable) =
      some sw) :
    ({ app.determineLockOrder with transactionState := .waitOnLockResponse } :
      TransactionApp).Inv (out ++ [sw.lock]) where
  opened := hinv.opened
  lambda := by simpa [determineLockOrder, hs] using hinv.lambda
  switches _ := by
    have : app.determineLockOrder.switchStates.map (·.profile) =
        (app.connections.insertionSort fun a b => a.remoteAddress ≤ b.remoteAddress).map
          (·.profile) := by
      simp [determineLockOrder]
    rw [show ({ app.determineLockOrder with transactionState := .waitOnLockResponse } :
      TransactionApp).switchStates = app.determineLockOrder.switchStates from rfl, this]
    exact (List.perm_insertionSort ..).map _
  timestamp := nofun
  fits x hx := by
    obtain ⟨c, hc, rfl⟩ := List.mem_map.mp hx
    rw [List.mem_insertionSort] at hc
    exact ⟨⟨false, rfl⟩, hinv.opened.waiting c hc⟩
  requests := by
    have hout : out = [] := by
      rcases hinv.requests with hout | ⟨hs', -⟩
      · unfold Outstanding at hout
        rwa [hs] at hout
      · rw [hs] at hs'
        cases hs'
    subst hout
    exact .inl ⟨sw, hfind, rfl⟩

theorem Inv.lockNext (hinv : app.Inv out) (hrpc : rpc ∈ out)
    (hs : app.transactionState = .waitOnLockResponse)
    (hsw : app.switchStates = l₁ ++ sw :: l₂) {next : Switch}
    (hnext : (l₁ ++ sw.locked :: l₂).find? (·.state.isInState .switchAvailable) = some next) :
    (app.withSwitches (l₁ ++ sw.locked :: l₂)).Inv (out.erase rpc ++ [next.lock]) where
  opened := hinv.opened
  lambda := hinv.lambda
  switches hne := by
    have := hinv.switches hne
    rwa [← profiles_locked hsw] at this
  timestamp := hinv.timestamp
  fits x hx := by
    rw [show (app.withSwitches (l₁ ++ sw.locked :: l₂)).transactionState = .waitOnLockResponse
      from hs]
    exact fits_replace_locked hinv hs hsw x hx _
  requests := by
    obtain ⟨-, -, -, hout⟩ := hinv.lock_eq hs hrpc
    rw [hout, List.erase_cons_head, List.nil_append]
    left
    unfold Outstanding
    rw [show (app.withSwitches (l₁ ++ sw.locked :: l₂)).transactionState = .waitOnLockResponse
      from hs]
    exact ⟨next, hnext, rfl⟩

theorem Inv.lockAll (hinv : app.Inv out) (hrpc : rpc ∈ out)
    (hs : app.transactionState = .waitOnLockResponse)
    (hsw : app.switchStates = l₁ ++ sw :: l₂)
    (hall : ∀ x ∈ l₁ ++ sw.locked :: l₂, x.state.hasLockedRunning) :
    ({ app.withSwitches (l₁ ++ sw.locked :: l₂) with
      transactionState := .waitOnCandidateConfirmation } : TransactionApp).Inv
      (out.erase rpc ++ TransactionApp.requests .waitOnCandidateConfirmation
        (l₁ ++ sw.locked :: l₂)) where
  opened := hinv.opened
  lambda := by simpa [withSwitches, hs] using hinv.lambda
  switches _ := by
    have := hinv.switches (by simp [hs])
    rwa [← profiles_locked hsw] at this
  timestamp := nofun
  fits x hx := by
    obtain ⟨⟨l, hl⟩, hw⟩ := fits_replace_locked hinv hs hsw x hx False
    obtain rfl : l = true := by simpa [hl] using hall x hx
    exact ⟨⟨false, false, hl, by simp⟩, hw⟩
  requests := by
    obtain ⟨-, -, -, hout⟩ := hinv.lock_eq hs hrpc
    rw [hout, List.erase_cons_head, List.nil_append]
    have hmem : sw.locked ∈ l₁ ++ sw.locked :: l₂ :=
      List.mem_append_right _ (List.mem_cons_self ..)
    obtain ⟨⟨l, hl⟩, -⟩ := fits_replace_locked hinv hs hsw _ hmem False
    refine .inl (Outstanding.requests ⟨_, hmem, ?_⟩)
    simp [Switch.pending, hl]

theorem Inv.refusedLater (hinv : app.Inv out) (hrpc : rpc ∈ out)
    (hs : app.transactionState = .waitOnLockResponse) (hsw : sw ∈ app.switchStates)
    (hunlocked : ¬sw.state.hasLockedRunning)
    (hsome : ∃ x ∈ app.switchStates, x.state.hasLockedRunning) :
    ({ app with transactionState := .waitOnUnlock, result := false } : TransactionApp).Inv
      (out.erase rpc ++ [sw.unlock]) where
  opened := hinv.opened
  lambda := by simpa [hs] using hinv.lambda
  switches _ := hinv.switches (hinv.notBegin hsw)
  timestamp := nofun
  fits _ _ := trivial
  requests := by
    obtain ⟨-, -, -, hout⟩ := hinv.lock_eq hs hrpc
    rw [hout, List.erase_cons_head, List.nil_append]
    refine .inr ⟨rfl, hsome, fun x hx => ?_, fun rpc hmem => ?_⟩
    · have := hinv.fits x hx
      rw [hs] at this
      obtain ⟨⟨l, hl⟩, -⟩ := this
      simp [hl]
    · obtain rfl := List.mem_singleton.mp hmem
      exact ⟨rfl, sw, hsw, hunlocked, rfl⟩

/-- After a refused lock the unlocks are not those of all switches. -/
theorem Refused.not_outstanding (h : app.Refused [rpc]) (hinv : app.Inv out) (hrpc : rpc ∈ out) :
    ¬app.Outstanding out := by
  obtain ⟨hs, -, -, hR⟩ := h
  obtain ⟨-, x, hx, hunlocked, rfl⟩ := hR rpc (List.mem_singleton.mpr rfl)
  intro hout
  unfold Outstanding at hout
  rw [hs] at hout
  obtain ⟨l₁, y, l₂, hsw, hp⟩ := hout.1.exists_of_mem hrpc
  have hy : y ∈ app.switchStates := by simp [hsw]
  obtain rfl : x = y := hinv.eq_of_sessionId hx hy (Switch.pending_sessionId hp)
  simp [Switch.pending, hunlocked] at hp

theorem Inv.unlockRefused (hinv : app.Inv out) (hrpc : rpc ∈ out) (h : app.Refused [rpc]) :
    app.Inv (out.erase rpc ++ []) := by
  have hnil : out.erase rpc = [] := by
    obtain ⟨-, -, -, hout⟩ := hinv.requests.resolve_left (h.not_outstanding hinv hrpc)
    rw [(hout _ hrpc).1, List.erase_cons_head]
  obtain ⟨hs, hsome, hcommit, -⟩ := h
  rw [hnil]
  exact { hinv with requests := .inr ⟨hs, hsome, hcommit, by simp⟩ }

/-- The event that leaves `ErrorState`. -/
theorem Inv.lambdaEvent (hinv : app.Inv out) (hs : app.transactionState = .errorState) :
    ({ app with
      transactionState := .waitOnDeleteCandidate, result := false, lambdaScheduled := false } :
      TransactionApp).Inv
      (out ++ TransactionApp.requests .waitOnDeleteCandidate app.switchStates) where
  opened := hinv.opened
  lambda := by simp
  switches _ := hinv.switches (by simp [hs])
  timestamp := nofun
  fits x hx := by
    have := hinv.fits x hx
    rwa [hs] at this
  requests := by
    rcases hinv.requests with hout | ⟨hs', -⟩
    · unfold Outstanding at hout
      rw [hs] at hout
      obtain ⟨rfl, x, hx, hc⟩ := hout
      exact .inl (Outstanding.requests ⟨x, hx, by simp [Switch.pending, hc]⟩)
    · rw [hs] at hs'
      cases hs'

/-- Every move keeps the invariant. -/
theorem Move.inv (hm : app.Move e app' sent) (hinv : app.Inv out) (he : e.Possible out) :
    app'.Inv (e.unanswered out ++ sent) := by
  cases hm with
  | start sw hs hfind => exact hinv.start hs hfind
  | lockNext l₁ sw l₂ next release hs hsw hunlocked hnext =>
    exact hinv.lockNext he hs hsw hnext
  | lockAll l₁ sw l₂ release hs hsw hunlocked hall => exact hinv.lockAll he hs hsw hall
  | refusedFirst sw release hs hsw hnone =>
    obtain ⟨-, -, -, hout⟩ := hinv.lock_eq hs he
    exact
      { opened := hinv.opened
        lambda := by simpa [hs] using hinv.lambda
        switches := fun _ => hinv.switches (hinv.notBegin hsw)
        timestamp := nofun
        fits := fun _ _ => trivial
        requests := .inl (by simp [Event.unanswered, hout, Outstanding]) }
  | refusedLater sw release hs hsw hunlocked hsome =>
    exact hinv.refusedLater he hs hsw hunlocked hsome
  | unlockRefused rpc release h => exact hinv.unlockRefused he h
  | stay l₁ sw l₂ sw' rpc element release h hel hwait => exact h.inv_stay hinv he hwait
  | advance l₁ sw l₂ sw' rpc release s h hall hnone hrelease hnext hfirst =>
    exact h.inv_advance hinv he hall hnone hnext hfirst
  | fail l₁ sw l₂ sw' rpc element release h hel hcounts hall herror hcandidate =>
    exact h.inv_fail hinv he hcounts hall hcandidate
  | abort l₁ sw l₂ sw' rpc release hs h hall => exact h.inv_abort hinv he hs hall
  | lambda hs => exact hinv.lambdaEvent hs

end TransactionApp

end TsnReconfig.NetConf
