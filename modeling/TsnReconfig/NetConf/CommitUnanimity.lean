import TsnReconfig.NetConf.TransactionResult

/-!
# Commits only after unanimity

What the flags of a switch claim has been answered with `Ok`, so a commit is sent only when every
switch has confirmed each step before. The first change is sent with the type that its
configuration has, which may be a commit; the others are edits.
-/

namespace TsnReconfig.NetConf

open TsnReconfig.Lib

/-- A request of a session has been answered. -/
def Answered (log : List Event) (sessionId : ℕ) (messageId : MessageId)
    (element : ReplyElement) : Prop :=
  ∃ operation release, .reply ⟨sessionId, messageId, operation⟩ element release ∈ log

variable {log : List Event} {sessionId : ℕ} {messageId : MessageId} {element : ReplyElement}
  {rpc : RPC} {release : Bool}

theorem Answered.append (h : Answered log sessionId messageId element) (e : Event) :
    Answered (log ++ [e]) sessionId messageId element := by
  obtain ⟨operation, release, h⟩ := h
  exact ⟨operation, release, List.mem_append_left _ h⟩

theorem answered_last (log : List Event) (rpc : RPC) (element : ReplyElement) (release : Bool) :
    Answered (log ++ [.reply rpc element release]) rpc.sessionId rpc.messageId element :=
  ⟨rpc.operation, release, by simp⟩

namespace Switch

/-- What a switch is known to have done has been answered with `Ok`. -/
structure Documented (sw : Switch) (log : List Event) : Prop where
  lock : sw.state.hasLockedRunning → Answered log sw.sessionId .lock .ok
  copyConfig : sw.state.hasCandidate → Answered log sw.sessionId .copyConfig .ok
  lockCandidate : sw.state.hasLockedCandidate → Answered log sw.sessionId .lockCandidate .ok
  timestamp : sw.state.hasCommitTimeStamp → Answered log sw.sessionId .timestamp .ok
  change : ∀ i config, sw.configurations[i]? = some config → config.state = .success →
    Answered log sw.sessionId (.change i) .ok

variable {sw sw' : Switch} {failing : Prop} {s : TransactionAppState}

theorem Documented.append (h : sw.Documented log) (e : Event) : sw.Documented (log ++ [e]) where
  lock hf := (h.lock hf).append e
  copyConfig hf := (h.copyConfig hf).append e
  lockCandidate hf := (h.lockCandidate hf).append e
  timestamp hf := (h.timestamp hf).append e
  change i config hc hs := (h.change i config hc hs).append e

/-- The changes of a switch whose requested one has a new state. -/
theorem Documented.confirm {done rest rest' : List Configuration} {config : Configuration}
    (h : sw.Documented log) (hch : sw.Changing done config rest) {st : ConfigurationState}
    (hst : st = .success → Answered log sw.sessionId (.change done.length) .ok)
    (hrest : ∀ (i : ℕ) (c : Configuration), rest'[i]? = some c → c.state = .success →
      rest[i]? = some c) :
    ∀ (i : ℕ) (c : Configuration),
      (sw.confirm done config st rest').configurations[i]? = some c → c.state = .success →
      Answered log sw.sessionId (.change i) .ok := by
  intro i c hc hs
  change (done ++ { config with state := st } :: rest')[i]? = some c at hc
  rcases lt_trichotomy i done.length with hi | rfl | hi
  · rw [List.getElem?_append_left hi] at hc
    refine h.change i c ?_ hs
    rw [hch.configurations, List.getElem?_append_left hi, hc]
  · rw [List.getElem?_append_right le_rfl, Nat.sub_self, List.getElem?_cons_zero] at hc
    obtain rfl := Option.some.inj hc
    exact hst hs
  · obtain ⟨k, rfl⟩ := Nat.exists_eq_add_of_lt hi
    have hk : done.length + k + 1 - done.length = k + 1 := by omega
    rw [List.getElem?_append_right (by omega), hk, List.getElem?_cons_succ] at hc
    refine h.change _ c ?_ hs
    rw [hch.configurations, List.getElem?_append_right (by omega), hk, List.getElem?_cons_succ]
    exact hrest k c hc hs

/-- A reply documents what is noted for it. -/
theorem Documented.answer (h : sw.Documented log) (hp : sw.pending s = some rpc)
    (ha : sw.Answer failing s element sw') (release : Bool) :
    sw'.Documented (log ++ [.reply rpc element release]) := by
  have hold := h.append (.reply rpc element release)
  have hlast := answered_last log rpc element release
  rw [pending_sessionId hp] at hlast
  cases ha with
  | next done config first rest hch hf =>
    have hflags := (Option.ite_none_left_eq_some.mp hp).1
    have hrpc := Switch.pending_change hch (by simp_all) (by simp_all)
    obtain rfl := Option.some.inj (hrpc.symm.trans hp)
    refine { hold with change := hold.confirm hch (fun _ => hlast) fun i c hc hs => ?_ }
    cases i with
    | zero =>
      obtain rfl := Option.some.inj hc
      cases hs
    | succ i => exact hc
  | last done config rest hch hl =>
    have hflags := (Option.ite_none_left_eq_some.mp hp).1
    have hrpc := Switch.pending_change hch (by simp_all) (by simp_all)
    obtain rfl := Option.some.inj (hrpc.symm.trans hp)
    exact { hold with change := hold.confirm hch (fun _ => hlast) fun i c hc _ => hc }
  | failed done config rest hch =>
    exact { hold with change := hold.confirm hch (by simp) fun i c hc _ => hc }
  -- in the other states an ok documents the flag it sets
  | flag hs =>
    cases s <;> simp only [pending, reduceCtorEq, Option.ite_none_left_eq_some,
      Option.ite_none_right_eq_some, Option.some.injEq] at hp
    case waitOnCandidateConfirmation =>
      obtain ⟨-, rfl⟩ := hp
      cases element
      · exact { hold with copyConfig := fun _ => hlast }
      · exact { hold with }
      · exact hold
    case waitOnCandidateLockResponse =>
      obtain ⟨-, rfl⟩ := hp
      cases element
      · exact { hold with lockCandidate := fun _ => hlast }
      · exact hold
      · exact hold
    case waitOnTimestampConfirmation =>
      obtain ⟨-, rfl⟩ := hp
      cases element
      · exact { hold with timestamp := fun _ => hlast }
      · exact { hold with }
      · exact hold
    case waitOnChangeConfirmation => exact absurd rfl hs
    case waitOnCommitExecution => cases element <;> exact { hold with }
    case waitOnDeleteOldConfiguration =>
      cases element
      · exact { hold with
          copyConfig := by simp [SwitchState.note]
          lockCandidate := by simp [SwitchState.note] }
      · exact hold
      · exact hold
    case waitOnDeleteCandidate =>
      cases element
      · exact { hold with
          copyConfig := by simp [SwitchState.note]
          lockCandidate := by simp [SwitchState.note] }
      · exact hold
      · exact hold
    case waitOnUnlock =>
      cases element
      · exact { hold with lock := by simp [SwitchState.note] }
      · exact hold
      · exact hold

theorem Documented.enter (h : sw.Documented log) (s : TransactionAppState) :
    (sw.enter s).Documented log := by
  by_cases hs : s = .waitOnChangeConfirmation
  · subst hs
    refine { h with change := fun i c hc hsucc => ?_ }
    cases hconfig : sw.configurations with
    | nil => simp [Switch.enter, hconfig] at hc
    | cons first rest =>
      simp only [Switch.enter, hconfig] at hc
      cases i with
      | zero =>
        obtain rfl := Option.some.inj hc
        cases hsucc
      | succ i => exact h.change (i + 1) c (by rw [hconfig]; exact hc) hsucc
  · have : sw.enter s = sw := by cases s <;> first | rfl | exact absurd rfl hs
    rwa [this]

end Switch

/-! ## Requests to commit -/

namespace Run
variable {r r' : Run} {e : Event} {app : TransactionApp} {sent : List RPC} {l₁ l₂ : List Switch}
  {sw sw' : Switch}

/-- All switches have documented what their flags say, and before a commit of the time
synchronous application they have the timestamp. -/
structure Documented (r : Run) : Prop where
  switches : ∀ sw ∈ r.app.switchStates, sw.Documented r.log
  timestamp : r.app.transactionState = .waitOnCommitExecution → r.app.timeSynchronous →
    ∀ sw ∈ r.app.switchStates, sw.state.hasCommitTimeStamp

theorem Documented.noted (hd : r.Documented) (h : r.app.Noted rpc element l₁ sw l₂ sw')
    (release : Bool) :
    ∀ x ∈ l₁ ++ sw' :: l₂, x.Documented (r.log ++ [.reply rpc element release]) := by
  intro x hx
  rcases List.mem_append.mp hx with hx | hx
  · exact (hd.switches x (by simp [h.switches, hx])).append _
  · rcases List.mem_cons.mp hx with rfl | hx
    · exact (hd.switches sw h.mem).answer h.pending h.answer release
    · exact (hd.switches x (by simp [h.switches, hx])).append _

theorem documented_locked (hd : r.Documented) (hsw : r.app.switchStates = l₁ ++ sw :: l₂)
    (release : Bool) :
    ∀ x ∈ l₁ ++ sw.locked :: l₂, x.Documented (r.log ++ [.reply sw.lock .ok release]) := by
  intro x hx
  rcases List.mem_append.mp hx with hx | hx
  · exact (hd.switches x (by simp [hsw, hx])).append _
  · rcases List.mem_cons.mp hx with rfl | hx
    · have hold := (hd.switches sw (by simp [hsw])).append (.reply sw.lock .ok release)
      exact { hold with lock := fun _ => answered_last _ sw.lock _ _ }
    · exact (hd.switches x (by simp [hsw, hx])).append _

theorem Documented.of_ne (h : ∀ x ∈ app.switchStates, x.Documented (r.log ++ [e]))
    (hs : app.transactionState ≠ .waitOnCommitExecution) : (r.after e app sent).Documented :=
  ⟨h, fun hs' => absurd hs' hs⟩

theorem Documented.step (hinv : r.app.Inv r.outstanding) (hd : r.Documented)
    (hm : r.app.Move e app sent) : (r.after e app sent).Documented := by
  have hsame : ∀ sw ∈ r.app.switchStates, sw.Documented (r.log ++ [e]) :=
    fun sw hsw => (hd.switches sw hsw).append e
  cases hm with
  | start sw hs hfind =>
    refine .of_ne (fun x hx => ?_) (by simp)
    obtain ⟨c, hc, rfl⟩ := List.mem_map.mp hx
    rw [List.mem_insertionSort] at hc
    refine { lock := by simp, copyConfig := by simp, lockCandidate := by simp,
             timestamp := by simp, change := fun i config hget hsucc => ?_ }
    have := hinv.opened.waiting c hc config (List.mem_of_getElem? hget)
    rw [hsucc] at this
    cases this
  | lockNext l₁ sw l₂ next release hs hsw hunlocked hnext =>
    exact ⟨documented_locked hd hsw release, fun hcommit => by
      simp [after, TransactionApp.withSwitches, hs] at hcommit⟩
  | lockAll l₁ sw l₂ release hs hsw hunlocked hall =>
    exact .of_ne (documented_locked hd hsw release) (by simp)
  | refusedFirst sw release hs hsw hnone => exact .of_ne hsame (by simp)
  | refusedLater sw release hs hsw hunlocked hsome => exact .of_ne hsame (by simp)
  | unlockRefused rpc release h => exact ⟨hsame, hd.timestamp⟩
  | stay l₁ sw l₂ sw' rpc element release h hel hwait =>
    refine ⟨hd.noted h release, fun hs hsync => ?_⟩
    have hs : r.app.transactionState = .waitOnCommitExecution := hs
    have hold := hd.timestamp hs hsync
    have ha := h.answer
    rw [hs] at ha
    intro x hx
    rcases List.mem_append.mp hx with hx | hx
    · exact hold x (by simp [h.switches, hx])
    · rcases List.mem_cons.mp hx with rfl | hx
      · cases ha
        cases element <;> exact hold sw h.mem
      · exact hold x (by simp [h.switches, hx])
  | advance l₁ sw l₂ sw' rpc release s h hall hnone hrelease hnext hfirst =>
    refine ⟨fun y hy => ?_, fun hs hsync y hy => ?_⟩
    · obtain ⟨x, hx, rfl⟩ := List.mem_map.mp hy
      exact (hd.noted h release x hx).enter s
    · have hs : s = .waitOnCommitExecution := hs
      have hsync : r.app.timeSynchronous = true := hsync
      obtain ⟨x, hx, rfl⟩ := List.mem_map.mp hy
      rw [state_enter]
      -- with timestamps the commits follow their confirmation only
      have htimestamp : r.app.transactionState = .waitOnTimestampConfirmation := by
        rw [hs, hsync] at hnext
        cases hstate : r.app.transactionState <;> rw [hstate] at hnext <;>
          first | rfl | exact absurd hnext (by simp [TransactionAppState.next])
      have hset := hall x hx
      have herr := hnone (by rw [htimestamp]; rfl) x hx
      simpa [htimestamp, Switch.settled, Switch.pending, herr] using hset
  | fail l₁ sw l₂ sw' rpc element release h hel hcounts hall herror hcandidate =>
    exact .of_ne (hd.noted h release) (by simp)
  | abort l₁ sw l₂ sw' rpc release hs h hall => exact .of_ne (hd.noted h release) (by simp)
  | lambda hs => exact .of_ne hsame (by simp)

theorem documented_of_reachable (h : transaction.Reachable r) : r.Documented := by
  have hboth : r.app.Inv r.outstanding ∧ r.Documented := by
    apply h.invariant (P := fun r => r.app.Inv r.outstanding ∧ r.Documented)
    · rintro r ⟨timeSynchronous, connections, hopened, rfl⟩
      exact ⟨inv_new hopened, by simp [new], by simp [new]⟩
    · rintro r e r' ⟨hinv, hd⟩ hs
      have hinv' := inv_step hinv hs
      obtain ⟨app, sent, hm, rfl⟩ := step_move hinv hs
      exact ⟨hinv', hd.step hinv hm⟩
  exact hboth.2

/-- Every switch has confirmed all that comes before a commit, and no reply was an error. -/
structure Unanimous (r : Run) : Prop where
  noError : NoError r.log
  lock : ∀ c ∈ r.app.connections, Answered r.log c.sessionId .lock .ok
  copyConfig : ∀ c ∈ r.app.connections, Answered r.log c.sessionId .copyConfig .ok
  lockCandidate : ∀ c ∈ r.app.connections, Answered r.log c.sessionId .lockCandidate .ok
  change : ∀ c ∈ r.app.connections, ∀ i < c.configurations.length,
    Answered r.log c.sessionId (.change i) .ok
  timestamp : r.app.timeSynchronous → ∀ c ∈ r.app.connections,
    Answered r.log c.sessionId .timestamp .ok

/-- The connections are those of the switches. -/
theorem exists_switch (hinv : r.app.Inv r.outstanding)
    (hs : r.app.transactionState ≠ .beginOfTransaction) {c : Connection}
    (hc : c ∈ r.app.connections) :
    ∃ sw ∈ r.app.switchStates, sw.profile = c.profile := by
  have hmem := (hinv.switches hs).mem_iff.mpr (List.mem_map_of_mem hc)
  exact List.mem_map.mp hmem

/-- The application turns to the commits with all flags of all switches set. -/
theorem unanimous_of_waitOnCommitExecution (hinv : r.app.Inv r.outstanding) (hd : r.Documented)
    (hj : r.Judged) (hs : r.app.transactionState = .waitOnCommitExecution) : r.Unanimous := by
  have hfits := hinv.fits
  have hsw : ∀ c ∈ r.app.connections, ∃ sw ∈ r.app.switchStates, sw.sessionId = c.sessionId ∧
      sw.configurations.length = c.configurations.length := by
    intro c hc
    obtain ⟨sw, hsw, hprofile⟩ := exists_switch hinv (by simp [hs]) hc
    simp only [Connection.profile, Prod.mk.injEq] at hprofile
    exact ⟨sw, hsw, hprofile.2.1, hprofile.2.2.1⟩
  rw [hs] at hfits
  simp only [Judged, hs] at hj
  refine { noError := hj.1, lock := fun c hc => ?_, copyConfig := fun c hc => ?_,
           lockCandidate := fun c hc => ?_, change := fun c hc i hi => ?_,
           timestamp := fun hsync c hc => ?_ }
  all_goals
    obtain ⟨sw, hmem, hsession, hlength⟩ := hsw c hc
    obtain ⟨⟨m, t, hm⟩, hsuccess⟩ := hfits sw hmem
    have hdoc := hd.switches sw hmem
    rw [← hsession]
  · exact hdoc.lock (by simp [hm])
  · exact hdoc.copyConfig (by simp [hm])
  · exact hdoc.lockCandidate (by simp [hm])
  · rw [← hlength] at hi
    exact hdoc.change i _ (List.getElem?_eq_getElem hi) (hsuccess _ (List.getElem_mem hi))
  · exact hdoc.timestamp (hd.timestamp hs hsync sw hmem)

theorem Unanimous.after (h : r.Unanimous) (he : ∀ rpc release, e ≠ .reply rpc .error release)
    (hconnections : app.connections = r.app.connections)
    (hsync : app.timeSynchronous = r.app.timeSynchronous) : (r.after e app sent).Unanimous where
  noError := (noError_append he).mpr h.noError
  lock c hc := (h.lock c (hconnections ▸ hc)).append e
  copyConfig c hc := (h.copyConfig c (hconnections ▸ hc)).append e
  lockCandidate c hc := (h.lockCandidate c (hconnections ▸ hc)).append e
  change c hc i hi := (h.change c (hconnections ▸ hc) i hi).append e
  timestamp ht c hc := (h.timestamp (hsync ▸ ht) c (hconnections ▸ hc)).append e

end Run

/-- The states from the commits on. -/
def TransactionAppState.isAfterCommit : TransactionAppState → Bool
  | .waitOnCommitExecution | .waitOnDeleteOldConfiguration | .waitOnUnlock
  | .endOfTransaction => true
  | _ => false

namespace TransactionApp
variable {app app' : TransactionApp} {out sent : List RPC} {e : Event}

/-- From the commits on only `Ok` is handled, and the application does not turn back. -/
theorem Move.isAfterCommit (hm : app.Move e app' sent)
    (hs : app.transactionState.isAfterCommit) :
    app'.transactionState.isAfterCommit ∧ ∀ rpc release, e ≠ .reply rpc .error release := by
  cases hm with
  | start sw hs' hfind => simp [hs', TransactionAppState.isAfterCommit] at hs
  | lockNext l₁ sw l₂ next release hs' => simp [hs', TransactionAppState.isAfterCommit] at hs
  | lockAll l₁ sw l₂ release hs' => simp [hs', TransactionAppState.isAfterCommit] at hs
  | refusedFirst sw release hs' => simp [hs', TransactionAppState.isAfterCommit] at hs
  | refusedLater sw release hs' => simp [hs', TransactionAppState.isAfterCommit] at hs
  | unlockRefused rpc release h => exact ⟨hs, by simp⟩
  | stay l₁ sw l₂ sw' rpc element release h hel hwait =>
    refine ⟨hs, ?_⟩
    rcases hel with rfl | ⟨-, hcounts⟩
    · simp
    · cases hs' : app.transactionState <;> rw [hs'] at hs hcounts <;>
        simp only [TransactionAppState.isAfterCommit, TransactionAppState.countsErrors,
          Bool.false_eq_true] at hs hcounts
  | advance l₁ sw l₂ sw' rpc release s h hall hnone hrelease hnext hfirst =>
    subst hnext
    refine ⟨?_, by simp⟩
    cases hs' : app.transactionState <;> rw [hs'] at hs <;>
      first | rfl | simp only [TransactionAppState.isAfterCommit, Bool.false_eq_true] at hs
  | fail l₁ sw l₂ sw' rpc element release h hel hcounts =>
    cases hs' : app.transactionState <;> rw [hs'] at hs hcounts <;>
      simp only [TransactionAppState.isAfterCommit, TransactionAppState.countsErrors,
        Bool.false_eq_true] at hs hcounts
  | abort l₁ sw l₂ sw' rpc release hs' => simp [hs', TransactionAppState.isAfterCommit] at hs
  | lambda hs' => simp [hs', TransactionAppState.isAfterCommit] at hs

/-- A commit is a request of `WaitOnCommitExecution`, or the first change of a switch. -/
theorem Inv.commitApproved {rpc : RPC} (hinv : app.Inv out)
    (hfirst : ∀ c ∈ app.connections, c.configurations.head?.map (·.type) ≠ some .commit)
    (hrpc : rpc ∈ out) (hop : rpc.operation = .commit) : rpc.messageId = .commitApproved := by
  obtain ⟨sw, hsw, ⟨-, rfl⟩ | hp | ⟨-, rfl⟩⟩ := hinv.request_cases hrpc
  · cases hop
  · cases hs : app.transactionState <;> rw [hs] at hp <;>
      simp only [Switch.pending, reduceCtorEq, Option.ite_none_left_eq_some,
        Option.ite_none_right_eq_some, Option.some.injEq] at hp
    case waitOnCommitExecution =>
      obtain ⟨-, rfl⟩ := hp
      rfl
    case waitOnChangeConfirmation =>
      exfalso
      have hflags : ¬sw.state.hasConfiguration ∧ ¬sw.state.hasError := by simpa using hp.1
      have hfits := hinv.fits sw hsw
      rw [hs] at hfits
      obtain ⟨c, e, hc, -, hchanging, -⟩ := hfits
      obtain ⟨done, config, rest, hch⟩ := hchanging (by simpa [hc] using hflags.1)
        (by simpa [hc] using hflags.2)
      rw [hch.requestedChange] at hp
      obtain rfl := Option.some.inj hp.2
      have htype : config.type = .commit := by
        cases ht : config.type <;>
          simp [Connection.createRPC, Configuration.operation, ht] at hop ⊢
      by_cases hdone : done = []
      · have hmem := (hinv.switches (by simp [hs])).mem_iff.mp (List.mem_map_of_mem hsw)
        obtain ⟨c, hc, hprofile⟩ := List.mem_map.mp hmem
        apply hfirst c hc
        have hhead := congrArg (fun p => p.2.2.2) hprofile
        have hconfig : sw.configurations = config :: rest := by simpa [hdone] using hch.configurations
        simp only [Connection.profile, hconfig, List.head?_cons, Option.map_some, htype] at hhead
        exact hhead
      · rw [hch.type hdone] at htype
        cases htype
    all_goals
      obtain ⟨-, rfl⟩ := hp
      cases hop
  · cases hop

end TransactionApp

namespace Run
variable {r r' : Run} {e : Event} {app : TransactionApp} {sent : List RPC}

/-- A commit that the protocol asks for is sent after unanimity only. -/
def CommitsApproved (r : Run) : Prop :=
  ∀ rpc ∈ r.sent, rpc.messageId = .commitApproved →
    r.app.transactionState.isAfterCommit ∧ r.Unanimous

theorem CommitsApproved.step (h : r.CommitsApproved) (hm : r.app.Move e app sent)
    (hinv : (r.after e app sent).app.Inv (r.after e app sent).outstanding)
    (hd : (r.after e app sent).Documented) (hj : (r.after e app sent).Judged) :
    (r.after e app sent).CommitsApproved := by
  intro rpc hrpc hid
  rcases List.mem_append.mp hrpc with hold | hnew
  · obtain ⟨hs, hu⟩ := h rpc hold hid
    obtain ⟨hs', he⟩ := hm.isAfterCommit hs
    exact ⟨hs', hu.after he hm.connections.1 hm.connections.2⟩
  · have hout : rpc ∈ (r.after e app sent).outstanding := List.mem_append_right _ hnew
    obtain ⟨sw, -, ⟨-, rfl⟩ | hp | ⟨-, rfl⟩⟩ := hinv.request_cases hout
    · cases hid
    · have hs := Switch.pending_awaitedIn hp
      rw [hid] at hs
      exact ⟨by rw [← hs]; rfl, unanimous_of_waitOnCommitExecution hinv hd hj hs.symm⟩
    · cases hid

theorem commitsApproved_of_reachable (h : transaction.Reachable r) : r.CommitsApproved := by
  apply System.ReachableUnder.invariant h (P := CommitsApproved)
  · rintro r ⟨timeSynchronous, connections, hopened, rfl⟩
    simp [CommitsApproved, new]
  · intro r e r' hr happroved _ hs
    have hr' : transaction.Reachable r' := hr.step trivial hs
    obtain ⟨app, sent, hm, rfl⟩ := step_move (inv_of_reachable hr) hs
    exact happroved.step hm (inv_of_reachable hr') (documented_of_reachable hr')
      (judged_of_reachable hr')

/-- Without a first change that is a commit itself, the only commits are those of the protocol. -/
theorem commitApproved_of_sent (h : transaction.Reachable r)
    (hfirst : ∀ c ∈ r.app.connections, c.configurations.head?.map (·.type) ≠ some .commit) :
    ∀ rpc ∈ r.sent, rpc.operation = .commit → rpc.messageId = .commitApproved := by
  revert hfirst
  apply System.ReachableUnder.invariant h (P := fun r =>
    (∀ c ∈ r.app.connections, c.configurations.head?.map (·.type) ≠ some .commit) →
      ∀ rpc ∈ r.sent, rpc.operation = .commit → rpc.messageId = .commitApproved)
  · rintro r ⟨timeSynchronous, connections, hopened, rfl⟩ -
    simp [new]
  · intro r e r' hr ih _ hs hfirst rpc hrpc hop
    have hr' : transaction.Reachable r' := hr.step trivial hs
    obtain ⟨app, sent, hm, rfl⟩ := step_move (inv_of_reachable hr) hs
    rcases List.mem_append.mp hrpc with hold | hnew
    · have hconnections : (r.after e app sent).app.connections = r.app.connections :=
        hm.connections.1
      rw [hconnections] at hfirst
      exact ih hfirst rpc hold hop
    · exact (inv_of_reachable hr').commitApproved hfirst (List.mem_append_right _ hnew) hop

/-- After a commit every switch has confirmed each step before it, and while the application
waits for the commits the flags say the same. -/
def CommitsUnanimous (r : Run) : Prop :=
  (∃ rpc ∈ r.sent, rpc.operation = .commit) → r.Unanimous ∧
    (r.app.transactionState = .waitOnCommitExecution → ∀ sw ∈ r.app.switchStates,
      sw.state.hasLockedRunning ∧ sw.state.hasCandidate ∧ sw.state.hasLockedCandidate ∧
        (r.app.timeSynchronous → sw.state.hasCommitTimeStamp) ∧
        ∀ config ∈ sw.configurations, config.state = .success)

/-- Unless the first change of a switch is a commit, commits are sent after unanimity only. -/
theorem commitsUnanimous (h : transaction.Reachable r)
    (hfirst : ∀ c ∈ r.app.connections, c.configurations.head?.map (·.type) ≠ some .commit) :
    r.CommitsUnanimous := by
  rintro ⟨rpc, hrpc, hop⟩
  have hid := commitApproved_of_sent h hfirst rpc hrpc hop
  refine ⟨(commitsApproved_of_reachable h rpc hrpc hid).2, fun hs sw hsw => ?_⟩
  have hfits := (inv_of_reachable h).fits sw hsw
  rw [hs] at hfits
  obtain ⟨⟨m, t, hm⟩, hsuccess⟩ := hfits
  refine ⟨by simp [hm], by simp [hm], by simp [hm], fun hsync => ?_, hsuccess⟩
  exact (documented_of_reachable h).timestamp hs hsync sw hsw

/-- Both switches lock their candidates, the second one first. -/
def candidatesLocked : List Event :=
  [.startTransaction,
    .reply ⟨11, .lock, .lock .running⟩ .ok false,
    .reply ⟨12, .lock, .lock .running⟩ .ok false,
    .reply ⟨12, .copyConfig, .copyConfig .running .candidate⟩ .ok false,
    .reply ⟨11, .copyConfig, .copyConfig .running .candidate⟩ .ok false,
    .reply ⟨12, .lockCandidate, .lock .candidate⟩ .ok false,
    .reply ⟨11, .lockCandidate, .lock .candidate⟩ .ok false]

/-- They confirm their changes as well. -/
def confirmed : List Event :=
  candidatesLocked ++
    [.reply ⟨12, .change 0, .editConfig .candidate (.config 6)⟩ .ok false,
      .reply ⟨11, .change 0, .editConfig .candidate (.config 5)⟩ .ok false]

theorem commitsUnanimous_confirmed :
    ∃ r, transaction.runFrom (.new false twoSwitches) confirmed = some r ∧
      r.app.transactionState = .waitOnCommitExecution ∧ r.CommitsUnanimous := by
  obtain ⟨r, hr, hs, hconnections⟩ : ∃ r,
      transaction.runFrom (.new false twoSwitches) confirmed = some r ∧
      r.app.transactionState = .waitOnCommitExecution ∧ r.app.connections = twoSwitches :=
    ⟨_, rfl, rfl, rfl⟩
  have hreachable : transaction.Reachable r :=
    System.reachable_of_runFrom ⟨false, twoSwitches, opened_twoSwitches, rfl⟩ hr
  refine ⟨r, hr, hs, commitsUnanimous hreachable ?_⟩
  rw [hconnections]
  decide

/-- Two switches; the first change of one of them is a commit. -/
def commitFirst : List Connection :=
  [⟨1, 11, [{ type := .commit }]⟩,
    ⟨2, 12, [{ type := .editConfig, target := .candidate, data := .config 6 }]⟩]

theorem opened_commitFirst : Opened commitFirst where
  addresses := by decide
  sessions := by decide
  waiting := by decide

/-- The commit is sent as a change, when no change of any switch has been confirmed. -/
theorem commitFirst_not_unanimous :
    ¬∀ r, transaction.Reachable r → (∀ c ∈ r.app.connections, c.configurations ≠ []) →
      r.CommitsUnanimous := by
  intro hall
  obtain ⟨r, hr, hconnections, hsent, hlog⟩ : ∃ r, transaction.runFrom (.new false commitFirst)
      candidatesLocked = some r ∧
      r.app.connections = commitFirst ∧ (⟨11, .change 0, .commit⟩ : RPC) ∈ r.sent ∧
      r.log = candidatesLocked := by
    refine ⟨_, rfl, rfl, ?_, rfl⟩
    decide
  have hreachable : transaction.Reachable r :=
    System.reachable_of_runFrom ⟨false, commitFirst, opened_commitFirst, rfl⟩ hr
  have hcommit := hall r hreachable (by rw [hconnections]; decide) ⟨_, hsent, rfl⟩
  have hfirst : (⟨1, 11, [{ type := .commit }]⟩ : Connection) ∈ r.app.connections := by
    rw [hconnections]
    exact List.mem_cons_self ..
  obtain ⟨operation, release, hchange⟩ := hcommit.1.change _ hfirst 0 (by decide)
  rw [hlog] at hchange
  simp [candidatesLocked] at hchange

end Run

end TsnReconfig.NetConf
