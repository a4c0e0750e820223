import TsnReconfig.NetConf.MutualExclusion

/-!
# The replies that a transaction handles

Which replies of the servers an application can get that its state does not handle: errors where
the source takes a hardware fault for granted, and the answers to requests that are no edits.
-/

namespace TsnReconfig.NetConf

open TsnReconfig.Lib

/-! ## The candidate stores -/

namespace DataStoreManager

variable {M C S : Type*} {configurators : List (Configurator C S)} {m m' : DataStoreManager M C S}
  {clock : Clock} {ctrl : CtrlInfo M} {operation : NetConfOperation C} {r : Option ReplyElement}

/-- The session that has locked the candidate. -/
def candidateHolder (m : DataStoreManager M C S) : Option ℕ :=
  m.candidateStore.lockHolderSessionId

/-- An operation leaves the candidates of other sessions locked. -/
theorem candidateHolder_of_other (h : Effect configurators m clock ctrl operation m' r) {s : ℕ}
    (hs : s ≠ ctrl.sessionId) (hholder : m.candidateHolder = some s) :
    m'.candidateHolder = some s := by
  unfold candidateHolder at hholder ⊢
  cases h with
  | deleteCandidate hlock => exact absurd (verifyLock_iff.mp hlock s hholder) hs
  | lockCandidate hfree => simp [hfree] at hholder
  | unlockCandidate howner =>
    rw [howner] at hholder
    exact absurd (Option.some.inj hholder).symm hs
  | timedCommit m' hlock htimestamp h => rwa [(scheduleTimedCommit_eq_some h).2.1]
  | _ => exact hholder

/-- A session has its candidate locked until it unlocks or deletes it. -/
theorem candidateHolder_of_own (h : Effect configurators m clock ctrl operation m' r)
    (hheld : operation = .lock .candidate ∧ r = some .ok ∨
      m.candidateHolder = some ctrl.sessionId ∧ operation ≠ .unlock .candidate ∧
        operation ≠ .deleteConfig .candidate) :
    m'.candidateHolder = some ctrl.sessionId := by
  unfold candidateHolder at hheld ⊢
  cases h with
  | lockCandidate hfree => rfl
  | timedCommit m' hlock htimestamp h =>
    rw [(scheduleTimedCommit_eq_some h).2.1]
    exact (hheld.resolve_left (by simp)).1
  | deleteCandidate hlock => simp at hheld
  | unlockCandidate howner => simp at hheld
  | _ => exact (hheld.resolve_left (by simp)).1

/-- A candidate is deleted for a session that has it locked. -/
theorem eq_ok_of_deleteConfig
    (h : Effect configurators m clock ctrl (.deleteConfig .candidate) m' r)
    (hheld : m.candidateHolder = some ctrl.sessionId) : r = some .ok := by
  cases h with
  | refused operation h =>
    refine absurd (verifyLock_iff.mpr fun s hs => ?_) h
    exact Option.some.inj (hs.symm.trans hheld)
  | queried operation h => simp at h
  | deleteCandidate => rfl

/-- A lock is given back by the session that has it. -/
theorem eq_ok_of_unlock (h : Effect configurators m clock ctrl (.unlock .running) m' r)
    (hheld : m.holder = some ctrl.sessionId) : r = some .ok := by
  cases h with
  | refused operation h => exact absurd (DataStoreBase.isLockedBy_iff.mpr hheld) h
  | queried operation h => simp at h
  | unlockRunning => rfl

/-- Data are the answer to a query. -/
theorem eq_getConfig_of_data (h : Effect configurators m clock ctrl operation m' r)
    (hr : r = some .data) : operation = .getConfig .running ∨ operation = .get := by
  cases h with
  | queried operation h => exact h
  | editRunning editOperation errorOption config hlock running applied h =>
    cases applied <;> simp at hr
  | copyToRunning => split_ifs at hr <;> simp at hr
  | commit => split_ifs at hr <;> simp at hr
  | _ => simp at hr

end DataStoreManager

/-! ## What the applications know of the candidates -/

/-- The first change gives the candidate up. -/
def Switch.GivesUp (sw : Switch) : Prop :=
  sw.firstType = some .deleteConfig ∨ sw.firstType = some .unlock

namespace Switch
variable {sw : Switch} {s : TransactionAppState} {rpc : RPC}

/-- The candidate is unlocked by a first change only. -/
theorem Request.ne_unlock_candidate (h : sw.Request s rpc) (hsw : ¬sw.GivesUp) :
    rpc.operation ≠ .unlock .candidate := by
  cases h with
  | change config i htarget htype =>
    intro hop
    cases hconfig : config.type <;>
      simp [Connection.createRPC, Configuration.operation, hconfig] at hop
    rw [hconfig] at htype
    exact hsw (.inr (htype.resolve_right (by simp)))
  | _ => simp [Switch.lock, Switch.copyConfig, Switch.lockCandidate, Switch.timestamp,
      Switch.commitApproved, Switch.deleteOldConfig, Switch.deleteCandidate, Switch.unlock,
      Connection.createRPC, Configuration.operation]

/-- It is deleted on the request of the protocol or by a first change. -/
theorem Request.eq_delete (h : sw.Request s rpc) (hsw : ¬sw.GivesUp)
    (hop : rpc.operation = .deleteConfig .candidate) :
    rpc = sw.deleteOldConfig ∨ rpc = sw.deleteCandidate := by
  cases h with
  | change config i htarget htype =>
    cases hconfig : config.type <;>
      simp [Connection.createRPC, Configuration.operation, hconfig] at hop
    rw [hconfig] at htype
    exact absurd (.inl (htype.resolve_right (by simp))) hsw
  | deleteOldConfig => exact .inl rfl
  | deleteCandidate => exact .inr rfl
  | _ => simp [Switch.lock, Switch.copyConfig, Switch.lockCandidate, Switch.timestamp,
      Switch.commitApproved, Switch.unlock, Connection.createRPC, Configuration.operation] at hop

end Switch

namespace Network

variable {ι C S : Type*} {d : Deployment ι C S} {n n' : Network ι C S}

/-- The session that has locked the candidate of a server. -/
def candidateHolder (n : Network ι C S) (a : ℕ) : Option ℕ := (n.servers a).candidateHolder

/-- An application has a candidate from the reply to its lock until it is deleted. -/
def HoldsCandidate (n : Network ι C S) (sw : Switch) : Prop :=
  (sw.lockCandidate, .ok) ∈ n.replies ∨ sw.state.hasLockedCandidate ∧
    ∀ element, (sw.deleteOldConfig, element) ∉ n.replies ∧
      (sw.deleteCandidate, element) ∉ n.replies

/-- Why a reply to a request can be what it is. -/
structure Accounted (d : Deployment ι C S) (n : Network ι C S) : Prop where
  candidate : ∀ i, ∀ sw ∈ (n.runs i).app.switchStates, ¬sw.GivesUp → HoldsCandidate n sw →
    n.candidateHolder sw.remoteAddress = some sw.sessionId
  data : ∀ rpc, (rpc, .data) ∈ n.replies → rpc.operation = .getConfig .running
  unlock : ∀ i, ∀ sw ∈ (n.runs i).app.switchStates, (sw.unlock, .error) ∈ n.replies →
    (n.runs i).app.Refused (n.runs i).outstanding
  deleted : ∀ i, ∀ sw ∈ (n.runs i).app.switchStates,
    (sw.deleteOldConfig, .error) ∈ n.replies ∨ (sw.deleteCandidate, .error) ∈ n.replies →
      sw.GivesUp ∨ ¬sw.state.hasLockedCandidate

theorem candidateHolder_update {a b : ℕ} {m : DataStoreManager RPC C S} {s : ℕ}
    (hold : b ≠ a → n.candidateHolder b = some s) (hnew : b = a → m.candidateHolder = some s) :
    (Function.update n.servers a m b).candidateHolder = some s := by
  by_cases hb : b = a
  · subst hb
    rw [Function.update_self]
    exact hnew rfl
  · rw [Function.update_of_ne hb]
    exact hold hb

/-- An operation takes the candidate from no other session. -/
theorem candidateHolder_operation {a b : ℕ} {configurators : List (Configurator C S)}
    {clock : Clock} {ctrl : CtrlInfo RPC} {operation : NetConfOperation C}
    {m : DataStoreManager RPC C S} {r : Option ReplyElement}
    (heffect : DataStoreManager.Effect configurators (n.servers a) clock ctrl operation m r)
    {s : ℕ} (hs : s ≠ ctrl.sessionId) (hholder : n.candidateHolder b = some s) :
    (Function.update n.servers a m b).candidateHolder = some s := by
  refine candidateHolder_update (fun _ => hholder) ?_
  rintro rfl
  exact DataStoreManager.candidateHolder_of_other heffect hs hholder

theorem operation_eq_iff (timestamp : CommitTimestamp) (operation : Operation) :
    (d.operation timestamp operation = .unlock .candidate ↔ operation = .unlock .candidate) ∧
    (d.operation timestamp operation = .lock .candidate ↔ operation = .lock .candidate) ∧
    (d.operation timestamp operation = .deleteConfig .candidate ↔
      operation = .deleteConfig .candidate) ∧
    (d.operation timestamp operation = .commit ↔ operation = .commit) ∧
    (d.operation timestamp operation = .getConfig .running ∨
      d.operation timestamp operation = .get ↔ operation = .getConfig .running) := by
  cases operation with
  | editConfig target data => cases data <;> simp [Deployment.operation]
  | _ => simp [Deployment.operation]

/-- A step that touches no candidate and no reply that tells of one. -/
theorem Accounted.of_candidateHolder (h : Accounted d n) (hruns : n'.runs = n.runs)
    (hholder : ∀ i, ∀ sw ∈ (n.runs i).app.switchStates,
      n.candidateHolder sw.remoteAddress = some sw.sessionId →
        n'.candidateHolder sw.remoteAddress = some sw.sessionId)
    (hreplies : ∀ rpc element, rpc.operation ≠ .commit →
      ((rpc, element) ∈ n'.replies ↔ (rpc, element) ∈ n.replies))
    (hdata : ∀ rpc, (rpc, .data) ∈ n'.replies → (rpc, .data) ∈ n.replies) : Accounted d n' := by
  have hsw : ∀ (sw : Switch) (element : ReplyElement),
      ((sw.lockCandidate, element) ∈ n'.replies ↔ (sw.lockCandidate, element) ∈ n.replies) ∧
      ((sw.deleteOldConfig, element) ∈ n'.replies ↔ (sw.deleteOldConfig, element) ∈ n.replies) ∧
      ((sw.deleteCandidate, element) ∈ n'.replies ↔ (sw.deleteCandidate, element) ∈ n.replies) ∧
      ((sw.unlock, element) ∈ n'.replies ↔ (sw.unlock, element) ∈ n.replies) := by
    intro sw element
    refine ⟨hreplies _ _ ?_, hreplies _ _ ?_, hreplies _ _ ?_, hreplies _ _ ?_⟩ <;>
      simp [Switch.lockCandidate, Switch.deleteOldConfig, Switch.deleteCandidate, Switch.unlock,
        Connection.createRPC, Configuration.operation]
  refine ⟨fun i sw hmem hgives hholds => ?_, fun rpc hrpc => h.data rpc (hdata rpc hrpc),
    fun i sw hmem hreply => ?_, fun i sw hmem hreply => ?_⟩
  · rw [hruns] at hmem
    refine hholder i sw hmem (h.candidate i sw hmem hgives ?_)
    unfold HoldsCandidate at hholds ⊢
    simpa only [(hsw sw _).1, (hsw sw _).2.1, (hsw sw _).2.2.1] using hholds
  · rw [hruns] at hmem ⊢
    exact h.unlock i sw hmem ((hsw sw _).2.2.2.mp hreply)
  · rw [hruns] at hmem
    exact h.deleted i sw hmem (hreply.imp (hsw sw _).2.1.mp (hsw sw _).2.2.1.mp)

section Step
variable [DecidableEq ι] {i : ι} {e : NetConf.Event} {app : TransactionApp} {sent : List RPC}

/-- The steps of the application that has the switch. -/
theorem Accounted.noting (h : Accounted d n) (hord : InOrder d n) (hp : n.possible d i e)
    (hm : (n.runs i).app.Move e app sent) (he : e.Possible (n.runs i).outstanding)
    {sw sw' : Switch} (hsw : sw ∈ (n.runs i).app.switchStates) (hnoting : Noting e sw sw') :
    (HoldsCandidate (n.handled i e app sent) sw' → HoldsCandidate n sw) ∧
      ((sw'.deleteOldConfig, .error) ∈ (n.handled i e app sent).replies ∨
        (sw'.deleteCandidate, .error) ∈ (n.handled i e app sent).replies →
          sw.GivesUp ∨ ¬sw'.state.hasLockedCandidate) := by
  have hlock : sw'.lockCandidate = sw.lockCandidate := by
    simp [Switch.lockCandidate, Connection.createRPC, hnoting.sessionId]
  have hold : sw'.deleteOldConfig = sw.deleteOldConfig := by
    simp [Switch.deleteOldConfig, Connection.createRPC, hnoting.sessionId]
  have hdelete : sw'.deleteCandidate = sw.deleteCandidate := by
    simp [Switch.deleteCandidate, Connection.createRPC, hnoting.sessionId]
  have hok : ∀ rpc : RPC, rpc.messageId.awaitedIn.acceptsOkOnly → ∀ element release,
      e = .reply rpc element release → element = .ok := by
    rintro rpc hrpc element release rfl
    refine hm.eq_ok ?_
    rwa [← (hord.runs i).inv.awaitedIn he]
  rw [HoldsCandidate, hlock, hold, hdelete]
  simp only [hord.mem_replies_handled]
  constructor
  · rintro (hl | ⟨hflag, hnone⟩)
    · exact .inl hl.1
    rcases hnoting.candidate.mp hflag with ⟨release, rfl⟩ | ⟨hflag, hkept⟩
    · exact .inl (of_decide_eq_true hp).1
    · have hnot : ∀ rpc : RPC, rpc.messageId.awaitedIn.acceptsOkOnly →
          (∀ release, e ≠ .reply rpc .ok release) → ∀ element,
            ¬((rpc, element) ∈ n.replies ∧ ∀ release, e ≠ .reply rpc element release) →
              (rpc, element) ∉ n.replies := by
        intro rpc hrpc hne element hgone hmem
        refine hgone ⟨hmem, fun release he => ?_⟩
        obtain rfl := hok rpc hrpc element release he
        exact hne release he
      push Not at hkept
      exact .inr ⟨hflag, fun element =>
        ⟨hnot sw.deleteOldConfig rfl (fun release => (hkept release).1) element (hnone element).1,
          hnot sw.deleteCandidate rfl (fun release => (hkept release).2) element
            (hnone element).2⟩⟩
  · intro hmem
    refine (h.deleted i sw hsw (hmem.imp And.left And.left)).imp_right fun hflag hflag' => ?_
    obtain ⟨release, rfl⟩ := (hnoting.candidate.mp hflag').resolve_right fun hn => hflag hn.1
    -- the session has one reply in flight
    have hlocked := mem_inFlight_of_reply (of_decide_eq_true hp).1
    have hids : ∀ rpc : RPC, (rpc, .error) ∈ n.replies → rpc.sessionId = sw.sessionId →
        rpc.messageId = .lockCandidate := fun rpc hrpc hsession =>
      congrArg RPC.messageId (hord.eq_of_sessionId (mem_inFlight_of_reply hrpc) hlocked hsession)
    rcases hmem with hmem | hmem
    · cases hids _ hmem.1 rfl
    · cases hids _ hmem.1 rfl

/-- After a refused lock an application makes no step while its unlock is in flight. -/
theorem not_move_of_unlock_error (hord : InOrder d n) (hp : n.possible d i e)
    (hm : (n.runs i).app.Move e app sent) (he : e.Possible (n.runs i).outstanding) {sw : Switch}
    (hsw : sw ∈ (n.runs i).app.switchStates)
    (hrefused : (n.runs i).app.Refused (n.runs i).outstanding) :
    (sw.unlock, .error) ∉ (n.handled i e app sent).replies := by
  intro hmem
  obtain ⟨hreply, hne⟩ := hord.mem_replies_handled.mp hmem
  obtain ⟨hs, -, -, hR⟩ := hrefused
  have hout := hord.outstanding _ (mem_inFlight_of_reply hreply) i ((hord.runs i).session hsw).1
  have hone := (hR _ hout).1
  cases e with
  | startTransaction =>
    cases hm with
    | start sw hs' => simp [hs] at hs'
  | lambda =>
    cases hm with
    | lambda hs' => simp [hs] at hs'
  | reply rpc element release =>
    obtain rfl : rpc = sw.unlock := by
      have hmem : rpc ∈ (n.runs i).outstanding := he
      simpa [hone] using hmem
    obtain rfl := hord.reply_eq hreply (of_decide_eq_true hp).1
    exact hne release rfl

/-- The steps of the applications. -/
theorem Accounted.handled_step (h : Accounted d n) (hord : InOrder d n) (hp : n.possible d i e)
    (hh : (n.runs i).app.finiteStateMachine e.release e.message = some (app, sent)) :
    Accounted d (n.handled i e app sent) := by
  obtain ⟨he, hm⟩ := hord.move hp hh
  have hinv := (hord.runs i).inv
  have hrun : ((n.handled i e app sent).runs i).app = app := by
    rw [handled_runs_self]
    rfl
  have hsession : ∀ sw' ∈ app.switchStates, d.application sw'.sessionId = some i := fun sw' hsw' =>
    (((hord.runs i).step (hord.run_step hp hh)).session hsw').1
  -- the entry before, or no lock and no reply in flight
  have hbefore : ∀ sw' ∈ app.switchStates,
      (∃ sw ∈ (n.runs i).app.switchStates, Noting e sw sw') ∨
        sw'.state = {} ∧ ∀ rpc : RPC, rpc.sessionId = sw'.sessionId → ∀ element,
          (rpc, element) ∉ (n.handled i e app sent).replies := by
    intro sw' hsw'
    by_cases hbegin : (n.runs i).app.transactionState = .beginOfTransaction
    · exact .inr ⟨(hm.of_begin hinv he hbegin).2 sw' hsw', fun rpc hrpc element hmem =>
        hord.not_replied_of_begin hbegin (hsession sw' hsw') rpc hrpc
          (hord.mem_replies_handled.mp hmem).1⟩
    · exact .inl (exists_of_mem_right (hm.noting hinv he hbegin) hsw')
  refine ⟨fun j sw' hsw' hgives hholds => ?_, fun rpc hrpc => ?_, fun j sw' hsw' hmem => ?_,
    fun j sw' hsw' hmem => ?_⟩
  · by_cases hji : j = i
    · subst hji
      rw [hrun] at hsw'
      rcases hbefore sw' hsw' with ⟨sw, hsw, hnoting⟩ | ⟨hstate, hnone⟩
      · rw [hnoting.sessionId, hnoting.remoteAddress]
        refine h.candidate j sw hsw ?_ ((h.noting hord hp hm he hsw hnoting).1 hholds)
        rwa [Switch.GivesUp, ← hnoting.firstType]
      · rcases hholds with hl | ⟨hflag, -⟩
        · exact absurd hl (hnone _ rfl _)
        · rw [hstate] at hflag
          cases hflag
    · rw [handled_runs_of_ne hji] at hsw'
      have hj := ((hord.runs j).session hsw').1
      refine h.candidate j sw' hsw' hgives ?_
      have hsame : ∀ rpc : RPC, rpc.sessionId = sw'.sessionId → ∀ element,
          ((rpc, element) ∈ (n.handled i e app sent).replies ↔ (rpc, element) ∈ n.replies) :=
        fun rpc hrpc element => hord.mem_replies_other hp hji hj hrpc
      unfold HoldsCandidate at hholds ⊢
      simpa only [hsame sw'.lockCandidate rfl, hsame sw'.deleteOldConfig rfl,
        hsame sw'.deleteCandidate rfl] using hholds
  · exact h.data rpc (hord.mem_replies_handled.mp hrpc).1
  · by_cases hji : j = i
    · subst hji
      rw [hrun] at hsw'
      rcases hbefore sw' hsw' with ⟨sw, hsw, hnoting⟩ | ⟨-, hnone⟩
      · have hunlock : sw'.unlock = sw.unlock := by
          simp [Switch.unlock, Connection.createRPC, hnoting.sessionId]
        rw [hunlock] at hmem
        have hrefused := h.unlock j sw hsw (hord.mem_replies_handled.mp hmem).1
        exact absurd hmem (not_move_of_unlock_error hord hp hm he hsw hrefused)
      · exact absurd hmem (hnone _ rfl _)
    · rw [handled_runs_of_ne hji] at hsw' ⊢
      exact h.unlock j sw' hsw' (hord.mem_replies_handled.mp hmem).1
  · by_cases hji : j = i
    · subst hji
      rw [hrun] at hsw'
      rcases hbefore sw' hsw' with ⟨sw, hsw, hnoting⟩ | ⟨-, hnone⟩
      · rw [Switch.GivesUp, hnoting.firstType]
        exact (h.noting hord hp hm he hsw hnoting).2 hmem
      · exact absurd hmem (not_or.mpr ⟨hnone _ rfl _, hnone _ rfl _⟩)
    · rw [handled_runs_of_ne hji] at hsw'
      exact h.deleted j sw' hsw' (hmem.imp (fun hm => (hord.mem_replies_handled.mp hm).1)
        fun hm => (hord.mem_replies_handled.mp hm).1)

/-! ### The steps of the servers -/

section Serve
variable {rpc : RPC} {clock : Clock} {timestamp : CommitTimestamp} {m : DataStoreManager RPC C S}
  {r : Option ReplyElement}

omit [DecidableEq ι] in
theorem mem_replies_served {x : RPC} {element : ReplyElement} :
    (x, element) ∈ n.replies ++ (r.map fun element => (rpc, element)).toList ↔
      (x, element) ∈ n.replies ∨ x = rpc ∧ r = some element := by
  cases r <;> simp [eq_comm]

omit [DecidableEq ι] in
/-- A switch that requests something has its candidate, if it has locked it. -/
theorem Accounted.candidate_of_request (h : Accounted d n) (hord : InOrder d n)
    (hrpc : rpc ∈ n.requests) {sw : Switch} (hsw : sw ∈ (n.runs i).app.switchStates)
    (hsession : sw.sessionId = rpc.sessionId) (hgives : ¬sw.GivesUp)
    (hflag : sw.state.hasLockedCandidate) :
    (n.servers (d.address rpc.sessionId)).candidateHolder = some rpc.sessionId := by
  obtain ⟨-, -, haddress, hnone⟩ := hord.request_of_mem hrpc hsw hsession
  have := h.candidate i sw hsw hgives
    (.inr ⟨hflag, fun element => ⟨hnone _ rfl _, hnone _ rfl _⟩⟩)
  rwa [haddress, hsession] at this

omit [DecidableEq ι] in
/-- The candidates after a request has been served. -/
theorem Accounted.candidate_served (h : Accounted d n) (hord : InOrder d n)
    (hrpc : rpc ∈ n.requests)
    (heffect : DataStoreManager.Effect (d.configurators (d.address rpc.sessionId))
      (n.servers (d.address rpc.sessionId)) clock ⟨rpc.sessionId, rpc⟩
      (d.operation timestamp rpc.operation) m r)
    (hreplies : n'.replies = n.replies ++ (r.map fun element => (rpc, element)).toList)
    {sw : Switch} (hsw : sw ∈ (n.runs i).app.switchStates) (hgives : ¬sw.GivesUp)
    (hholds : HoldsCandidate n' sw) :
    (Function.update n.servers (d.address rpc.sessionId) m sw.remoteAddress).candidateHolder =
      some sw.sessionId := by
  obtain ⟨hunlockOp, hlockOp, hdeleteOp, hcommitOp, -⟩ :=
    operation_eq_iff (d := d) timestamp rpc.operation
  have hmem : ∀ x element, (x, element) ∈ n'.replies ↔
      (x, element) ∈ n.replies ∨ x = rpc ∧ r = some element := fun x element => by
    rw [hreplies]
    exact mem_replies_served
  by_cases hsession : sw.sessionId = rpc.sessionId
  · obtain ⟨-, hrequest, haddress, hnone⟩ := hord.request_of_mem hrpc hsw hsession
    refine candidateHolder_update (fun hb => absurd haddress hb) fun _ => ?_
    rw [hsession]
    refine DataStoreManager.candidateHolder_of_own heffect ?_
    rcases hholds with hl | ⟨hflag, hnodelete⟩
    · obtain ⟨rfl, hr⟩ := ((hmem _ _).mp hl).resolve_left (hnone _ rfl _)
      exact .inl ⟨hlockOp.mpr rfl, hr⟩
    · refine .inr ⟨h.candidate_of_request hord hrpc hsw hsession hgives hflag, ?_, fun hop => ?_⟩
      · exact fun hop => hrequest.ne_unlock_candidate hgives (hunlockOp.mp hop)
      · -- a deletion has had its reply
        have hop := hdeleteOp.mp hop
        have hreplied : r.isSome := ((commitOperation_of_effect heffect).resolve_right fun hc => by
          rw [hcommitOp.mp hc.2.1] at hop
          cases hop).1
        obtain ⟨element, hr⟩ := Option.isSome_iff_exists.mp hreplied
        rcases hrequest.eq_delete hgives hop with rfl | rfl
        · exact (hnodelete element).1 ((hmem _ _).mpr (.inr ⟨rfl, hr⟩))
        · exact (hnodelete element).2 ((hmem _ _).mpr (.inr ⟨rfl, hr⟩))
  · have hother : ∀ x : RPC, x.sessionId = sw.sessionId → ∀ element,
        ((x, element) ∈ n'.replies ↔ (x, element) ∈ n.replies) := by
      intro x hx element
      rw [hmem, or_iff_left]
      rintro ⟨rfl, -⟩
      exact hsession hx.symm
    refine candidateHolder_operation heffect hsession (h.candidate i sw hsw hgives ?_)
    unfold HoldsCandidate at hholds ⊢
    simpa only [hother sw.lockCandidate rfl, hother sw.deleteOldConfig rfl,
      hother sw.deleteCandidate rfl] using hholds

omit [DecidableEq ι] in
/-- An unlock is refused only when the lock has been refused. -/
theorem refused_of_unlock_error (hord : InOrder d n) (hmirrored : Mirrored d n) {sw : Switch}
    (hsw : sw ∈ (n.runs i).app.switchStates) (hrpc : sw.unlock ∈ n.requests)
    (heffect : DataStoreManager.Effect (d.configurators (d.address sw.sessionId))
      (n.servers (d.address sw.sessionId)) clock ⟨sw.sessionId, sw.unlock⟩
      (d.operation timestamp sw.unlock.operation) m (some .error)) :
    (n.runs i).app.Refused (n.runs i).outstanding := by
  obtain ⟨hout, -, haddress, hnone⟩ := hord.request_of_mem hrpc hsw rfl
  refine (hord.runs i).inv.requests.resolve_left fun houtstanding => ?_
  have hs : (n.runs i).app.transactionState = .waitOnUnlock := by
    rw [← (hord.runs i).inv.awaitedIn hout]
    rfl
  unfold TransactionApp.Outstanding at houtstanding
  rw [hs] at houtstanding
  obtain ⟨l₁, y, l₂, hsplit, hp⟩ := houtstanding.1.exists_of_mem hout
  have hy : y ∈ (n.runs i).app.switchStates := by simp [hsplit]
  obtain rfl : y = sw := (hord.runs i).inv.eq_of_sessionId hy hsw
    (Switch.pending_sessionId hp).symm
  -- the switch still has the lock that it gives back
  have hlocked := (Option.ite_none_right_eq_some.mp hp).1
  have hholder := (hmirrored.holds i y hsw).mpr (.inr ⟨hlocked, fun element => hnone _ rfl _⟩)
  rw [haddress] at hholder
  rw [(operation_eq_unlock_iff timestamp y.unlock.operation).mpr rfl] at heffect
  have hok := DataStoreManager.eq_ok_of_unlock heffect hholder
  cases hok

omit [DecidableEq ι] in
/-- A deletion is refused only when there was no lock, or the lock had been given up. -/
theorem Accounted.of_delete_error (h : Accounted d n) (hord : InOrder d n)
    (hrpc : rpc ∈ n.requests)
    (heffect : DataStoreManager.Effect (d.configurators (d.address rpc.sessionId))
      (n.servers (d.address rpc.sessionId)) clock ⟨rpc.sessionId, rpc⟩
      (d.operation timestamp rpc.operation) m (some .error))
    (hdel : rpc.operation = .deleteConfig .candidate) {sw : Switch}
    (hsw : sw ∈ (n.runs i).app.switchStates) (hsession : sw.sessionId = rpc.sessionId) :
    sw.GivesUp ∨ ¬sw.state.hasLockedCandidate := by
  by_contra hkeeps
  push Not at hkeeps
  rw [(operation_eq_iff timestamp _).2.2.1.mpr hdel] at heffect
  have hok := DataStoreManager.eq_ok_of_deleteConfig heffect
    (h.candidate_of_request hord hrpc hsw hsession hkeeps.1 hkeeps.2)
  cases hok

end Serve

/-- What the replies can be after a request has been served. -/
theorem Accounted.serve_step (h : Accounted d n) (hord : InOrder d n) (hmirrored : Mirrored d n)
    {rpc : RPC} {clock : Clock} {timestamp : CommitTimestamp}
    (hs : step d n (.serve rpc clock timestamp) = some n') : Accounted d n' := by
  obtain ⟨hrpc, m, r, heffect, rfl⟩ := serve_eq_some hs
  refine ⟨fun i sw hsw hgives hholds => ?_, fun x hx => ?_, fun i sw hsw hx => ?_,
    fun i sw hsw hx => ?_⟩
  · exact h.candidate_served hord hrpc heffect rfl hsw hgives hholds
  · rcases mem_replies_served.mp hx with hold | ⟨rfl, rfl⟩
    · exact h.data x hold
    · exact (operation_eq_iff timestamp _).2.2.2.2.mp
        (DataStoreManager.eq_getConfig_of_data heffect rfl)
  · rcases mem_replies_served.mp hx with hold | ⟨rfl, rfl⟩
    · exact h.unlock i sw hsw hold
    · exact refused_of_unlock_error (n := n) hord hmirrored hsw hrpc heffect
  · have hdelete : ∀ x : RPC, x.operation = .deleteConfig .candidate →
        sw.sessionId = x.sessionId →
          (x, .error) ∈ n.replies ++ (r.map fun element => (rpc, element)).toList →
          (x, .error) ∉ n.replies → sw.GivesUp ∨ ¬sw.state.hasLockedCandidate := by
      intro x hdel hsession hx hnew
      obtain ⟨rfl, rfl⟩ := (mem_replies_served.mp hx).resolve_left hnew
      exact h.of_delete_error hord hrpc heffect hdel hsw hsession
    by_cases hold : (sw.deleteOldConfig, ReplyElement.error) ∈ n.replies ∨
        (sw.deleteCandidate, ReplyElement.error) ∈ n.replies
    · exact h.deleted i sw hsw hold
    · rw [not_or] at hold
      rcases hx with hx | hx
      · exact hdelete _ rfl rfl hx hold.1
      · exact hdelete _ rfl rfl hx hold.2

theorem Accounted.step (h : Accounted d n) (hord : InOrder d n) (hmirrored : Mirrored d n)
    {e : Event ι C} (hs : Network.step d n e = some n') : Accounted d n' := by
  cases e with
  | app i e =>
    obtain ⟨hp, app, sent, hh, rfl⟩ := app_eq_some hs
    exact h.handled_step hord hp hh
  | serve rpc clock timestamp => exact h.serve_step hord hmirrored hs
  | foreign ctrl operation clock =>
    obtain ⟨hforeign, m, r, heffect, rfl⟩ := foreign_eq_some hs
    refine h.of_candidateHolder rfl (fun i sw hsw hholder => ?_) (fun _ _ _ => Iff.rfl)
      fun _ h => h
    refine candidateHolder_operation heffect ?_ hholder
    -- a session of another controller belongs to no application
    intro hsession
    have happ := ((hord.runs i).session hsw).1
    rw [hsession, hforeign] at happ
    cases happ
  | newCycle a period clock =>
    obtain ⟨m, hop, rfl⟩ := Option.map_eq_some_iff.mp hs
    refine h.of_candidateHolder rfl (fun i sw hsw hholder => ?_) (fun _ _ _ => Iff.rfl)
      fun _ h => h
    refine candidateHolder_update (fun _ => hholder) fun hb => ?_
    rw [hb] at hholder
    rcases DataStoreManager.receiveSignal_eq_some hop with rfl | ⟨sessionId, -, rfl⟩ <;>
      exact hholder
  | executeTimedCommit a sessionId =>
    obtain ⟨⟨m, commit, element⟩, hop, rfl⟩ := Option.map_eq_some_iff.mp hs
    obtain ⟨-, hcommit, helement, -, hcandidate, -⟩ :=
      DataStoreManager.executeTimedCommit_eq_some hop
    have helement : element ≠ .data := by
      rw [helement]
      split_ifs <;> simp
    refine h.of_candidateHolder rfl (fun i sw hsw hholder => ?_) (fun rpc element' hne => ?_)
      fun rpc hrpc => ?_
    · refine candidateHolder_update (fun _ => hholder) fun hb => ?_
      rw [DataStoreManager.candidateHolder, hcandidate]
      rw [hb] at hholder
      exact hholder
    · cases happ : d.application commit.sessionId with
      | none => exact Iff.rfl
      | some i =>
        have hop := (hord.stored a commit i hcommit happ).operation
        have : rpc ≠ commit.messageId := fun heq => hne (heq ▸ hop)
        simp [this]
    · cases happ : d.application commit.sessionId with
      | none => simpa [happ] using hrpc
      | some i => simpa [happ, helement.symm] using hrpc

end Step

/-! ## What is not handled -/

/-- A request at its server, and the reply `Ok` at the application. -/
def confirmed (rpc : RPC) : List (Event Unit ℕ) :=
  [.serve rpc ⟨0, []⟩ .zero, .app () (.reply rpc .ok false)]

end Network

end TsnReconfig.NetConf
