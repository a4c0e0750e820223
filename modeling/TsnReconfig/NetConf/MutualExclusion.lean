import TsnReconfig.NetConf.Controllers

/-!
# The locks of the switches

What an application notes of the locks of its switches, together with the replies in flight, is
what the servers know: so two applications never work on a common switch.
-/

namespace TsnReconfig.NetConf

open TsnReconfig.Lib

/-! ## The holder of a lock -/

section Holder
variable {M C S : Type*} {configurators : List (Configurator C S)} {m m' : DataStoreManager M C S}
  {clock : Clock} {ctrl : CtrlInfo M} {operation : NetConfOperation C} {r : Option ReplyElement}

theorem RunningDataStore.lockHolder_editConfig (editOperation : EditOperation)
    (errorOption : ErrorOption) (config : C) (running : RunningDataStore S) :
    (running.editConfig configurators editOperation errorOption config).2.toDataStoreBase =
      running.toDataStoreBase := by
  unfold RunningDataStore.editConfig
  generalize false = applied
  induction configurators generalizing running applied with
  | nil => rfl
  | cons configurator configurators ih =>
    rw [List.foldl_cons]
    exact ih _ _

theorem CandidateDataStore.lockHolder_applyTo (candidate : CandidateDataStore C)
    (running : RunningDataStore S) :
    (candidate.applyTo configurators running).2.2.toDataStoreBase = running.toDataStoreBase := by
  have hfold : ∀ (edits : List C) (r : Bool × RunningDataStore S),
      (edits.foldl (fun r configChange =>
        if r.1 then r.2.editConfig configurators .merge .rollbackOnError configChange else r)
        r).2.toDataStoreBase = r.2.toDataStoreBase := by
    intro edits
    induction edits with
    | nil => exact fun r => rfl
    | cons edit edits ih =>
      intro r
      rw [List.foldl_cons, ih]
      split_ifs
      · exact RunningDataStore.lockHolder_editConfig ..
      · rfl
  exact hfold candidate.configVector (true, running)

namespace DataStoreManager

/-- The session that has locked the running store. -/
def holder (m : DataStoreManager M C S) : Option ℕ := m.runningStore.lockHolderSessionId

theorem holder_executeCommit : (m.executeCommit configurators).2.holder = m.holder :=
  congrArg DataStoreBase.lockHolderSessionId (CandidateDataStore.lockHolder_applyTo ..)

/-- An operation leaves the locks of other sessions alone. -/
theorem holder_of_other (h : Effect configurators m clock ctrl operation m' r) {s : ℕ}
    (hs : s ≠ ctrl.sessionId) : m'.holder = some s ↔ m.holder = some s := by
  cases h with
  | editRunning editOperation errorOption config hlock running applied h =>
    have hkept : (m.runningStore.editConfig configurators editOperation errorOption
        config).2.toDataStoreBase = m.runningStore.toDataStoreBase :=
      RunningDataStore.lockHolder_editConfig ..
    rw [h] at hkept
    rw [holder, holder, ← hkept]
  | copyToRunning => rw [holder_executeCommit]
  | commit => rw [holder_executeCommit]
  | lockRunning hfree => simp [holder, hfree, hs.symm]
  | unlockRunning howner => simp [holder, howner, hs.symm]
  | timedCommit m' hlock htimestamp h => rw [holder, holder, (scheduleTimedCommit_eq_some h).1]
  | _ => rfl

/-- A session has the lock after it has been granted, and until it is given back. -/
theorem holder_of_own (h : Effect configurators m clock ctrl operation m' r) :
    m'.holder = some ctrl.sessionId ↔
      operation = .lock .running ∧ r = some .ok ∨
        m.holder = some ctrl.sessionId ∧ operation ≠ .unlock .running := by
  cases h with
  | refused operation h =>
    by_cases hunlock : operation = .unlock .running
    · subst hunlock
      have : m.holder ≠ some ctrl.sessionId := fun hheld =>
        h (DataStoreBase.isLockedBy_iff.mpr hheld)
      simp [this]
    · simp [hunlock]
  | queried operation h => rcases h with rfl | rfl <;> simp
  | editRunning editOperation errorOption config hlock running applied h =>
    have hkept : (m.runningStore.editConfig configurators editOperation errorOption
        config).2.toDataStoreBase = m.runningStore.toDataStoreBase :=
      RunningDataStore.lockHolder_editConfig ..
    rw [h] at hkept
    simp [holder, ← hkept]
  | copyToRunning => simp [holder_executeCommit]
  | commit => simp [holder_executeCommit]
  | lockRunning hfree => simp [holder]
  | unlockRunning howner => simp [holder]
  | timedCommit m' hlock htimestamp h => simp [holder, (scheduleTimedCommit_eq_some h).1]
  | _ => simp [holder]

end DataStoreManager

end Holder

/-! ## What the applications know of the locks -/

namespace Network

variable {ι C S : Type*} {d : Deployment ι C S} {n n' : Network ι C S}

/-- The session that has locked the running store of a server. -/
def holder (n : Network ι C S) (a : ℕ) : Option ℕ := (n.servers a).holder

/-- An application has the lock of a switch from the reply to its request until the reply that
gives it back. -/
def Holds (n : Network ι C S) (sw : Switch) : Prop :=
  (sw.lock, .ok) ∈ n.replies ∨
    sw.state.hasLockedRunning ∧ ∀ element, (sw.unlock, element) ∉ n.replies

/-- The applications and the servers agree about the locks. -/
structure Mirrored (d : Deployment ι C S) (n : Network ι C S) : Prop where
  address : ∀ a s, n.holder a = some s → d.address s = a
  known : ∀ a s i, n.holder a = some s → d.application s = some i →
    ∃ sw ∈ (n.runs i).app.switchStates, sw.sessionId = s
  holds : ∀ i, ∀ sw ∈ (n.runs i).app.switchStates,
    n.holder sw.remoteAddress = some sw.sessionId ↔ Holds n sw

theorem mem_inFlight_of_reply {rpc : RPC} {element : ReplyElement}
    (h : (rpc, element) ∈ n.replies) : rpc ∈ n.inFlight :=
  List.mem_append_right _ (List.mem_map.mpr ⟨_, h, rfl⟩)

/-- The reply to a request is in flight once only. -/
theorem InOrder.reply_eq (h : InOrder d n) {rpc : RPC} {element element' : ReplyElement}
    (hr : (rpc, element) ∈ n.replies) (hr' : (rpc, element') ∈ n.replies) :
    element = element' := by
  have hnodup : (n.replies.map Prod.fst).Nodup := (List.nodup_append.mp h.nodup_inFlight).2.1
  exact congrArg Prod.snd (List.inj_on_of_nodup_map hnodup hr hr' rfl)

/-- A session with a request on its way has no reply on its way. -/
theorem InOrder.not_replied (h : InOrder d n) {rpc : RPC} (hrpc : rpc ∈ n.requests) (rpc' : RPC)
    (hsession : rpc'.sessionId = rpc.sessionId) (element : ReplyElement) :
    (rpc', element) ∉ n.replies := by
  intro hreply
  obtain rfl := h.eq_of_sessionId (mem_inFlight_of_reply hreply) (List.mem_append_left _ hrpc)
    hsession
  exact (List.nodup_append.mp h.nodup_inFlight).2.2 rpc' hrpc rpc'
    (List.mem_map.mpr ⟨_, hreply, rfl⟩) rfl

/-- An application that has not started gets no replies. -/
theorem InOrder.not_replied_of_begin (h : InOrder d n) {i : ι}
    (hs : (n.runs i).app.transactionState = .beginOfTransaction) {s : ℕ}
    (hi : d.application s = some i) (rpc : RPC) (hrpc : rpc.sessionId = s)
    {element : ReplyElement} : (rpc, element) ∉ n.replies := by
  intro hreply
  subst hrpc
  have hout := h.outstanding rpc (mem_inFlight_of_reply hreply) i hi
  obtain ⟨sw, hsw, -⟩ := (h.runs i).inv.request hout
  exact (h.runs i).inv.notBegin hsw hs

/-- Nobody else's replies matter for the lock of a switch. -/
theorem holds_congr {sw sw' : Switch} (hlock : sw'.lock = sw.lock)
    (hunlock : sw'.unlock = sw.unlock)
    (hflag : sw'.state.hasLockedRunning = sw.state.hasLockedRunning)
    (hreplies : ∀ element, ((sw.lock, element) ∈ n'.replies ↔ (sw.lock, element) ∈ n.replies) ∧
      ((sw.unlock, element) ∈ n'.replies ↔ (sw.unlock, element) ∈ n.replies)) :
    Holds n' sw' ↔ Holds n sw := by
  unfold Holds
  rw [hlock, hunlock, hflag, (hreplies .ok).1]
  simp only [(hreplies _).2]

theorem operation_eq_lock_iff (timestamp : CommitTimestamp) (operation : Operation) :
    d.operation timestamp operation = .lock .running ↔ operation = .lock .running := by
  cases operation with
  | editConfig target data => cases data <;> simp [Deployment.operation]
  | _ => simp [Deployment.operation]

theorem operation_eq_unlock_iff (timestamp : CommitTimestamp) (operation : Operation) :
    d.operation timestamp operation = .unlock .running ↔ operation = .unlock .running := by
  cases operation with
  | editConfig target data => cases data <;> simp [Deployment.operation]
  | _ => simp [Deployment.operation]

theorem holder_update {a b : ℕ} {m : DataStoreManager RPC C S} {s : ℕ} :
    (Function.update n.servers a m b).holder = some s ↔
      if b = a then m.holder = some s else n.holder b = some s := by
  by_cases hb : b = a
  · subst hb
    rw [Function.update_self, if_pos rfl]
  · rw [Function.update_of_ne hb, if_neg hb]
    rfl

/-- An operation of a session matters for its own lock only. -/
theorem Mirrored.operation_step (h : Mirrored d n) (hord : InOrder d n) {a : ℕ}
    {configurators : List (Configurator C S)} {clock : Clock} {ctrl : CtrlInfo RPC}
    {operation : NetConfOperation C} {m : DataStoreManager RPC C S} {r : Option ReplyElement}
    (heffect : DataStoreManager.Effect configurators (n.servers a) clock ctrl operation m r)
    (ha : d.address ctrl.sessionId = a) (hruns : n'.runs = n.runs)
    (hservers : n'.servers = Function.update n.servers a m)
    (hreplies : ∀ rpc element, rpc.sessionId ≠ ctrl.sessionId →
      ((rpc, element) ∈ n'.replies ↔ (rpc, element) ∈ n.replies))
    (hknown : ∀ i, d.application ctrl.sessionId = some i →
      ∃ sw ∈ (n.runs i).app.switchStates, sw.sessionId = ctrl.sessionId)
    (hown : ∀ i, ∀ sw ∈ (n.runs i).app.switchStates, sw.sessionId = ctrl.sessionId →
      (m.holder = some sw.sessionId ↔ Holds n' sw)) : Mirrored d n' := by
  have hholder : ∀ b s, n'.holder b = some s ↔
      if b = a then m.holder = some s else n.holder b = some s := by
    intro b s
    rw [holder, hservers, holder_update]
  -- the lock of another session stays with it
  have hother : ∀ b s, s ≠ ctrl.sessionId → (n'.holder b = some s ↔ n.holder b = some s) := by
    intro b s hs
    rw [hholder]
    split_ifs with hb
    · rw [DataStoreManager.holder_of_other heffect hs, holder, hb]
    · rfl
  refine ⟨fun b s hs => ?_, fun b s i hs hi => ?_, fun i sw hsw => ?_⟩
  · by_cases hctrl : s = ctrl.sessionId
    · by_cases hb : b = a
      · rw [hctrl, ha, hb]
      · rw [hholder, if_neg hb] at hs
        exact h.address b s hs
    · exact h.address b s ((hother b s hctrl).mp hs)
  · rw [hruns]
    by_cases hctrl : s = ctrl.sessionId
    · subst hctrl
      exact hknown i hi
    · exact h.known b s i ((hother b s hctrl).mp hs) hi
  · rw [hruns] at hsw
    by_cases hctrl : sw.sessionId = ctrl.sessionId
    · have haddress : sw.remoteAddress = a := by
        rw [← ((hord.runs i).session hsw).2, hctrl, ha]
      rw [hholder, if_pos haddress]
      exact hown i sw hsw hctrl
    · rw [hother _ _ hctrl, h.holds i sw hsw]
      exact (holds_congr rfl rfl rfl fun element =>
        ⟨hreplies _ _ hctrl, hreplies _ _ hctrl⟩).symm

/-- A step that touches no lock and no reply to a request for one. -/
theorem Mirrored.of_holder (h : Mirrored d n) (hruns : n'.runs = n.runs)
    (hholder : ∀ a, n'.holder a = n.holder a)
    (hreplies : ∀ (sw : Switch) (element : ReplyElement),
      ((sw.lock, element) ∈ n'.replies ↔ (sw.lock, element) ∈ n.replies) ∧
        ((sw.unlock, element) ∈ n'.replies ↔ (sw.unlock, element) ∈ n.replies)) :
    Mirrored d n' where
  address a s hs := h.address a s (hholder a ▸ hs)
  known a s i hs hi := by
    rw [hruns]
    exact h.known a s i (hholder a ▸ hs) hi
  holds i sw hsw := by
    rw [hruns] at hsw
    rw [hholder, h.holds i sw hsw]
    exact (holds_congr rfl rfl rfl (hreplies sw)).symm

section Step
variable [DecidableEq ι] {i : ι} {e : NetConf.Event} {app : TransactionApp} {sent : List RPC}

theorem InOrder.mem_replies_handled (h : InOrder d n) {rpc : RPC} {element : ReplyElement} :
    (rpc, element) ∈ (n.handled i e app sent).replies ↔
      (rpc, element) ∈ n.replies ∧ ∀ release, e ≠ .reply rpc element release := by
  cases e with
  | reply rpc' element' release =>
    show (rpc, element) ∈ n.replies.erase (rpc', element') ↔ _
    rw [h.nodup_replies.mem_erase_iff]
    simp [and_comm, eq_comm]
  | _ => simp [handled]

/-- The replies to other applications stay. -/
theorem InOrder.mem_replies_other (h : InOrder d n) (hp : n.possible d i e) {j : ι} (hji : j ≠ i)
    {s : ℕ} (hj : d.application s = some j) {rpc : RPC} {element : ReplyElement}
    (hrpc : rpc.sessionId = s) :
    (rpc, element) ∈ (n.handled i e app sent).replies ↔ (rpc, element) ∈ n.replies := by
  refine h.mem_replies_handled.trans (and_iff_left ?_)
  rintro release rfl
  have hi := (reply_of_possible hp).2
  rw [hrpc, hj] at hi
  exact hji (Option.some.inj hi)

/-- The move that an application makes in the network. -/
theorem InOrder.move (h : InOrder d n) (hp : n.possible d i e)
    (hh : (n.runs i).app.finiteStateMachine e.release e.message = some (app, sent)) :
    e.Possible (n.runs i).outstanding ∧ (n.runs i).app.Move e app sent := by
  have he := Run.possible_of_step (h.run_step hp hh)
  exact ⟨he, TransactionApp.move_of_handled (h.runs i).inv he hh⟩

/-- An application that notes a reply knows what it knew with the reply in flight. -/
theorem holds_noting (hord : InOrder d n) (hp : n.possible d i e) {sw sw' : Switch}
    (h : Noting e sw sw')
    (hunlock : ∀ element release, e = .reply sw.unlock element release → element = .ok) :
    Holds (n.handled i e app sent) sw' ↔ Holds n sw := by
  have hlock' : sw'.lock = sw.lock := by simp [Switch.lock, Connection.createRPC, h.sessionId]
  have hunlock' : sw'.unlock = sw.unlock := by
    simp [Switch.unlock, Connection.createRPC, h.sessionId]
  have hone : ∀ {element element'}, (sw.lock, element) ∈ n.replies →
      (sw.unlock, element') ∉ n.replies := by
    intro element element' hl hu
    have heq := hord.eq_of_sessionId (mem_inFlight_of_reply hl) (mem_inFlight_of_reply hu) rfl
    have hids : MessageId.lock = MessageId.unlock := congrArg RPC.messageId heq
    cases hids
  unfold Holds
  rw [hlock', hunlock', h.running]
  simp only [hord.mem_replies_handled]
  by_cases hgranted : ∃ release, e = .reply sw.lock .ok release
  · obtain ⟨release, rfl⟩ := hgranted
    have hreply := (of_decide_eq_true hp).1
    refine iff_of_true (.inr ⟨.inl ⟨release, rfl⟩, fun element hu => hone hreply hu.1⟩) (.inl hreply)
  by_cases hreturned : ∃ release, e = .reply sw.unlock .ok release
  · obtain ⟨release, rfl⟩ := hreturned
    have hreply := (of_decide_eq_true hp).1
    refine iff_of_false ?_ ?_
    · rintro (hl | ⟨hl | ⟨-, hl⟩, -⟩)
      · exact hone hl.1 hreply
      · exact hgranted hl
      · exact hl ⟨release, rfl⟩
    · rintro (hl | ⟨-, hu⟩)
      · exact hone hl hreply
      · exact hu .ok hreply
  have hkept : ∀ element release, e ≠ .reply sw.unlock element release := by
    intro element release he
    obtain rfl := hunlock element release he
    exact hreturned ⟨release, he⟩
  have hsame : ∀ release, e ≠ .reply sw.lock .ok release := fun release he =>
    hgranted ⟨release, he⟩
  simp [hsame, hkept]

/-- The steps of the applications. -/
theorem Mirrored.handled_step (h : Mirrored d n) (hord : InOrder d n) (hp : n.possible d i e)
    (hh : (n.runs i).app.finiteStateMachine e.release e.message = some (app, sent)) :
    Mirrored d (n.handled i e app sent) := by
  obtain ⟨he, hm⟩ := hord.move hp hh
  have hinv := (hord.runs i).inv
  have hrun : ((n.handled i e app sent).runs i).app = app := by
    rw [handled_runs_self]
    rfl
  refine ⟨h.address, fun a s j hs hj => ?_, fun j sw' hsw' => ?_⟩
  · obtain ⟨sw, hsw, rfl⟩ := h.known a s j hs hj
    by_cases hji : j = i
    · subst hji
      rw [hrun]
      obtain ⟨sw', hzip, hnoting⟩ :=
        exists_zip_of_mem_left (hm.noting hinv he (hinv.notBegin hsw)) hsw
      exact ⟨sw', (List.of_mem_zip hzip).2, hnoting.sessionId⟩
    · rw [handled_runs_of_ne hji]
      exact ⟨sw, hsw, rfl⟩
  · by_cases hji : j = i
    · subst hji
      rw [hrun] at hsw'
      by_cases hbegin : (n.runs j).app.transactionState = .beginOfTransaction
      · -- a transaction that starts has no lock and no reply in flight
        have hsession := (((hord.runs j).step (hord.run_step hp hh)).session hsw').1
        have hstate := (hm.of_begin hinv he hbegin).2 sw' hsw'
        refine iff_of_false (fun hs => ?_) ?_
        · obtain ⟨sw, hsw, -⟩ := h.known _ _ j hs hsession
          exact hinv.notBegin hsw hbegin
        · rintro (hl | ⟨hflag, -⟩)
          · exact hord.not_replied_of_begin hbegin hsession _ rfl (hord.mem_replies_handled.mp hl).1
          · rw [hstate] at hflag
            cases hflag
      · obtain ⟨sw, hsw, hnoting⟩ := exists_of_mem_right (hm.noting hinv he hbegin) hsw'
        rw [hnoting.sessionId, hnoting.remoteAddress, holds_noting hord hp hnoting ?_]
        · exact h.holds j sw hsw
        · rintro element release rfl
          refine hm.eq_ok ?_
          rw [← hinv.awaitedIn he]
          rfl
    · rw [handled_runs_of_ne hji] at hsw'
      rw [holds_congr rfl rfl rfl fun element => ?_]
      · exact h.holds j sw' hsw'
      · have hsession := ((hord.runs j).session hsw').1
        exact ⟨hord.mem_replies_other hp hji hsession rfl,
          hord.mem_replies_other hp hji hsession rfl⟩

/-! ### The steps of the servers -/

omit [DecidableEq ι] in
/-- A request that is on its way belongs to a switch of its application, whose session has no reply
in flight. -/
theorem InOrder.request_of_mem (h : InOrder d n) {rpc : RPC} (hrpc : rpc ∈ n.requests) {sw : Switch}
    (hsw : sw ∈ (n.runs i).app.switchStates) (hsession : sw.sessionId = rpc.sessionId) :
    rpc ∈ (n.runs i).outstanding ∧ sw.Request (n.runs i).app.transactionState rpc ∧
      sw.remoteAddress = d.address rpc.sessionId ∧
      ∀ x : RPC, x.sessionId = sw.sessionId → ∀ element, (x, element) ∉ n.replies := by
  obtain ⟨happ, haddress⟩ := (h.runs i).session hsw
  have hout := h.outstanding rpc (List.mem_append_left _ hrpc) i (hsession ▸ happ)
  exact ⟨hout, (h.runs i).inv.request_of_sessionId hout hsw hsession.symm,
    by rw [← haddress, hsession],
    fun x hx element => h.not_replied hrpc x (hx.trans hsession) element⟩

theorem Mirrored.serve_step (h : Mirrored d n) (hord : InOrder d n) {rpc : RPC} {clock : Clock}
    {timestamp : CommitTimestamp} (hs : step d n (.serve rpc clock timestamp) = some n') :
    Mirrored d n' := by
  obtain ⟨hrpc, m, r, heffect, rfl⟩ := serve_eq_some hs
  have hflight : rpc ∈ n.inFlight := List.mem_append_left _ hrpc
  refine h.operation_step hord heffect rfl rfl rfl (fun rpc' element hne => ?_) (fun i hi => ?_)
    fun i sw hsw hsession => ?_
  · have hne' : rpc' ≠ rpc := fun heq => hne (congrArg RPC.sessionId heq)
    cases r <;> simp [hne']
  · obtain ⟨sw, hsw, hrequest⟩ := (hord.runs i).inv.request (hord.outstanding rpc hflight i hi)
    exact ⟨sw, hsw, hrequest.sessionId.symm⟩
  · replace hsession : sw.sessionId = rpc.sessionId := hsession
    obtain ⟨-, hrequest, haddress, hreplied⟩ := hord.request_of_mem hrpc hsw hsession
    have hlock : d.operation timestamp rpc.operation = .lock .running ↔ rpc = sw.lock :=
      (operation_eq_lock_iff ..).trans hrequest.eq_lock_iff.symm
    have hunlock : d.operation timestamp rpc.operation = .unlock .running ↔ rpc = sw.unlock :=
      (operation_eq_unlock_iff ..).trans hrequest.eq_unlock_iff.symm
    have hnone : ∀ element, (sw.lock, element) ∉ n.replies ∧ (sw.unlock, element) ∉ n.replies :=
      fun element => ⟨hreplied _ rfl _, hreplied _ rfl _⟩
    have hholder : (n.servers (d.address rpc.sessionId)).holder = some rpc.sessionId ↔
        sw.state.hasLockedRunning = true := by
      have hholds := h.holds i sw hsw
      rw [haddress, hsession] at hholds
      show n.holder (d.address rpc.sessionId) = some rpc.sessionId ↔ _
      simpa [Holds, hnone] using hholds
    rw [hsession, DataStoreManager.holder_of_own heffect, hholder, hlock, ne_eq, hunlock]
    unfold Holds
    simp only [List.mem_append, hnone, false_or]
    cases r with
    | none =>
      have hcommit := (commitOperation_of_effect heffect).resolve_left fun hr => by simp at hr
      have hne : rpc ≠ sw.unlock := fun heq => by
        have := hunlock.mpr heq
        rw [hcommit.2.1] at this
        cases this
      simp [hne]
    | some element =>
      simp only [Option.map_some, Option.toList_some, List.mem_singleton, Prod.mk.injEq,
        Option.some.injEq]
      grind

theorem Mirrored.executeTimedCommit_step (h : Mirrored d n) (hord : InOrder d n)
    {a sessionId : ℕ} (hs : step d n (.executeTimedCommit a sessionId) = some n') :
    Mirrored d n' := by
  obtain ⟨⟨m, commit, element⟩, hop, rfl⟩ := Option.map_eq_some_iff.mp hs
  obtain ⟨-, hcommit, -, hrunning, -⟩ := DataStoreManager.executeTimedCommit_eq_some hop
  refine h.of_holder rfl (fun b => ?_) fun sw element' => ?_
  · show (Function.update n.servers a m b).holder = _
    by_cases hb : b = a
    · subst hb
      rw [Function.update_self, DataStoreManager.holder, hrunning]
      exact DataStoreManager.holder_executeCommit
    · rw [Function.update_of_ne hb]
      rfl
  · cases happ : d.application commit.sessionId with
    | none => exact ⟨Iff.rfl, Iff.rfl⟩
    | some i =>
      -- the reply to a commit is none to a request for a lock
      have hoperation := (hord.stored a commit i hcommit happ).operation
      have hne : ∀ rpc : RPC, rpc.operation ≠ .commit →
          ((rpc, element') ∈ n.replies ++ [(commit.messageId, element)] ↔
            (rpc, element') ∈ n.replies) := by
        intro rpc hrpc
        have : rpc ≠ commit.messageId := fun heq => hrpc (heq ▸ hoperation)
        simp [this]
      exact ⟨hne sw.lock (by simp [Switch.lock, Connection.createRPC, Configuration.operation]),
        hne sw.unlock (by simp [Switch.unlock, Connection.createRPC, Configuration.operation])⟩

/-- The applications and the servers always agree about the locks. -/
theorem Mirrored.step (h : Mirrored d n) (hord : InOrder d n) {e : Event ι C}
    (hs : Network.step d n e = some n') : Mirrored d n' := by
  cases e with
  | app i e =>
    obtain ⟨hp, app, sent, hh, rfl⟩ := app_eq_some hs
    exact h.handled_step hord hp hh
  | serve rpc clock timestamp => exact h.serve_step hord hs
  | executeTimedCommit a sessionId => exact h.executeTimedCommit_step hord hs
  | foreign ctrl operation clock =>
    obtain ⟨hforeign, m, r, heffect, rfl⟩ := foreign_eq_some hs
    refine h.operation_step hord heffect rfl rfl rfl (fun _ _ _ => Iff.rfl) (fun i hi => ?_)
      fun i sw hsw hsession => ?_
    · rw [hforeign] at hi
      cases hi
    · have happ := ((hord.runs i).session hsw).1
      rw [hsession, hforeign] at happ
      cases happ
  | newCycle a period clock =>
    obtain ⟨m, hop, rfl⟩ := Option.map_eq_some_iff.mp hs
    refine h.of_holder rfl (fun b => ?_) fun sw element => ⟨Iff.rfl, Iff.rfl⟩
    show (Function.update n.servers a m b).holder = _
    by_cases hb : b = a
    · subst hb
      rw [Function.update_self]
      rcases DataStoreManager.receiveSignal_eq_some hop with rfl | ⟨sessionId, -, rfl⟩ <;> rfl
    · rw [Function.update_of_ne hb]
      rfl

theorem mirrored_of_reachable (h : (system d).Reachable n) : Mirrored d n := by
  apply System.ReachableUnder.invariant h (P := Mirrored d)
  · rintro n hinit
    have hholder : ∀ a, n.holder a = none := by
      intro a
      obtain ⟨state, hs⟩ := hinit.2.2.2 a
      rw [holder, hs]
      rfl
    refine ⟨by simp [hholder], by simp [hholder], fun i sw hsw => ?_⟩
    obtain ⟨timeSynchronous, connections, -, -, hrun⟩ := hinit.1 i
    rw [hrun] at hsw
    cases hsw
  · intro n e n' hr h _ hs
    exact h.step (inOrder_of_reachable hr) hs

end Step

end Network

/-! ## Mutual exclusion -/

/-- The states in which an application works on its switches, with all locks granted. -/
def TransactionAppState.isWorking : TransactionAppState → Bool
  | .waitOnCandidateConfirmation | .waitOnCandidateLockResponse | .waitOnChangeConfirmation
  | .waitOnTimestampConfirmation | .waitOnCommitExecution | .waitOnDeleteOldConfiguration
  | .errorState | .waitOnDeleteCandidate => true
  | _ => false

theorem Switch.Fits.hasLockedRunning {sw : Switch} {failing : Prop} {s : TransactionAppState}
    (h : sw.Fits failing s) (hs : s.isWorking) : sw.state.hasLockedRunning := by
  cases s <;> simp only [TransactionAppState.isWorking, Bool.false_eq_true] at hs
  case waitOnCandidateConfirmation | waitOnChangeConfirmation =>
    exact (TransactionApp.fits_errorState h rfl).1
  case waitOnTimestampConfirmation => exact (TransactionApp.fits_errorState h rfl).1
  case waitOnCandidateLockResponse =>
    obtain ⟨⟨l, hl⟩, -⟩ := h
    rw [hl]
  case waitOnCommitExecution =>
    obtain ⟨⟨m, t, hm⟩, -⟩ := h
    rw [hm]
  case waitOnDeleteOldConfiguration =>
    obtain ⟨c, t, hc⟩ := h
    rw [hc]
  case errorState | waitOnDeleteCandidate => exact h.1

namespace Network

variable {ι C S : Type*} [DecidableEq ι] {d : Deployment ι C S} {n : Network ι C S} {i j : ι}

/-- An application that works on its switches has locked them. -/
theorem holder_of_working (h : (system d).Reachable n)
    (hi : (n.runs i).app.transactionState.isWorking) {c : Connection}
    (hc : c ∈ (n.runs i).app.connections) : n.holder c.remoteAddress = some c.sessionId := by
  have hord := inOrder_of_reachable h
  have hinv := (hord.runs i).inv
  obtain ⟨sw, hsw, hprofile⟩ := Run.exists_switch hinv (fun hs => by rw [hs] at hi; cases hi) hc
  have hsession : sw.sessionId = c.sessionId := congrArg (fun p => p.2.1) hprofile
  have haddress : sw.remoteAddress = c.remoteAddress := congrArg (fun p => p.1) hprofile
  rw [← hsession, ← haddress, (mirrored_of_reachable h).holds i sw hsw]
  refine .inr ⟨(hinv.fits sw hsw).hasLockedRunning hi, fun element hreply => ?_⟩
  have hout := hord.outstanding _ (mem_inFlight_of_reply hreply) i ((hord.runs i).session hsw).1
  rw [← hinv.awaitedIn hout] at hi
  cases hi

/-- Two applications that work on their switches at the same time have no switch in common. -/
theorem mutualExclusion (h : (system d).Reachable n) (hij : i ≠ j)
    (hi : (n.runs i).app.transactionState.isWorking)
    (hj : (n.runs j).app.transactionState.isWorking) {c c' : Connection}
    (hc : c ∈ (n.runs i).app.connections) (hc' : c' ∈ (n.runs j).app.connections) :
    c.remoteAddress ≠ c'.remoteAddress := by
  intro haddress
  have hholder := holder_of_working h hi hc
  rw [haddress, holder_of_working h hj hc'] at hholder
  have hsession : c'.sessionId = c.sessionId := Option.some.inj hholder
  have hord := inOrder_of_reachable h
  have happ := ((hord.runs i).sessions c hc).1
  rw [← hsession, ((hord.runs j).sessions c' hc').1] at happ
  exact hij (Option.some.inj happ).symm

/-- Two controllers, with two switches and with one. The other sessions belong to neither. -/
def twoControllers : Deployment Bool ℕ Unit where
  application s := if s = 11 ∨ s = 12 then some false else if s = 23 then some true else none
  address s := s % 10
  configurators _ := [.dummy 0]
  content := id

def idle : Network Bool ℕ Unit where
  runs i := .new false (if i then [⟨3, 23, []⟩] else Run.twoSwitches)
  requests := []
  replies := []
  servers _ := { runningStore := { state := () } }

theorem init_idle : (system twoControllers).init idle := by
  refine ⟨fun i => ⟨false, _, ?_, ?_, rfl⟩, rfl, rfl, fun a => ⟨(), rfl⟩⟩
  · cases i
    · exact Run.opened_twoSwitches
    · exact ⟨by decide, by decide, by decide⟩
  · cases i <;> decide

/-- The requests of a session for the lock of its switch, up to the reply. -/
def lockEvents (i : Bool) (sessionId : ℕ) : List (Event Bool ℕ) :=
  [.serve ⟨sessionId, .lock, .lock .running⟩ ⟨0, []⟩ .zero,
    .app i (.reply ⟨sessionId, .lock, .lock .running⟩ .ok false)]

/-- Both controllers lock their switches. -/
theorem mutualExclusion_twoControllers :
    ∃ n, (system twoControllers).runFrom idle
        ([.app false .startTransaction, .app true .startTransaction] ++ lockEvents false 11 ++
          lockEvents true 23 ++ lockEvents false 12) = some n ∧
      ∀ c ∈ (n.runs false).app.connections, ∀ c' ∈ (n.runs true).app.connections,
        c.remoteAddress ≠ c'.remoteAddress := by
  obtain ⟨n, hn, hi, hj⟩ : ∃ n, (system twoControllers).runFrom idle
      ([.app false .startTransaction, .app true .startTransaction] ++ lockEvents false 11 ++
        lockEvents true 23 ++ lockEvents false 12) = some n ∧
      (n.runs false).app.transactionState.isWorking ∧
      (n.runs true).app.transactionState.isWorking := ⟨_, rfl, rfl, rfl⟩
  have hreachable := System.reachable_of_runFrom init_idle hn
  exact ⟨n, hn, fun c hc c' hc' =>
    mutualExclusion hreachable (by decide) hi hj hc hc'⟩

end Network

end TsnReconfig.NetConf
