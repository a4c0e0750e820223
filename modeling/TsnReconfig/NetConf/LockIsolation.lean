import TsnReconfig.NetConf.StoreOperations

/-!
# Locks and the commits of others

A lock keeps a store from the operations of other sessions, except from a commit: it asks for the
lock of the running store only, and once its time has come for none.
-/

namespace TsnReconfig.NetConf

open TsnReconfig.Lib

namespace DataStoreManager

variable {M C S : Type*} {configurators : List (Configurator C S)}
  {m m' m'' : DataStoreManager M C S} {A sessionId : ℕ}

/-- The stores that a session has locked have their content and its lock as before. -/
structure Kept (A : ℕ) (m m' : DataStoreManager M C S) : Prop where
  running : m.runningStore.isLockedBy A → m'.runningStore = m.runningStore
  candidate : m.candidateStore.isLockedBy A → m'.candidateStore = m.candidateStore

theorem Kept.refl (A : ℕ) (m : DataStoreManager M C S) : Kept A m m := ⟨fun _ => rfl, fun _ => rfl⟩

theorem Kept.trans (h : Kept A m m') (h' : Kept A m' m'') : Kept A m m'' where
  running hlock := by
    have hkept := h.running hlock
    rw [h'.running (by rwa [hkept]), hkept]
  candidate hlock := by
    have hkept := h.candidate hlock
    rw [h'.candidate (by rwa [hkept]), hkept]

/-- The candidate of a session can be applied and cleared on behalf of `sessionId`. -/
def CandidateFree (m : DataStoreManager M C S) (sessionId : ℕ) : Prop :=
  verifyLock m.candidateStore.toDataStoreBase sessionId ∨ m.candidateStore.configVector = []

/-- A commit at its time takes nothing from the holders of the locks: the candidate is empty or
not locked by another session, and so is the running store or the edits do not change it. -/
def Harmless (configurators : List (Configurator C S)) (m : DataStoreManager M C S) :
    Event M C → Prop
  | .operation .commit ctrl _ =>
    verifyLock m.runningStore.toDataStoreBase ctrl.sessionId → ¬m.hasCommitTimestamp →
      m.CandidateFree ctrl.sessionId
  | .executeTimedCommit sessionId =>
    m.CandidateFree sessionId ∧
      (verifyLock m.runningStore.toDataStoreBase sessionId ∨
        (m.candidateStore.applyTo configurators m.runningStore).2.2 = m.runningStore)
  | _ => True

/-- Another session does not pass the lock. -/
theorem not_verifyLock {store : DataStoreBase} (h : store.isLockedBy A) (hA : sessionId ≠ A) :
    ¬verifyLock store sessionId := fun hlock => hA ((verifyLock_of_isLockedBy h).mp hlock)

theorem exists_of_not_verifyLock {store : DataStoreBase} (h : ¬verifyLock store sessionId) :
    ∃ A, store.isLockedBy A ∧ A ≠ sessionId := by
  rw [verifyLock_iff] at h
  push Not at h
  obtain ⟨A, hA, hne⟩ := h
  exact ⟨A, DataStoreBase.isLockedBy_iff.mpr hA, hne⟩

/-- A commit clears the candidate, so it keeps an empty one only. -/
theorem executeCommit_candidateStore :
    (m.executeCommit configurators).2.candidateStore = m.candidateStore ↔
      m.candidateStore.configVector = [] := by
  constructor
  · intro h
    exact (congrArg CandidateDataStore.configVector h).symm
  · intro h
    show m.candidateStore.clear = m.candidateStore
    rw [CandidateDataStore.clear, ← h]

theorem CandidateFree.executeCommit (h : m.CandidateFree sessionId) (hA : sessionId ≠ A)
    (hlock : m.candidateStore.isLockedBy A) :
    (m.executeCommit configurators).2.candidateStore = m.candidateStore :=
  executeCommit_candidateStore.mpr (h.resolve_left (not_verifyLock hlock hA))

/-- If no holder of a lock loses edits by a commit, the candidate was free for it. -/
theorem candidateFree_of_kept (configurators : List (Configurator C S))
    (h : ∀ A, sessionId ≠ A → m.candidateStore.isLockedBy A →
      (m.executeCommit configurators).2.candidateStore = m.candidateStore) :
    m.CandidateFree sessionId := by
  by_cases hlock : verifyLock m.candidateStore.toDataStoreBase sessionId
  · exact .inl hlock
  · obtain ⟨A, hA, hne⟩ := exists_of_not_verifyLock hlock
    exact .inr (executeCommit_candidateStore.mp (h A hne.symm hA))

/-! ## Single events -/

/-- Every operation but a commit respects the locks of other sessions. -/
theorem kept_of_effect {clock : Clock} {ctrl : CtrlInfo M} {operation : NetConfOperation C}
    {r : Option ReplyElement} (h : Effect configurators m clock ctrl operation m' r)
    (hA : ctrl.sessionId ≠ A)
    (hcommit : operation = .commit →
      verifyLock m.runningStore.toDataStoreBase ctrl.sessionId → ¬m.hasCommitTimestamp →
        m.candidateStore.isLockedBy A →
          (m.executeCommit configurators).2.candidateStore = m.candidateStore) :
    Kept A m m' := by
  have hrunning : m.runningStore.isLockedBy A →
      ¬verifyLock m.runningStore.toDataStoreBase ctrl.sessionId := fun h => not_verifyLock h hA
  have hcandidate : m.candidateStore.isLockedBy A →
      ¬verifyLock m.candidateStore.toDataStoreBase ctrl.sessionId := fun h => not_verifyLock h hA
  cases h with
  | refused => exact .refl A m
  | queried => exact .refl A m
  | timestamp => exact ⟨fun _ => rfl, fun _ => rfl⟩
  | editRunning _ _ _ hlock => exact ⟨fun h => absurd hlock (hrunning h), fun _ => rfl⟩
  | editCandidate _ _ _ hlock => exact ⟨fun _ => rfl, fun h => absurd hlock (hcandidate h)⟩
  | copyToRunning hr hc =>
    exact ⟨fun h => absurd hr (hrunning h), fun h => absurd hc (hcandidate h)⟩
  | copyToCandidate hr hc => exact ⟨fun _ => rfl, fun h => absurd hc (hcandidate h)⟩
  | deleteCandidate hlock => exact ⟨fun _ => rfl, fun h => absurd hlock (hcandidate h)⟩
  | lockRunning hfree =>
    exact ⟨fun h => by simp [DataStoreBase.isLockedBy, hfree] at h, fun _ => rfl⟩
  | lockCandidate hfree =>
    exact ⟨fun _ => rfl, fun h => by simp [DataStoreBase.isLockedBy, hfree] at h⟩
  | unlockRunning howner =>
    refine ⟨fun h => absurd ?_ hA, fun _ => rfl⟩
    simpa [DataStoreBase.isLockedBy, howner] using h
  | unlockCandidate howner =>
    refine ⟨fun _ => rfl, fun h => absurd ?_ hA⟩
    simpa [DataStoreBase.isLockedBy, howner] using h
  | commit hlock htimestamp =>
    exact ⟨fun h => absurd hlock (hrunning h), hcommit rfl hlock (by simp [htimestamp])⟩
  | timedCommit m' hlock htimestamp hm =>
    obtain ⟨hr, hc, -⟩ := scheduleTimedCommit_eq_some hm
    exact ⟨fun _ => hr, fun _ => hc⟩

theorem kept_of_harmless {e : Event M C} (hs : step configurators m e = some m')
    (hA : e.requester ≠ some A) (h : m.Harmless configurators e) : Kept A m m' := by
  cases e with
  | operation operation ctrl clock =>
    obtain ⟨⟨m₁, r⟩, hop, rfl⟩ := Option.map_eq_some_iff.mp hs
    have hne : ctrl.sessionId ≠ A := fun heq => hA (congrArg some heq)
    refine kept_of_effect (effect_of_handleOperation hop) hne ?_
    rintro rfl hrunning htimestamp hlock
    exact (h hrunning htimestamp).executeCommit hne hlock
  | newCycle period clock =>
    rcases receiveSignal_eq_some hs with rfl | ⟨sessionId, -, rfl⟩
    · exact .refl A _
    · exact ⟨fun _ => rfl, fun _ => rfl⟩
  | executeTimedCommit sessionId =>
    obtain ⟨⟨m₁, commit, el⟩, hop, rfl⟩ := Option.map_eq_some_iff.mp hs
    obtain ⟨-, -, -, hr, hc, -⟩ := executeTimedCommit_eq_some hop
    have hne : sessionId ≠ A := fun heq => hA (congrArg some heq)
    obtain ⟨hcandidate, hrunning⟩ := h
    exact
      { running := fun hlock => hr.trans (hrunning.resolve_left (not_verifyLock hlock hne))
        candidate := fun hlock => hc.trans (hcandidate.executeCommit hne hlock) }

/-- What harms no holder of a lock is harmless. -/
theorem harmless_of_kept {e : Event M C} (hs : step configurators m e = some m')
    (h : ∀ A, e.requester ≠ some A → Kept A m m') : m.Harmless configurators e := by
  have hkept : ∀ A sessionId, e.requester = some sessionId → sessionId ≠ A → Kept A m m' :=
    fun A sessionId he hne => h A (by rw [he]; simpa using hne)
  cases e with
  | operation operation ctrl clock =>
    cases operation with
    | commit =>
      intro hrunning htimestamp
      have hm : m' = (m.executeCommit configurators).2 := by
        obtain ⟨⟨m₁, r⟩, hop, rfl⟩ := Option.map_eq_some_iff.mp hs
        cases effect_of_handleOperation hop with
        | refused _ hrefused => exact absurd hrunning hrefused
        | queried _ hquery => simp at hquery
        | commit => rfl
        | timedCommit _ _ hhas => exact absurd hhas htimestamp
      refine candidateFree_of_kept configurators fun A hA hlock => ?_
      rw [← hm]
      exact (hkept A _ rfl hA).candidate hlock
    | _ => exact trivial
  | newCycle period clock => exact trivial
  | executeTimedCommit sessionId =>
    obtain ⟨⟨m₁, commit, el⟩, hop, rfl⟩ := Option.map_eq_some_iff.mp hs
    obtain ⟨-, -, -, hr, hc, -⟩ := executeTimedCommit_eq_some hop
    refine ⟨candidateFree_of_kept configurators fun A hA hlock => ?_, ?_⟩
    · rw [← hc]
      exact (hkept A _ rfl hA).candidate hlock
    · by_cases hrunning : verifyLock m.runningStore.toDataStoreBase sessionId
      · exact .inl hrunning
      · obtain ⟨A, hA, hne⟩ := exists_of_not_verifyLock hrunning
        exact .inr (hr.symm.trans ((hkept A _ rfl hne.symm).running hA))

/-! ## Runs -/

/-- Whatever the others do, the stores that a session has locked stay as they are if the commits
of the others are harmless, and only then. -/
theorem locksIsolate (configurators : List (Configurator C S)) (m : DataStoreManager M C S) :
    (∀ A m', ((manager M configurators).startingAt m).ReachableUnder
        (fun m e => e.requester ≠ some A ∧ m.Harmless configurators e) m' → Kept A m m') ∧
    ∀ e m', (manager M configurators).step m e = some m' →
      ((∀ A, e.requester ≠ some A → Kept A m m') ↔ m.Harmless configurators e) := by
  refine ⟨fun A m' hm' => ?_, fun e m' hs => ⟨harmless_of_kept hs, fun hharmless A hA => ?_⟩⟩
  · apply hm'.invariant (P := Kept A m)
    · rintro m₀ rfl
      exact .refl A _
    · intro m₁ e m₂ _ hkept hok hs
      exact hkept.trans (kept_of_harmless hs hok.1 hok.2)
  · exact kept_of_harmless hs hA hharmless

/-- A device that has only a `NetConfDataConfiguratorDummy`. -/
def dummyDevice : System (DataStoreManager ℕ ℕ Unit) (Event ℕ ℕ) := manager ℕ [.dummy 0]

/-- Session 1 locks the candidate and edits it. -/
def editedCandidate : List (Event ℕ ℕ) :=
  [.operation (.lock .candidate) ⟨1, 0⟩ ⟨0, []⟩,
    .operation (.editConfig .candidate .merge .rollbackOnError (.config 5)) ⟨1, 1⟩ ⟨0, []⟩]

/-- Another session tries to lock and to delete the candidate. -/
theorem locksIsolate_dummyDevice :
    ∃ m m₁ m', dummyDevice.runFrom { runningStore := { state := () } } editedCandidate = some m ∧
      dummyDevice.step m (.operation (.lock .candidate) ⟨2, 0⟩ ⟨0, []⟩) = some m₁ ∧
      dummyDevice.step m₁ (.operation (.deleteConfig .candidate) ⟨2, 1⟩ ⟨0, []⟩) = some m' ∧
      Kept 1 m m' := by
  obtain ⟨m, m₁, m', hm, h₁, h₂⟩ : ∃ m m₁ m',
      dummyDevice.runFrom { runningStore := { state := () } } editedCandidate = some m ∧
      dummyDevice.step m (.operation (.lock .candidate) ⟨2, 0⟩ ⟨0, []⟩) = some m₁ ∧
      dummyDevice.step m₁ (.operation (.deleteConfig .candidate) ⟨2, 1⟩ ⟨0, []⟩) = some m' :=
    ⟨_, _, _, rfl, rfl, rfl⟩
  refine ⟨m, m₁, m', hm, h₁, h₂, (locksIsolate [.dummy 0] m).1 1 m' ?_⟩
  have hlock : m.Harmless [.dummy 0] (.operation (.lock .candidate) ⟨2, 0⟩ ⟨0, []⟩) := trivial
  have hdelete : m₁.Harmless [.dummy 0] (.operation (.deleteConfig .candidate) ⟨2, 1⟩ ⟨0, []⟩) :=
    trivial
  exact System.ReachableUnder.step (.step (.init rfl) ⟨by decide, hlock⟩ h₁)
    ⟨by decide, hdelete⟩ h₂

/-- A session without any lock commits what another one has locked and edited. -/
theorem commit_not_isolated :
    ¬∀ (m m' : DataStoreManager ℕ ℕ Unit) (e : Event ℕ ℕ) (A : ℕ), dummyDevice.Reachable m →
      dummyDevice.step m e = some m' → e.requester ≠ some A → Kept A m m' := by
  intro h
  obtain ⟨m, m', hm, hs, hlock, hedits, hcleared⟩ : ∃ m m',
      dummyDevice.runFrom { runningStore := { state := () } } editedCandidate = some m ∧
      dummyDevice.step m (.operation .commit ⟨2, 0⟩ ⟨0, []⟩) = some m' ∧
      m.candidateStore.isLockedBy 1 ∧ m.candidateStore.configVector = [5] ∧
      m'.candidateStore.configVector = [] := ⟨_, _, rfl, rfl, rfl, rfl, rfl⟩
  have hreachable : dummyDevice.Reachable m := System.reachable_of_runFrom ⟨(), rfl⟩ hm
  have hkept := (h m m' _ 1 hreachable hs (by decide)).candidate hlock
  rw [hkept, hedits] at hcleared
  cases hcleared

end DataStoreManager

end TsnReconfig.NetConf
