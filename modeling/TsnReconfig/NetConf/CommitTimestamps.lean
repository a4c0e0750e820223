import TsnReconfig.NetConf.StoreOperations

/-!
# Commit timestamps across transactions

The manager keeps one timestamp, whoever sent it, until a timed commit has been executed. Runs are
recorded with what their operations have achieved, the newest entry first, and a timestamp belongs
to the transaction of a session as long as nothing in the record has ended it.
-/

namespace TsnReconfig.NetConf

open TsnReconfig.Lib

/-- What the record of a run keeps. -/
inductive LogEntry
  | accepted (sessionId : ℕ) (timestamp : CommitTimestamp)
  | lockedCandidate (sessionId : ℕ)
  | ended
  deriving DecidableEq, Repr

/-- The session has had the timestamp accepted since it last locked the candidate and since the
last transaction ended. -/
def OwnTimestamp (sessionId : ℕ) (timestamp : CommitTimestamp) : List LogEntry → Prop
  | [] => False
  | .accepted s t :: log => s = sessionId ∧ t = timestamp ∨ OwnTimestamp sessionId timestamp log
  | .lockedCandidate s :: log => s ≠ sessionId ∧ OwnTimestamp sessionId timestamp log
  | .ended :: _ => False

/-- The session whose timestamp was accepted last. -/
def lastAccepted : List LogEntry → Option ℕ
  | [] => none
  | .accepted s _ :: _ => some s
  | _ :: log => lastAccepted log

/-- The operations that end a transaction besides its commit. -/
def NetConfOperation.endsTransaction {C : Type*} : NetConfOperation C → Bool
  | .deleteConfig .candidate | .unlock .candidate | .copyConfig .running .candidate
  | .copyConfig .candidate .running => true
  | _ => false

namespace DataStoreManager

variable {M C S : Type*} {configurators : List (Configurator C S)} {m m' : DataStoreManager M C S}
  {e : Event M C} {r : Option ReplyElement}

/-- An event with the reply element it causes at once. -/
def perform (configurators : List (Configurator C S)) (m : DataStoreManager M C S) :
    Event M C → Handled M C S
  | .operation operation ctrl clock => m.handleOperation configurators clock ctrl operation
  | .newCycle period clock => (m.receiveSignal clock period).map (·, none)
  | .executeTimedCommit sessionId =>
    (m.executeTimedCommit configurators sessionId).map fun h => (h.1, some h.2.2)

/-- What an event adds to the record. -/
def entries : Event M C → Option ReplyElement → List LogEntry
  | .operation (.editConfig _ _ _ (.commitTimestamp t)) ctrl _, some .ok =>
    [.accepted ctrl.sessionId t]
  | .operation (.lock .candidate) ctrl _, some .ok => [.lockedCandidate ctrl.sessionId]
  | .operation .commit _ _, some .ok => [.ended]
  | .operation operation _ _, some .ok => if operation.endsTransaction then [.ended] else []
  | .executeTimedCommit _, _ => [.ended]
  | _, _ => []

/-- A manager with the record of its run. -/
structure Recorded (M C S : Type*) where
  manager : DataStoreManager M C S
  log : List LogEntry := []

namespace Recorded

def step (configurators : List (Configurator C S)) (s : Recorded M C S) (e : Event M C) :
    Option (Recorded M C S) :=
  (s.manager.perform configurators e).map fun h => ⟨h.1, entries e h.2 ++ s.log⟩

/-- A session keeps to its own timestamp: while one is stored, only the session that sent it
commits, and neither does this one lock the candidate again nor does a transaction end in another
way than by the timed commit. -/
def Orderly (s : Recorded M C S) (e : Event M C) : Prop :=
  s.manager.hasCommitTimestamp →
    match e with
    | .operation operation ctrl _ =>
      s.manager.Refuses ctrl.sessionId operation ∨
        (operation = .commit → lastAccepted s.log = some ctrl.sessionId) ∧
        (operation = .lock .candidate → lastAccepted s.log ≠ some ctrl.sessionId) ∧
        ¬operation.endsTransaction
    | _ => True

end Recorded

/-- The manager with the record of its runs. -/
def recorded (M : Type*) (configurators : List (Configurator C S)) :
    System (Recorded M C S) (Event M C) where
  init s := ∃ state, s = { manager := { runningStore := { state } } }
  step := Recorded.step configurators

namespace Recorded

variable {s s' : Recorded M C S}

/-- The stored timestamp is the last that was accepted, and still one of its transaction. -/
def Tidy (s : Recorded M C S) : Prop :=
  s.manager.hasCommitTimestamp →
    ∃ sessionId, lastAccepted s.log = some sessionId ∧
      OwnTimestamp sessionId s.manager.commitTimestamp s.log

theorem tidy_of_not_has (h : s.manager.hasCommitTimestamp = false) : s.Tidy := by
  intro hhas
  rw [h] at hhas
  cases hhas

/-- Where the timestamp and the record stay, so does their relation. -/
theorem Tidy.of_eq (h : s.Tidy) (ht : s'.manager.commitTimestamp = s.manager.commitTimestamp)
    (hlog : s'.log = s.log) : s'.Tidy := by
  unfold Tidy hasCommitTimestamp at h ⊢
  rwa [ht, hlog]

/-- A refused operation is not recorded. -/
theorem entries_refused {operation : NetConfOperation C} {ctrl : CtrlInfo M} {clock : Clock} :
    entries (.operation operation ctrl clock) (some .error) = [] := by
  cases operation with
  | editConfig target defaultOperation errorOption data => cases data <;> rfl
  | lock target => cases target <;> rfl
  | _ => rfl

theorem Tidy.operation {operation : NetConfOperation C} {ctrl : CtrlInfo M} {clock : Clock}
    (h : s.Tidy) (hok : s.Orderly (.operation operation ctrl clock))
    (heffect : Effect configurators s.manager clock ctrl operation m' r) :
    Tidy ⟨m', entries (.operation operation ctrl clock) r ++ s.log⟩ := by
  -- an operation that ends a transaction or locks the candidate for the owner of the stored
  -- timestamp is refused, so without its refusal there is no timestamp
  have hnot : (s.manager.hasCommitTimestamp → False) → m'.commitTimestamp =
      s.manager.commitTimestamp → Tidy ⟨m', entries (.operation operation ctrl clock) r ++ s.log⟩ :=
    fun hno ht => tidy_of_not_has (by
      unfold hasCommitTimestamp at hno ⊢
      rw [ht]
      exact Bool.eq_false_iff.mpr hno)
  cases heffect with
  | refused _ hrefused => exact h.of_eq rfl (by rw [entries_refused]; rfl)
  | queried _ hquery =>
    rcases hquery with rfl | rfl
    · exact h.of_eq rfl rfl
    · exact h.of_eq rfl rfl
  | timestamp target _ _ t hlock hfuture =>
    exact fun _ => ⟨ctrl.sessionId, rfl, .inl ⟨rfl, rfl⟩⟩
  | editRunning _ _ config hlock running applied happlied =>
    refine h.of_eq rfl ?_
    cases applied <;> rfl
  | editCandidate _ _ config hlock hvalid => exact h.of_eq rfl rfl
  | copyToRunning hr hc =>
    refine hnot (fun hhas => ?_) rfl
    rcases hok hhas with hrefused | ⟨-, -, hends⟩
    · exact (not_or.mpr ⟨not_not_intro hr, not_not_intro hc⟩) hrefused
    · exact hends rfl
  | copyToCandidate hr hc =>
    refine hnot (fun hhas => ?_) rfl
    rcases hok hhas with hrefused | ⟨-, -, hends⟩
    · exact (not_or.mpr ⟨not_not_intro hr, not_not_intro hc⟩) hrefused
    · exact hends rfl
  | deleteCandidate hlock =>
    refine hnot (fun hhas => ?_) rfl
    rcases hok hhas with hrefused | ⟨-, -, hends⟩
    · exact hrefused hlock
    · exact hends rfl
  | lockRunning hfree => exact h.of_eq rfl rfl
  | lockCandidate hfree hempty =>
    intro hhas
    obtain ⟨sessionId, hlast, hown⟩ := h hhas
    rcases hok hhas with hrefused | ⟨-, hlock, -⟩
    · rcases hrefused with hlocked | hedits
      · exact absurd hfree (DataStoreBase.isLocked_iff.mp hlocked)
      · exact absurd hempty hedits
    · have hne : sessionId ≠ ctrl.sessionId := fun heq => hlock rfl (by rw [hlast, heq])
      exact ⟨sessionId, hlast, hne.symm, hown⟩
  | unlockRunning howner => exact h.of_eq rfl rfl
  | unlockCandidate howner =>
    refine hnot (fun hhas => ?_) rfl
    rcases hok hhas with hrefused | ⟨-, -, hends⟩
    · exact hrefused (DataStoreBase.isLockedBy_iff.mpr howner)
    · exact hends rfl
  | commit hlock htimestamp => exact hnot (by simp [htimestamp]) rfl
  | timedCommit m' hlock htimestamp hm =>
    obtain ⟨-, -, -, ht⟩ := scheduleTimedCommit_eq_some hm
    exact h.of_eq ht rfl

theorem Tidy.step (h : s.Tidy) (hok : s.Orderly e) (hs : s.step configurators e = some s') :
    s'.Tidy := by
  obtain ⟨⟨m', r⟩, hp, rfl⟩ := Option.map_eq_some_iff.mp hs
  cases e with
  | operation operation ctrl clock => exact h.operation hok (effect_of_handleOperation hp)
  | newCycle period clock =>
    obtain ⟨m₁, hm, hp⟩ := Option.map_eq_some_iff.mp hp
    cases hp
    rcases receiveSignal_eq_some hm with rfl | ⟨sessionId, -, rfl⟩
    · exact h.of_eq rfl rfl
    · exact h.of_eq rfl rfl
  | executeTimedCommit sessionId =>
    obtain ⟨⟨m₁, commit, el⟩, hm, hp⟩ := Option.map_eq_some_iff.mp hp
    cases hp
    obtain ⟨-, -, -, -, -, -, ht, -⟩ := executeTimedCommit_eq_some hm
    refine tidy_of_not_has ?_
    unfold hasCommitTimestamp
    rw [show m₁.commitTimestamp = .zero from ht]
    rfl

end Recorded

end DataStoreManager

end TsnReconfig.NetConf
