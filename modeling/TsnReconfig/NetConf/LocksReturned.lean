import TsnReconfig.NetConf.MutualExclusion

/-!
# Giving the locks back

An application that waits for the unlocks has asked every switch that it has locked, and at the
end of its transaction it has no lock, unless a lock was refused after others had been granted.
-/

namespace TsnReconfig.NetConf

open TsnReconfig.Lib

namespace Network

variable {ι C S : Type*} [DecidableEq ι] {d : Deployment ι C S} {n n' : Network ι C S} {i : ι}

/-- What an application owes to its switches. -/
structure GivesBack (n : Network ι C S) (i : ι) : Prop where
  waiting : (n.runs i).app.transactionState = .waitOnUnlock →
    ∀ c ∈ (n.runs i).app.connections, n.holder c.remoteAddress = some c.sessionId →
      ∃ rpc ∈ n.requests, rpc ∈ (n.runs i).outstanding ∧ rpc.sessionId = c.sessionId ∧
        rpc.operation = .unlock .running
  ended : (n.runs i).app.transactionState = .endOfTransaction →
    ∀ c ∈ (n.runs i).app.connections, ∀ a, n.holder a ≠ some c.sessionId

/-- A lock is refused while the application has the lock of another switch. -/
def refusesLater (i : ι) (n : Network ι C S) : Event ι C → Bool
  | .app j (.reply rpc .error _) =>
    decide (j = i ∧ rpc.messageId = .lock) &&
      (n.runs i).app.switchStates.any (·.state.hasLockedRunning)
  | _ => false

/-- Unless a lock is refused later, the unlocks in flight are those of all switches. -/
theorem outstanding_of_reachableUnder
    (h : (system d).ReachableUnder (fun n e => refusesLater i n e = false) n) :
    (n.runs i).app.Outstanding (n.runs i).outstanding := by
  apply h.invariant (P := fun n => (n.runs i).app.Outstanding (n.runs i).outstanding)
  · rintro n ⟨hruns, -⟩
    obtain ⟨timeSynchronous, connections, -, -, hrun⟩ := hruns i
    rw [hrun]
    rfl
  · intro n e n' hr hout hok hs
    have hord := inOrder_of_reachable hr.reachable
    rcases step_cases hs with ⟨j, e, app, sent, rfl, hp, hh, rfl⟩ | hruns
    · by_cases hj : j = i
      · subst hj
        obtain ⟨he, hm⟩ := hord.move hp hh
        rw [handled_runs_self]
        refine hm.outstanding (hord.runs j).inv he hout ?_
        rintro sw release rfl - ⟨x, hx, hlocked⟩
        have : (n.runs j).app.switchStates.any (·.state.hasLockedRunning) :=
          List.any_eq_true.mpr ⟨x, hx, hlocked⟩
        simp [refusesLater, this, Switch.lock, Connection.createRPC] at hok
      · rwa [handled_runs_of_ne (Ne.symm hj)]
    · rwa [hruns]

/-- The lock that an application has of a switch is noted or granted by a reply in flight. -/
theorem exists_holds (h : (system d).Reachable n) {c : Connection}
    (hc : c ∈ (n.runs i).app.connections) {a : ℕ} (hholder : n.holder a = some c.sessionId) :
    ∃ sw ∈ (n.runs i).app.switchStates, sw.sessionId = c.sessionId ∧ Holds n sw := by
  have hord := inOrder_of_reachable h
  have hmirrored := mirrored_of_reachable h
  obtain ⟨sw, hsw, hsession⟩ := hmirrored.known a _ i hholder ((hord.runs i).sessions c hc).1
  refine ⟨sw, hsw, hsession, (hmirrored.holds i sw hsw).mp ?_⟩
  rw [← ((hord.runs i).session hsw).2, hsession, hmirrored.address a _ hholder, hholder]

/-- A request for a lock is in flight while the application waits for locks only. -/
theorem not_lock_reply (h : (system d).Reachable n) {sw : Switch}
    (hsw : sw ∈ (n.runs i).app.switchStates)
    (hs : (n.runs i).app.transactionState ≠ .waitOnLockResponse) {element : ReplyElement} :
    (sw.lock, element) ∉ n.replies := by
  intro hreply
  have hord := inOrder_of_reachable h
  have hout := hord.outstanding _ (mem_inFlight_of_reply hreply) i ((hord.runs i).session hsw).1
  exact hs ((hord.runs i).inv.awaitedIn hout).symm

theorem givesBack_of_reachableUnder
    (h : (system d).ReachableUnder (fun n e => refusesLater i n e = false) n) : GivesBack n i := by
  have hr := h.reachable
  have hord := inOrder_of_reachable hr
  refine ⟨fun hs c hc hholder => ?_, fun hs c hc a hholder => ?_⟩
  · obtain ⟨sw, hsw, hsession, hl | ⟨hlocked, hunlock⟩⟩ := exists_holds hr hc hholder
    · exact absurd hl (not_lock_reply hr hsw (by simp [hs]))
    have hout := outstanding_of_reachableUnder h
    unfold TransactionApp.Outstanding at hout
    rw [hs] at hout
    have hmem : sw.unlock ∈ (n.runs i).outstanding :=
      hout.1.mem hsw (by simp [Switch.pending, hlocked])
    refine ⟨sw.unlock, ?_, hmem, hsession, rfl⟩
    rcases List.mem_append.mp (hord.answered i _ hmem (by
      simp [Switch.unlock, Connection.createRPC, Configuration.operation])) with hreq | hreply
    · exact hreq
    · obtain ⟨⟨rpc, element⟩, hreply, heq⟩ := List.mem_map.mp hreply
      obtain rfl : rpc = sw.unlock := heq
      exact absurd hreply (hunlock element)
  · obtain ⟨sw, hsw, hsession, hl | ⟨hlocked, -⟩⟩ := exists_holds hr hc hholder
    · exact not_lock_reply hr hsw (by simp [hs]) hl
    · exact Run.unlocked_of_end (hord.runs i).reachable hs sw hsw hlocked

/-- Once a lock has been refused later, the locks before it are not given back. -/
theorem not_givesBack_of_refusesLater (h : (system d).Reachable n) {e : Event ι C}
    (hs : (system d).step n e = some n') (hrefused : refusesLater i n e) : ¬GivesBack n' i := by
  have hord := inOrder_of_reachable h
  have hinv := (hord.runs i).inv
  obtain ⟨rpc, release, rfl, hid, x, hx, hlocked⟩ : ∃ rpc release,
      e = .app i (.reply rpc .error release) ∧ rpc.messageId = .lock ∧
        ∃ x ∈ (n.runs i).app.switchStates, x.state.hasLockedRunning := by
    unfold refusesLater at hrefused
    split at hrefused
    · rename_i j rpc release
      simp only [Bool.and_eq_true, decide_eq_true_eq, List.any_eq_true] at hrefused
      obtain ⟨⟨rfl, hid⟩, hsome⟩ := hrefused
      exact ⟨rpc, release, rfl, hid, hsome⟩
    · cases hrefused
  change (if n.possible d i (.reply rpc .error release) then _ else none) = _ at hs
  split_ifs at hs with hp
  obtain ⟨⟨app, sent⟩, hh, rfl⟩ := Option.map_eq_some_iff.mp hs
  obtain ⟨he, hm⟩ := hord.move hp hh
  have hstate : (n.runs i).app.transactionState = .waitOnLockResponse := by
    rw [← hinv.awaitedIn he, hid]
    rfl
  have hnoted : ∀ {rpc element l₁ sw l₂ sw'}, ¬(n.runs i).app.Noted rpc element l₁ sw l₂ sw' := by
    intro rpc element l₁ sw l₂ sw' h
    have hp := h.pending
    rw [hstate] at hp
    cases hp
  cases hm with
  | refusedFirst sw release hs' hsw hnone => exact absurd hlocked (hnone x hx)
  | refusedLater sw release hs' hsw hunlocked hsome =>
    intro hgives
    obtain ⟨c, hc, hprofile⟩ := hinv.exists_connection hx
    have hsession : c.sessionId = x.sessionId := congrArg (fun p => p.2.1) hprofile
    have haddress : c.remoteAddress = x.remoteAddress := congrArg (fun p => p.1) hprofile
    have hholder : n.holder x.remoteAddress = some x.sessionId := by
      refine ((mirrored_of_reachable h).holds i x hx).mpr (.inr ⟨hlocked, fun element hreply => ?_⟩)
      have hout := hord.outstanding _ (mem_inFlight_of_reply hreply) i ((hord.runs i).session hx).1
      have hawaited := hinv.awaitedIn hout
      rw [hstate] at hawaited
      cases hawaited
    have hwaiting := hgives.waiting
    rw [handled_runs_self] at hwaiting
    obtain ⟨rpc, -, hout, hrpc, -⟩ := hwaiting rfl c hc (by rw [haddress, hsession]; exact hholder)
    -- the only request in flight goes to the switch that is not locked
    obtain ⟨-, -, -, hlock⟩ := hinv.lock_eq hstate he
    have hone : rpc = sw.unlock := by
      simpa [Run.after, NetConf.Event.unanswered, hlock] using hout
    obtain rfl : sw = x := hinv.eq_of_sessionId hsw hx (by
      rw [← hsession, ← hrpc, hone]
      rfl)
    exact hunlocked hlocked
  | stay l₁ sw l₂ sw' rpc element release h => exact absurd h hnoted
  | fail l₁ sw l₂ sw' rpc element release h => exact absurd h hnoted
  | abort l₁ sw l₂ sw' rpc release hs' h => exact absurd h hnoted

/-- An application gives all its locks back, unless a lock is refused after others were granted:
then it has not asked for theirs. -/
theorem locksReturned (d : Deployment ι C S) (i : ι) :
    (∀ n, (system d).ReachableUnder (fun n e => refusesLater i n e = false) n → GivesBack n i) ∧
    ∀ n e n', (system d).Reachable n → (system d).step n e = some n' → refusesLater i n e →
      ¬GivesBack n' i :=
  ⟨fun _ => givesBack_of_reachableUnder, fun _ _ _ h hs => not_givesBack_of_refusesLater h hs⟩

/-- Both switches of the first controller are locked, and refuse the copies since others have
locked their candidates. -/
def refusedCopies : List (Event Bool ℕ) :=
  [.foreign ⟨31, ⟨31, .lockCandidate, .lock .candidate⟩⟩ (.lock .candidate) ⟨0, []⟩,
    .foreign ⟨32, ⟨32, .lockCandidate, .lock .candidate⟩⟩ (.lock .candidate) ⟨0, []⟩,
    .app false .startTransaction] ++ lockEvents false 11 ++ lockEvents false 12 ++
  [.serve ⟨11, .copyConfig, .copyConfig .running .candidate⟩ ⟨0, []⟩ .zero,
    .serve ⟨12, .copyConfig, .copyConfig .running .candidate⟩ ⟨0, []⟩ .zero,
    .app false (.reply ⟨12, .copyConfig, .copyConfig .running .candidate⟩ .error false),
    .app false (.reply ⟨11, .copyConfig, .copyConfig .running .candidate⟩ .error false)]

theorem locksReturned_refusedCopies :
    ∃ n, (system twoControllers).runFrom idle refusedCopies = some n ∧
      (n.runs false).app.transactionState = .waitOnUnlock ∧ n.holder 1 = some 11 ∧
      GivesBack n false := by
  obtain ⟨n, hn, hunder, hstate, hholder⟩ : ∃ n,
      (system twoControllers).runFrom idle refusedCopies = some n ∧
      (system twoControllers).runUnder (fun n e => refusesLater false n e = false) idle
        refusedCopies = some n ∧
      (n.runs false).app.transactionState = .waitOnUnlock ∧ n.holder 1 = some 11 :=
    ⟨_, rfl, rfl, rfl, rfl⟩
  exact ⟨n, hn, hstate, hholder,
    (locksReturned twoControllers false).1 n (.run (.init init_idle) hunder)⟩

/-- The second lock is held by another controller: the first one is not given back. -/
theorem refusedLock_not_givesBack :
    ¬∀ n, (system twoControllers).Reachable n → ∀ i, GivesBack n i := by
  intro h
  obtain ⟨n, hn, hstate, hholder, hconnections, hrequests⟩ : ∃ n,
      (system twoControllers).runFrom idle
        ([.foreign ⟨32, ⟨32, .lock, .lock .running⟩⟩ (.lock .running) ⟨0, []⟩,
          .app false .startTransaction] ++ lockEvents false 11 ++
        [.serve ⟨12, .lock, .lock .running⟩ ⟨0, []⟩ .zero,
          .app false (.reply ⟨12, .lock, .lock .running⟩ .error false)]) = some n ∧
      (n.runs false).app.transactionState = .waitOnUnlock ∧ n.holder 1 = some 11 ∧
      (n.runs false).app.connections = Run.twoSwitches ∧
      n.requests = [⟨12, .unlock, .unlock .running⟩] := ⟨_, rfl, rfl, rfl, rfl, rfl⟩
  have hgives := h n (System.reachable_of_runFrom init_idle hn) false
  rw [Run.twoSwitches] at hconnections
  obtain ⟨rpc, hrpc, -, hsession, -⟩ := hgives.waiting hstate _
    (hconnections ▸ List.mem_cons_self) hholder
  rw [hrequests, List.mem_singleton] at hrpc
  rw [hrpc] at hsession
  exact absurd hsession (by decide)

end Network

end TsnReconfig.NetConf
