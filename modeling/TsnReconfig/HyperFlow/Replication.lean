import Mathlib.Data.List.Infix
import TsnReconfig.HyperFlow.Agents

/-!
# The replication of the log

What the request of an agent and the answer of the synchronizer have to do with the data channels
of the two at any time between them.
-/

namespace TsnReconfig.HyperFlow
open Lib

/-! ## The counters -/

theorem toInt_sub_one {counter : Int32} (h : 0 < counter.toInt) :
    (counter - 1).toInt = counter.toInt - 1 := by
  have hlt := counter.toInt_lt
  rw [Int32.toInt_sub, Int32.toInt_one]
  apply Int.bmod_eq_of_le <;> omega

/-- The loop copies as many entries as `counter` says. -/
theorem copyNewest_eq_take {counter : Int32} {n : ℕ} (h : counter.toInt = n)
    (l : List DataChannelEntry) : copyNewest counter l = l.take n := by
  induction l generalizing counter n with
  | nil => simp [copyNewest]
  | cons entry l ih =>
    unfold copyNewest
    by_cases hzero : counter = 0
    · subst hzero
      obtain rfl : n = 0 := by simpa using h.symm
      simp
    · have hne : counter.toInt ≠ 0 := fun h0 => hzero (Int32.toInt_inj.mp (by simpa using h0))
      obtain ⟨m, rfl⟩ := Nat.exists_eq_succ_of_ne_zero (by omega : n ≠ 0)
      have hpred : (counter - 1).toInt = m := by
        rw [toInt_sub_one (by omega)]
        omega
      rw [if_pos hzero, ih hpred, List.take_succ_cons]

/-- The difference of the sizes fits into the `int`. -/
theorem toInt_difference {size : Int64} {last : Int32} {n m : ℕ} (hsize : size.toInt = n)
    (hlast : last.toInt = m) (hmn : m ≤ n) (hn : n < 2147483648) :
    (size - last.toInt64).toInt32.toInt = (n - m : ℕ) := by
  have hlong : (size - last.toInt64).toInt = (n - m : ℕ) := by
    rw [Int64.toInt_sub, Int32.toInt_toInt64, hsize, hlast]
    rw [Int.bmod_eq_of_le] <;> omega
  rw [Int64.toInt_toInt32, hlong]
  apply Int.bmod_eq_of_le <;> omega

theorem toInt_add_ofNat {last : Int32} {n m : ℕ} (hlast : last.toInt = n)
    (h : n + m < 2147483648) : (last + Int32.ofNat m).toInt = (n + m : ℕ) := by
  rw [Int32.toInt_add, hlast, Int32.toInt_ofNat_of_lt (by omega)]
  rw [Int.bmod_eq_of_le] <;> omega

/-! ## A reply -/

theorem foldl_takeEntry (fullPath : String) (l : List DataChannelEntry) (a : HyperFlowAgent)
    (refired : List DataChannelEntry) :
    l.foldl (HyperFlowAgent.takeEntry fullPath) (a, refired) =
      ({ a with
          dataChannel := l.reverse ++ a.dataChannel
          lastSyncCounter := a.lastSyncCounter + Int32.ofNat l.length },
        refired ++ l.filter (·.srcController ≠ fullPath)) := by
  induction l generalizing a refired with
  | nil => simp
  | cons entry l ih =>
    rw [List.foldl_cons, HyperFlowAgent.takeEntry, ih]
    have hcounter : a.lastSyncCounter + 1 + Int32.ofNat l.length =
        a.lastSyncCounter + Int32.ofNat (l.length + 1) := by
      rw [Int32.ofNat_add, Int32.add_assoc, Int32.add_comm 1]
      rfl
    by_cases hown : entry.srcController = fullPath
    · simp [hown, hcounter]
    · simp [hown, hcounter]

theorem handleSyncReply_eq (a : HyperFlowAgent) (fullPath : String) (reply : SyncReply) :
    a.handleSyncReply fullPath reply =
      (⟨false, a.lastSyncCounter + Int32.ofNat reply.dataChannel.length, reply.controlChannel,
          reply.dataChannel ++ a.dataChannel,
          HyperFlowAgent.learnControllers a.knownControllers reply.controlChannel, a.queue⟩,
        reply.dataChannel.reverse.filter (·.srcController ≠ fullPath)) := by
  rw [HyperFlowAgent.handleSyncReply, foldl_takeEntry]
  simp

/-! ## The invariant -/

section
variable {A : Type*} [DecidableEq A] {fullPath : A → String} {s s' : State A} {a b : A}

/-- What an agent waits for: nothing; the answer to a request, which has its counter; or a reply,
which has the entries of the log after its own. -/
inductive Outstanding (s : State A) (a : A) : Prop
  | nothing (waiting : (s.agents a).waitingForSyncResponse = false) (requests : s.requests a = [])
      (replies : s.replies a = [])
  | request (waiting : (s.agents a).waitingForSyncResponse = true)
      (requests : s.requests a = [(s.agents a).lastSyncCounter]) (replies : s.replies a = [])
  | reply (r : SyncReply) (waiting : (s.agents a).waitingForSyncResponse = true)
      (requests : s.requests a = []) (replies : s.replies a = [r])
      (entries : r.dataChannel ++ (s.agents a).dataChannel <:+ s.synchronizer.dataChannel)

/-- What holds between an agent and the synchronizer. -/
structure Follows (fullPath : A → String) (s : State A) (a : A) : Prop where
  isSuffix : (s.agents a).dataChannel <:+ s.synchronizer.dataChannel
  counter : (s.agents a).lastSyncCounter.toInt = (s.agents a).dataChannel.length
  refired : s.refired a =
    (s.agents a).dataChannel.reverse.filter (·.srcController ≠ fullPath a)
  outstanding : Outstanding s a

/-- The counters are right as long as the length of the log is an `int`. -/
structure Inv (fullPath : A → String) (s : State A) : Prop where
  size : s.synchronizer.dataChannelSizeCache = Int64.ofNat s.synchronizer.dataChannel.length
  follows : s.synchronizer.dataChannel.length < 2147483648 → ∀ a, Follows fullPath s a

/-- An agent does not notice what changes none of its own messages, while the log grows. -/
theorem Follows.congr (h : Follows fullPath s a)
    (hwaiting : (s'.agents a).waitingForSyncResponse = (s.agents a).waitingForSyncResponse)
    (hcounter : (s'.agents a).lastSyncCounter = (s.agents a).lastSyncCounter)
    (hdata : (s'.agents a).dataChannel = (s.agents a).dataChannel)
    (hrefired : s'.refired a = s.refired a) (hrequests : s'.requests a = s.requests a)
    (hreplies : s'.replies a = s.replies a)
    (hlog : s.synchronizer.dataChannel <:+ s'.synchronizer.dataChannel) :
    Follows fullPath s' a := by
  refine ⟨?_, ?_, ?_, ?_⟩
  · rw [hdata]
    exact h.isSuffix.trans hlog
  · rw [hcounter, hdata]
    exact h.counter
  · rw [hrefired, hdata]
    exact h.refired
  · cases h.outstanding with
    | nothing waiting requests replies =>
      exact .nothing (hwaiting.trans waiting) (hrequests.trans requests) (hreplies.trans replies)
    | request waiting requests replies =>
      apply Outstanding.request (hwaiting.trans waiting) _ (hreplies.trans replies)
      rw [hrequests, hcounter, requests]
    | reply r waiting requests replies entries =>
      apply Outstanding.reply r (hwaiting.trans waiting) (hrequests.trans requests)
        (hreplies.trans replies)
      rw [hdata]
      exact entries.trans hlog

theorem requests_send (s : State A) (a b : A) (m : ToSynchronizer) :
    (s.send a m).requests b = s.requests b ++ if b = a then m.request.toList else [] := by
  by_cases hb : b = a
  · subst hb
    cases m <;> simp [State.requests, State.send, ToSynchronizer.request, List.filterMap_append]
  · simp [State.requests, State.send, hb]

/-- A message that is no request. -/
theorem Follows.send (h : Follows fullPath s b) (a : A) {m : ToSynchronizer}
    (hm : m.request = none) : Follows fullPath (s.send a m) b := by
  refine h.congr rfl rfl rfl rfl ?_ rfl List.suffix_rfl
  rw [requests_send, hm]
  split_ifs <;> simp

/-- The timer of an agent sends a request if none is outstanding. -/
theorem Follows.sync {aliveInterval : ℤ} (h : Follows fullPath s b) (a : A)
    (hs : step aliveInterval fullPath s (.sync a) = some s') : Follows fullPath s' b := by
  obtain rfl := Option.some.inj hs
  unfold HyperFlowAgent.sendSyncRequest
  by_cases hwaiting : (s.agents a).waitingForSyncResponse
  · rw [if_pos hwaiting]
    have hsame : s.setAgent a (s.agents a) = s := by
      simp [State.setAgent, Function.update_eq_self]
    rw [Option.elim_none, hsame]
    exact h
  · rw [if_neg hwaiting, Option.elim_some]
    by_cases hb : b = a
    · subst hb
      have hnothing : s.requests b = [] ∧ s.replies b = [] := by
        cases h.outstanding with
        | nothing waiting requests replies => exact ⟨requests, replies⟩
        | request waiting => exact (hwaiting waiting).elim
        | reply r waiting => exact (hwaiting waiting).elim
      refine ⟨?_, ?_, ?_, .request ?_ ?_ ?_⟩
      · simpa [State.setAgent, State.send] using h.isSuffix
      · simpa [State.setAgent, State.send] using h.counter
      · simpa [State.setAgent, State.send] using h.refired
      · simp [State.setAgent, State.send]
      · rw [requests_send, if_pos rfl]
        have hrequests : (s.setAgent b { s.agents b with
            waitingForSyncResponse := true }).requests b = [] := hnothing.1
        rw [hrequests]
        simp [State.setAgent, State.send, ToSynchronizer.request]
      · have hreplies := hnothing.2
        simpa [State.setAgent, State.send, State.replies] using hreplies
    · refine h.congr ?_ ?_ ?_ rfl ?_ ?_ List.suffix_rfl
      · simp [State.setAgent, State.send, hb]
      · simp [State.setAgent, State.send, hb]
      · simp [State.setAgent, State.send, hb]
      · rw [requests_send, if_neg hb, List.append_nil]
        rfl
      · simp [State.setAgent, State.send, State.replies, hb]

/-- A message goes from a connection into the queue of the synchronizer. -/
theorem Follows.arriveSynchronizer {aliveInterval : ℤ} (h : Follows fullPath s b) (a : A)
    (hs : step aliveInterval fullPath s (.arriveSynchronizer a) = some s') :
    Follows fullPath s' b := by
  unfold step at hs
  cases hchannel : s.toSynchronizer a with
  | nil => simp [hchannel] at hs
  | cons m rest =>
    simp only [hchannel, Option.some.injEq] at hs
    subst hs
    refine h.congr rfl rfl rfl rfl ?_ rfl List.suffix_rfl
    by_cases hb : b = a
    · subst hb
      cases hm : m.request <;>
        simp [State.requests, ServiceQueue.contents_arrive, List.filterMap_append, hchannel, hm]
    · simp [State.requests, ServiceQueue.contents_arrive, List.filterMap_append, hb, Ne.symm hb]

/-- A reply goes from a connection into the queue of the agent. -/
theorem Follows.arriveAgent {aliveInterval : ℤ} (h : Follows fullPath s b) (a : A)
    (hs : step aliveInterval fullPath s (.arriveAgent a) = some s') :
    Follows fullPath s' b := by
  unfold step at hs
  cases hchannel : s.toAgent a with
  | nil => simp [hchannel] at hs
  | cons reply rest =>
    simp only [hchannel, Option.some.injEq] at hs
    subst hs
    by_cases hb : b = a
    · subst hb
      refine h.congr ?_ ?_ ?_ rfl rfl ?_ List.suffix_rfl
      · simp
      · simp
      · simp
      · simp [State.replies, hchannel]
    · refine h.congr ?_ ?_ ?_ rfl rfl ?_ List.suffix_rfl
      · simp [hb]
      · simp [hb]
      · simp [hb]
      · simp [State.replies, hb]

/-- What the synchronizer does with the message it has finished to wait for. -/
theorem finishSynchronizer_cases {aliveInterval now : ℤ}
    (hs : step aliveInterval fullPath s (.finishSynchronizer now) = some s') :
    ∃ a m queue, s.synchronizer.queue.finish = some ((a, m), queue) ∧
      ((m.request = none ∧ ∃ controlChannel,
          s' = { s with synchronizer := { s.synchronizer with queue, controlChannel } }) ∨
        (m.request = none ∧ ∃ entry, s' = { s with synchronizer := { s.synchronizer with
          queue
          dataChannel := entry :: s.synchronizer.dataChannel
          dataChannelSizeCache := s.synchronizer.dataChannelSizeCache + 1 } }) ∨
        ∃ lastSyncCounter reply controlChannel, m.request = some lastSyncCounter ∧
          reply.dataChannel = copyNewest (s.synchronizer.dataChannelSizeCache -
            lastSyncCounter.toInt64).toInt32 s.synchronizer.dataChannel ∧
          s' = { s with
            synchronizer := { s.synchronizer with queue, controlChannel }
            toAgent := Function.update s.toAgent a (s.toAgent a ++ [reply]) }) := by
  obtain ⟨⟨⟨a, m⟩, queue⟩, hfinish, rfl⟩ := Option.map_eq_some_iff.mp hs
  have hsame : Function.update s.toAgent a (s.toAgent a ++ []) = s.toAgent := by simp
  refine ⟨a, m, queue, hfinish, ?_⟩
  cases m with
  | reportIn controllerId =>
    left
    refine ⟨rfl, ⟨controllerId, now⟩ :: s.synchronizer.controlChannel, ?_⟩
    simp only [HyperFlowSynchronizer.processQueuedMsg, HyperFlowSynchronizer.handleReportIn,
      Option.toList_none, hsame]
  | changeNotification entry =>
    right; left
    refine ⟨rfl, entry, ?_⟩
    simp only [HyperFlowSynchronizer.processQueuedMsg,
      HyperFlowSynchronizer.handleChangeNotification, Option.toList_none, hsame]
  | syncRequest lastSyncCounter =>
    right; right
    exact ⟨lastSyncCounter, ⟨_, _⟩, _, rfl, rfl, rfl⟩

/-- The requests before the synchronizer processes its message, and after it. -/
theorem requests_of_finish {m : ToSynchronizer} {queue : ServiceQueue (A × ToSynchronizer)}
    (hfinish : s.synchronizer.queue.finish = some ((a, m), queue))
    (hqueue : s'.synchronizer.queue = queue) (hchannel : s'.toSynchronizer = s.toSynchronizer)
    (b : A) : s.requests b = (if a = b then m.request.toList else []) ++ s'.requests b := by
  unfold State.requests
  rw [ServiceQueue.contents_of_finish hfinish, hqueue, hchannel, List.filterMap_cons]
  by_cases hab : a = b
  · cases m <;> simp [hab, ToSynchronizer.request]
  · simp [hab]

/-- The answer to the request of the agent has just the entries after its own. -/
theorem Follows.copyNewest (h : Follows fullPath s a) (hsize :
    s.synchronizer.dataChannelSizeCache = Int64.ofNat s.synchronizer.dataChannel.length)
    (hlog : s.synchronizer.dataChannel.length < 2147483648) :
    HyperFlow.copyNewest (s.synchronizer.dataChannelSizeCache -
        (s.agents a).lastSyncCounter.toInt64).toInt32 s.synchronizer.dataChannel ++
      (s.agents a).dataChannel = s.synchronizer.dataChannel := by
  obtain ⟨newer, hnewer⟩ := h.isSuffix
  have hlength : newer.length + (s.agents a).dataChannel.length =
      s.synchronizer.dataChannel.length := by
    rw [← List.length_append, hnewer]
  have hlong : s.synchronizer.dataChannelSizeCache.toInt =
      s.synchronizer.dataChannel.length := by
    rw [hsize, Int64.toInt_ofNat_of_lt (by omega)]
  rw [copyNewest_eq_take (toInt_difference hlong h.counter (by omega) hlog), ← hnewer,
    List.length_append, Nat.add_sub_cancel, List.take_left]

/-- A request of the agent is answered. -/
theorem Follows.answer {lastSyncCounter : Int32} (h : Follows fullPath s a) (hsize :
    s.synchronizer.dataChannelSizeCache = Int64.ofNat s.synchronizer.dataChannel.length)
    (hlog : s.synchronizer.dataChannel.length < 2147483648)
    (hrequests : s.requests a = lastSyncCounter :: s'.requests a) {reply : SyncReply}
    (hreply : reply.dataChannel = HyperFlow.copyNewest (s.synchronizer.dataChannelSizeCache -
      lastSyncCounter.toInt64).toInt32 s.synchronizer.dataChannel)
    (hagents : s'.agents = s.agents) (hrefired : s'.refired = s.refired)
    (hreplies : s'.replies a = s.replies a ++ [reply])
    (hdata : s'.synchronizer.dataChannel = s.synchronizer.dataChannel) :
    Follows fullPath s' a := by
  cases h.outstanding with
  | nothing waiting requests =>
    rw [requests] at hrequests
    cases hrequests
  | reply r waiting requests =>
    rw [requests] at hrequests
    cases hrequests
  | request waiting requests replies =>
    obtain ⟨rfl, hrest⟩ := List.cons.inj (requests.symm.trans hrequests)
    refine ⟨?_, ?_, ?_, .reply reply ?_ hrest.symm ?_ ?_⟩
    · rw [hagents, hdata]
      exact h.isSuffix
    · rw [hagents]
      exact h.counter
    · rw [hagents, hrefired]
      exact h.refired
    · rw [hagents]
      exact waiting
    · rw [hreplies, replies, List.nil_append]
    · rw [hagents, hdata, hreply, h.copyNewest hsize hlog]

theorem Inv.finishSynchronizer {aliveInterval now : ℤ} (h : Inv fullPath s)
    (hs : step aliveInterval fullPath s (.finishSynchronizer now) = some s') :
    Inv fullPath s' := by
  obtain ⟨a, m, queue, hfinish, hcases⟩ := finishSynchronizer_cases hs
  have hsame : s'.synchronizer.queue = queue ∧ s'.toSynchronizer = s.toSynchronizer := by
    rcases hcases with ⟨-, _, rfl⟩ | ⟨-, _, rfl⟩ | ⟨_, _, _, -, -, rfl⟩ <;> exact ⟨rfl, rfl⟩
  have hrequests := requests_of_finish hfinish hsame.1 hsame.2
  rcases hcases with ⟨hm, controlChannel, rfl⟩ | ⟨hm, entry, rfl⟩ |
    ⟨lastSyncCounter, reply, controlChannel, hm, hreply, rfl⟩
  · refine ⟨h.size, fun hlog b => (h.follows hlog b).congr rfl rfl rfl rfl ?_ rfl List.suffix_rfl⟩
    rw [hrequests b, hm]
    simp
  · constructor
    · show s.synchronizer.dataChannelSizeCache + 1 =
        Int64.ofNat (s.synchronizer.dataChannel.length + 1)
      rw [h.size, Int64.ofNat_add]
      rfl
    · intro hlog b
      have hlt : s.synchronizer.dataChannel.length + 1 < 2147483648 := hlog
      refine (h.follows (by omega) b).congr rfl rfl rfl rfl ?_ rfl (List.suffix_cons _ _)
      rw [hrequests b, hm]
      simp
  · refine ⟨h.size, fun hlog b => ?_⟩
    have hb := hrequests b
    by_cases hab : a = b
    · subst hab
      rw [if_pos rfl, hm] at hb
      refine (h.follows hlog a).answer h.size hlog hb hreply rfl rfl ?_ rfl
      simp [State.replies]
    · rw [if_neg hab] at hb
      refine (h.follows hlog b).congr rfl rfl rfl rfl hb.symm ?_ List.suffix_rfl
      simp [State.replies, Ne.symm hab]

/-- The reply of an agent is processed. -/
theorem Follows.finishAgent {aliveInterval : ℤ} (h : Follows fullPath s b)
    (hlog : s.synchronizer.dataChannel.length < 2147483648) (a : A)
    (hs : step aliveInterval fullPath s (.finishAgent a) = some s') :
    Follows fullPath s' b := by
  obtain ⟨⟨reply, queue⟩, hfinish, rfl⟩ := Option.map_eq_some_iff.mp hs
  simp only [handleSyncReply_eq]
  by_cases hb : b = a
  · subst hb
    have hreplies : s.replies b = reply :: (queue.contents ++ s.toAgent b) := by
      rw [State.replies, ServiceQueue.contents_of_finish hfinish]
      rfl
    cases h.outstanding with
    | nothing waiting requests replies =>
      rw [replies] at hreplies
      cases hreplies
    | request waiting requests replies =>
      rw [replies] at hreplies
      cases hreplies
    | reply r waiting requests replies entries =>
      obtain ⟨rfl, hrest⟩ := List.cons.inj (replies.symm.trans hreplies)
      have hlength := entries.length_le
      rw [List.length_append] at hlength
      refine ⟨?_, ?_, ?_, .nothing ?_ ?_ ?_⟩
      · simpa [State.setAgent] using entries
      · simp only [State.setAgent, Function.update_self]
        rw [toInt_add_ofNat h.counter (by omega), List.length_append, Nat.add_comm]
      · simp [State.setAgent, h.refired]
      · simp [State.setAgent]
      · exact requests
      · simpa [State.replies, State.setAgent] using hrest.symm
  · refine h.congr ?_ ?_ ?_ ?_ rfl ?_ List.suffix_rfl
    · simp [State.setAgent, hb]
    · simp [State.setAgent, hb]
    · simp [State.setAgent, hb]
    · simp [hb]
    · simp [State.replies, State.setAgent, hb]

/-! ## Whole runs -/

theorem Inv.init : Inv fullPath (start : State A) :=
  ⟨rfl, fun _ _ => ⟨List.suffix_rfl, by simp [start, HyperFlowAgent.start], rfl,
    .nothing rfl rfl rfl⟩⟩

/-- Only the synchronizer's own steps change its log. -/
theorem log_of_step {aliveInterval : ℤ} {e : Event A}
    (hs : HyperFlow.step aliveInterval fullPath s e = some s')
    (he : ∀ now, e ≠ .finishSynchronizer now) :
    s'.synchronizer.dataChannel = s.synchronizer.dataChannel ∧
      s'.synchronizer.dataChannelSizeCache = s.synchronizer.dataChannelSizeCache := by
  cases e with
  | change a trgSwitch eventId payload =>
    obtain rfl := Option.some.inj hs
    exact ⟨rfl, rfl⟩
  | reportIn a =>
    obtain rfl := Option.some.inj hs
    exact ⟨rfl, rfl⟩
  | sync a =>
    obtain rfl := Option.some.inj hs
    unfold HyperFlowAgent.sendSyncRequest
    split_ifs <;> exact ⟨rfl, rfl⟩
  | checkAlive a =>
    obtain rfl := Option.some.inj hs
    exact ⟨rfl, rfl⟩
  | arriveSynchronizer a =>
    unfold step at hs
    cases hchannel : s.toSynchronizer a with
    | nil => simp [hchannel] at hs
    | cons m rest =>
      simp only [hchannel, Option.some.injEq] at hs
      subst hs
      exact ⟨rfl, rfl⟩
  | finishSynchronizer now => exact (he now rfl).elim
  | arriveAgent a =>
    unfold step at hs
    cases hchannel : s.toAgent a with
    | nil => simp [hchannel] at hs
    | cons reply rest =>
      simp only [hchannel, Option.some.injEq] at hs
      subst hs
      exact ⟨rfl, rfl⟩
  | finishAgent a =>
    obtain ⟨r, -, rfl⟩ := Option.map_eq_some_iff.mp hs
    exact ⟨rfl, rfl⟩

theorem Inv.step {aliveInterval : ℤ} {e : Event A} (h : Inv fullPath s)
    (hs : HyperFlow.step aliveInterval fullPath s e = some s') : Inv fullPath s' := by
  by_cases he : ∀ now, e ≠ .finishSynchronizer now
  · obtain ⟨hdata, hsize⟩ := log_of_step hs he
    refine ⟨by rw [hsize, hdata, h.size], fun hlog b => ?_⟩
    rw [hdata] at hlog
    have hb := h.follows hlog b
    cases e with
    | change a trgSwitch eventId payload =>
      obtain rfl := Option.some.inj hs
      exact hb.send a rfl
    | reportIn a =>
      obtain rfl := Option.some.inj hs
      exact hb.send a rfl
    | sync a => exact hb.sync a hs
    | checkAlive a =>
      obtain rfl := Option.some.inj hs
      exact hb
    | arriveSynchronizer a => exact hb.arriveSynchronizer a hs
    | finishSynchronizer now => exact (he now rfl).elim
    | arriveAgent a => exact hb.arriveAgent a hs
    | finishAgent a => exact hb.finishAgent hlog a hs
  · push Not at he
    obtain ⟨now, rfl⟩ := he
    exact h.finishSynchronizer hs

/-- **One log**: as long as its length is an `int`, every agent has a prefix of the log of the
synchronizer, whatever the order of the messages and the timers is. -/
theorem replicated_of_reachable {aliveInterval : ℤ}
    (h : (hyperFlow aliveInterval fullPath).Reachable s)
    (hlog : s.log.length < 2147483648) : s.Replicated fullPath := by
  have hinv : Inv fullPath s := by
    refine h.invariant ?_ fun _ _ _ hP hs => hP.step hs
    rintro _ rfl
    exact .init
  rw [State.log, List.length_reverse] at hlog
  have hfollows := hinv.follows hlog
  refine ⟨fun a => ?_, fun a => (hfollows a).counter, fun a => ?_, fun a => (hfollows a).refired⟩
  · exact List.reverse_prefix.mpr (hfollows a).isSuffix
  · cases (hfollows a).outstanding with
    | nothing waiting requests replies => simp [requests, replies]
    | request waiting requests replies => simp [requests, replies]
    | reply r waiting requests replies entries => simp [requests, replies]

end

/-- The controllers of two agents. -/
def samplePath (a : Bool) : String := if a then "net.controller2" else "net.controller1"

/-- A change of the first agent and a request of the second one, which gets the entry. -/
def syncRun : List (Event Bool) :=
  [.change false "" 0 5, .sync true, .arriveSynchronizer false, .finishSynchronizer 3,
    .arriveSynchronizer true, .finishSynchronizer 4, .arriveAgent true, .finishAgent true]

theorem replicated_of_reachable_sample : ∃ s,
    (hyperFlow 3 samplePath).runFrom start syncRun = some s ∧
      (s.agents true).dataChannel.length = 1 ∧ s.Replicated samplePath := by
  have hrun : ((hyperFlow 3 samplePath).runFrom start syncRun).map (fun s =>
      ((s.agents true).dataChannel.length, s.log.length)) = some (1, 1) := by
    decide +kernel
  obtain ⟨s, hs, h⟩ := Option.map_eq_some_iff.mp hrun
  obtain ⟨hdata, hlog⟩ := Prod.mk.inj h
  exact ⟨s, hs, hdata, replicated_of_reachable (System.reachable_of_runFrom rfl hs) (by omega)⟩

/-! ## A log that is too long -/

def sampleEntry (payload : ℕ) : DataChannelEntry := ⟨samplePath false, "", 0, payload⟩

/-- A change of the first agent, from its call until the entry is in the log. -/
def changeRun (payload : ℕ) : List (Event Bool) :=
  [.change false "" 0 payload, .arriveSynchronizer false, .finishSynchronizer 0]

/-- The entries are in the log, and nothing else has happened. -/
def loggedState (entries : List DataChannelEntry) : State Bool :=
  { start with synchronizer := { (.start : HyperFlowSynchronizer Bool) with
      dataChannel := entries
      dataChannelSizeCache := Int64.ofNat entries.length } }

theorem runFrom_changeRun (entries : List DataChannelEntry) (payload : ℕ) :
    (hyperFlow 0 samplePath).runFrom (loggedState entries) (changeRun payload) =
      some (loggedState (sampleEntry payload :: entries)) := by
  simp [hyperFlow, changeRun, System.runFrom, step, State.send, loggedState, start]
  exact .inl ⟨_, _, rfl, rfl, rfl⟩

theorem loggedState_reachable (payloads : List ℕ) :
    (hyperFlow 0 samplePath).Reachable (loggedState (payloads.map sampleEntry)) := by
  induction payloads with
  | nil => exact .init rfl
  | cons payload payloads ih => exact ih.run (runFrom_changeRun _ payload)

/-- A request of the second agent, until it has processed the reply. -/
def requestRun : List (Event Bool) :=
  [.sync true, .arriveSynchronizer true, .finishSynchronizer 0, .arriveAgent true,
    .finishAgent true]

/-- When `counter` is one, the reply has the newest entry only. -/
theorem runFrom_requestRun {entry : DataChannelEntry} {entries : List DataChannelEntry}
    (hcounter : (Int64.ofNat (entry :: entries).length - Int32.toInt64 0).toInt32 = 1) :
    ∃ s, (hyperFlow 0 samplePath).runFrom (loggedState (entry :: entries)) requestRun = some s ∧
      s.log = (entry :: entries).reverse ∧ (s.agents true).dataChannel = [entry] := by
  have hcopy : copyNewest 1 (entry :: entries) = [entry] := by
    rw [copyNewest_eq_take (Int32.toInt_one : (1 : Int32).toInt = (1 : ℕ)), List.take_succ_cons,
      List.take_zero]
  refine ⟨_, rfl, rfl, ?_⟩
  show (HyperFlowAgent.handleSyncReply _ (samplePath true) _).1.dataChannel = [entry]
  rw [handleSyncReply_eq]
  show copyNewest (Int64.ofNat (entry :: entries).length - Int32.toInt64 0).toInt32
    (entry :: entries) ++ [] = [entry]
  rw [hcounter, hcopy, List.append_nil]

/-- Then the second agent starts with another entry than the log. -/
theorem not_replicated_of_counter {payloads : List ℕ}
    (hcounter : (Int64.ofNat (payloads.length + 2) - Int32.toInt64 0).toInt32 = 1) :
    ∃ s, (hyperFlow 0 samplePath).Reachable s ∧ s.log.length = payloads.length + 2 ∧
      ¬s.Replicated samplePath := by
  have hlength : (sampleEntry 0 :: (payloads ++ [1]).map sampleEntry).length =
      payloads.length + 2 := by
    simp
  obtain ⟨s, hs, hlog, hdata⟩ := runFrom_requestRun (by rw [hlength]; exact hcounter)
  have hlogged := loggedState_reachable (0 :: (payloads ++ [1]))
  refine ⟨s, hlogged.run hs, by rw [hlog, List.length_reverse, hlength], fun h => ?_⟩
  obtain ⟨rest, hrest⟩ := h.isPrefix true
  have hlog' : s.log =
      sampleEntry 1 :: ((payloads.map sampleEntry).reverse ++ [sampleEntry 0]) := by
    simp [hlog]
  rw [hlog', hdata] at hrest
  have hentry : sampleEntry 0 = sampleEntry 1 := (List.cons.inj hrest).1
  cases congrArg DataChannelEntry.payload hentry

/-- More than an `int` of entries came before the second agent asked for the first time. -/
theorem longLog_not_replicated : ∃ s, (hyperFlow 0 samplePath).Reachable s ∧
    s.log.length = 4294967297 ∧ ¬s.Replicated samplePath := by
  have hlength : (List.replicate 4294967295 0).length + 2 = 4294967297 := by
    rw [List.length_replicate]
  obtain ⟨s, hs, hlog, hnot⟩ :=
    @not_replicated_of_counter (List.replicate 4294967295 0) (by rw [hlength]; decide)
  exact ⟨s, hs, hlog.trans hlength, hnot⟩

end TsnReconfig.HyperFlow
