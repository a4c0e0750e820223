import Mathlib.Data.List.Nodup
import TsnReconfig.Lib.System
import TsnReconfig.Network.TrafficSource

/-!
# The rate of a talker

Runs of `IEEE8021QSRPLikeTrafficSourceApp`: its self-messages in the order of their times,
and the frames that arrive between them.
-/

namespace TsnReconfig.Network
open Lib OpenFlow Opt

/-! ## The application over time -/

/-- The other parameters of the application, and the number of its buffers. -/
structure StreamingApp extends SRPLikeTrafficSourceApp where
  enabled : Bool
  startTime : SimTime
  priority : UInt8
  bgbuffers : ℕ
  startTime_nonneg : 0 ≤ startTime

/-- The kinds of self-messages: that of the base class, `MSGKIND_SEND_TA` and
`MSGKIND_STREAMING`. -/
inductive SelfMessageKind
  | start
  | sendTA
  | streaming
  deriving DecidableEq, Repr

structure SelfMessage where
  kind : SelfMessageKind
  arrivalTime : SimTime
  deriving DecidableEq, Repr

inductive SentPacket
  | advertisement (ta : TalkerAdvertise)
  | traffic (dest : MACAddress) (byteLength : ℕ) (pcp : UInt8) (vid : UInt16) (streamID : UInt64)
  deriving DecidableEq, Repr

/-- A frame that went into a buffer. -/
structure Sent where
  time : SimTime
  buffer : ℕ
  packet : SentPacket
  deriving DecidableEq, Repr

def Sent.isTraffic (f : Sent) : Bool :=
  match f.packet with
  | .advertisement _ => false
  | .traffic .. => true

/-- What an arriving frame carries. -/
inductive ReceivedFrame
  | listenerReady (streamID : UInt64)
  | other
  deriving DecidableEq, Repr

/-- The application with its pending self-messages. What it has sent and the `ListenerReady`
frames it has received are ghosts, newest first. -/
structure TalkerState where
  now : SimTime
  isStreaming : Bool
  streamStartTime : SimTime
  selfMessages : List SelfMessage
  sent : List Sent
  listenerReadies : List (SimTime × UInt64)
  deriving DecidableEq, Repr

inductive TalkerEvent
  | selfMessage (m : SelfMessage)
  | frame (time : SimTime) (f : ReceivedFrame)

namespace StreamingApp
variable (app : StreamingApp) (u : Uint16Cast)

/-- `initialize`, at time zero. -/
def start : TalkerState where
  now := 0
  isStreaming := false
  streamStartTime := 0
  selfMessages :=
    (if app.enabled then [⟨.start, app.startTime⟩] else []) ++ [⟨.sendTA, app.startTime⟩]
  sent := []
  listenerReadies := []

/-- A packet for every buffer. -/
def toBuffers (now : SimTime) (packet : SentPacket) : List Sent :=
  (List.range app.bgbuffers).map fun b => ⟨now, b, packet⟩

/-- The packet of `sendMessage`. -/
def traffic : SentPacket :=
  .traffic app.destAddress app.frameBytes app.priority app.vid app.streamID

/-- `scheduleAt`: a time that does not fit is an error. -/
def scheduleAt (s : TalkerState) (kind : SelfMessageKind) (time : SimTime) : Option TalkerState :=
  if time ≤ maxTime then some { s with selfMessages := s.selfMessages ++ [⟨kind, time⟩] }
  else none

/-- `handleMessage` for a self-message. -/
def handleSelfMessage (s : TalkerState) : SelfMessageKind → Option TalkerState
  | .start => some s
  | .sendTA =>
    let packet := .advertisement (app.sendTAMessage u)
    some { s with sent := app.toBuffers s.now packet ++ s.sent }
  | .streaming =>
    if s.isStreaming then
      scheduleAt { s with sent := app.toBuffers s.now app.traffic ++ s.sent } .streaming
        (s.now + app.sendInterval)
    else some s

/-- `handleMessage` for a frame. -/
def handleFrame (s : TalkerState) : ReceivedFrame → Option TalkerState
  | .listenerReady streamID =>
    let s := { s with listenerReadies := (s.now, streamID) :: s.listenerReadies }
    if app.streamID = streamID then
      scheduleAt { s with isStreaming := true, streamStartTime := s.now } .streaming s.now
    else some s
  | .other => some s

/-- The next event is a pending self-message none of which is earlier, or a frame that
arrives no later than these. -/
def talkerStep (s : TalkerState) : TalkerEvent → Option TalkerState
  | .selfMessage m =>
    if m ∈ s.selfMessages ∧ ∀ m' ∈ s.selfMessages, m.arrivalTime ≤ m'.arrivalTime then
      app.handleSelfMessage u
        { s with now := m.arrivalTime, selfMessages := s.selfMessages.erase m } m.kind
    else none
  | .frame time f =>
    if s.now ≤ time ∧ ∀ m ∈ s.selfMessages, time ≤ m.arrivalTime then
      app.handleFrame { s with now := time } f
    else none

def talkerRuns : System TalkerState TalkerEvent where
  init s := s = app.start
  step := app.talkerStep u

/-! ## What is expected of it -/

/-- The times of the `ListenerReady` frames for the stream of the application. -/
def accepted (s : TalkerState) : List SimTime :=
  (s.listenerReadies.filter fun r => r.2 == app.streamID).map Prod.fst

/-- The pending `Streaming` messages. -/
def pendingStreaming (s : TalkerState) : List SelfMessage :=
  s.selfMessages.filter fun m => m.kind == .streaming

/-- The traffic that went into a buffer from `first` to `last`. -/
def sentBetween (s : TalkerState) (buffer : ℕ) (first last : SimTime) : List Sent :=
  s.sent.filter fun f =>
    f.isTraffic && f.buffer == buffer && decide (first ≤ f.time) && decide (f.time ≤ last)

structure AtDeclaredRate (s : TalkerState) : Prop where
  pending : (pendingStreaming s).length ≤ 1
  spaced : ∀ buffer first d, d < app.sendInterval →
    (sentBetween s buffer first (first + d)).length ≤ 1
  started : ∀ f ∈ s.sent, f.isTraffic → ∃ t ∈ app.accepted s, t ≤ f.time

/-! ## The chains of messages -/

/-- The later frame `f` in the buffer of `g` keeps the distance from it. -/
def Spaced (f g : Sent) : Prop :=
  f.isTraffic → g.isTraffic → f.buffer = g.buffer → g.time + app.sendInterval ≤ f.time

/-- The frames keep their distance, and the pending messages keep theirs from the frames. -/
structure OneChain (s : TalkerState) : Prop where
  spaced : s.sent.Pairwise app.Spaced
  next : ∀ f ∈ s.sent, f.isTraffic → ∀ m ∈ pendingStreaming s,
    f.time + app.sendInterval ≤ m.arrivalTime

/-- Every accepted `ListenerReady` has a chain of its own. -/
structure TalkerInv (s : TalkerState) : Prop where
  later : ∀ m ∈ s.selfMessages, s.now ≤ m.arrivalTime
  past : ∀ t ∈ app.accepted s, t ≤ s.now
  chains : (pendingStreaming s).length = (app.accepted s).length
  streaming : s.isStreaming = true ↔ app.accepted s ≠ []
  started : ∀ f ∈ s.sent, f.isTraffic → ∃ t ∈ app.accepted s, t ≤ f.time
  oneChain : (app.accepted s).length ≤ 1 → app.OneChain s

variable {app u} {s s' : TalkerState}

theorem isTraffic_of_mem_toBuffers {now : SimTime} {packet : SentPacket} {f : Sent}
    (hf : f ∈ app.toBuffers now packet) : f.time = now ∧ f.packet = packet := by
  obtain ⟨b, -, rfl⟩ := List.mem_map.mp hf
  exact ⟨rfl, rfl⟩

/-- The frames of one `sendMessage` go into different buffers. -/
theorem pairwise_toBuffers (now : SimTime) (packet : SentPacket) :
    (app.toBuffers now packet).Pairwise app.Spaced := by
  refine List.pairwise_map.mpr (List.nodup_range.imp ?_)
  intro b b' hne _ _ heq
  exact absurd heq hne

theorem talkerInv_start : app.TalkerInv app.start := by
  have hpending : pendingStreaming app.start = [] := by
    unfold pendingStreaming start
    cases app.enabled <;> rfl
  refine ⟨?_, by simp [start, accepted], ?_, by simp [start, accepted], by simp [start],
    fun _ => ⟨List.Pairwise.nil, by simp [start]⟩⟩
  · intro m hm
    have htime : m.arrivalTime = app.startTime := by
      simp only [start, List.mem_append, List.mem_singleton] at hm
      rcases hm with hm | rfl
      · split_ifs at hm
        · rw [List.mem_singleton.mp hm]
        · cases hm
      · rfl
    rw [htime]
    exact app.startTime_nonneg
  · rw [hpending]
    rfl

theorem pendingStreaming_erase (m : SelfMessage) (now : SimTime) :
    pendingStreaming { s with now := now, selfMessages := s.selfMessages.erase m } =
      (pendingStreaming s).erase m :=
  List.erase_filter.symm

/-- The time moves on to the next event. -/
theorem TalkerInv.advance (h : app.TalkerInv s) {time : SimTime} (hnow : s.now ≤ time)
    (hnext : ∀ m ∈ s.selfMessages, time ≤ m.arrivalTime) :
    app.TalkerInv { s with now := time } where
  later := hnext
  past t ht := (h.past t ht).trans hnow
  chains := h.chains
  streaming := h.streaming
  started := h.started
  oneChain hone := ⟨(h.oneChain hone).spaced, (h.oneChain hone).next⟩

/-- A message of another kind goes. -/
theorem TalkerInv.erase (h : app.TalkerInv s) {m : SelfMessage} (hkind : m.kind ≠ .streaming) :
    app.TalkerInv { s with selfMessages := s.selfMessages.erase m } := by
  have hpending : pendingStreaming { s with selfMessages := s.selfMessages.erase m } =
      pendingStreaming s := by
    refine (pendingStreaming_erase m s.now).trans (List.erase_of_not_mem fun hmem => hkind ?_)
    simpa using (List.mem_filter.mp hmem).2
  refine ⟨fun m' hm' => h.later m' (List.mem_of_mem_erase hm'), h.past, ?_, h.streaming, h.started,
    fun hone => ⟨(h.oneChain hone).spaced, ?_⟩⟩
  · rw [hpending]
    exact h.chains
  · rw [hpending]
    exact (h.oneChain hone).next

/-- The advertisement goes out. -/
theorem TalkerInv.advertise (h : app.TalkerInv s) (ta : TalkerAdvertise) :
    app.TalkerInv { s with sent := app.toBuffers s.now (.advertisement ta) ++ s.sent } := by
  have hnot : ∀ f ∈ app.toBuffers s.now (.advertisement ta), f.isTraffic = false := by
    intro f hf
    simp [Sent.isTraffic, (isTraffic_of_mem_toBuffers hf).2]
  refine ⟨h.later, h.past, h.chains, h.streaming, fun f hf htraffic => ?_, fun hone => ⟨?_, ?_⟩⟩
  · rcases List.mem_append.mp hf with hf | hf
    · simp [hnot f hf] at htraffic
    · exact h.started f hf htraffic
  · refine List.pairwise_append.mpr ⟨pairwise_toBuffers _ _, (h.oneChain hone).spaced, ?_⟩
    intro f hf g _ htraffic
    simp [hnot f hf] at htraffic
  · intro f hf htraffic
    rcases List.mem_append.mp hf with hf | hf
    · simp [hnot f hf] at htraffic
    · exact (h.oneChain hone).next f hf htraffic

theorem scheduleAt_eq_some {kind : SelfMessageKind} {time : SimTime}
    (h : scheduleAt s kind time = some s') :
    s' = { s with selfMessages := s.selfMessages ++ [⟨kind, time⟩] } := by
  unfold scheduleAt at h
  split_ifs at h
  exact (Option.some.inj h).symm

/-- A `Streaming` message sends the frames and schedules its successor. -/
theorem TalkerInv.stream (h : app.TalkerInv s) {m : SelfMessage} (hm : m ∈ s.selfMessages)
    (hkind : m.kind = .streaming) (hnow : m.arrivalTime = s.now)
    (hstreaming : s.isStreaming = true) :
    app.TalkerInv { s with
      selfMessages := s.selfMessages.erase m ++ [⟨.streaming, s.now + app.sendInterval⟩]
      sent := app.toBuffers s.now app.traffic ++ s.sent } := by
  have hmem : m ∈ pendingStreaming s := List.mem_filter.mpr ⟨hm, by simp [hkind]⟩
  have hpending : pendingStreaming { s with
      selfMessages := s.selfMessages.erase m ++ [⟨.streaming, s.now + app.sendInterval⟩]
      sent := app.toBuffers s.now app.traffic ++ s.sent } =
      (pendingStreaming s).erase m ++ [⟨.streaming, s.now + app.sendInterval⟩] := by
    rw [pendingStreaming, pendingStreaming, List.erase_filter]
    simp
  have hinterval := app.sendInterval_nonneg
  refine ⟨?_, h.past, ?_, h.streaming, ?_, fun hone => ⟨?_, ?_⟩⟩
  · intro m' hm'
    rcases List.mem_append.mp hm' with hm' | hm'
    · exact h.later m' (List.mem_of_mem_erase hm')
    · rw [List.mem_singleton.mp hm']
      exact Int.le_add_of_nonneg_right hinterval
  · rw [hpending, List.length_append, List.length_erase_of_mem hmem, List.length_singleton]
    have hchains := h.chains
    have hpos := List.length_pos_of_mem hmem
    show _ = (app.accepted s).length
    omega
  · intro f hf htraffic
    rcases List.mem_append.mp hf with hf | hf
    · obtain ⟨t, ht⟩ := List.exists_mem_of_ne_nil _ (h.streaming.mp hstreaming)
      refine ⟨t, ht, ?_⟩
      rw [(isTraffic_of_mem_toBuffers hf).1]
      exact h.past t ht
    · exact h.started f hf htraffic
  · refine List.pairwise_append.mpr ⟨pairwise_toBuffers _ _, (h.oneChain hone).spaced, ?_⟩
    intro f hf g hg _ htraffic _
    rw [(isTraffic_of_mem_toBuffers hf).1, ← hnow]
    exact (h.oneChain hone).next g hg htraffic m hmem
  · -- the message that fired was the only one of its kind
    have honly : (pendingStreaming s).erase m = [] := by
      refine List.eq_nil_of_length_eq_zero ?_
      rw [List.length_erase_of_mem hmem, h.chains]
      have : (app.accepted s).length ≤ 1 := hone
      omega
    rw [hpending, honly, List.nil_append]
    intro f hf htraffic m' hm'
    rw [List.mem_singleton.mp hm']
    rcases List.mem_append.mp hf with hf | hf
    · rw [(isTraffic_of_mem_toBuffers hf).1]
    · have := (h.oneChain hone).next f hf htraffic m hmem
      rw [hnow] at this
      exact this.trans (Int.le_add_of_nonneg_right hinterval)

/-- A `ListenerReady` for another stream does nothing. -/
theorem TalkerInv.otherReady (h : app.TalkerInv s) {streamID : UInt64}
    (hother : app.streamID ≠ streamID) :
    app.TalkerInv { s with listenerReadies := (s.now, streamID) :: s.listenerReadies } := by
  have haccepted : app.accepted { s with
      listenerReadies := (s.now, streamID) :: s.listenerReadies } = app.accepted s := by
    simp [accepted, hother.symm]
  refine ⟨h.later, ?_, ?_, ?_, ?_, ?_⟩ <;> rw [haccepted]
  · exact h.past
  · exact h.chains
  · exact h.streaming
  · exact h.started
  · exact fun hone => ⟨(h.oneChain hone).spaced, (h.oneChain hone).next⟩

/-- One for its own stream begins a chain. -/
theorem TalkerInv.ownReady (h : app.TalkerInv s) :
    app.TalkerInv { s with
      isStreaming := true
      streamStartTime := s.now
      selfMessages := s.selfMessages ++ [⟨.streaming, s.now⟩]
      listenerReadies := (s.now, app.streamID) :: s.listenerReadies } := by
  have haccepted : app.accepted { s with
      isStreaming := true
      streamStartTime := s.now
      selfMessages := s.selfMessages ++ [⟨.streaming, s.now⟩]
      listenerReadies := (s.now, app.streamID) :: s.listenerReadies } =
      s.now :: app.accepted s := by
    simp [accepted]
  have hlater : ∀ m ∈ s.selfMessages ++ [⟨.streaming, s.now⟩], s.now ≤ m.arrivalTime := by
    intro m hm
    rcases List.mem_append.mp hm with hm | hm
    · exact h.later m hm
    · rw [List.mem_singleton.mp hm]
  refine ⟨hlater, ?_, ?_, ?_, ?_, ?_⟩ <;> rw [haccepted]
  · intro t ht
    rcases List.mem_cons.mp ht with rfl | ht
    · exact le_refl _
    · exact h.past t ht
  · have hchains := h.chains
    simp only [pendingStreaming] at hchains ⊢
    simp [hchains]
  · simp
  · intro f hf htraffic
    obtain ⟨t, ht, hle⟩ := h.started f hf htraffic
    exact ⟨t, List.mem_cons_of_mem _ ht, hle⟩
  · -- it is the first one, so nothing was sent before
    intro hone
    have hnone : app.accepted s = [] := by
      refine List.eq_nil_of_length_eq_zero ?_
      rw [List.length_cons] at hone
      omega
    refine ⟨(h.oneChain (by simp [hnone])).spaced, fun f hf htraffic => ?_⟩
    obtain ⟨t, ht, -⟩ := h.started f hf htraffic
    simp [hnone] at ht

theorem TalkerInv.step (h : app.TalkerInv s) {ev : TalkerEvent}
    (hs : app.talkerStep u s ev = some s') : app.TalkerInv s' := by
  cases ev with
  | selfMessage m =>
    simp only [talkerStep] at hs
    split_ifs at hs with hnext
    have hadvanced := h.advance (h.later m hnext.1) hnext.2
    obtain ⟨kind, time⟩ := m
    cases kind with
    | start =>
      obtain rfl := Option.some.inj hs
      exact hadvanced.erase (by simp)
    | sendTA =>
      obtain rfl := Option.some.inj hs
      exact (hadvanced.erase (by simp)).advertise _
    | streaming =>
      simp only [handleSelfMessage] at hs
      split_ifs at hs with hstreaming
      · obtain rfl := scheduleAt_eq_some hs
        exact hadvanced.stream hnext.1 rfl rfl hstreaming
      · -- without an accepted frame there is no chain
        have hmem : (⟨.streaming, time⟩ : SelfMessage) ∈ pendingStreaming s :=
          List.mem_filter.mpr ⟨hnext.1, rfl⟩
        have hnone : app.accepted s = [] := by
          by_contra hne
          exact hstreaming (h.streaming.mpr hne)
        have hchains := h.chains
        rw [hnone, List.length_nil, List.length_eq_zero_iff] at hchains
        rw [hchains] at hmem
        cases hmem
  | frame time f =>
    simp only [talkerStep] at hs
    split_ifs at hs with hnext
    have hadvanced := h.advance hnext.1 hnext.2
    cases f with
    | listenerReady streamID =>
      simp only [handleFrame] at hs
      split_ifs at hs with hown
      · obtain rfl := scheduleAt_eq_some hs
        subst hown
        exact hadvanced.ownReady
      · obtain rfl := Option.some.inj hs
        exact hadvanced.otherReady hown
    | other =>
      obtain rfl := Option.some.inj hs
      exact hadvanced

theorem talkerInv_of_reachable (h : (app.talkerRuns u).Reachable s) : app.TalkerInv s := by
  refine h.invariant ?_ fun s e s' hP hs => hP.step hs
  rintro _ rfl
  exact talkerInv_start

/-- Frames that keep their distance do not meet in a shorter interval. -/
theorem OneChain.sentBetween_length (h : app.OneChain s) {buffer : ℕ} {first d : SimTime}
    (hd : d < app.sendInterval) : (sentBetween s buffer first (first + d)).length ≤ 1 := by
  have hpairwise : (sentBetween s buffer first (first + d)).Pairwise app.Spaced :=
    h.spaced.filter _
  have hwithin : ∀ f ∈ sentBetween s buffer first (first + d),
      f.isTraffic ∧ f.buffer = buffer ∧ first ≤ f.time ∧ f.time ≤ first + d := by
    intro f hf
    simpa [sentBetween, and_assoc] using (List.mem_filter.mp hf).2
  match hlist : sentBetween s buffer first (first + d) with
  | [] => simp
  | [f] => simp
  | f :: g :: rest =>
    rw [hlist] at hpairwise hwithin
    obtain ⟨hf, hbuffer, -, hlast⟩ := hwithin f (by simp)
    obtain ⟨hg, hbuffer', hfirst, -⟩ := hwithin g (by simp)
    have hspaced := (List.pairwise_cons.mp hpairwise).1 g (by simp) hf hg
      (hbuffer.trans hbuffer'.symm)
    exact absurd (hspaced.trans hlast) (by linarith)

/-- In every reachable state the talker is at its declared rate just when it has accepted at
most one `ListenerReady`. -/
theorem atDeclaredRate_iff (h : (app.talkerRuns u).Reachable s) :
    app.AtDeclaredRate s ↔ (app.accepted s).length ≤ 1 := by
  have hinv := talkerInv_of_reachable h
  constructor
  · intro hrate
    rw [← hinv.chains]
    exact hrate.pending
  · intro hone
    exact ⟨hinv.chains.trans_le hone,
      fun buffer first d hd => (hinv.oneChain hone).sentBetween_length hd, hinv.started⟩

/-- 1500 bytes every 1.5 ms into one buffer, from 1 ms on. -/
def sampleApp : StreamingApp where
  toSRPLikeTrafficSourceApp := SRPLikeTrafficSourceApp.frequent
  enabled := true
  startTime := 1000000000
  priority := 7
  bgbuffers := 1
  startTime_nonneg := Int.natCast_nonneg 1000000000

/-- A `ListenerReady` for another stream and one for its own, and then the first frame. -/
def streamingRun : List TalkerEvent :=
  [.selfMessage ⟨.start, 1000000000⟩, .selfMessage ⟨.sendTA, 1000000000⟩,
    .frame 2000000000 (.listenerReady 2), .frame 3000000000 (.listenerReady 1),
    .selfMessage ⟨.streaming, 3000000000⟩]

theorem atDeclaredRate_iff_sample : ∃ s,
    (sampleApp.talkerRuns .saturate).runFrom sampleApp.start streamingRun = some s ∧
      (s.sent.filter Sent.isTraffic).length = 1 ∧ sampleApp.AtDeclaredRate s := by
  have hrun : ((sampleApp.talkerRuns .saturate).runFrom sampleApp.start streamingRun).map
      (fun s => ((s.sent.filter Sent.isTraffic).length, (sampleApp.accepted s).length)) =
      some (1, 1) := by
    decide +kernel
  obtain ⟨s, hs, h⟩ := Option.map_eq_some_iff.mp hrun
  obtain ⟨hsent, haccepted⟩ := Prod.mk.inj h
  have hreach : (sampleApp.talkerRuns .saturate).Reachable s := System.reachable_of_runFrom rfl hs
  exact ⟨s, hs, hsent, (atDeclaredRate_iff hreach).mpr haccepted.le⟩

/-- A second `ListenerReady` for its own stream half an interval later. -/
def repeatedReadyRun : List TalkerEvent :=
  streamingRun ++ [.frame 3750000000 (.listenerReady 1), .selfMessage ⟨.streaming, 3750000000⟩]

/-- Two frames go out within half an interval. -/
theorem repeatedReadyRun_not_atDeclaredRate : ∃ s,
    (sampleApp.talkerRuns .saturate).Reachable s ∧ (pendingStreaming s).length = 2 ∧
      (sentBetween s 0 3000000000 3750000000).length = 2 ∧ ¬ sampleApp.AtDeclaredRate s := by
  have hrun : ((sampleApp.talkerRuns .saturate).runFrom sampleApp.start repeatedReadyRun).map
      (fun s => ((pendingStreaming s).length,
        (sentBetween s 0 3000000000 3750000000).length)) = some (2, 2) := by
    decide +kernel
  obtain ⟨s, hs, h⟩ := Option.map_eq_some_iff.mp hrun
  obtain ⟨hpending, hsent⟩ := Prod.mk.inj h
  have hreach : (sampleApp.talkerRuns .saturate).Reachable s := System.reachable_of_runFrom rfl hs
  refine ⟨s, hreach, hpending, hsent, fun hrate => ?_⟩
  have := hrate.pending
  omega

end StreamingApp

end TsnReconfig.Network
