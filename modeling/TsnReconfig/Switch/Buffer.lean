import TsnReconfig.Lib.System
import TsnReconfig.Switch.SwitchAgent

/-!
# The packet buffer

`Buffer`, which keeps the frames of table misses until the controller decides about them. The ids
are what `storeMessage` returns for them.
-/

namespace TsnReconfig.Switch

open OpenFlow Lib

/-- `Buffer`, for messages of any kind. -/
structure Buffer (F : Type*) where
  pendingMsgs : List (UInt32 × F) := []
  capacity : ℕ
  nextBufferId : UInt32 := 1
  deriving DecidableEq, Repr

namespace Buffer
variable {F : Type*} (b : Buffer F)

def isfull : Bool := b.capacity ≤ b.pendingMsgs.length

/-- `storeMessage`, with the id it returns. The insertion into the map does not overwrite. -/
def storeMessage (msg : F) : UInt32 × Buffer F :=
  let pendingMsgs :=
    if (b.pendingMsgs.lookup b.nextBufferId).isSome then b.pendingMsgs
    else b.pendingMsgs ++ [(b.nextBufferId, msg)]
  if b.nextBufferId ≠ ofpNoBuffer then
    (b.nextBufferId, { b with pendingMsgs, nextBufferId := b.nextBufferId + 1 })
  else (0, { b with pendingMsgs, nextBufferId := 0 })

theorem capacity_storeMessage (msg : F) : (b.storeMessage msg).2.capacity = b.capacity := by
  unfold storeMessage
  split_ifs
  all_goals rfl

/-- `returnMessage`: no message stands for a null pointer. -/
def returnMessage (bufferId : UInt32) : Option F × Buffer F :=
  (b.pendingMsgs.lookup bufferId,
    { b with pendingMsgs := b.pendingMsgs.filter (·.1 ≠ bufferId) })

end Buffer

/-- A call of the buffer. -/
inductive BufferCall (F : Type*)
  | storeMessage (msg : F)
  | returnMessage (bufferId : UInt32)
  deriving DecidableEq, Repr

/-- A buffer, and the messages that were stored with the ids returned for them, as long as these
were not given back. -/
structure BufferRun (F : Type*) where
  buffer : Buffer F
  stored : List (UInt32 × F) := []
  deriving DecidableEq, Repr

namespace BufferRun
variable {F : Type*} {s s' : BufferRun F} {msg : F} {bufferId : UInt32}

/-- A full buffer stores nothing. -/
def step (s : BufferRun F) : BufferCall F → Option (BufferRun F)
  | .storeMessage msg =>
    if s.buffer.isfull then none
    else
      let (id, buffer) := s.buffer.storeMessage msg
      some ⟨buffer, s.stored ++ [(id, msg)]⟩
  | .returnMessage bufferId =>
    some ⟨(s.buffer.returnMessage bufferId).2, s.stored.filter (·.1 ≠ bufferId)⟩

/-- The ids identify the messages, and each message is what its id returns, until it does. -/
structure Exact (s : BufferRun F) : Prop where
  distinct : (s.stored.map (·.1)).Nodup
  noBuffer : ∀ x ∈ s.stored, x.1 ≠ ofpNoBuffer
  returned : ∀ bufferId, (s.buffer.returnMessage bufferId).1 = s.stored.lookup bufferId

/-- The counter has not come to the id that stands for no buffer. -/
def CounterLeft (s : BufferRun F) : BufferCall F → Prop
  | .storeMessage _ => s.buffer.nextBufferId ≠ ofpNoBuffer
  | .returnMessage _ => True

/-- The calls of a new buffer. -/
def calls (F : Type*) : System (BufferRun F) (BufferCall F) where
  init s := ∃ capacity, s = { buffer := { capacity } }
  step := step

/-- The map has the messages under their ids, which the counter has passed. -/
structure Passed (s : BufferRun F) : Prop where
  pending : s.buffer.pendingMsgs = s.stored
  distinct : (s.stored.map (·.1)).Nodup
  ids : ∀ x ∈ s.stored, 0 < x.1.toNat ∧ x.1.toNat < s.buffer.nextBufferId.toNat
  counter : 0 < s.buffer.nextBufferId.toNat

theorem toNat_ofpNoBuffer : ofpNoBuffer.toNat = 4294967295 := rfl

theorem Passed.exact (h : s.Passed) : s.Exact where
  distinct := h.distinct
  noBuffer x hx heq := by
    have hid := (h.ids x hx).2
    have hlt := s.buffer.nextBufferId.toNat_lt
    rw [heq, toNat_ofpNoBuffer] at hid
    omega
  returned bufferId := by rw [Buffer.returnMessage, h.pending]

/-- The counter is not the id of a stored message. -/
theorem Passed.lookup_next (h : s.Passed) :
    s.stored.lookup s.buffer.nextBufferId = none := by
  rw [List.lookup_eq_none_iff]
  intro x hx
  have hid := (h.ids x hx).2
  rw [bne_iff_ne]
  intro heq
  rw [heq] at hid
  exact lt_irrefl _ hid

/-- The counter does not wrap before it comes to the id that stands for no buffer. -/
theorem toNat_add_one {id : UInt32} (h : id ≠ ofpNoBuffer) : (id + 1).toNat = id.toNat + 1 := by
  have hne : id.toNat ≠ 4294967295 := fun heq => h (UInt32.toNat_inj.mp heq)
  have hlt := id.toNat_lt
  rw [UInt32.toNat_add, UInt32.toNat_one]
  omega

theorem step_storeMessage (hs : s.step (.storeMessage msg) = some s') :
    s' = ⟨(s.buffer.storeMessage msg).2, s.stored ++ [((s.buffer.storeMessage msg).1, msg)]⟩ := by
  simp only [BufferRun.step] at hs
  by_cases hfull : s.buffer.isfull = true
  · rw [if_pos hfull] at hs
    cases hs
  · rw [if_neg hfull] at hs
    exact (Option.some.inj hs).symm

/-- The message comes into the map, and the counter goes on. -/
theorem Passed.storeMessage (h : s.Passed) (hok : s.buffer.nextBufferId ≠ ofpNoBuffer) :
    s.buffer.storeMessage msg = (s.buffer.nextBufferId, { s.buffer with
      pendingMsgs := s.stored ++ [(s.buffer.nextBufferId, msg)]
      nextBufferId := s.buffer.nextBufferId + 1 }) := by
  simp only [Buffer.storeMessage, h.pending, h.lookup_next, Option.isSome_none,
    Bool.false_eq_true, if_false, ne_eq, hok, not_false_eq_true, if_true]

/-- The message comes into the map under the id for no buffer, and the id returned for it is 0. -/
theorem Passed.storeMessage_noBuffer (h : s.Passed) (hid : s.buffer.nextBufferId = ofpNoBuffer) :
    s.buffer.storeMessage msg = (0, { s.buffer with
      pendingMsgs := s.stored ++ [(ofpNoBuffer, msg)]
      nextBufferId := 0 }) := by
  have hnone := h.lookup_next
  rw [hid] at hnone
  simp only [Buffer.storeMessage, h.pending, hid, hnone, Option.isSome_none, Bool.false_eq_true,
    if_false, ne_eq, not_true]

theorem Passed.step {e : BufferCall F} (h : s.Passed) (hok : s.CounterLeft e)
    (hs : s.step e = some s') : s'.Passed := by
  cases e with
  | storeMessage msg =>
    have hok : s.buffer.nextBufferId ≠ ofpNoBuffer := hok
    have heq := step_storeMessage hs
    rw [h.storeMessage hok] at heq
    subst heq
    have hnext := toNat_add_one hok
    refine ⟨rfl, ?_, ?_, by simp only [hnext]; omega⟩
    · rw [List.map_append, List.nodup_append]
      refine ⟨h.distinct, List.nodup_singleton _, ?_⟩
      intro id hid id' hid' heq
      obtain ⟨x, hx, hxid⟩ := List.mem_map.mp hid
      rw [List.map_singleton, List.mem_singleton] at hid'
      have hlt := (h.ids x hx).2
      rw [hxid, heq, hid'] at hlt
      exact lt_irrefl _ hlt
    · intro x hx
      simp only [hnext]
      rcases List.mem_append.mp hx with hx | hx
      · have hid := h.ids x hx
        omega
      · rw [List.mem_singleton] at hx
        subst hx
        exact ⟨h.counter, Nat.lt_succ_self _⟩
  | returnMessage bufferId =>
    cases hs
    refine ⟨by simp only [Buffer.returnMessage, h.pending], ?_, ?_, h.counter⟩
    · exact h.distinct.sublist (List.filter_sublist.map _)
    · intro x hx
      exact h.ids x (List.mem_of_mem_filter hx)

/-- A message that is stored when the counter is at the id for no buffer is not returned for the
id it gets. -/
theorem Passed.lost (h : s.Passed) (hid : s.buffer.nextBufferId = ofpNoBuffer)
    (hs : s.step (.storeMessage msg) = some s') :
    (s'.buffer.returnMessage 0).1 = none ∧ s'.stored.lookup 0 ≠ none := by
  have heq := step_storeMessage hs
  rw [h.storeMessage_noBuffer hid] at heq
  subst heq
  have hzero : ∀ x ∈ s.stored, x.1 ≠ 0 := by
    intro x hx heq
    have hpos := (h.ids x hx).1
    rw [heq] at hpos
    exact lt_irrefl _ hpos
  constructor
  · change (s.stored ++ [(ofpNoBuffer, msg)]).lookup 0 = none
    rw [List.lookup_eq_none_iff]
    intro x hx
    rw [bne_iff_ne]
    rcases List.mem_append.mp hx with hx | hx
    · exact (hzero x hx).symm
    · rw [List.mem_singleton] at hx
      rw [hx]
      exact of_decide_eq_true rfl
  · rw [ne_eq, List.lookup_eq_none_iff]
    intro hall
    have hlast := hall (0, msg) (by simp)
    rw [bne_self_eq_false] at hlast
    cases hlast

theorem Passed.exact_step_iff {e : BufferCall F} (h : s.Passed) (hs : s.step e = some s') :
    s'.Exact ↔ s.CounterLeft e := by
  constructor
  · intro hexact
    cases e with
    | storeMessage msg =>
      intro hid
      obtain ⟨hnone, hsome⟩ := h.lost hid hs
      exact hsome ((hexact.returned 0).symm.trans hnone)
    | returnMessage bufferId => trivial
  · exact fun hok => (h.step hok hs).exact

theorem passed_of_reachable (h : (calls F).ReachableUnder CounterLeft s) : s.Passed := by
  refine h.invariant ?_ fun s e s' _ hP hok hs => hP.step hok hs
  rintro s ⟨capacity, rfl⟩
  exact ⟨rfl, List.nodup_nil, by simp, Nat.one_pos⟩

end BufferRun

/-! ## The buffer of an agent -/

/-- `OFP_Packet_In` for a table miss: the frame itself, or the id of the buffered one. The header
fields that come with an id are left out. -/
structure PacketIn where
  bufferId : UInt32
  frame : Option Frame
  deriving DecidableEq, Repr

/-- An agent with the members that `SwitchAgent` leaves out, and the frames that missed and were
buffered, with the ids the controller got for them, as long as it did not send these back. -/
structure BufferedAgent where
  agent : SwitchAgent
  sendCompletePacket : Bool
  nextBufferId : UInt32 := 1
  missed : List (UInt32 × Frame) := []
  deriving DecidableEq, Repr

/-- What happens to an agent: a table miss, a message of the controller, or a change of the
parameter. -/
inductive BufferedAgentEvent
  | tableMiss (connected : Bool) (frame : Frame)
  | control (d : Delivered)
  | sendCompletePacket (value : Bool)
  deriving DecidableEq, Repr

namespace BufferedAgent

def buffer (s : BufferedAgent) : Buffer Frame :=
  ⟨s.agent.pendingMsgs, s.agent.bufferCapacity, s.nextBufferId⟩

/-- The buffer with the frames that missed. -/
def bufferRun (s : BufferedAgent) : BufferRun Frame :=
  ⟨s.buffer, s.missed⟩

def withBuffer (s : BufferedAgent) (b : Buffer Frame) : BufferedAgent :=
  { s with agent.pendingMsgs := b.pendingMsgs, nextBufferId := b.nextBufferId }

/-- `handleMissMatchedPacket`. -/
def handleMissMatchedPacket (s : BufferedAgent) (frame : Frame) : BufferedAgent × PacketIn :=
  if s.sendCompletePacket ∨ s.buffer.isfull then (s, ⟨ofpNoBuffer, some frame⟩)
  else
    let (bufferId, buffer) := s.buffer.storeMessage frame
    ({ s.withBuffer buffer with missed := s.missed ++ [(bufferId, frame)] }, ⟨bufferId, none⟩)

/-- `receiveSignal` for the signal of a table miss. -/
def receiveSignal (s : BufferedAgent) (connected : Bool) (frame : Frame) : BufferedAgent :=
  if connected ∧ s.agent.hasController then (s.handleMissMatchedPacket frame).1 else s

/-- The frames that are still missed after a message. -/
def missedAfter (s : BufferedAgent) : OpenFlowMessage → List (UInt32 × Frame)
  | .packetOut p =>
    if p.bufferId ≠ ofpNoBuffer then s.missed.filter (·.1 ≠ p.bufferId) else s.missed
  | _ => s.missed

def step (s : BufferedAgent) : BufferedAgentEvent → Option BufferedAgent
  | .tableMiss connected frame => some (s.receiveSignal connected frame)
  | .control d => do
    let (agent, _) ← s.agent.processControlPlanePacket d
    return { s with agent, missed := s.missedAfter d.message }
  | .sendCompletePacket value => some { s with sendCompletePacket := value }

/-- The runs of an agent with an empty buffer. -/
def runs : System BufferedAgent BufferedAgentEvent where
  init s := s.agent.pendingMsgs = [] ∧ s.nextBufferId = 1 ∧ s.missed = []
  step := step

/-- The ids identify the frames that missed, and a packet-out for a buffer takes its actions on
the frame that missed. -/
structure Forwards (s : BufferedAgent) : Prop where
  distinct : (s.missed.map (·.1)).Nodup
  noBuffer : ∀ x ∈ s.missed, x.1 ≠ ofpNoBuffer
  forwarded : ∀ p : PacketOut, p.bufferId ≠ ofpNoBuffer →
    (s.agent.handlePacketOutMessage p).map (·.2) = (p.actions.mapM fun outport => do
      s.agent.executePacketOutAction outport (← s.missed.lookup p.bufferId) p.inPort).map
        List.flatten

/-- No frame is buffered when the counter has come to the id that stands for no buffer. -/
def CounterLeft (s : BufferedAgent) : BufferedAgentEvent → Prop
  | .tableMiss connected _ =>
    connected → s.agent.hasController → s.sendCompletePacket ∨ s.buffer.isfull ∨
      s.nextBufferId ≠ ofpNoBuffer
  | _ => True

section
variable {s s' : BufferedAgent}

theorem bufferRun_withBuffer {b : Buffer Frame} {missed : List (UInt32 × Frame)}
    (h : b.capacity = s.agent.bufferCapacity) :
    ({ s.withBuffer b with missed }).bufferRun = ⟨b, missed⟩ := by
  unfold bufferRun buffer withBuffer
  rw [← h]

/-- The frame goes to the buffer, or the agent stays as it is. -/
theorem handleMissMatchedPacket_cases (s : BufferedAgent) (frame : Frame) :
    (s.sendCompletePacket ∨ s.buffer.isfull) ∧ (s.handleMissMatchedPacket frame).1 = s ∨
      ¬(s.sendCompletePacket ∨ s.buffer.isfull) ∧
        s.bufferRun.step (.storeMessage frame) =
          some (s.handleMissMatchedPacket frame).1.bufferRun := by
  unfold handleMissMatchedPacket
  by_cases h : s.sendCompletePacket ∨ s.buffer.isfull
  · rw [if_pos h]
    exact .inl ⟨h, rfl⟩
  · rw [if_neg h]
    refine .inr ⟨h, ?_⟩
    have hfull : ¬s.bufferRun.buffer.isfull = true := fun hfull => h (.inr hfull)
    simp only [BufferRun.step]
    rw [if_neg hfull]
    exact congrArg some (bufferRun_withBuffer (s.buffer.capacity_storeMessage frame)).symm

/-- Only a packet-out for a buffer changes the map. -/
theorem pendingMsgs_processControlPlanePacket {a a' : SwitchAgent} {d : Delivered}
    {out : List AgentOutput} (h : a.processControlPlanePacket d = some (a', out)) :
    a'.bufferCapacity = a.bufferCapacity ∧ a'.pendingMsgs =
      match d.message with
      | .packetOut p =>
        if p.bufferId ≠ ofpNoBuffer then a.pendingMsgs.filter (·.1 ≠ p.bufferId)
        else a.pendingMsgs
      | _ => a.pendingMsgs := by
  unfold SwitchAgent.processControlPlanePacket at h
  cases hm : d.message with
  | packetOut p =>
    simp only [hm, SwitchAgent.handlePacketOutMessage, Option.bind_eq_bind,
      Option.bind_eq_some_iff] at h
    obtain ⟨_, _, h⟩ := h
    cases h
    refine ⟨rfl, ?_⟩
    by_cases hid : p.bufferId ≠ ofpNoBuffer
    · simp only [if_pos hid]
    · simp only [if_neg hid]
  | flowMod m =>
    simp only [hm, SwitchAgent.handleFlowModMessage, Option.bind_eq_bind, Option.map_eq_some_iff,
      Option.bind_eq_some_iff] at h
    obtain ⟨_, ⟨_, _, h⟩, heq⟩ := h
    cases h
    cases heq
    exact ⟨rfl, rfl⟩
  | hello | featuresRequest | vendor _ | other =>
    simp only [hm] at h
    cases h
    exact ⟨rfl, rfl⟩

/-- An event of an agent is a call of its buffer or leaves the buffer as it is. -/
theorem bufferRun_step {e : BufferedAgentEvent} (hs : s.step e = some s') :
    s'.bufferRun = s.bufferRun ∧ s.CounterLeft e ∨
      ∃ call, s.bufferRun.step call = some s'.bufferRun ∧
        (s.CounterLeft e ↔ s.bufferRun.CounterLeft call) := by
  cases e with
  | tableMiss connected frame =>
    have hs' : s.receiveSignal connected frame = s' := Option.some.inj hs
    unfold receiveSignal at hs'
    by_cases hc : connected ∧ s.agent.hasController
    · rw [if_pos hc] at hs'
      subst hs'
      rcases s.handleMissMatchedPacket_cases frame with ⟨hfull, hmiss⟩ | ⟨hfull, hmiss⟩
      · rw [hmiss]
        exact .inl ⟨rfl, fun _ _ => or_assoc.mp (.inl hfull)⟩
      · refine .inr ⟨_, hmiss, fun h => ?_, fun h _ _ => .inr (.inr h)⟩
        exact (or_assoc.mpr (h hc.1 hc.2)).resolve_left hfull
    · rw [if_neg hc] at hs'
      subst hs'
      exact .inl ⟨rfl, fun hconnected hcontroller => absurd ⟨hconnected, hcontroller⟩ hc⟩
  | control d =>
    obtain ⟨⟨agent, out⟩, hagent, hs⟩ := Option.bind_eq_some_iff.mp hs
    cases hs
    obtain ⟨hcapacity, hpending⟩ := pendingMsgs_processControlPlanePacket hagent
    unfold bufferRun buffer missedAfter
    rw [hcapacity, hpending]
    cases d.message with
    | packetOut p =>
      by_cases hid : p.bufferId ≠ ofpNoBuffer
      · refine .inr ⟨.returnMessage p.bufferId, ?_, Iff.rfl⟩
        simp only [if_pos hid]
        rfl
      · refine .inl ⟨?_, trivial⟩
        simp only [if_neg hid]
    | _ => exact .inl ⟨rfl, trivial⟩
  | sendCompletePacket value =>
    cases hs
    exact .inl ⟨rfl, trivial⟩

theorem bufferRun_reachable (h : runs.ReachableUnder CounterLeft s) :
    (BufferRun.calls Frame).ReachableUnder BufferRun.CounterLeft s.bufferRun := by
  induction h with
  | @init s h =>
    refine .init ⟨s.agent.bufferCapacity, ?_⟩
    unfold bufferRun buffer
    rw [h.1, h.2.1, h.2.2]
  | step _ hok hs ih =>
    rcases bufferRun_step hs with ⟨heq, -⟩ | ⟨call, hcall, hiff⟩
    · rw [heq]
      exact ih
    · exact .step ih (hiff.mp hok) hcall

/-- The actions of a packet-out for a buffer are taken on what the buffer returns. -/
theorem handlePacketOutMessage_of_bufferId {p : PacketOut} (hid : p.bufferId ≠ ofpNoBuffer) :
    (s.agent.handlePacketOutMessage p).map (·.2) = (p.actions.mapM fun outport => do
      s.agent.executePacketOutAction outport (← (s.buffer.returnMessage p.bufferId).1)
        p.inPort).map List.flatten := by
  simp only [SwitchAgent.handlePacketOutMessage, if_pos hid, Option.bind_eq_bind,
    Option.map_bind]
  rw [Option.map_eq_bind]
  rfl

theorem forwards_of_exact (h : s.bufferRun.Exact) : s.Forwards where
  distinct := h.distinct
  noBuffer := h.noBuffer
  forwarded p hid := by
    have hreturned : (s.buffer.returnMessage p.bufferId).1 = s.missed.lookup p.bufferId :=
      h.returned p.bufferId
    rw [handlePacketOutMessage_of_bufferId hid, hreturned]

/-- A packet-out for an id without a frame fails at its first action, also if that drops it. -/
theorem not_forwards {id : UInt32} (hid : id ≠ ofpNoBuffer)
    (hnone : (s.buffer.returnMessage id).1 = none) (hsome : s.missed.lookup id ≠ none) :
    ¬s.Forwards := by
  intro h
  obtain ⟨frame, hframe⟩ := Option.ne_none_iff_exists'.mp hsome
  have heq := h.forwarded ⟨id, 0, [ofppAny], none⟩ hid
  rw [handlePacketOutMessage_of_bufferId hid, hnone, hframe] at heq
  simp [SwitchAgent.executePacketOutAction] at heq

theorem forwards_step_iff (h : runs.ReachableUnder CounterLeft s) {e : BufferedAgentEvent}
    (hs : s.step e = some s') : s'.Forwards ↔ s.CounterLeft e := by
  have hpassed := BufferRun.passed_of_reachable (bufferRun_reachable h)
  rcases bufferRun_step hs with ⟨heq, hleft⟩ | ⟨call, hcall, hiff⟩
  · rw [← heq] at hpassed
    exact iff_of_true (forwards_of_exact hpassed.exact) hleft
  · rw [hiff]
    constructor
    · intro hforwards
      cases call with
      | storeMessage frame =>
        intro hid
        obtain ⟨hnone, hsome⟩ := hpassed.lost hid hcall
        exact not_forwards (of_decide_eq_true rfl) hnone hsome hforwards
      | returnMessage bufferId => trivial
    · exact fun hleft => forwards_of_exact (hpassed.step hleft hcall).exact

end

end BufferedAgent

/-! ## Exactness -/

/-- As long as the counter has not come to the id that stands for no buffer, the buffer gives each
message back for its id, and an agent forwards exactly the frames that missed; the first message
that is stored later is lost. -/
theorem Buffer.exact_until_noBuffer {F : Type*} :
    (∀ s : BufferRun F, (BufferRun.calls F).ReachableUnder BufferRun.CounterLeft s →
      s.Exact ∧ ∀ e s', s.step e = some s' → (s'.Exact ↔ s.CounterLeft e)) ∧
    ∀ s : BufferedAgent, BufferedAgent.runs.ReachableUnder BufferedAgent.CounterLeft s →
      s.Forwards ∧ ∀ e s', s.step e = some s' → (s'.Forwards ↔ s.CounterLeft e) := by
  constructor
  · intro s h
    have hpassed := BufferRun.passed_of_reachable h
    exact ⟨hpassed.exact, fun _ _ hs => hpassed.exact_step_iff hs⟩
  · intro s h
    have hpassed := BufferRun.passed_of_reachable (BufferedAgent.bufferRun_reachable h)
    exact ⟨BufferedAgent.forwards_of_exact hpassed.exact,
      fun _ _ hs => BufferedAgent.forwards_step_iff h hs⟩

/-- An empty buffer for one message, with its counter. -/
def emptyBuffer (nextBufferId : UInt32) : BufferRun ℕ :=
  { buffer := { capacity := 1, nextBufferId } }

/-- A message is stored, and the run ends before it is returned. -/
theorem Buffer.exact_until_noBuffer_first : ∃ s : BufferRun ℕ,
    (emptyBuffer 1).step (.storeMessage 7) = some s ∧ s.Exact ∧
      (s.buffer.returnMessage 1).1 = some 7 := by
  have hinit : (BufferRun.calls ℕ).ReachableUnder BufferRun.CounterLeft (emptyBuffer 1) :=
    .init ⟨1, rfl⟩
  obtain ⟨s, hs, hreturned⟩ : ∃ s : BufferRun ℕ,
      (emptyBuffer 1).step (.storeMessage 7) = some s ∧
        (s.buffer.returnMessage 1).1 = some 7 := ⟨_, rfl, rfl⟩
  have hid : (1 : UInt32) ≠ ofpNoBuffer := of_decide_eq_true rfl
  have hleft : (emptyBuffer 1).CounterLeft (.storeMessage 7) := hid
  exact ⟨s, hs, (Buffer.exact_until_noBuffer.1 s (hinit.step hleft hs)).1, hreturned⟩

theorem emptyBuffer_step (id : UInt32) :
    (BufferRun.calls ℕ).step (emptyBuffer id) (.storeMessage 0) =
      some ⟨((emptyBuffer id).buffer.storeMessage 0).2,
        [(((emptyBuffer id).buffer.storeMessage 0).1, 0)]⟩ := rfl

/-- The message that is stored and returned moves the counter to the next id. -/
theorem emptyBuffer_next {id : UInt32} (hid : id ≠ ofpNoBuffer)
    (h : (BufferRun.calls ℕ).ReachableUnder BufferRun.CounterLeft (emptyBuffer id)) :
    (BufferRun.calls ℕ).ReachableUnder BufferRun.CounterLeft (emptyBuffer (id + 1)) := by
  have hstore := emptyBuffer_step id
  rw [(BufferRun.passed_of_reachable h).storeMessage hid] at hstore
  have hleft : (emptyBuffer id).CounterLeft (.storeMessage 0) := hid
  refine (h.step hleft hstore).step (e := .returnMessage id) trivial ?_
  simp [BufferRun.calls, BufferRun.step, Buffer.returnMessage, emptyBuffer]

/-- A buffer that has stored and returned `n` messages. -/
theorem emptyBuffer_reachable (n : ℕ) (hn : n < 4294967295) :
    (BufferRun.calls ℕ).ReachableUnder BufferRun.CounterLeft
      (emptyBuffer (UInt32.ofNat (n + 1))) := by
  induction n with
  | zero => exact .init ⟨1, rfl⟩
  | succ n ih =>
    have hid : UInt32.ofNat (n + 1) ≠ ofpNoBuffer := by
      intro heq
      have htoNat : (UInt32.ofNat (n + 1)).toNat = n + 1 := by
        rw [UInt32.toNat_ofNat']
        omega
      rw [heq, BufferRun.toNat_ofpNoBuffer] at htoNat
      omega
    rw [UInt32.ofNat_add]
    exact emptyBuffer_next hid (ih (by omega))

/-- The message that is stored after 4294967294 others is lost. -/
theorem Buffer.not_exact : ∃ s : BufferRun ℕ, (BufferRun.calls ℕ).Reachable s ∧ ¬s.Exact := by
  have h := emptyBuffer_reachable 4294967294 (of_decide_eq_true rfl)
  have hpassed := BufferRun.passed_of_reachable h
  have hstore := emptyBuffer_step (UInt32.ofNat (4294967294 + 1))
  exact ⟨_, .step h.reachable trivial hstore,
    fun hexact => (hpassed.exact_step_iff (e := .storeMessage 0) hstore).mp hexact rfl⟩

end TsnReconfig.Switch
