import Mathlib.Data.List.Sort
import TsnReconfig.AS6802.RCBuffer
import TsnReconfig.Gates.Timer

/-!
# Time-triggered traffic

`TTBuffer` hands over a frame at the start of its send window, and `TTShaper` over
`PCFShaper<RCShaper<BEShaper<BaseShaper>>>` holds other frames back that would not be sent before
the next window starts. Times are counted in the resolution of the simulation, and a bit of the
channel takes a whole number of them. The integers have no upper limit.
-/

namespace TsnReconfig.AS6802

open Gates Shaper

/-! ## The shapers below -/

namespace Outgoing

def frame : Outgoing → EtherFrame
  | tt _ frame => frame
  | pcf frame => frame
  | rc message => message.frame
  | be frame => frame

def isTT : Outgoing → Bool
  | tt _ _ => true
  | _ => false

end Outgoing

namespace RCShaper
variable (t : RCShaper)

/-- The first frame of the first queue that has one. -/
def frontQueues : List (List RCMessage) → Option RCMessage
  | [] => none
  | [] :: queues => frontQueues queues
  | (message :: _) :: _ => some message

def front : Option Outgoing :=
  match frontQueues t.rcQueue with
  | some message => some (.rc message)
  | none => t.beQueue.head?.map .be

end RCShaper

/-- `PCFShaper<RCShaper<BEShaper<BaseShaper>>>`. -/
structure PCFShaper extends RCShaper where
  pcfQueue : List EtherFrame := []
  deriving DecidableEq

namespace PCFShaper
variable (t : PCFShaper)

/-- `enqueueMessage`, with the priority of a rate-constrained frame. -/
def enqueueMessage (priority : ℤ) : Outgoing → PCFShaper
  | .tt _ _ => t
  | .pcf frame => { t with pcfQueue := t.pcfQueue ++ [frame] }
  | .rc message => { t with toRCShaper := t.enqueueRC priority message }
  | .be frame => { t with beQueue := t.beQueue ++ [frame] }

/-- `handleMessage`, with the frame that it sends. -/
def handleMessage (priority : ℤ) (msg : Outgoing) : PCFShaper × Option Outgoing :=
  if 0 < t.framesRequested then
    ({ t with framesRequested := t.framesRequested - 1 }, some msg)
  else (t.enqueueMessage priority msg, none)

def pop : Option (Outgoing × PCFShaper) :=
  match t.pcfQueue with
  | frame :: pcfQueue => some (.pcf frame, { t with pcfQueue })
  | [] => t.toRCShaper.pop.map fun p => (p.1, { t with toRCShaper := p.2 })

def front : Option Outgoing :=
  match t.pcfQueue with
  | frame :: _ => some (.pcf frame)
  | [] => t.toRCShaper.front

end PCFShaper

/-! ## Buffers and windows -/

/-- The parameters of a `TTBuffer`. -/
structure TTBuffer where
  period : Period
  sendWindowStart : ℕ
  sendWindowEnd : ℕ
  maxMessageSize : ℕ
  start_lt : sendWindowStart < period.cycleTicks

/-- `getPeriod()->registerEvent` for the next cycle. -/
def TTBuffer.registerEvent (b : TTBuffer) (totalTicks : ℕ) : ℕ :=
  let timer : Timer Unit := { currentTick := 1, ticks := totalTicks }
  (timer.actionpoint b.period b.sendWindowStart true).toNat

/-- The parameters of a port, with the length of a tick and the duration of a bit. `ttBuffers` is
the list in the parameter `tt_buffers`. -/
structure TTConfig where
  tick : ℕ
  bitTime : ℕ
  safetyMargin : ℕ
  ttBuffers : List ℕ
  ttBuffer : ℕ → TTBuffer
  tick_pos : 0 < tick

def interframeGapBits : ℕ := 96

/-- The preamble and the start frame delimiter. -/
def preambleBytes : ℕ := 8

/-- The exceptions of `TTShaper`, and the assertions of it and of the MAC. -/
inductive TTError
  | notRegistered
  | unexpected
  | delayed
  | sameSendWindow
  | overlappingSendWindows
  | listedTwice
  | macBusy
  deriving DecidableEq

namespace TTConfig
variable (c : TTConfig)

/-- How long the MAC is busy with a frame. -/
def sendTime (byteLength : ℕ) : ℕ :=
  (byteLength * 8 + (interframeGapBits + preambleBytes * 8)) * c.bitTime

def sendTicks (byteLength : ℕ) : ℕ :=
  (c.sendTime byteLength + c.tick - 1) / c.tick + c.safetyMargin

/-- The check for overlapping send windows, for the buffer that is registered and one that was
before. -/
def overlapping (this other : TTBuffer) : Bool :=
  if this.sendWindowEnd = 0 ∨ other.sendWindowEnd = 0 then false
  else
    let otherStart := other.sendWindowStart + other.period.offsetTicks
    let otherEnd := other.sendWindowEnd + other.period.offsetTicks
    let thisStart := this.sendWindowStart + this.period.offsetTicks
    let thisEnd := this.sendWindowEnd + this.period.offsetTicks
    let otherEnd := if otherEnd < otherStart then otherEnd + other.period.cycleTicks else otherEnd
    let thisEnd := if thisEnd < thisStart then thisEnd + this.period.cycleTicks else thisEnd
    (otherStart < thisStart ∧ thisStart < otherEnd) ∨
      (thisStart < otherStart ∧ otherStart < thisEnd)

end TTConfig

/-! ## The shaper -/

/-- `TTShaper<PCFShaper<RCShaper<BEShaper<BaseShaper>>>>`. The map `ttBuffers` is a list in the
order of the send windows. -/
structure TTShaper extends PCFShaper where
  ttQueue : List (ℕ × EtherFrame) := []
  ttBuffers : List (ℕ × ℕ) := []
  deriving DecidableEq

namespace TTShaper
variable (c : TTConfig) (t : TTShaper)

def isTTBufferRegistered (b : ℕ) : Bool :=
  t.ttBuffers.any (·.2 = b)

/-- `registerTTBuffer`, for a buffer with its next send window. -/
def registerTTBuffer (b sendWindowStart : ℕ) : Except TTError TTShaper :=
  if t.ttBuffers.any (·.1 = sendWindowStart) then .error .sameSendWindow
  else if t.ttBuffers.any fun x => TTConfig.overlapping (c.ttBuffer b) (c.ttBuffer x.2) then
    .error .overlappingSendWindows
  else
    .ok { t with
      ttBuffers := t.ttBuffers.orderedInsert (fun x y => x.1 ≤ y.1) (sendWindowStart, b) }

/-- The buffers of the parameter `tt_buffers` are registered with their next send windows. -/
def registerAll (nextAction : ℕ → ℕ) : List ℕ → TTShaper → Except TTError TTShaper
  | [], t => .ok t
  | b :: bs, t =>
    if t.isTTBufferRegistered b then .error .listedTwice
    else (t.registerTTBuffer c b (nextAction b)).bind (registerAll nextAction bs)

def isTransmissionAllowed (totalTicks : ℕ) (message : Option Outgoing) : Bool :=
  match message with
  | none => false
  | some message =>
    match t.ttBuffers with
    | [] => true
    | (startTicks, _) :: _ => totalTicks + c.sendTicks message.frame.byteLength < startTicks

def front : Option Outgoing :=
  match t.ttQueue with
  | (sender, frame) :: _ => some (.tt sender frame)
  | [] => t.toPCFShaper.front

def pop (totalTicks : ℕ) : Option (Outgoing × TTShaper) :=
  match t.ttQueue with
  | (sender, frame) :: ttQueue => some (.tt sender frame, { t with ttQueue })
  | [] =>
    if t.isTransmissionAllowed c totalTicks t.front then
      t.toPCFShaper.pop.map fun p => (p.1, { t with toPCFShaper := p.2 })
    else none

/-- The frame of `pop` is sent if there is one, for a request that was counted before. -/
def sendPopped (totalTicks : ℕ) : TTShaper × Option Outgoing :=
  match t.pop c totalTicks with
  | some (msg, t) => ({ t with framesRequested := t.framesRequested - 1 }, some msg)
  | none => (t, none)

def requestPacket (totalTicks : ℕ) : TTShaper × Option Outgoing :=
  { t with framesRequested := t.framesRequested + 1 }.sendPopped c totalTicks

/-- `handleMessage` for a frame of a `TTBuffer` or for its `TTBufferEmpty`, with the frame that it
sends. The buffer has its next send window already. -/
def handleTT (totalTicks b nextSendWindowStart : ℕ) (msg : Option EtherFrame) :
    Except TTError (TTShaper × Option Outgoing) :=
  match t.ttBuffers with
  | [] => .error .notRegistered
  | thisTTBuffer :: ttBuffers =>
    if thisTTBuffer.2 ≠ b then
      .error (if t.isTTBufferRegistered b then .unexpected else .notRegistered)
    else do
      let t ← { t with ttBuffers }.registerTTBuffer c b nextSendWindowStart
      match msg with
      | none => return if 0 < t.framesRequested then t.sendPopped c totalTicks else (t, none)
      | some frame =>
        if 0 < t.framesRequested then
          return ({ t with framesRequested := t.framesRequested - 1 }, some (.tt b frame))
        else if t.isTTBufferRegistered b then .error .delayed
        else return ({ t with ttQueue := t.ttQueue ++ [(b, frame)] }, none)

/-- `handleMessage` for another frame. -/
def handleMessage (totalTicks : ℕ) (priority : ℤ) (msg : Outgoing) : TTShaper × Option Outgoing :=
  if 0 < t.framesRequested ∧ t.isTransmissionAllowed c totalTicks (some msg) then
    let p := t.toPCFShaper.handleMessage priority msg
    ({ t with toPCFShaper := p.1 }, p.2)
  else ({ t with toPCFShaper := t.toPCFShaper.enqueueMessage priority msg }, none)

end TTShaper

/-! ## What leaves the shapers -/

namespace RCShaper
variable {t t' : RCShaper} {msg : Outgoing}

def queued (t : RCShaper) : List Outgoing :=
  t.rcQueue.flatten.map .rc ++ t.beQueue.map .be

theorem frontQueues_eq (queues : List (List RCMessage)) :
    frontQueues queues = (popQueues queues).map (·.1) := by
  induction queues with
  | nil => rfl
  | cons queue queues ih =>
    cases queue with
    | nil =>
      rw [frontQueues, popQueues, ih, Option.map_map]
      rfl
    | cons message queue => rfl

theorem front_eq (t : RCShaper) : t.front = t.pop.map (·.1) := by
  unfold front pop
  rw [frontQueues_eq]
  cases popQueues t.rcQueue with
  | some p => rfl
  | none => cases t.beQueue <;> rfl

theorem mem_of_popQueues {queues queues' : List (List RCMessage)} {message : RCMessage}
    (h : popQueues queues = some (message, queues')) :
    message ∈ queues.flatten ∧ ∀ m ∈ queues'.flatten, m ∈ queues.flatten := by
  induction queues generalizing queues' with
  | nil => cases h
  | cons queue queues ih =>
    cases queue with
    | nil =>
      obtain ⟨⟨m, rest⟩, hrest, heq⟩ := Option.map_eq_some_iff.mp h
      cases heq
      obtain ⟨hmem, hmore⟩ := ih hrest
      exact ⟨hmem, hmore⟩
    | cons m queue =>
      cases h
      exact ⟨List.mem_cons_self, fun m hm => List.mem_cons_of_mem _ hm⟩

theorem pop_spec (h : t.pop = some (msg, t')) : t'.framesRequested = t.framesRequested ∧
    msg ∈ t.queued ∧ ∀ m ∈ t'.queued, m ∈ t.queued := by
  unfold pop at h
  cases hpop : popQueues t.rcQueue with
  | some p =>
    rw [hpop] at h
    cases h
    obtain ⟨hmem, hrest⟩ := mem_of_popQueues hpop
    refine ⟨rfl, List.mem_append_left _ (List.mem_map_of_mem hmem), fun m hm => ?_⟩
    rcases List.mem_append.mp hm with hm | hm
    · obtain ⟨message, hmessage, rfl⟩ := List.mem_map.mp hm
      exact List.mem_append_left _ (List.mem_map_of_mem (hrest message hmessage))
    · exact List.mem_append_right _ hm
  | none =>
    rw [hpop] at h
    cases hbe : t.beQueue with
    | nil =>
      rw [hbe] at h
      cases h
    | cons frame beQueue =>
      rw [hbe] at h
      cases h
      unfold queued
      rw [hbe]
      refine ⟨rfl, by simp, fun m hm => ?_⟩
      rw [List.map_cons]
      rcases List.mem_append.mp hm with hm | hm
      · exact List.mem_append_left _ hm
      · exact List.mem_append_right _ (List.mem_cons_of_mem _ hm)

theorem mem_queued_enqueueRC {priority : ℤ} {message : RCMessage}
    (h : msg ∈ (t.enqueueRC priority message).queued) : msg = .rc message ∨ msg ∈ t.queued := by
  have hmodify : ∀ (queues : List (List RCMessage)) (i : ℕ) (m : RCMessage),
      m ∈ (queues.modify i (· ++ [message])).flatten → m = message ∨ m ∈ queues.flatten := by
    intro queues
    induction queues with
    | nil =>
      intro i m hm
      cases i <;> simp at hm
    | cons queue queues ih =>
      intro i m hm
      cases i with
      | zero =>
        rw [List.modify_zero_cons, List.flatten_cons] at hm
        simp only [List.mem_append, List.mem_singleton, List.flatten_cons] at hm ⊢
        tauto
      | succ i =>
        rw [List.modify_succ_cons, List.flatten_cons] at hm
        rw [List.flatten_cons, List.mem_append]
        rcases List.mem_append.mp hm with hm | hm
        · exact .inr (.inl hm)
        · exact (ih i m hm).imp_right .inr
  unfold enqueueRC at h
  rcases List.mem_append.mp h with h | h
  · obtain ⟨m, hm, rfl⟩ := List.mem_map.mp h
    rcases hmodify _ _ _ hm with rfl | hm
    · exact .inl rfl
    · exact .inr (List.mem_append_left _ (List.mem_map_of_mem hm))
  · exact .inr (List.mem_append_right _ h)

end RCShaper

namespace PCFShaper
variable {t t' : PCFShaper} {msg : Outgoing}

def queued (t : PCFShaper) : List Outgoing :=
  t.pcfQueue.map .pcf ++ t.toRCShaper.queued

theorem front_eq (t : PCFShaper) : t.front = t.pop.map (·.1) := by
  unfold front pop
  cases t.pcfQueue with
  | cons frame pcfQueue => rfl
  | nil =>
    dsimp only
    rw [RCShaper.front_eq, Option.map_map]
    rfl

theorem pop_spec (h : t.pop = some (msg, t')) : t'.framesRequested = t.framesRequested ∧
    msg ∈ t.queued ∧ ∀ m ∈ t'.queued, m ∈ t.queued := by
  unfold pop at h
  cases hpcf : t.pcfQueue with
  | cons frame pcfQueue =>
    rw [hpcf] at h
    cases h
    unfold queued
    rw [hpcf, List.map_cons, List.cons_append]
    exact ⟨rfl, List.mem_cons_self, fun m hm => List.mem_cons_of_mem _ hm⟩
  | nil =>
    rw [hpcf] at h
    obtain ⟨⟨m, r⟩, hpop, heq⟩ := Option.map_eq_some_iff.mp h
    cases heq
    obtain ⟨hrequested, hmem, hrest⟩ := RCShaper.pop_spec hpop
    refine ⟨hrequested, List.mem_append_right _ hmem, fun m' hm' => ?_⟩
    rcases List.mem_append.mp hm' with hm' | hm'
    · cases hm'
    · exact List.mem_append_right _ (hrest m' hm')

theorem enqueueMessage_spec (t : PCFShaper) (priority : ℤ) (msg : Outgoing) :
    (t.enqueueMessage priority msg).framesRequested = t.framesRequested ∧
      ∀ m ∈ (t.enqueueMessage priority msg).queued, m = msg ∨ m ∈ t.queued := by
  cases msg with
  | tt sender frame => exact ⟨rfl, fun m hm => .inr hm⟩
  | pcf frame =>
    refine ⟨rfl, fun m hm => ?_⟩
    simp only [enqueueMessage, queued, List.map_append, List.map_singleton, List.mem_append,
      List.mem_singleton] at hm ⊢
    tauto
  | rc message =>
    refine ⟨rfl, fun m hm => ?_⟩
    rcases List.mem_append.mp hm with hm | hm
    · exact .inr (List.mem_append_left _ hm)
    · exact (RCShaper.mem_queued_enqueueRC hm).imp_right (List.mem_append_right _)
  | be frame =>
    refine ⟨rfl, fun m hm => ?_⟩
    simp only [enqueueMessage, queued, RCShaper.queued, List.map_append, List.map_singleton,
      List.mem_append, List.mem_singleton] at hm ⊢
    tauto

end PCFShaper

namespace TTShaper
variable {c : TTConfig} {t t' : TTShaper} {totalTicks : ℕ} {msg : Outgoing}

/-- The frames below are long enough for the MAC. -/
def Lower (msg : Outgoing) : Prop :=
  msg.isTT = false ∧ minEthernetFrameBytes ≤ msg.frame.byteLength

/-- What the shaper does on behalf of the frames below: each request is answered by a frame or is
kept, and a frame that leaves is sent before the next window. -/
structure Released (c : TTConfig) (totalTicks : ℕ) (t : TTShaper)
    (r : TTShaper × Option Outgoing) : Prop where
  ttBuffers : r.1.ttBuffers = t.ttBuffers
  ttQueue : r.1.ttQueue = t.ttQueue
  framesRequested : r.1.framesRequested + r.2.toList.length = t.framesRequested
  queued : ∀ m ∈ r.1.toPCFShaper.queued, Lower m
  sent : ∀ m ∈ r.2, Lower m ∧ t.isTransmissionAllowed c totalTicks (some m) = true

theorem handleMessage_released (priority : ℤ) (hmsg : Lower msg)
    (hqueued : ∀ m ∈ t.toPCFShaper.queued, Lower m) :
    Released c totalTicks t (t.handleMessage c totalTicks priority msg) := by
  unfold handleMessage
  by_cases hallowed : 0 < t.framesRequested ∧ t.isTransmissionAllowed c totalTicks (some msg)
  · rw [if_pos hallowed, PCFShaper.handleMessage, if_pos hallowed.1]
    refine ⟨rfl, rfl, Nat.sub_add_cancel hallowed.1, hqueued, fun m hm => ?_⟩
    cases hm
    exact ⟨hmsg, hallowed.2⟩
  · obtain ⟨hrequested, hmem⟩ := t.toPCFShaper.enqueueMessage_spec priority msg
    rw [if_neg hallowed]
    refine ⟨rfl, rfl, hrequested, fun m hm => ?_, fun m hm => by cases hm⟩
    rcases hmem m hm with rfl | hm
    · exact hmsg
    · exact hqueued m hm

theorem sendPopped_released (hpos : 0 < t.framesRequested) (hqueue : t.ttQueue = [])
    (hqueued : ∀ m ∈ t.toPCFShaper.queued, Lower m) :
    Released c totalTicks t (t.sendPopped c totalTicks) := by
  have hfront : t.front = t.toPCFShaper.pop.map (·.1) := by
    rw [front, hqueue]
    exact t.toPCFShaper.front_eq
  unfold sendPopped pop
  rw [hqueue]
  dsimp only
  by_cases hallowed : t.isTransmissionAllowed c totalTicks t.front
  · rw [if_pos hallowed]
    cases hpop : t.toPCFShaper.pop with
    | none => exact ⟨rfl, rfl, rfl, hqueued, fun m hm => by cases hm⟩
    | some p =>
      obtain ⟨hrequested, hmem, hrest⟩ := PCFShaper.pop_spec hpop
      rw [hfront, hpop] at hallowed
      refine ⟨rfl, hqueue.symm, ?_, fun m hm => hqueued m (hrest m hm), fun m hm => ?_⟩
      · change p.2.framesRequested - 1 + 1 = t.framesRequested
        omega
      · cases hm
        exact ⟨hqueued _ hmem, hallowed⟩
  · rw [if_neg hallowed]
    exact ⟨rfl, rfl, rfl, hqueued, fun m hm => by cases hm⟩

/-- A frame that may be sent leaves the MAC free again before the next window starts. -/
theorem lt_of_isTransmissionAllowed {now : ℕ}
    (h : t.isTransmissionAllowed c (now / c.tick) (some msg) = true)
    (hsorted : t.ttBuffers.Pairwise (·.1 < ·.1)) :
    ∀ x ∈ t.ttBuffers, now + c.sendTime msg.frame.byteLength < x.1 * c.tick := by
  unfold isTransmissionAllowed at h
  cases hbuffers : t.ttBuffers with
  | nil =>
    intro x hx
    cases hx
  | cons first rest =>
    rw [hbuffers] at h hsorted
    have hlt : now / c.tick + c.sendTicks msg.frame.byteLength < first.1 := by simpa using h
    have hfirst : now + c.sendTime msg.frame.byteLength < first.1 * c.tick := by
      have hpos := c.tick_pos
      have hceil : c.sendTime msg.frame.byteLength ≤ c.sendTicks msg.frame.byteLength * c.tick := by
        have hdiv := Nat.lt_div_mul_add (a := c.sendTime msg.frame.byteLength + c.tick - 1) hpos
        rw [TTConfig.sendTicks, Nat.add_mul]
        omega
      have hnow := Nat.lt_div_mul_add (a := now) hpos
      calc now + c.sendTime msg.frame.byteLength
          < now / c.tick * c.tick + c.tick + c.sendTicks msg.frame.byteLength * c.tick := by omega
        _ = (now / c.tick + c.sendTicks msg.frame.byteLength + 1) * c.tick := by
          rw [Nat.add_mul, Nat.add_mul, Nat.one_mul]
          omega
        _ ≤ first.1 * c.tick := Nat.mul_le_mul_right _ hlt
    intro x hx
    rcases List.mem_cons.mp hx with rfl | hx
    · exact hfirst
    · have hle := (List.pairwise_cons.mp hsorted).1 x hx
      exact hfirst.trans_le (Nat.mul_le_mul_right _ hle.le)

/-! ## Registered windows -/

/-- What it takes to register a buffer. -/
theorem registerTTBuffer_eq_ok {b sendWindowStart : ℕ} :
    t.registerTTBuffer c b sendWindowStart = .ok t' ↔
      (∀ x ∈ t.ttBuffers, x.1 ≠ sendWindowStart ∧
        TTConfig.overlapping (c.ttBuffer b) (c.ttBuffer x.2) = false) ∧
      { t with ttBuffers :=
        t.ttBuffers.orderedInsert (fun x y => x.1 ≤ y.1) (sendWindowStart, b) } = t' := by
  unfold registerTTBuffer
  split_ifs with hsame hoverlap
  · obtain ⟨x, hx, heq⟩ := List.any_eq_true.mp hsame
    refine iff_of_false (by simp) fun h => (h.1 x hx).1 ?_
    exact of_decide_eq_true heq
  · obtain ⟨x, hx, heq⟩ := List.any_eq_true.mp hoverlap
    refine iff_of_false (by simp) fun h => ?_
    rw [(h.1 x hx).2] at heq
    cases heq
  · rw [Except.ok.injEq]
    refine ⟨fun h => ⟨fun x hx => ⟨fun heq => hsame ?_, ?_⟩, h⟩, fun h => h.2⟩
    · exact List.any_eq_true.mpr ⟨x, hx, decide_eq_true heq⟩
    · exact Bool.eq_false_iff.mpr fun heq => hoverlap (List.any_eq_true.mpr ⟨x, hx, heq⟩)

/-- The buffer whose window has started is registered for its next one, and its frame leaves or
makes room for others. -/
theorem handleTT_eq {b s next : ℕ} {rest : List (ℕ × ℕ)} {msg : Option EtherFrame}
    (hbuffers : t.ttBuffers = (s, b) :: rest)
    (hregister : { t with ttBuffers := rest }.registerTTBuffer c b next = .ok t')
    (hpos : 0 < t'.framesRequested) :
    t.handleTT c totalTicks b next msg = .ok (match msg with
      | none => t'.sendPopped c totalTicks
      | some frame =>
        ({ t' with framesRequested := t'.framesRequested - 1 }, some (.tt b frame))) := by
  unfold handleTT
  rw [hbuffers]
  dsimp only
  rw [if_neg (by simp), hregister]
  change (match msg with
    | none => Except.ok (if 0 < t'.framesRequested then t'.sendPopped c totalTicks else (t', none))
    | some frame => if 0 < t'.framesRequested then _ else _) = _
  cases msg with
  | none => rw [if_pos hpos]
  | some frame => exact if_pos hpos

/-- A window that starts at a time of its own finds its place among the others. -/
theorem pairwise_orderedInsert {l : List (ℕ × ℕ)} {x : ℕ × ℕ} (h : l.Pairwise (·.1 < ·.1))
    (hne : ∀ y ∈ l, y.1 ≠ x.1) :
    (l.orderedInsert (fun x y => x.1 ≤ y.1) x).Pairwise (·.1 < ·.1) := by
  induction l with
  | nil => exact List.pairwise_singleton _ _
  | cons y l ih =>
    obtain ⟨hy, hl⟩ := List.pairwise_cons.mp h
    rw [List.orderedInsert_cons]
    split_ifs with hle
    · have hlt : x.1 < y.1 := lt_of_le_of_ne hle (hne y List.mem_cons_self).symm
      refine List.pairwise_cons.mpr ⟨fun z hz => ?_, h⟩
      rcases List.mem_cons.mp hz with rfl | hz
      · exact hlt
      · exact hlt.trans (hy z hz)
    · refine List.pairwise_cons.mpr ⟨fun z hz => ?_, ih hl fun z hz => hne z
        (List.mem_cons_of_mem _ hz)⟩
      rcases List.mem_cons.mp ((List.perm_orderedInsert _ _ _).mem_iff.mp hz) with rfl | hz
      · exact not_le.mp hle
      · exact hy z hz

/-- The check does not depend on which of two buffers was registered first. -/
theorem overlapping_comm (b b' : TTBuffer) :
    TTConfig.overlapping b b' = TTConfig.overlapping b' b := by
  unfold TTConfig.overlapping
  simp only [or_comm]

theorem registerAll_spec {nextAction : ℕ → ℕ} {bs : List ℕ}
    (h : registerAll c nextAction bs t = .ok t') (hsorted : t.ttBuffers.Pairwise (·.1 < ·.1)) :
    t'.toPCFShaper = t.toPCFShaper ∧ t'.ttQueue = t.ttQueue ∧
      t'.ttBuffers.Perm (bs.map (fun b => (nextAction b, b)) ++ t.ttBuffers) ∧
      t'.ttBuffers.Pairwise (·.1 < ·.1) ∧
      (∀ b ∈ bs, ∀ x ∈ t.ttBuffers, x.2 ≠ b ∧
        TTConfig.overlapping (c.ttBuffer b) (c.ttBuffer x.2) = false) ∧
      bs.Pairwise fun b b' => b ≠ b' ∧
        TTConfig.overlapping (c.ttBuffer b) (c.ttBuffer b') = false := by
  induction bs generalizing t with
  | nil =>
    cases h
    exact ⟨rfl, rfl, .refl _, hsorted, fun b hb => absurd hb List.not_mem_nil, .nil⟩
  | cons b bs ih =>
    unfold registerAll at h
    split_ifs at h with hlisted
    cases hregister : t.registerTTBuffer c b (nextAction b) with
    | error e =>
      rw [hregister] at h
      cases h
    | ok t₁ =>
      rw [hregister] at h
      obtain ⟨hok, rfl⟩ := registerTTBuffer_eq_ok.mp hregister
      have hperm := List.perm_orderedInsert (fun x y : ℕ × ℕ => x.1 ≤ y.1) (nextAction b, b)
        t.ttBuffers
      obtain ⟨hbelow, hqueue, hbuffers, hsorted', hearlier, hpairs⟩ :=
        ih h (pairwise_orderedInsert hsorted fun y hy => (hok y hy).1)
      have hfirst : ∀ b' ∈ bs, b ≠ b' ∧
          TTConfig.overlapping (c.ttBuffer b') (c.ttBuffer b) = false :=
        fun b' hb' => hearlier b' hb' _ (hperm.mem_iff.mpr List.mem_cons_self)
      refine ⟨hbelow, hqueue, ?_, hsorted', fun b' hb' x hx => ?_,
        List.pairwise_cons.mpr ⟨fun b' hb' => ⟨(hfirst b' hb').1, ?_⟩, hpairs⟩⟩
      · refine hbuffers.trans ((hperm.append_left _).trans ?_)
        rw [List.map_cons, List.cons_append]
        exact List.perm_middle
      · rcases List.mem_cons.mp hb' with rfl | hb'
        · refine ⟨fun heq => hlisted ?_, (hok x hx).2⟩
          exact List.any_eq_true.mpr ⟨x, hx, decide_eq_true heq⟩
        · exact hearlier b' hb' x (hperm.mem_iff.mpr (List.mem_cons_of_mem _ hx))
      · rw [overlapping_comm]
        exact (hfirst b' hb').2

end TTShaper

end TsnReconfig.AS6802
