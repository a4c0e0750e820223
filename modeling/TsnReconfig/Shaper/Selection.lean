import Mathlib.Logic.Function.Basic
import TsnReconfig.Lib.System
import TsnReconfig.Shaper.SelectionAlgorithm

/-!
# Transmission selection

`IEEE8021QbvSelection` with its queues, selection algorithms and gates: strict priority, and no
request misses a frame. A function returns `none` where the source throws.
-/

namespace TsnReconfig.Shaper

open Avb Gates Lib

structure EtherFrame where
  id : ℕ
  byteLength : ℕ
  deriving DecidableEq, Repr

def minEthernetFrameBytes : ℕ := 64

/-- `IEEE8021QbvQueue`, with its parameters first. -/
structure QbvQueue where
  maxSize : ℤ := -1
  dropNew : Bool := false
  maxMessageSize : ℕ := 1522
  enabled : Bool := true
  frames : List EtherFrame := []
  queueSize : ℕ := 0
  deriving DecidableEq

namespace QbvQueue
variable (q : QbvQueue)

def size : ℕ := q.frames.length

/-- `frames.insert`, with the size that is signalled. -/
def insert (frame : EtherFrame) : QbvQueue × Option ℕ :=
  ({ q with frames := q.frames ++ [frame], queueSize := q.queueSize + frame.byteLength },
    some (q.queueSize + frame.byteLength))

/-- `enqueue`. A full queue without a frame has none to drop. -/
def enqueue (newFrame : EtherFrame) : Option (QbvQueue × Option ℕ) :=
  if 0 ≤ q.maxSize ∧ q.maxSize ≤ q.size then
    if q.dropNew then some (q, none)
    else match q.frames with
      | [] => none
      | popFrame :: frames =>
        some ({ q with frames, queueSize := q.queueSize - popFrame.byteLength }.insert newFrame)
  else some (q.insert newFrame)

/-- `Buffer::handleMessage`. -/
def handleMessage (frame : EtherFrame) : Option (QbvQueue × Option ℕ) :=
  let frame := { frame with byteLength := max minEthernetFrameBytes frame.byteLength }
  if frame.byteLength ≤ q.maxMessageSize then q.enqueue frame else some (q, none)

/-- `dequeue` of a queue with frames, with the frame that it sends. -/
def dequeue : Option (EtherFrame × QbvQueue) :=
  match q.frames with
  | [] => none
  | frame :: frames =>
    some (frame, { q with frames, queueSize := q.queueSize - frame.byteLength })

end QbvQueue

/-- A port with its shaper. `selfMessages` has the times for which the selection has scheduled
messages to itself. `inTransit` has the frames that queues have sent to the selection at the
present time, `out` what the selection has sent to the MAC, each with the queue it is from, and
`requests` counts the requests of the MAC. -/
structure QbvPort where
  now : ℕ := 0
  numPCP : ℕ := 8
  queue : ℕ → QbvQueue
  transmissionSelectionAlgorithm : ℕ → SelectionAlgorithm
  transmissionGate : ℕ → GateState
  framesRequested : ℕ := 0
  selfMessages : List ℕ := []
  inTransit : List (ℕ × EtherFrame) := []
  out : List (ℕ × EtherFrame) := []
  requests : ℕ := 0

namespace QbvPort
variable (n : QbvPort) (r : Readings)

/-! ## The selection -/

/-- `receiveSignal` of the selection, for a state or a size. -/
def receiveSignal (l : ℕ) : QbvPort :=
  if 0 < l then { n with selfMessages := n.selfMessages ++ [n.now] } else n

def receiveStates (states : List GateState) : QbvPort :=
  states.foldl (fun n state => n.receiveSignal (stateValue state)) n

/-- The algorithm after an operation, and its signals. -/
def setAlgorithm (i : ℕ) (a : SelectionAlgorithm × List GateState) : QbvPort :=
  { n with transmissionSelectionAlgorithm :=
      Function.update n.transmissionSelectionAlgorithm i a.1 }.receiveStates a.2

/-- The signal `size` of a queue, to which its algorithm listens. -/
def emitSize (i : ℕ) : Option ℕ → QbvPort
  | none => n
  | some size => n.setAlgorithm i ((n.transmissionSelectionAlgorithm i).receiveSize r size)

/-- `getFrame` of a queue; a frame goes to the selection. -/
def getFrame (i : ℕ) : Option QbvPort :=
  if (n.queue i).enabled then do
    let (frame, queue) ← (n.queue i).dequeue
    let n := { n with queue := Function.update n.queue i queue }.emitSize r i queue.queueSize
    return { n with inTransit := n.inTransit ++ [(i, frame)] }
  else some n

/-- The loop of `selectFrame`, below an index. -/
def selectBelow : ℕ → QbvPort → Option QbvPort
  | 0, n => some n
  | i + 1, n =>
    if 0 < (n.queue i).size then
      let n := n.setAlgorithm i ((n.transmissionSelectionAlgorithm i).isOpen r)
      if (n.transmissionSelectionAlgorithm i).state = .opened ∧ n.transmissionGate i = .opened then
        let n := { n with framesRequested := n.framesRequested - 1 }
        if 1 < n.framesRequested then none else n.getFrame r i
      else selectBelow i n
    else selectBelow i n

def selectFrame : Option QbvPort :=
  if 0 < n.framesRequested then selectBelow r n.numPCP n else some n

def requestPacket : Option QbvPort :=
  let n := { n with framesRequested := n.framesRequested + 1, requests := n.requests + 1 }
  if 1 < n.framesRequested then none else n.selectFrame r

/-- `handleMessage` of the selection, for the frame that was sent first. -/
def deliver : Option QbvPort :=
  match n.inTransit with
  | [] => none
  | frame :: inTransit => some { n with inTransit, out := n.out ++ [frame] }

/-! ## The modules around it -/

/-- A frame arrives at a queue. -/
def arrive (i : ℕ) (frame : EtherFrame) : Option QbvPort := do
  let (queue, size) ← (n.queue i).handleMessage frame
  return ({ n with queue := Function.update n.queue i queue }.emitSize r i size).receiveSignal
    queue.size

/-- `changeState` of a gate. -/
def changeGate (i : ℕ) (newState : GateState) : QbvPort :=
  { n with transmissionGate := Function.update n.transmissionGate i newState }.receiveStates
    (if newState ≠ n.transmissionGate i then [newState] else [])

end QbvPort

inductive Event
  | arrive (i : ℕ) (frame : EtherFrame) (r : Readings)
  | requestPacket (r : Readings)
  | selfMessage (r : Readings)
  | deliver
  | changeGate (i : ℕ) (newState : GateState)
  | changeAlgorithm (i : ℕ) (newState : GateState)
  | timer (i : ℕ) (r : Readings)
  | macIdle (i : ℕ) (r : Readings)
  | advance (t : ℕ)

namespace QbvPort
variable (n : QbvPort)

/-- What happens at the port. The MAC requests a frame only after it has been given the one it
requested before. No message is left behind when the time advances. -/
def step (n : QbvPort) : Event → Option QbvPort
  | .arrive i frame r => if i < n.numPCP then n.arrive r i frame else none
  | .requestPacket r => if n.out.length = n.requests then n.requestPacket r else none
  | .selfMessage r =>
    if n.now ∈ n.selfMessages then
      { n with selfMessages := n.selfMessages.erase n.now }.selectFrame r
    else none
  | .deliver => n.deliver
  | .changeGate i newState => some (n.changeGate i newState)
  | .changeAlgorithm i newState =>
    some (n.setAlgorithm i ((n.transmissionSelectionAlgorithm i).changeState newState))
  | .timer i r => some (n.setAlgorithm i ((n.transmissionSelectionAlgorithm i).handleMessage r))
  | .macIdle i r => some (n.setAlgorithm i ((n.transmissionSelectionAlgorithm i).macIdle r))
  | .advance t =>
    if n.now < t ∧ n.inTransit = [] ∧ ∀ m ∈ n.selfMessages, t ≤ m then some { n with now := t }
    else none

/-- Nothing has happened at the port yet. -/
structure Idle : Prop where
  queue : ∀ i, (n.queue i).frames = []
  framesRequested : n.framesRequested = 0
  selfMessages : n.selfMessages = []
  inTransit : n.inTransit = []
  out : n.out = []
  requests : n.requests = 0

def system : System QbvPort Event where
  init := Idle
  step := step

/-! ## What the operations change -/

section
variable {n : QbvPort} {r : Readings}

theorem receiveStates_eq (n : QbvPort) (states : List GateState) :
    ∃ l, n.receiveStates states = { n with selfMessages := n.selfMessages ++ l } ∧
      (.opened ∈ states → n.now ∈ l) := by
  induction states generalizing n with
  | nil => exact ⟨[], by simp [receiveStates], by simp⟩
  | cons state states ih =>
    obtain ⟨l, hl, hopened⟩ := ih (n.receiveSignal (stateValue state))
    change ∃ l, (n.receiveSignal (stateValue state)).receiveStates states = _ ∧ _
    rw [hl]
    cases state with
    | closed => exact ⟨l, rfl, fun h => hopened (by simpa using h)⟩
    | opened =>
      refine ⟨n.now :: l, ?_, fun _ => List.mem_cons_self ..⟩
      simp [receiveSignal, stateValue]

theorem setAlgorithm_eq (n : QbvPort) (i : ℕ) (a : SelectionAlgorithm × List GateState) :
    ∃ l, n.setAlgorithm i a = { n with
        transmissionSelectionAlgorithm := Function.update n.transmissionSelectionAlgorithm i a.1
        selfMessages := n.selfMessages ++ l } ∧ (.opened ∈ a.2 → n.now ∈ l) :=
  receiveStates_eq { n with
    transmissionSelectionAlgorithm := Function.update n.transmissionSelectionAlgorithm i a.1 } a.2

theorem emitSize_eq (n : QbvPort) (r : Readings) (i : ℕ) (size : Option ℕ) :
    ∃ a l, n.emitSize r i size = { n with
        transmissionSelectionAlgorithm := Function.update n.transmissionSelectionAlgorithm i a
        selfMessages := n.selfMessages ++ l } ∧
      (a.state = .opened → (n.transmissionSelectionAlgorithm i).state = .opened ∨ n.now ∈ l) := by
  cases size with
  | none => exact ⟨n.transmissionSelectionAlgorithm i, [], by simp [emitSize], .inl⟩
  | some size =>
    obtain ⟨l, hl, hopened⟩ := setAlgorithm_eq n i
      ((n.transmissionSelectionAlgorithm i).receiveSize r size)
    exact ⟨_, l, hl, fun h =>
      (SelectionAlgorithm.announced_receiveSize size h).imp_right hopened⟩

theorem changeGate_eq (n : QbvPort) (i : ℕ) (newState : GateState) :
    ∃ l, n.changeGate i newState = { n with
        transmissionGate := Function.update n.transmissionGate i newState
        selfMessages := n.selfMessages ++ l } ∧
      (newState = .opened → n.transmissionGate i ≠ .opened → n.now ∈ l) := by
  obtain ⟨l, hl, hopened⟩ := receiveStates_eq
    { n with transmissionGate := Function.update n.transmissionGate i newState }
    (if newState ≠ n.transmissionGate i then [newState] else [])
  refine ⟨l, hl, fun hnew hold => hopened ?_⟩
  rw [if_pos (by rw [hnew]; exact hold.symm), hnew]
  exact List.mem_singleton_self _

end

/-! ## Strict priority -/

/-- Queue `i` has a frame, and its algorithm and its gate are open. -/
structure Ready (i : ℕ) : Prop where
  frames : (n.queue i).frames ≠ []
  algorithm : (n.transmissionSelectionAlgorithm i).state = .opened
  gate : n.transmissionGate i = .opened

/-- Queue `i` has a frame, its algorithm says that it is open when it is asked, and its gate is
open. -/
structure Eligible (r : Readings) (i : ℕ) : Prop where
  frames : (n.queue i).frames ≠ []
  algorithm : ((n.transmissionSelectionAlgorithm i).isOpen r).1.state = .opened
  gate : n.transmissionGate i = .opened

/-- `i` is the highest index below `k` of an eligible queue. -/
structure Highest (r : Readings) (k i : ℕ) : Prop where
  lt : i < k
  eligible : n.Eligible r i
  above : ∀ j, i < j → j < k → ¬n.Eligible r j

/-- What a selection does when a frame is requested: no queue was ready, or the frame at the head
of the highest eligible one is sent, unless the queue is disabled. -/
inductive Selects (n : QbvPort) (r : Readings) (k : ℕ) : QbvPort → Prop
  | nothing (a : ℕ → SelectionAlgorithm) (l : List ℕ)
      (hnone : ∀ i < k, ¬Ready { n with transmissionSelectionAlgorithm := a } i)
      (habove : ∀ i, k ≤ i → a i = n.transmissionSelectionAlgorithm i) :
      Selects n r k { n with
        transmissionSelectionAlgorithm := a, selfMessages := n.selfMessages ++ l }
  | frame (a : ℕ → SelectionAlgorithm) (l : List ℕ) {i : ℕ} (hi : n.Highest r k i)
      {frame : EtherFrame} (hframe : (n.queue i).frames.head? = some frame) {queue : ℕ → QbvQueue}
      (henabled : ∀ j, (queue j).enabled = (n.queue j).enabled) :
      Selects n r k { n with
        queue, transmissionSelectionAlgorithm := a, selfMessages := n.selfMessages ++ l
        framesRequested := n.framesRequested - 1
        inTransit := n.inTransit ++ if (n.queue i).enabled then [(i, frame)] else [] }

section
variable {n n' : QbvPort} {r : Readings} {k : ℕ}

theorem eligible_update_iff {i : ℕ} {a : SelectionAlgorithm} {l : List ℕ} (h : i ≠ k) :
    Eligible { n with
        transmissionSelectionAlgorithm := Function.update n.transmissionSelectionAlgorithm k a
        selfMessages := l } r i ↔ n.Eligible r i := by
  have ha : Function.update n.transmissionSelectionAlgorithm k a i =
      n.transmissionSelectionAlgorithm i := Function.update_of_ne h _ _
  refine ⟨fun he => ⟨he.frames, ?_, he.gate⟩, fun he => ⟨he.frames, ?_, he.gate⟩⟩
  · exact ha ▸ he.algorithm
  · exact (congrArg (fun a => (SelectionAlgorithm.isOpen a r).1.state) ha).trans he.algorithm

theorem getFrame_eq {i : ℕ} (hframes : (n.queue i).frames ≠ []) :
    ∃ frame a l, ∃ queue : ℕ → QbvQueue, (n.queue i).frames.head? = some frame ∧
      (∀ j, (queue j).enabled = (n.queue j).enabled) ∧
      n.getFrame r i = some { n with
        queue, transmissionSelectionAlgorithm := a, selfMessages := n.selfMessages ++ l
        inTransit := n.inTransit ++ if (n.queue i).enabled then [(i, frame)] else [] } := by
  obtain ⟨frame, frames, hq⟩ := List.exists_cons_of_ne_nil hframes
  unfold getFrame
  by_cases henabled : (n.queue i).enabled
  · let queue := { n.queue i with
      frames, queueSize := (n.queue i).queueSize - frame.byteLength }
    obtain ⟨a, l, hl, -⟩ := emitSize_eq { n with queue := Function.update n.queue i queue } r i
      (some queue.queueSize)
    refine ⟨frame, Function.update n.transmissionSelectionAlgorithm i a, l,
      Function.update n.queue i queue, by rw [hq]; rfl, fun j => ?_, ?_⟩
    · by_cases hj : j = i
      · subst hj
        rw [Function.update_self]
      · rw [Function.update_of_ne hj]
    · simp only [if_pos henabled, QbvQueue.dequeue, hq, Option.bind_eq_bind, Option.bind_some]
      rw [hl]
      rfl
  · refine ⟨frame, n.transmissionSelectionAlgorithm, [], n.queue, by rw [hq]; rfl, fun j => rfl, ?_⟩
    simp [henabled]

/-- A queue that stays behind its algorithm or its gate is passed over. -/
theorem Selects.of_not_open {l : List ℕ}
    (h : Selects { n with
      transmissionSelectionAlgorithm := Function.update n.transmissionSelectionAlgorithm k
        ((n.transmissionSelectionAlgorithm k).isOpen r).1
      selfMessages := n.selfMessages ++ l } r k n')
    (hopen : ¬(((n.transmissionSelectionAlgorithm k).isOpen r).1.state = .opened ∧
      n.transmissionGate k = .opened)) : Selects n r (k + 1) n' := by
  cases h with
  | nothing a l' hnone habove =>
    dsimp only at habove ⊢
    rw [List.append_assoc]
    refine .nothing a (l ++ l') (fun i hi => ?_) fun i hi => ?_
    · rcases Nat.lt_succ_iff_lt_or_eq.mp hi with hi | rfl
      · exact fun h => hnone i hi ⟨h.frames, h.algorithm, h.gate⟩
      · intro h
        have ha : a i = _ := (habove i (Nat.le_refl i)).trans (Function.update_self ..)
        exact hopen ⟨ha ▸ h.algorithm, h.gate⟩
    · exact (habove i (by omega)).trans (Function.update_of_ne (by omega) _ _)
  | frame a l' hi hframe henabled =>
    dsimp only at hframe henabled ⊢
    rw [List.append_assoc]
    refine .frame a (l ++ l') ?_ hframe henabled
    refine ⟨hi.lt.trans (Nat.lt_succ_self k),
      (eligible_update_iff (Nat.ne_of_lt hi.lt)).mp hi.eligible, fun j hj hj' => ?_⟩
    rcases Nat.lt_succ_iff_lt_or_eq.mp hj' with hj' | rfl
    · exact fun h => hi.above j hj hj' ((eligible_update_iff (Nat.ne_of_lt hj')).mpr h)
    · exact fun h => hopen ⟨h.algorithm, h.gate⟩

/-- So is an empty queue. -/
theorem Selects.of_empty (h : Selects n r k n') (hframes : (n.queue k).frames = []) :
    Selects n r (k + 1) n' := by
  cases h with
  | nothing a l hnone habove =>
    refine .nothing a l (fun i hi => ?_) fun i hi => habove i (by omega)
    rcases Nat.lt_succ_iff_lt_or_eq.mp hi with hi | rfl
    · exact hnone i hi
    · exact fun h => h.frames hframes
  | frame a l hi hframe henabled =>
    refine .frame a l ⟨hi.lt.trans (Nat.lt_succ_self k), hi.eligible, fun j hj hj' => ?_⟩
      hframe henabled
    rcases Nat.lt_succ_iff_lt_or_eq.mp hj' with hj' | rfl
    · exact hi.above j hj hj'
    · exact fun h => h.frames hframes

theorem selectBelow_selects (hrequested : n.framesRequested ≤ 1) :
    ∃ n', selectBelow r k n = some n' ∧ Selects n r k n' := by
  induction k generalizing n with
  | zero =>
    refine ⟨n, rfl, ?_⟩
    have h := Selects.nothing (n := n) (r := r) (k := 0) n.transmissionSelectionAlgorithm []
      (fun i hi => absurd hi (Nat.not_lt_zero i)) fun _ _ => rfl
    simpa using h
  | succ k ih =>
    unfold selectBelow
    by_cases hsize : 0 < (n.queue k).size
    · have hframes : (n.queue k).frames ≠ [] := List.ne_nil_of_length_pos hsize
      rw [if_pos hsize]
      obtain ⟨l, hl, -⟩ := setAlgorithm_eq n k ((n.transmissionSelectionAlgorithm k).isOpen r)
      dsimp only
      simp only [hl, Function.update_self]
      split_ifs with hopen hthrows
      · omega
      · -- queue `k` is the one that is chosen
        obtain ⟨frame, a, l', queue, hframe, henabled, hget⟩ := getFrame_eq (r := r) (i := k)
          (n := { n with
            transmissionSelectionAlgorithm := Function.update n.transmissionSelectionAlgorithm k
              ((n.transmissionSelectionAlgorithm k).isOpen r).1
            selfMessages := n.selfMessages ++ l
            framesRequested := n.framesRequested - 1 }) hframes
        refine ⟨_, hget, ?_⟩
        have hi : n.Highest r (k + 1) k :=
          ⟨Nat.lt_succ_self k, ⟨hframes, hopen.1, hopen.2⟩, fun j hj hj' => by omega⟩
        dsimp only
        rw [List.append_assoc]
        exact .frame a (l ++ l') hi hframe henabled
      · obtain ⟨n', hn', hselects⟩ := ih (n := { n with
            transmissionSelectionAlgorithm := Function.update n.transmissionSelectionAlgorithm k
              ((n.transmissionSelectionAlgorithm k).isOpen r).1
            selfMessages := n.selfMessages ++ l }) hrequested
        exact ⟨n', hn', hselects.of_not_open hopen⟩
    · have hframes : (n.queue k).frames = [] := List.eq_nil_of_length_eq_zero (by
        unfold QbvQueue.size at hsize
        omega)
      rw [if_neg hsize]
      obtain ⟨n', hn', hselects⟩ := ih hrequested
      exact ⟨n', hn', hselects.of_empty hframes⟩

end

/-! ## Wake-ups -/

/-- The frames that were selected so far. -/
def selected : List (ℕ × EtherFrame) :=
  n.out ++ n.inTransit

/-- The count of the requests that are not answered. A disabled queue loses a request. -/
structure Counted : Prop where
  requested : n.framesRequested ≤ 1
  answered : n.selected.length + n.framesRequested ≤ n.requests
  enabled : (∀ i, (n.queue i).enabled) → n.selected.length + n.framesRequested = n.requests

/-- A frame that is ready for a request is not left to itself. -/
structure Wakeful : Prop extends Counted n where
  pending : 0 < n.framesRequested → ∀ i < n.numPCP, n.Ready i → n.now ∈ n.selfMessages

section
variable {n n' : QbvPort} {r : Readings}

theorem Idle.wakeful (h : n.Idle) : n.Wakeful := by
  have hselected : n.selected = [] := by rw [selected, h.out, h.inTransit, List.append_nil]
  refine ⟨⟨?_, ?_, fun _ => ?_⟩, fun hreq => ?_⟩
  · rw [h.framesRequested]
    exact Nat.zero_le 1
  · rw [hselected, h.framesRequested, h.requests]
    exact Nat.le_refl 0
  · rw [hselected, h.framesRequested, h.requests]
    rfl
  · rw [h.framesRequested] at hreq
    exact absurd hreq (Nat.lt_irrefl 0)

theorem selectFrame_selects (h : n.Counted) (hreq : 0 < n.framesRequested) :
    ∃ n', n.selectFrame r = some n' ∧ n.Selects r n.numPCP n' := by
  unfold selectFrame
  rw [if_pos hreq]
  exact selectBelow_selects h.requested

theorem Selects.wakeful (hs : n.Selects r n.numPCP n') (h : n.Counted)
    (hreq : 0 < n.framesRequested) : n'.Wakeful := by
  cases hs with
  | nothing a l hnone _ =>
    refine ⟨⟨h.requested, h.answered, h.enabled⟩, fun _ i hi hready => ?_⟩
    exact absurd ⟨hready.frames, hready.algorithm, hready.gate⟩ (hnone i hi)
  | @frame a l i hi frame hframe queue henabled =>
    have hrequested := h.requested
    have hanswered := h.answered
    refine ⟨⟨?_, ?_, fun hall => ?_⟩, fun hpos => ?_⟩
    · dsimp only
      omega
    · simp only [selected, List.length_append] at hanswered ⊢
      split_ifs <;> simp only [List.length_cons, List.length_nil] <;> omega
    · have hall' : ∀ j, (n.queue j).enabled := fun j => henabled j ▸ hall j
      have heq := h.enabled hall'
      simp only [selected, List.length_append, if_pos (hall' i), List.length_cons,
        List.length_nil] at heq ⊢
      omega
    · dsimp only at hpos
      omega

theorem Counted.selectFrame (h : n.Counted) :
    ∃ n', n.selectFrame r = some n' ∧ n'.Wakeful := by
  by_cases hreq : 0 < n.framesRequested
  · obtain ⟨n', hn', hs⟩ := selectFrame_selects (r := r) h hreq
    exact ⟨n', hn', hs.wakeful h hreq⟩
  · refine ⟨n, if_neg hreq, ⟨h, fun hreq' => absurd hreq' hreq⟩⟩

/-- When the MAC may request a frame, there is no request left. -/
theorem Counted.requests_add_one (h : n.Counted) (hout : n.out.length = n.requests) :
    Counted { n with framesRequested := n.framesRequested + 1, requests := n.requests + 1 } := by
  have hanswered := h.answered
  simp only [selected, List.length_append] at hanswered
  refine ⟨?_, ?_, fun hall => ?_⟩
  · dsimp only
    omega
  · simp only [selected, List.length_append]
    omega
  · have heq := h.enabled hall
    simp only [selected, List.length_append] at heq ⊢
    omega

theorem Counted.requestPacket (h : n.Counted) (hout : n.out.length = n.requests) :
    ∃ n', n.requestPacket r = some n' ∧ n'.Wakeful := by
  obtain ⟨n', hn', hwakeful⟩ := (h.requests_add_one hout).selectFrame (r := r)
  refine ⟨n', ?_, hwakeful⟩
  have hrequested := (h.requests_add_one hout).requested
  unfold QbvPort.requestPacket
  dsimp only at hrequested ⊢
  rw [if_neg (Nat.not_lt.mpr hrequested), hn']

/-- An operation of an algorithm that signals when it opens it. -/
theorem Wakeful.setAlgorithm (h : n.Wakeful) (i : ℕ) {a : SelectionAlgorithm × List GateState}
    (ha : (n.transmissionSelectionAlgorithm i).Announced a) : (n.setAlgorithm i a).Wakeful := by
  obtain ⟨l, hl, hopened⟩ := setAlgorithm_eq n i a
  rw [hl]
  refine ⟨⟨h.requested, h.answered, h.enabled⟩, fun hreq j hj hready => ?_⟩
  by_cases hji : j = i
  · subst hji
    have hstate : a.1.state = .opened := by simpa using hready.algorithm
    rcases ha hstate with hold | hnew
    · exact List.mem_append_left _ (h.pending hreq j hj ⟨hready.frames, hold, hready.gate⟩)
    · exact List.mem_append_right _ (hopened hnew)
  · have hstate : (n.transmissionSelectionAlgorithm j).state = .opened := by
      simpa [hji] using hready.algorithm
    exact List.mem_append_left _ (h.pending hreq j hj ⟨hready.frames, hstate, hready.gate⟩)

theorem Wakeful.changeGate (h : n.Wakeful) (i : ℕ) (newState : GateState) :
    (n.changeGate i newState).Wakeful := by
  obtain ⟨l, hl, hopened⟩ := changeGate_eq n i newState
  rw [hl]
  refine ⟨⟨h.requested, h.answered, h.enabled⟩, fun hreq j hj hready => ?_⟩
  by_cases hold : n.transmissionGate j = .opened
  · exact List.mem_append_left _
      (h.pending hreq j hj ⟨hready.frames, hready.algorithm, hold⟩)
  · have hji : j = i := by
      by_contra hji
      exact hold (by simpa [hji] using hready.gate)
    subst hji
    have hnew : newState = .opened := by simpa using hready.gate
    exact List.mem_append_right _ (hopened hnew hold)

theorem enabled_handleMessage {q q' : QbvQueue} {frame : EtherFrame} {size : Option ℕ}
    (h : q.handleMessage frame = some (q', size)) : q'.enabled = q.enabled := by
  unfold QbvQueue.handleMessage QbvQueue.enqueue at h
  dsimp only at h
  split_ifs at h
  · cases h
    rfl
  · split at h
    · cases h
    · cases h
      rfl
  · cases h
    rfl
  · cases h
    rfl

theorem Wakeful.arrive (h : n.Wakeful) {i : ℕ} {frame : EtherFrame}
    (hs : n.arrive r i frame = some n') : n'.Wakeful := by
  obtain ⟨⟨queue, size⟩, hq, hs⟩ := Option.bind_eq_some_iff.mp hs
  cases hs
  obtain ⟨a, l, hl, hopened⟩ := emitSize_eq
    { n with queue := Function.update n.queue i queue } r i size
  rw [hl]
  have henabled : ∀ j, (Function.update n.queue i queue j).enabled = (n.queue j).enabled := by
    intro j
    by_cases hj : j = i
    · subst hj
      rw [Function.update_self, enabled_handleMessage hq]
    · rw [Function.update_of_ne hj]
  have hcounted : Counted { n with queue := Function.update n.queue i queue } :=
    ⟨h.requested, h.answered, fun hall => h.enabled fun j => henabled j ▸ hall j⟩
  unfold receiveSignal
  split_ifs with hsize
  · refine ⟨⟨hcounted.requested, hcounted.answered, hcounted.enabled⟩, fun _ _ _ _ => ?_⟩
    exact List.mem_append_right _ (List.mem_singleton_self _)
  · refine ⟨⟨hcounted.requested, hcounted.answered, hcounted.enabled⟩,
      fun hreq j hj hready => ?_⟩
    -- the queue is empty after the message, so that only the others can be ready
    have hempty : queue.frames = [] := List.eq_nil_of_length_eq_zero (Nat.eq_zero_of_not_pos hsize)
    have hji : j ≠ i := by
      rintro rfl
      exact hready.frames (by simpa using hempty)
    have hold : n.Ready j :=
      ⟨by simpa [hji] using hready.frames, by simpa [hji] using hready.algorithm, hready.gate⟩
    exact List.mem_append_left _ (h.pending hreq j hj hold)

theorem deliver_eq (hs : n.deliver = some n') :
    ∃ inTransit out, n' = { n with inTransit, out } ∧ n'.selected = n.selected := by
  unfold QbvPort.deliver at hs
  split at hs
  · cases hs
  · rename_i frame inTransit hin
    cases hs
    refine ⟨inTransit, n.out ++ [frame], rfl, ?_⟩
    simp [selected, hin]

theorem Wakeful.deliver (h : n.Wakeful) (hs : n.deliver = some n') : n'.Wakeful := by
  obtain ⟨inTransit, out, rfl, hselected⟩ := deliver_eq hs
  refine ⟨⟨h.requested, ?_, fun hall => ?_⟩, fun hreq i hi hready => ?_⟩
  · rw [hselected]
    exact h.answered
  · rw [hselected]
    exact h.enabled hall
  · exact h.pending hreq i hi ⟨hready.frames, hready.algorithm, hready.gate⟩

theorem Wakeful.step (h : n.Wakeful) {e : Event} (hs : n.step e = some n') : n'.Wakeful := by
  cases e with
  | arrive i frame r =>
    change (if i < n.numPCP then n.arrive r i frame else none) = some n' at hs
    split_ifs at hs
    exact h.arrive hs
  | requestPacket r =>
    change (if n.out.length = n.requests then n.requestPacket r else none) = some n' at hs
    split_ifs at hs with hout
    obtain ⟨m, hm, hwakeful⟩ := h.requestPacket (r := r) hout
    obtain rfl : m = n' := Option.some.inj (hm.symm.trans hs)
    exact hwakeful
  | selfMessage r =>
    change (if n.now ∈ n.selfMessages then _ else none) = some n' at hs
    split_ifs at hs
    -- without the message the port need not be wakeful, only the counts have to be right
    have hcounted : Counted { n with selfMessages := n.selfMessages.erase n.now } :=
      ⟨h.requested, h.answered, h.enabled⟩
    obtain ⟨m, hm, hwakeful⟩ := hcounted.selectFrame (r := r)
    obtain rfl : m = n' := Option.some.inj (hm.symm.trans hs)
    exact hwakeful
  | deliver => exact h.deliver hs
  | changeGate i newState =>
    cases hs
    exact h.changeGate i newState
  | changeAlgorithm i newState =>
    cases hs
    exact h.setAlgorithm i (SelectionAlgorithm.announced_changeState newState)
  | timer i r =>
    cases hs
    exact h.setAlgorithm i SelectionAlgorithm.announced_handleMessage
  | macIdle i r =>
    cases hs
    exact h.setAlgorithm i SelectionAlgorithm.announced_macIdle
  | advance t =>
    change (if n.now < t ∧ n.inTransit = [] ∧ ∀ m ∈ n.selfMessages, t ≤ m then _ else none) =
      some n' at hs
    split_ifs at hs with ht
    cases hs
    -- a frame that is ready has a message for now, so that time cannot go on
    refine ⟨⟨h.requested, h.answered, h.enabled⟩, fun hreq i hi hready => ?_⟩
    have hmem := h.pending hreq i hi ⟨hready.frames, hready.algorithm, hready.gate⟩
    exact absurd (ht.2.2 _ hmem) (Nat.not_le.mpr ht.1)

theorem wakeful_of_reachable (h : system.Reachable n) : n.Wakeful :=
  h.invariant (fun _ hn => hn.wakeful) fun _ _ _ hn hs => hn.step hs

/-! ## The frame that is chosen -/

/-- The counters and the messages of the selection do not decide which queue is chosen. -/
theorem Highest.congr {m : QbvPort} {k i : ℕ} (h : n.Highest r k i) (hqueue : m.queue = n.queue)
    (halgorithm : m.transmissionSelectionAlgorithm = n.transmissionSelectionAlgorithm)
    (hgate : m.transmissionGate = n.transmissionGate) : m.Highest r k i := by
  have heligible : ∀ j, m.Eligible r j ↔ n.Eligible r j := fun j =>
    ⟨fun hj => ⟨hqueue ▸ hj.frames, halgorithm ▸ hj.algorithm, hgate ▸ hj.gate⟩,
      fun hj => ⟨hqueue ▸ hj.frames, halgorithm ▸ hj.algorithm, hgate ▸ hj.gate⟩⟩
  exact ⟨h.lt, (heligible i).mpr h.eligible,
    fun j hj hj' => (heligible j).not.mpr (h.above j hj hj')⟩

/-- What is selected besides: the head of the highest eligible queue, or nothing. -/
def SelectedHead (n : QbvPort) (r : Readings) (n' : QbvPort) : Prop :=
  n'.selected = n.selected ∨
    ∃ i frame, n.Highest r n.numPCP i ∧ (n.queue i).frames.head? = some frame ∧
      n'.selected = n.selected ++ [(i, frame)]

theorem selectFrame_selectedHead (h : n.Counted) (hs : n.selectFrame r = some n') :
    n.SelectedHead r n' := by
  by_cases hreq : 0 < n.framesRequested
  · obtain ⟨m, hm, hselects⟩ := selectFrame_selects (r := r) h hreq
    obtain rfl : m = n' := Option.some.inj (hm.symm.trans hs)
    cases hselects with
    | nothing a l _ _ => exact .inl rfl
    | @frame a l i hi frame hframe queue henabled =>
      by_cases hqueue : (n.queue i).enabled
      · exact .inr ⟨i, frame, hi, hframe, by simp [selected, hqueue]⟩
      · exact .inl (by simp [selected, hqueue])
  · unfold QbvPort.selectFrame at hs
    rw [if_neg hreq] at hs
    cases hs
    exact .inl rfl

theorem requestPacket_selectedHead (h : n.Counted) (hout : n.out.length = n.requests)
    (hs : n.requestPacket r = some n') : n.SelectedHead r n' := by
  have hcounted := h.requests_add_one hout
  unfold QbvPort.requestPacket at hs
  dsimp only at hs
  split_ifs at hs
  refine (selectFrame_selectedHead hcounted hs).imp_right ?_
  rintro ⟨i, frame, hi, hframe, hselected⟩
  exact ⟨i, frame, hi.congr rfl rfl rfl, hframe, hselected⟩

theorem selected_setAlgorithm (n : QbvPort) (i : ℕ) (a : SelectionAlgorithm × List GateState) :
    (n.setAlgorithm i a).selected = n.selected := by
  obtain ⟨l, hl, -⟩ := setAlgorithm_eq n i a
  rw [hl]
  rfl

theorem selected_arrive {i : ℕ} {frame : EtherFrame} (hs : n.arrive r i frame = some n') :
    n'.selected = n.selected := by
  obtain ⟨⟨queue, size⟩, -, hs⟩ := Option.bind_eq_some_iff.mp hs
  cases hs
  obtain ⟨a, l, hl, -⟩ := emitSize_eq { n with queue := Function.update n.queue i queue } r i size
  rw [hl]
  unfold receiveSignal
  split_ifs
  · rfl
  · rfl

/-- A step selects nothing, or the selection is asked and selects the head of the highest
eligible queue. -/
theorem selected_step (h : n.Counted) {e : Event} (hs : n.step e = some n') :
    n'.selected = n.selected ∨
      ∃ r, (e = .requestPacket r ∨ e = .selfMessage r) ∧ n.SelectedHead r n' := by
  cases e with
  | arrive i frame r =>
    change (if i < n.numPCP then n.arrive r i frame else none) = some n' at hs
    split_ifs at hs
    exact .inl (selected_arrive hs)
  | requestPacket r =>
    change (if n.out.length = n.requests then n.requestPacket r else none) = some n' at hs
    split_ifs at hs with hout
    exact .inr ⟨r, .inl rfl, requestPacket_selectedHead h hout hs⟩
  | selfMessage r =>
    change (if n.now ∈ n.selfMessages then _ else none) = some n' at hs
    split_ifs at hs
    have hcounted : Counted { n with selfMessages := n.selfMessages.erase n.now } :=
      ⟨h.requested, h.answered, h.enabled⟩
    refine .inr ⟨r, .inr rfl, (selectFrame_selectedHead hcounted hs).imp_right ?_⟩
    rintro ⟨i, frame, hi, hframe, hselected⟩
    exact ⟨i, frame, hi.congr rfl rfl rfl, hframe, hselected⟩
  | deliver =>
    obtain ⟨_, _, _, hselected⟩ := deliver_eq hs
    exact .inl hselected
  | changeGate i newState =>
    cases hs
    obtain ⟨l, hl, -⟩ := changeGate_eq n i newState
    rw [hl]
    exact .inl rfl
  | changeAlgorithm i newState =>
    cases hs
    exact .inl (selected_setAlgorithm n i _)
  | timer i r =>
    cases hs
    exact .inl (selected_setAlgorithm n i _)
  | macIdle i r =>
    cases hs
    exact .inl (selected_setAlgorithm n i _)
  | advance t =>
    change (if n.now < t ∧ n.inTransit = [] ∧ ∀ m ∈ n.selfMessages, t ≤ m then _ else none) =
      some n' at hs
    split_ifs at hs
    cases hs
    exact .inl rfl

/-- In every run: there is at most one request at a time, which at most one frame answers, nothing
throws, what a step selects is the head of the highest eligible queue, and a request with a queue
that is ready has a message of the selection to itself at the present time. -/
theorem strictPriority (h : system.Reachable n) :
    (n.framesRequested = 0 ∨ n.framesRequested = 1) ∧
    (n.selected.length + n.framesRequested ≤ n.requests ∧
      ((∀ i, (n.queue i).enabled) → n.selected.length + n.framesRequested = n.requests)) ∧
    (∀ r, (n.out.length = n.requests → (n.step (.requestPacket r)).isSome) ∧
      (n.now ∈ n.selfMessages → (n.step (.selfMessage r)).isSome)) ∧
    (∀ e n', n.step e = some n' → n'.selected = n.selected ∨
      ∃ r i frame, (e = .requestPacket r ∨ e = .selfMessage r) ∧ n.Highest r n.numPCP i ∧
        (n.queue i).frames.head? = some frame ∧ n'.selected = n.selected ++ [(i, frame)]) ∧
    (n.framesRequested = 1 → (∃ i < n.numPCP, n.Ready i) → n.now ∈ n.selfMessages) := by
  have hn := wakeful_of_reachable h
  have hrequested := hn.requested
  refine ⟨by omega, ⟨hn.answered, hn.enabled⟩, fun r => ⟨fun hout => ?_, fun hmem => ?_⟩,
    fun e n' hs => ?_, ?_⟩
  · obtain ⟨m, hm, -⟩ := hn.requestPacket (r := r) hout
    change (if n.out.length = n.requests then n.requestPacket r else none).isSome
    rw [if_pos hout, hm]
    rfl
  · have hcounted : Counted { n with selfMessages := n.selfMessages.erase n.now } :=
      ⟨hn.requested, hn.answered, hn.enabled⟩
    obtain ⟨m, hm, -⟩ := hcounted.selectFrame (r := r)
    change (if n.now ∈ n.selfMessages then _ else none : Option QbvPort).isSome
    rw [if_pos hmem, hm]
    rfl
  · rcases selected_step hn.toCounted hs with hsame | ⟨r, he, hsame | ⟨i, frame, hi, hhead, hsel⟩⟩
    · exact .inl hsame
    · exact .inl hsame
    · exact .inr ⟨r, i, frame, he, hi, hhead, hsel⟩
  · rintro hreq ⟨i, hi, hready⟩
    exact hn.pending (hreq ▸ Nat.one_pos) i hi hready

end

/-- A port with open algorithms and closed gates. -/
def closedPort : QbvPort where
  queue _ := {}
  transmissionSelectionAlgorithm _ := { state := .opened }
  transmissionGate _ := .closed

def noBandwidth : Readings := ⟨0, 1, fun _ => 0⟩

/-- The request comes first, then the frame, and the gate opens last. -/
def gateOpensLast : List Event :=
  [.requestPacket noBandwidth, .arrive 3 ⟨1, 100⟩ noBandwidth, .selfMessage noBandwidth,
    .advance 5, .changeGate 3 .opened]

theorem strictPriority_gateOpensLast :
    ∃ n, system.Reachable n ∧ n.framesRequested = 1 ∧ n.Ready 3 ∧ n.now ∈ n.selfMessages := by
  obtain ⟨n, hn, hreq, hnum, hready⟩ : ∃ n, system.runFrom closedPort gateOpensLast = some n ∧
      n.framesRequested = 1 ∧ n.numPCP = 8 ∧ n.Ready 3 :=
    ⟨_, rfl, rfl, rfl, ⟨(fun h => by cases h), rfl, rfl⟩⟩
  have hinit : system.init closedPort := ⟨fun _ => rfl, rfl, rfl, rfl, rfl, rfl⟩
  have hreach := System.reachable_of_runFrom hinit hn
  exact ⟨n, hreach, hreq, hready,
    (strictPriority hreach).2.2.2.2 hreq ⟨3, by rw [hnum]; decide, hready⟩⟩

end QbvPort

end TsnReconfig.Shaper
