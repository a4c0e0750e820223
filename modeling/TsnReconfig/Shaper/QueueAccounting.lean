import TsnReconfig.Shaper.Reopening
import TsnReconfig.Shaper.Selection

/-!
# The size of a queue

`QueueBuffer` counts the bytes of its frames, and a credit based shaper charges for what the count
decreases by. `clear` leaves the count as it is, and a long frame that is dropped for a short one is
charged as if it had been sent.
-/

namespace TsnReconfig.Shaper

open Avb Gates Lib

namespace QbvQueue
variable (q : QbvQueue) {frame popFrame : EtherFrame} {frames : List EtherFrame}

/-- `clear`. -/
def clear : QbvQueue := { q with frames := [] }

/-- The sum of the byte lengths of the frames. -/
def bytes : ℕ := (q.frames.map EtherFrame.byteLength).sum

/-- There is no room for a frame. -/
def isFull : Bool := 0 ≤ q.maxSize && q.maxSize ≤ q.size

/-- What `enqueue` drops. -/
def droppedBy (newFrame : EtherFrame) : List EtherFrame :=
  if q.isFull then if q.dropNew then [newFrame] else q.frames.take 1 else []

theorem enqueue_of_room (h : q.isFull = false) : q.enqueue frame = some (q.insert frame) := by
  rw [isFull, Bool.and_eq_false_iff, decide_eq_false_iff_not, decide_eq_false_iff_not] at h
  rw [enqueue, if_neg]
  exact fun hfull => h.elim (absurd hfull.1) (absurd hfull.2)

theorem enqueue_of_dropNew (h : q.isFull = true) (hdrop : q.dropNew = true) :
    q.enqueue frame = some (q, none) := by
  rw [isFull, Bool.and_eq_true, decide_eq_true_eq, decide_eq_true_eq] at h
  rw [enqueue, if_pos h, if_pos hdrop]

theorem enqueue_of_dropOld (h : q.isFull = true) (hdrop : q.dropNew = false)
    (hframes : q.frames = popFrame :: frames) : q.enqueue frame =
      some ({ q with frames, queueSize := q.queueSize - popFrame.byteLength }.insert frame) := by
  rw [isFull, Bool.and_eq_true, decide_eq_true_eq, decide_eq_true_eq] at h
  rw [enqueue, if_pos h, if_neg (Bool.eq_false_iff.mp hdrop), hframes]

end QbvQueue

/-! ## The size signal -/

/-- What the shaper charges for a signal of the queue. -/
def SelectionAlgorithm.charge (a : SelectionAlgorithm) (l : ℕ) : List ℕ :=
  a.shaper.toList.flatMap fun c => if l < c.queueSize then [c.queueSize - l] else []

namespace SelectionAlgorithm

variable {a : SelectionAlgorithm} {c : CreditBasedShaper} {r : Readings} {l : ℕ}

/-- It charges with `sendSlope`, for the bytes and what goes on the wire with them. -/
theorem receiveSize_of_charge (h : a.shaper = some c) (hl : l < c.queueSize) :
    a.charge l = [c.queueSize - l] ∧ a.receiveSize r l =
      a.sendSlope r { c with previousQueueSize := c.queueSize, queueSize := l }
        (((c.queueSize - l + preambleBytes + sfdBytes + interframeGapBits / 8) * 8 : ℕ) /
          c.nominalDatarate) := by
  constructor
  · simp [charge, h, hl]
  · simp only [receiveSize, h]
    rw [if_neg (lt_asymm hl), if_pos hl]

/-- Else it does not. -/
theorem receiveSize_of_not_charge (h : a.shaper = some c) (hl : c.queueSize ≤ l) :
    a.charge l = [] ∧ (a.receiveSize r l = a.idleSlope r
        { c with previousQueueSize := c.queueSize, queueSize := l } (c.queueSize = 0) ∨
      a.receiveSize r l =
        ({ a with shaper := some { c with previousQueueSize := c.queueSize, queueSize := l } }, [])) := by
  constructor
  · simp [charge, h, hl]
  · simp only [receiveSize, h]
    by_cases hlt : c.queueSize < l
    · exact .inl (if_pos hlt)
    · rw [if_neg hlt, if_neg (not_lt.mpr hl)]
      exact .inr rfl

theorem queueSize_idleSlope (c : CreditBasedShaper) (maxCreditZero : Bool) :
    ∃ c', (a.idleSlope r c maxCreditZero).1.shaper = some c' ∧ c'.queueSize = c.queueSize := by
  unfold idleSlope
  dsimp only
  split_ifs
  · exact ⟨_, rfl, rfl⟩
  · exact ⟨_, rfl, CreditBasedShaper.scheduleZero_queueSize ..⟩
  · exact ⟨_, rfl, CreditBasedShaper.scheduleZero_queueSize ..⟩

theorem queueSize_sendSlope (c : CreditBasedShaper) (duration : ℚ) :
    ∃ c', (a.sendSlope r c duration).1.shaper = some c' ∧ c'.queueSize = c.queueSize := by
  unfold sendSlope
  dsimp only
  split_ifs
  · exact ⟨_, rfl, CreditBasedShaper.registerEvent_queueSize ..⟩
  · exact ⟨_, rfl, rfl⟩

theorem queueSize_receiveSize (h : a.shaper = some c) (l : ℕ) :
    ∃ c', (a.receiveSize r l).1.shaper = some c' ∧ c'.queueSize = l := by
  by_cases hl : l < c.queueSize
  · rw [(receiveSize_of_charge h hl).2]
    exact queueSize_sendSlope _ _
  · rcases (receiveSize_of_not_charge (r := r) h (not_lt.mp hl)).2 with heq | heq
    · rw [heq]
      exact queueSize_idleSlope _ _
    · rw [heq]
      exact ⟨_, rfl, rfl⟩

end SelectionAlgorithm

/-! ## Runs of a queue -/

/-- A queue with the shaper that listens to it. `enqueued`, `dequeued` and `dropped` have the frames
in the order in which they came and went, and `charged` the bytes that the shaper has charged. -/
structure QueueRun where
  queue : QbvQueue
  algorithm : SelectionAlgorithm
  enqueued : List EtherFrame := []
  dequeued : List EtherFrame := []
  dropped : List EtherFrame := []
  charged : List ℕ := []

/-- A call of the queue. The parameter `dropNew` is read at every frame. -/
inductive QueueEvent
  | enqueue (frame : EtherFrame) (dropNew : Bool) (r : Readings)
  | dequeue (r : Readings)
  | clear

namespace QueueRun

/-- The signal `size`, if there is one. -/
def listen (s : QueueRun) (r : Readings) : Option ℕ → QueueRun
  | none => s
  | some l =>
    { s with
      algorithm := (s.algorithm.receiveSize r l).1
      charged := s.charged ++ s.algorithm.charge l }

def step (s : QueueRun) : QueueEvent → Option QueueRun
  | .enqueue frame dropNew r =>
    let q := { s.queue with dropNew }
    (q.enqueue frame).map fun out =>
      { s with
        queue := out.1
        enqueued := s.enqueued ++ [frame]
        dropped := s.dropped ++ q.droppedBy frame }.listen r out.2
  | .dequeue r =>
    match s.queue.dequeue with
    | none => some s
    | some (frame, queue) =>
      some ({ s with queue, dequeued := s.dequeued ++ [frame] }.listen r (some queue.queueSize))
  | .clear => some { s with queue := s.queue.clear, dropped := s.dropped ++ s.queue.frames }

/-- The queue is empty, with a maximal length of at least one, and the shaper knows it is empty. -/
def runs : System QueueRun QueueEvent where
  init s := 1 ≤ s.queue.maxSize ∧ s.queue.frames = [] ∧ s.queue.queueSize = 0 ∧
    (∃ c, s.algorithm.shaper = some c ∧ c.queueSize = 0) ∧ s.enqueued = [] ∧ s.dequeued = [] ∧
      s.dropped = [] ∧ s.charged = []
  step := step

/-- The count is the sum of the lengths, frames leave in the order in which they came, each is in the
queue, was dequeued or was dropped, there are not too many, and exactly those that were dequeued
were charged. -/
structure Exact (s : QueueRun) : Prop where
  size : s.queue.queueSize = s.queue.bytes
  fifo : (s.dequeued ++ s.queue.frames).Sublist s.enqueued
  kept : s.enqueued.Perm (s.dequeued ++ s.queue.frames ++ s.dropped)
  bounded : (s.queue.size : ℤ) ≤ s.queue.maxSize
  charged : s.charged = s.dequeued.map EtherFrame.byteLength

/-- No shorter frame replaces the oldest one, no frame that is sent is empty, and no bytes are
cleared. -/
def accountsFor (s : QueueRun) : QueueEvent → Bool
  | .enqueue frame dropNew _ =>
    dropNew || !s.queue.isFull || s.queue.frames.head?.all (·.byteLength ≤ frame.byteLength)
  | .dequeue _ => s.queue.frames.head?.all (·.byteLength ≠ 0)
  | .clear => s.queue.bytes = 0

/-! ## The invariant -/

variable {s s' : QueueRun} {frame : EtherFrame} {dropNew : Bool} {r : Readings}

/-- The accounting is exact, and the shaper knows the count. -/
structure Inv (s : QueueRun) : Prop where
  exact : s.Exact
  positive : 1 ≤ s.queue.maxSize
  shaper : ∃ c, s.algorithm.shaper = some c ∧ c.queueSize = s.queue.queueSize

theorem inv_init (h : runs.init s) : s.Inv := by
  obtain ⟨hmax, hframes, hsize, hshaper, henqueued, hdequeued, hdropped, hcharged⟩ := h
  refine ⟨⟨?_, ?_, ?_, ?_, ?_⟩, hmax, ?_⟩
  · rw [hsize, QbvQueue.bytes, hframes]
    rfl
  · rw [hdequeued, hframes, henqueued]
    exact List.nil_sublist _
  · rw [hdequeued, hframes, henqueued, hdropped]
    exact List.Perm.refl _
  · rw [QbvQueue.size, hframes, List.length_nil]
    omega
  · rw [hcharged, hdequeued]
    rfl
  · rw [hsize]
    exact hshaper

/-- A signal tells the shaper the count, and it charges what the count has decreased by. -/
theorem listen_spec {n : ℕ} (h : ∃ c, s.algorithm.shaper = some c ∧ c.queueSize = n) (l : ℕ) :
    (∃ c, (s.listen r (some l)).algorithm.shaper = some c ∧ c.queueSize = l) ∧
      (s.listen r (some l)).charged = s.charged ++ if l < n then [n - l] else [] := by
  obtain ⟨c, hc, rfl⟩ := h
  refine ⟨SelectionAlgorithm.queueSize_receiveSize hc l, ?_⟩
  change s.charged ++ s.algorithm.charge l = _
  simp [SelectionAlgorithm.charge, hc]

theorem Inv.clear (h : s.Inv) (hbytes : s.queue.bytes = 0) :
    Inv { s with queue := s.queue.clear, dropped := s.dropped ++ s.queue.frames } where
  exact := by
    obtain ⟨hsize, hfifo, hkept, hbounded, hcharged⟩ := h.exact
    constructor
    · change s.queue.queueSize = 0
      rw [hsize, hbytes]
    · change (s.dequeued ++ []).Sublist s.enqueued
      rw [List.append_nil]
      exact (List.sublist_append_left _ _).trans hfifo
    · change s.enqueued.Perm (s.dequeued ++ [] ++ (s.dropped ++ s.queue.frames))
      rw [List.append_nil]
      refine hkept.trans ?_
      rw [List.append_assoc]
      exact List.Perm.append_left _ List.perm_append_comm
    · change ((0 : ℕ) : ℤ) ≤ s.queue.maxSize
      have hmax := h.positive
      omega
    · exact hcharged
  positive := h.positive
  shaper := h.shaper

theorem Inv.dequeue (h : s.Inv) {frames : List EtherFrame} (hframes : s.queue.frames = frame :: frames)
    (hlength : frame.byteLength ≠ 0) : Inv ({ s with
      queue := { s.queue with frames, queueSize := s.queue.queueSize - frame.byteLength }
      dequeued := s.dequeued ++ [frame] }.listen r
        (some (s.queue.queueSize - frame.byteLength))) := by
  obtain ⟨hsize, hfifo, hkept, hbounded, hcharged⟩ := h.exact
  obtain ⟨hshaper, hlisten⟩ := listen_spec (r := r) (s := { s with
    queue := { s.queue with frames, queueSize := s.queue.queueSize - frame.byteLength }
    dequeued := s.dequeued ++ [frame] }) h.shaper (s.queue.queueSize - frame.byteLength)
  have hbytes : s.queue.bytes = frame.byteLength + (frames.map EtherFrame.byteLength).sum := by
    rw [QbvQueue.bytes, hframes, List.map_cons, List.sum_cons]
  rw [hframes] at hfifo hkept
  refine ⟨⟨?_, ?_, ?_, ?_, ?_⟩, h.positive, hshaper⟩
  · change s.queue.queueSize - frame.byteLength = (frames.map EtherFrame.byteLength).sum
    omega
  · change (s.dequeued ++ [frame] ++ frames).Sublist s.enqueued
    rw [List.append_assoc]
    exact hfifo
  · change s.enqueued.Perm (s.dequeued ++ [frame] ++ frames ++ s.dropped)
    rw [List.append_assoc s.dequeued]
    exact hkept
  · change (frames.length : ℤ) ≤ s.queue.maxSize
    have hlonger : s.queue.size = frames.length + 1 := by
      rw [QbvQueue.size, hframes, List.length_cons]
    omega
  · rw [hlisten]
    change s.charged ++ _ = (s.dequeued ++ [frame]).map _
    rw [if_pos (by omega), hcharged, List.map_append, List.map_singleton]
    congr 2
    omega

/-- A frame finds room. -/
theorem Inv.insert (h : s.Inv) (hroom : s.queue.isFull = false) : Inv ({ s with
      queue := ({ s.queue with dropNew }.insert frame).1
      enqueued := s.enqueued ++ [frame] }.listen r ({ s.queue with dropNew }.insert frame).2) := by
  obtain ⟨hsize, hfifo, hkept, hbounded, hcharged⟩ := h.exact
  obtain ⟨hshaper, hlisten⟩ := listen_spec (r := r) (s := { s with
    queue := ({ s.queue with dropNew }.insert frame).1
    enqueued := s.enqueued ++ [frame] }) h.shaper (s.queue.queueSize + frame.byteLength)
  refine ⟨⟨?_, ?_, ?_, ?_, ?_⟩, h.positive, hshaper⟩
  · change s.queue.queueSize + frame.byteLength =
      ((s.queue.frames ++ [frame]).map EtherFrame.byteLength).sum
    rw [List.map_append, List.sum_append, List.map_singleton, List.sum_singleton, hsize]
    rfl
  · change (s.dequeued ++ (s.queue.frames ++ [frame])).Sublist (s.enqueued ++ [frame])
    rw [← List.append_assoc]
    exact hfifo.append_right _
  · change (s.enqueued ++ [frame]).Perm (s.dequeued ++ (s.queue.frames ++ [frame]) ++ s.dropped)
    rw [← List.append_assoc, List.append_assoc _ [frame]]
    refine (hkept.append_right _).trans ?_
    rw [List.append_assoc]
    exact List.Perm.append_left _ List.perm_append_comm
  · change ((s.queue.frames ++ [frame]).length : ℤ) ≤ s.queue.maxSize
    rw [QbvQueue.isFull, Bool.and_eq_false_iff, decide_eq_false_iff_not,
      decide_eq_false_iff_not] at hroom
    have hmax := h.positive
    have hlt : (s.queue.size : ℤ) < s.queue.maxSize := by omega
    rw [QbvQueue.size] at hlt
    rw [List.length_append, List.length_singleton]
    omega
  · change (listen _ r (some (s.queue.queueSize + frame.byteLength))).charged = _
    rw [hlisten, if_neg (by omega), List.append_nil]
    exact hcharged

/-- The oldest frame goes for a frame that is not shorter. -/
theorem Inv.dropOld (h : s.Inv) {popFrame : EtherFrame} {frames : List EtherFrame}
    (hframes : s.queue.frames = popFrame :: frames) (hle : popFrame.byteLength ≤ frame.byteLength) :
    Inv ({ s with
      queue := ({ s.queue with
        dropNew, frames, queueSize := s.queue.queueSize - popFrame.byteLength }.insert frame).1
      enqueued := s.enqueued ++ [frame]
      dropped := s.dropped ++ [popFrame] }.listen r ({ s.queue with
        dropNew, frames, queueSize := s.queue.queueSize - popFrame.byteLength }.insert frame).2) := by
  obtain ⟨hsize, hfifo, hkept, hbounded, hcharged⟩ := h.exact
  obtain ⟨hshaper, hlisten⟩ := listen_spec (r := r) (s := { s with
    queue := ({ s.queue with
      dropNew, frames, queueSize := s.queue.queueSize - popFrame.byteLength }.insert frame).1
    enqueued := s.enqueued ++ [frame]
    dropped := s.dropped ++ [popFrame] }) h.shaper
      (s.queue.queueSize - popFrame.byteLength + frame.byteLength)
  have hbytes : s.queue.bytes = popFrame.byteLength + (frames.map EtherFrame.byteLength).sum := by
    rw [QbvQueue.bytes, hframes, List.map_cons, List.sum_cons]
  rw [hframes] at hfifo hkept
  refine ⟨⟨?_, ?_, ?_, ?_, ?_⟩, h.positive, hshaper⟩
  · change s.queue.queueSize - popFrame.byteLength + frame.byteLength =
      ((frames ++ [frame]).map EtherFrame.byteLength).sum
    rw [List.map_append, List.sum_append, List.map_singleton, List.sum_singleton]
    omega
  · change (s.dequeued ++ (frames ++ [frame])).Sublist (s.enqueued ++ [frame])
    rw [← List.append_assoc]
    refine List.Sublist.append_right ?_ _
    exact (List.Sublist.append_left (List.sublist_cons_self _ _) _).trans hfifo
  · change (s.enqueued ++ [frame]).Perm
      (s.dequeued ++ (frames ++ [frame]) ++ (s.dropped ++ [popFrame]))
    refine (hkept.append_right _).trans ?_
    rw [List.perm_iff_count]
    intro x
    simp only [List.count_append, List.count_cons, List.count_nil]
    omega
  · change ((frames ++ [frame]).length : ℤ) ≤ s.queue.maxSize
    rw [QbvQueue.size, hframes, List.length_cons] at hbounded
    rw [List.length_append, List.length_singleton]
    exact hbounded
  · change (listen _ r (some (s.queue.queueSize - popFrame.byteLength + frame.byteLength))).charged = _
    -- the size does not decrease, so nothing is charged
    rw [hlisten, if_neg (by omega), List.append_nil]
    exact hcharged

theorem Inv.enqueue (h : s.Inv) (hok : s.accountsFor (.enqueue frame dropNew r) = true)
    (hs : step s (.enqueue frame dropNew r) = some s') : s'.Inv := by
  change Option.map _ (QbvQueue.enqueue { s.queue with dropNew } frame) = some s' at hs
  cases hfull : s.queue.isFull with
  | false =>
    have hroom : QbvQueue.isFull { s.queue with dropNew } = false := hfull
    rw [QbvQueue.enqueue_of_room _ hroom, Option.map_some] at hs
    obtain rfl := Option.some.inj hs
    have hdropped : s.dropped ++ QbvQueue.droppedBy { s.queue with dropNew } frame = s.dropped := by
      rw [QbvQueue.droppedBy, if_neg (Bool.eq_false_iff.mp hroom), List.append_nil]
    rw [hdropped]
    exact h.insert hfull
  | true =>
    have hfull' : QbvQueue.isFull { s.queue with dropNew } = true := hfull
    cases dropNew with
    | true =>
      rw [QbvQueue.enqueue_of_dropNew _ hfull' rfl, Option.map_some] at hs
      obtain rfl := Option.some.inj hs
      obtain ⟨hsize, hfifo, hkept, hbounded, hcharged⟩ := h.exact
      have hdropped : QbvQueue.droppedBy { s.queue with dropNew := true } frame = [frame] := by
        rw [QbvQueue.droppedBy, if_pos hfull']
        rfl
      refine ⟨⟨hsize, hfifo.trans (List.sublist_append_left _ _), ?_, hbounded, hcharged⟩,
        h.positive, h.shaper⟩
      change (s.enqueued ++ [frame]).Perm (s.dequeued ++ s.queue.frames ++
        (s.dropped ++ QbvQueue.droppedBy { s.queue with dropNew := true } frame))
      rw [hdropped, ← List.append_assoc]
      exact hkept.append_right _
    | false =>
      cases hframes : s.queue.frames with
      | nil =>
        -- a queue without frames is not full
        rw [QbvQueue.isFull, QbvQueue.size, hframes, Bool.and_eq_true, decide_eq_true_eq,
          decide_eq_true_eq, List.length_nil] at hfull
        have hmax := h.positive
        omega
      | cons popFrame frames =>
        rw [QbvQueue.enqueue_of_dropOld _ hfull' rfl hframes, Option.map_some] at hs
        obtain rfl := Option.some.inj hs
        have hle : popFrame.byteLength ≤ frame.byteLength := by
          simpa [accountsFor, hfull, hframes] using hok
        have hdropped : QbvQueue.droppedBy { s.queue with dropNew := false } frame =
            [popFrame] := by
          rw [QbvQueue.droppedBy, if_pos hfull']
          change s.queue.frames.take 1 = _
          rw [hframes]
          rfl
        rw [hdropped]
        exact h.dropOld hframes hle

theorem Inv.step {e : QueueEvent} (h : s.Inv) (hok : s.accountsFor e = true)
    (hs : QueueRun.step s e = some s') : s'.Inv := by
  cases e with
  | enqueue frame dropNew r => exact h.enqueue hok hs
  | dequeue r =>
    simp only [QueueRun.step, QbvQueue.dequeue] at hs
    cases hframes : s.queue.frames with
    | nil =>
      rw [hframes] at hs
      obtain rfl := Option.some.inj hs
      exact h
    | cons frame frames =>
      rw [hframes] at hs
      obtain rfl := Option.some.inj hs
      have hlength : frame.byteLength ≠ 0 := by simpa [accountsFor, hframes] using hok
      exact h.dequeue hframes hlength
  | clear =>
    obtain rfl := Option.some.inj hs
    exact h.clear (of_decide_eq_true hok)

/-- The accounting is exact in every run in which no shorter frame replaces the oldest one, no frame
that is sent is empty, and no bytes are cleared. -/
theorem exact_of_accountsFor (h : runs.ReachableUnder (accountsFor · ·) s) : s.Exact := by
  have hinv : s.Inv := h.invariant (fun _ => inv_init) fun _ _ _ _ hP hok hs => hP.step hok hs
  exact hinv.exact

/-- An empty queue for one frame. -/
def oneFrameQueue : QueueRun where
  queue := { maxSize := 1 }
  algorithm := ⟨.opened, some { srClass := .A, nominalDatarate := 100000000 }⟩

theorem oneFrameQueue_init : runs.init oneFrameQueue :=
  ⟨by decide, rfl, rfl, ⟨_, rfl, rfl⟩, rfl, rfl, rfl, rfl⟩

theorem exact_oneFrameQueue : ∃ s : QueueRun, s.dropped.length = 1 ∧ s.dequeued.length = 1 ∧
    s.Exact := by
  have hrun : ((runs.runUnder (accountsFor · ·) oneFrameQueue
      [.enqueue ⟨1, 64⟩ false (TimedShaper.reading 0 0),
        .enqueue ⟨2, 1000⟩ false (TimedShaper.reading 0 0),
        .dequeue (TimedShaper.reading 0 0)]).any
      fun s => s.dropped.length = 1 ∧ s.dequeued.length = 1) = true := by
    decide +kernel
  obtain ⟨s, hs, hlengths⟩ := (Option.any_eq_true _ _).mp hrun
  obtain ⟨hdropped, hdequeued⟩ := of_decide_eq_true hlengths
  exact ⟨s, hdropped, hdequeued,
    exact_of_accountsFor (System.ReachableUnder.run (.init oneFrameQueue_init) hs)⟩

/-- A long frame is dropped for a short one, and their difference is charged. -/
theorem not_exact_dropOldest : ¬∀ s : QueueRun, runs.Reachable s → s.Exact := by
  intro h
  have hrun : ((runs.runFrom oneFrameQueue
      [.enqueue ⟨1, 1000⟩ false (TimedShaper.reading 0 0),
        .enqueue ⟨2, 64⟩ false (TimedShaper.reading 0 0)]).any
      fun s => s.dequeued = [] ∧ s.charged = [936]) = true := by
    decide +kernel
  obtain ⟨s, hs, hcharges⟩ := (Option.any_eq_true _ _).mp hrun
  obtain ⟨hdequeued, hcharged⟩ := of_decide_eq_true hcharges
  have hexact := (h s (System.reachable_of_runFrom oneFrameQueue_init hs)).charged
  rw [hdequeued, hcharged] at hexact
  cases hexact

end QueueRun

end TsnReconfig.Shaper
