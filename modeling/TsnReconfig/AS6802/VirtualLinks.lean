import Mathlib.Algebra.BigOperators.Group.Finset.Basic
import Mathlib.Algebra.BigOperators.Pi
import Mathlib.Algebra.Ring.Nat
import TsnReconfig.AS6802.Bag
import TsnReconfig.Lib.Lists

/-!
# Virtual links

Rate-constrained buffers and the shapers of the ports that they send to. The copies of a frame leave
the ports at different times, and the last one sets the timer for the next frame. In the meantime
frames may arrive and the MACs may request packets in any order.
-/

namespace TsnReconfig.AS6802

open Lib Shaper

/-- A node with its buffers and ports at a number of ticks. `onTheWay` is what the buffers sent
to the ports at the present time, and `timers` what they have registered. -/
structure RCNode where
  now : ℕ := 0
  ports : ℕ
  rcBuffers : ℕ → RCBuffer
  shapers : ℕ → RCShaper
  onTheWay : List (ℕ × RCMessage) := []
  timers : List (ℕ × ℕ) := []
  departures : ℕ → List Departure := fun _ => []

inductive RCEvent
  | frame (b : ℕ) (frame : EtherFrame)
  | deliver (k : ℕ)
  | bestEffort (j : ℕ) (frame : EtherFrame)
  | requestPacket (j : ℕ)
  | timer (k : ℕ)
  | advance (t : ℕ)

namespace RCNode
variable (n : RCNode)

/-- A buffer after an operation, and the frame that it sends to its destination gates. -/
def setBuffer (b : ℕ) (onExpiry : Bool) (r : RCBuffer × Option EtherFrame) : RCNode :=
  let n := { n with rcBuffers := Function.update n.rcBuffers b r.1 }
  match r.2 with
  | none => n
  | some frame =>
    { n with
      onTheWay := n.onTheWay ++ r.1.destinationGates.map fun j => (j, ⟨b, frame⟩)
      departures := Function.update n.departures b (⟨n.now, onExpiry⟩ :: n.departures b) }

def resetBag (b : ℕ) : RCNode :=
  let r := (n.rcBuffers b).resetBag n.now
  { n with
    rcBuffers := Function.update n.rcBuffers b r.1
    timers := n.timers ++ r.2.toList.map fun timer => (n.now + timer, b) }

/-- A shaper after an operation, and the frame that leaves it. -/
def setShaper (j : ℕ) (r : RCShaper × Option Outgoing) : RCNode :=
  let n := { n with shapers := Function.update n.shapers j r.1 }
  match r.2 with
  | some (.rc message) => n.resetBag message.sender
  | _ => n

/-- What happens at the node. Nothing is left behind when the time advances. -/
def step (n : RCNode) : RCEvent → Option RCNode
  | .frame b frame => ((n.rcBuffers b).handleFrame frame).map (n.setBuffer b false)
  | .deliver k => do
    let m ← n.onTheWay[k]?
    return { n with onTheWay := n.onTheWay.eraseIdx k }.setShaper m.1
      ((n.shapers m.1).handleRC (n.rcBuffers m.2.sender).priority m.2)
  | .bestEffort j frame =>
    if j < n.ports then some (n.setShaper j ((n.shapers j).handleBE frame)) else none
  | .requestPacket j =>
    if j < n.ports then some (n.setShaper j (n.shapers j).requestPacket) else none
  | .timer k => do
    let timer ← n.timers[k]?
    if timer.1 = n.now then
      return { n with timers := n.timers.eraseIdx k }.setBuffer timer.2 true
        ((n.rcBuffers timer.2).handleTimer n.now)
    else none
  | .advance t =>
    if n.now < t ∧ n.onTheWay = [] ∧ ∀ timer ∈ n.timers, t ≤ timer.1 then
      some { n with now := t }
    else none

/-- Nothing has happened at the node yet, and its shapers have a queue for rate-constrained
frames. -/
structure Idle : Prop where
  gates : ∀ b, ∀ j ∈ (n.rcBuffers b).destinationGates, j < n.ports
  bagExpired : ∀ b, (n.rcBuffers b).bagExpired = true
  lastSent : ∀ b, (n.rcBuffers b).lastSent = 0
  queues : ∀ j < n.ports, (n.shapers j).rcQueue ≠ []
  empty : ∀ j < n.ports, ∀ queue ∈ (n.shapers j).rcQueue, queue = []
  onTheWay : n.onTheWay = []
  timers : n.timers = []
  departures : ∀ b, n.departures b = []

def system : System RCNode RCEvent where
  init := Idle
  step := step

end RCNode

/-! ## One shaper -/

namespace RCShaper
variable {t : RCShaper} {b : ℕ} {queues queues' : List (List RCMessage)} {message : RCMessage}
  {p : RCMessage → Bool}

/-- The frames of a buffer that wait. -/
def waiting (t : RCShaper) (b : ℕ) : ℕ := t.rcQueue.flatten.countP (·.sender = b)

/-- Whether a frame of a buffer leaves, as a number. -/
def leaving (b : ℕ) : Option Outgoing → ℕ
  | some (.rc message) => if message.sender = b then 1 else 0
  | _ => 0

theorem countP_modify {i : ℕ} (h : i < queues.length) :
    (queues.modify i (· ++ [message])).flatten.countP p =
      queues.flatten.countP p + if p message then 1 else 0 := by
  induction queues generalizing i with
  | nil => cases h
  | cons queue queues ih =>
    cases i with
    | zero =>
      rw [List.modify_zero_cons, List.flatten_cons, List.flatten_cons, List.countP_append,
        List.countP_append, List.countP_append, List.countP_singleton]
      omega
    | succ i =>
      rw [List.modify_succ_cons, List.flatten_cons, List.flatten_cons, List.countP_append,
        List.countP_append, ih (Nat.lt_of_succ_lt_succ h)]
      omega

theorem popQueues_eq_some (h : popQueues queues = some (message, queues')) :
    queues'.length = queues.length ∧ queues.flatten.countP p =
      queues'.flatten.countP p + if p message then 1 else 0 := by
  induction queues generalizing queues' with
  | nil => cases h
  | cons queue queues ih =>
    cases queue with
    | nil =>
      obtain ⟨⟨m, rest⟩, hrest, heq⟩ := Option.map_eq_some_iff.mp h
      cases heq
      obtain ⟨hlength, hcount⟩ := ih hrest
      exact ⟨congrArg Nat.succ hlength, hcount⟩
    | cons m queue =>
      cases h
      refine ⟨rfl, ?_⟩
      rw [List.flatten_cons, List.flatten_cons, List.cons_append, List.countP_cons]

theorem handleRC_spec {priority : ℤ} (hq : t.rcQueue ≠ []) :
    (t.handleRC priority message).1.rcQueue ≠ [] ∧
      (t.handleRC priority message).1.waiting b + leaving b (t.handleRC priority message).2 =
        t.waiting b + if message.sender = b then 1 else 0 := by
  unfold handleRC
  by_cases hrequested : 0 < t.framesRequested
  · rw [if_pos hrequested]
    exact ⟨hq, rfl⟩
  · rw [if_neg hrequested, enqueueRC]
    refine ⟨?_, ?_⟩
    · simpa using hq
    · have hlength := List.length_pos_iff.mpr hq
      rw [waiting, countP_modify]
      · simp [leaving, waiting]
      · split_ifs <;> omega

theorem handleBE_spec {frame : EtherFrame} :
    (t.handleBE frame).1.rcQueue = t.rcQueue ∧ leaving b (t.handleBE frame).2 = 0 := by
  unfold handleBE
  split_ifs
  · exact ⟨rfl, rfl⟩
  · exact ⟨rfl, rfl⟩

theorem requestPacket_spec (hq : t.rcQueue ≠ []) : t.requestPacket.1.rcQueue ≠ [] ∧
    t.requestPacket.1.waiting b + leaving b t.requestPacket.2 = t.waiting b := by
  unfold requestPacket pop
  dsimp only
  cases hpop : popQueues t.rcQueue with
  | some r =>
    obtain ⟨hlength, hcount⟩ := popQueues_eq_some (p := fun m => decide (m.sender = b)) hpop
    refine ⟨fun hnil => ?_, ?_⟩
    · dsimp only at hnil
      rw [hnil, List.length_nil, eq_comm] at hlength
      exact hq (List.eq_nil_of_length_eq_zero hlength)
    · rw [waiting, waiting, hcount]
      simp [leaving]
  | none =>
    cases hbe : t.beQueue with
    | nil => exact ⟨hq, rfl⟩
    | cons frame beQueue => exact ⟨hq, rfl⟩

end RCShaper

/-! ## The node -/

namespace RCNode
variable {n n' : RCNode} {b b' j k : ℕ} {extra : ℕ → ℕ}

/-- The copies of a buffer's frames in the ports. -/
def copies (n : RCNode) (b : ℕ) : ℕ :=
  n.onTheWay.countP (·.2.sender = b) + ∑ j ∈ Finset.range n.ports, (n.shapers j).waiting b

/-- When the timers of a buffer expire. -/
def dues (n : RCNode) (b : ℕ) : List ℕ :=
  (n.timers.filter (·.2 = b)).map (·.1)

/-- The node with copies that are in none of its parts at the moment. -/
structure InvWith (n : RCNode) (extra : ℕ → ℕ) : Prop where
  gates : ∀ b, ∀ j ∈ (n.rcBuffers b).destinationGates, j < n.ports
  onTheWay : ∀ m ∈ n.onTheWay, m.1 < n.ports
  queues : ∀ j < n.ports, (n.shapers j).rcQueue ≠ []
  account : ∀ b, (n.rcBuffers b).Account (n.copies b + extra b) (n.dues b).length
  spaced : ∀ b, (n.rcBuffers b).Spaced n.now (n.departures b) (n.dues b)

/-- No copy and no timer is lost, and the gaps are kept. -/
def Inv (n : RCNode) : Prop := n.InvWith fun _ => 0

theorem sum_update {f : ℕ → RCShaper} {t : RCShaper} {ports : ℕ} (hj : j < ports) :
    ∑ j' ∈ Finset.range ports, (Function.update f j t j').waiting b + (f j).waiting b =
      ∑ j' ∈ Finset.range ports, (f j').waiting b + t.waiting b := by
  have hmem : j ∈ Finset.range ports := Finset.mem_range.mpr hj
  have hrest : ∑ j' ∈ (Finset.range ports).erase j, (Function.update f j t j').waiting b =
      ∑ j' ∈ (Finset.range ports).erase j, (f j').waiting b := by
    refine Finset.sum_congr rfl fun j' hj' => ?_
    rw [Function.update_of_ne (Finset.ne_of_mem_erase hj')]
  rw [← Finset.sum_erase_add _ _ hmem, ← Finset.sum_erase_add _ (fun j' => (f j').waiting b) hmem,
    hrest, Function.update_self]
  omega

/-- A copy that has left its port is counted by its buffer. -/
theorem InvWith.resetBag (h : n.InvWith extra) {extra' : ℕ → ℕ}
    (hself : extra b = extra' b + 1) (hother : ∀ b', b' ≠ b → extra b' = extra' b') :
    (n.resetBag b).InvWith extra' := by
  have hdues : ∀ b', (n.resetBag b).dues b' = if b' = b then
      n.dues b ++ ((n.rcBuffers b).resetBag n.now).2.toList.map (n.now + ·) else n.dues b' := by
    intro b'
    unfold dues RCNode.resetBag
    dsimp only
    rw [List.filter_append, List.map_append]
    split_ifs with hb
    · subst hb
      cases ((n.rcBuffers b').resetBag n.now).2 with
      | none => rfl
      | some timer => simp
    · cases ((n.rcBuffers b).resetBag n.now).2 with
      | none => simp
      | some timer => simp [Ne.symm hb]
  refine ⟨fun b' => ?_, h.onTheWay, h.queues, fun b' => ?_, fun b' => ?_⟩
  · change ∀ j ∈ (Function.update n.rcBuffers b _ b').destinationGates, j < n.ports
    by_cases hb : b' = b
    · rw [hb, Function.update_self, RCBuffer.destinationGates_resetBag]
      exact h.gates b
    · rw [Function.update_of_ne hb]
      exact h.gates b'
  · change (Function.update n.rcBuffers b _ b').Account (n.copies b' + extra' b') _
    rw [hdues]
    have haccount := h.account b'
    by_cases hb : b' = b
    · subst hb
      rw [hself] at haccount
      rw [Function.update_self, if_pos rfl, List.length_append, List.length_map]
      exact haccount.resetBag
    · rw [hother b' hb] at haccount
      rw [Function.update_of_ne hb, if_neg hb]
      exact haccount
  · change (Function.update n.rcBuffers b _ b').Spaced n.now (n.departures b') _
    rw [hdues]
    have hspaced := h.spaced b'
    by_cases hb : b' = b
    · subst hb
      rw [Function.update_self, if_pos rfl]
      exact hspaced.resetBag
    · rw [Function.update_of_ne hb, if_neg hb]
      exact hspaced

theorem InvWith.setShaper (h : n.InvWith extra) (hj : j < n.ports)
    {r : RCShaper × Option Outgoing} (hq : r.1.rcQueue ≠ [])
    (hcount : ∀ b, r.1.waiting b + RCShaper.leaving b r.2 = (n.shapers j).waiting b + extra b) :
    (n.setShaper j r).Inv := by
  have hset : ({ n with shapers := Function.update n.shapers j r.1 } : RCNode).InvWith
      fun b => RCShaper.leaving b r.2 := by
    refine ⟨h.gates, h.onTheWay, fun j' hj' => ?_, fun b => ?_, h.spaced⟩
    · dsimp only
      by_cases heq : j' = j
      · rw [heq, Function.update_self]
        exact hq
      · rw [Function.update_of_ne heq]
        exact h.queues j' hj'
    · have haccount := h.account b
      have hsum := sum_update (b := b) (f := n.shapers) (t := r.1) hj
      have heq := hcount b
      have hcopies : ({ n with shapers := Function.update n.shapers j r.1 } : RCNode).copies b +
          RCShaper.leaving b r.2 = n.copies b + extra b := by
        unfold copies
        dsimp only
        omega
      rw [hcopies]
      exact haccount
  unfold RCNode.setShaper
  dsimp only
  cases hout : r.2 with
  | none =>
    rw [hout] at hset
    exact hset
  | some out =>
    rw [hout] at hset
    cases out with
    | rc message =>
      refine hset.resetBag ?_ fun b' hb' => ?_
      · simp [RCShaper.leaving]
      · simp [RCShaper.leaving, Ne.symm hb']
    | tt => exact hset
    | pcf => exact hset
    | be => exact hset

theorem countP_copies {gates : List ℕ} {frame : EtherFrame} :
    (gates.map fun j => (j, (⟨b, frame⟩ : RCMessage))).countP (·.2.sender = b') =
      if b' = b then gates.length else 0 := by
  rw [List.countP_map]
  split_ifs with hb
  · subst hb
    exact List.countP_eq_length.mpr fun j _ => by simp
  · exact List.countP_eq_zero.mpr fun j _ => by simp [Ne.symm hb]

/-- A buffer has changed, and the others have not. -/
theorem Inv.setBuffer {onExpiry : Bool} {r : RCBuffer × Option EtherFrame}
    (hgates : ∀ b', ∀ j ∈ (n.rcBuffers b').destinationGates, j < n.ports)
    (hown : r.1.destinationGates = (n.rcBuffers b).destinationGates)
    (honTheWay : ∀ m ∈ n.onTheWay, m.1 < n.ports)
    (hqueues : ∀ j < n.ports, (n.shapers j).rcQueue ≠ [])
    (haccount : r.1.Account (n.copies b + r.1.numCopies r.2) (n.dues b).length)
    (hspaced : r.1.Spaced n.now
      (if r.2.isSome then ⟨n.now, onExpiry⟩ :: n.departures b else n.departures b) (n.dues b))
    (hother : ∀ b', b' ≠ b → (n.rcBuffers b').Account (n.copies b') (n.dues b').length ∧
      (n.rcBuffers b').Spaced n.now (n.departures b') (n.dues b')) :
    (n.setBuffer b onExpiry r).Inv := by
  have hbuffer : ∀ b', ∀ j ∈ (Function.update n.rcBuffers b r.1 b').destinationGates,
      j < n.ports := by
    intro b'
    by_cases hb : b' = b
    · rw [hb, Function.update_self, hown]
      exact hgates b
    · rw [Function.update_of_ne hb]
      exact hgates b'
  unfold RCNode.setBuffer
  dsimp only
  cases hsent : r.2 with
  | none =>
    rw [hsent] at haccount hspaced
    refine ⟨hbuffer, honTheWay, hqueues, fun b' => ?_, fun b' => ?_⟩
    · dsimp only
      by_cases hb : b' = b
      · subst hb
        rw [Function.update_self]
        exact haccount
      · rw [Function.update_of_ne hb]
        exact (hother b' hb).1
    · dsimp only
      by_cases hb : b' = b
      · subst hb
        rw [Function.update_self]
        exact hspaced
      · rw [Function.update_of_ne hb]
        exact (hother b' hb).2
  | some frame =>
    rw [hsent] at haccount hspaced
    refine ⟨hbuffer, fun m hm => ?_, hqueues, fun b' => ?_, fun b' => ?_⟩
    · rcases List.mem_append.mp hm with hm | hm
      · exact honTheWay m hm
      · obtain ⟨j, hj, rfl⟩ := List.mem_map.mp hm
        rw [hown] at hj
        exact hgates b j hj
    · have hcopies : (n.setBuffer b onExpiry r).copies b' =
          n.copies b' + if b' = b then r.1.destinationGates.length else 0 := by
        unfold copies RCNode.setBuffer
        rw [hsent]
        dsimp only
        rw [List.countP_append, countP_copies]
        omega
      unfold RCNode.setBuffer at hcopies
      rw [hsent] at hcopies
      rw [hcopies]
      dsimp only
      by_cases hb : b' = b
      · subst hb
        rw [Function.update_self, if_pos rfl]
        exact haccount
      · rw [Function.update_of_ne hb, if_neg hb]
        exact (hother b' hb).1
    · dsimp only
      by_cases hb : b' = b
      · subst hb
        rw [Function.update_self, Function.update_self]
        exact hspaced
      · rw [Function.update_of_ne hb, Function.update_of_ne hb]
        exact (hother b' hb).2

theorem length_dues : (n.dues b).length = n.timers.countP (·.2 = b) := by
  rw [dues, List.length_map, List.countP_eq_length_filter]

/-- Nothing is in the ports and nothing is scheduled at first. -/
theorem Idle.inv (h : n.Idle) : n.Inv := by
  have hdues : ∀ b, n.dues b = [] := by
    intro b
    rw [dues, h.timers]
    rfl
  refine ⟨h.gates, ?_, h.queues, fun b => ?_, fun b => ?_⟩
  · rw [h.onTheWay]
    intro m hm
    cases hm
  · have hcopies : n.copies b = 0 := by
      rw [copies, h.onTheWay, List.countP_nil, Nat.zero_add]
      refine Finset.sum_eq_zero fun j hj => ?_
      rw [RCShaper.waiting, List.flatten_eq_nil_iff.mpr (h.empty j (Finset.mem_range.mp hj))]
      rfl
    rw [hcopies, hdues]
    exact .expired (h.bagExpired b)
  · rw [hdues, h.departures]
    exact {
      spaced := .nil
      lastSent_le := (h.lastSent b).trans_le (Nat.zero_le _)
      last := fun _ hd => by cases hd
      time_le := fun _ hd => by cases hd
      expired := fun _ _ hd => by cases hd
      due := fun _ hdue => by cases hdue }

theorem Inv.frame {frame : EtherFrame} (h : n.Inv)
    (hs : n.step (.frame b frame) = some n') : n'.Inv := by
  obtain ⟨r, hr, rfl⟩ := Option.map_eq_some_iff.mp hs
  have haccount := h.account b
  refine .setBuffer h.gates (RCBuffer.handleFrame_cases hr).1 h.onTheWay h.queues
    (haccount.handleFrame hr) ?_ fun b' _ => ⟨h.account b', h.spaced b'⟩
  refine (h.spaced b).handleFrame (fun hexpired => ?_) hr
  exact List.eq_nil_of_length_eq_zero (haccount.of_expired hexpired)

/-- A copy comes from the way into its shaper. -/
theorem Inv.deliver (h : n.Inv) (hs : n.step (.deliver k) = some n') : n'.Inv := by
  obtain ⟨⟨j, message⟩, hm, hs⟩ := Option.bind_eq_some_iff.mp hs
  cases hs
  obtain ⟨l₁, l₂, hway, herase⟩ := exists_eraseIdx hm
  have hj : j < n.ports := h.onTheWay _ (List.mem_of_getElem? hm)
  have hq := h.queues j hj
  have hrest : ({ n with onTheWay := n.onTheWay.eraseIdx k } : RCNode).InvWith
      fun b => if message.sender = b then 1 else 0 := by
    refine ⟨h.gates, fun m hm => h.onTheWay m (List.mem_of_mem_eraseIdx hm), h.queues,
      fun b => ?_, h.spaced⟩
    have haccount := h.account b
    have hcopies : ({ n with onTheWay := n.onTheWay.eraseIdx k } : RCNode).copies b +
        (if message.sender = b then 1 else 0) = n.copies b := by
      unfold copies
      dsimp only
      rw [herase, hway, List.countP_append, List.countP_append, List.countP_cons]
      simp only [decide_eq_true_eq]
      omega
    rw [hcopies]
    exact haccount
  exact hrest.setShaper hj (RCShaper.handleRC_spec (b := 0) hq).1
    fun b => (RCShaper.handleRC_spec hq).2

theorem Inv.bestEffort {frame : EtherFrame} (h : n.Inv)
    (hs : n.step (.bestEffort j frame) = some n') : n'.Inv := by
  rw [step] at hs
  split_ifs at hs with hj
  cases hs
  refine InvWith.setShaper h hj ?_ fun b => ?_
  · rw [(RCShaper.handleBE_spec (b := 0)).1]
    exact h.queues j hj
  · rw [RCShaper.handleBE_spec.2, RCShaper.waiting, RCShaper.handleBE_spec (b := 0) |>.1]
    rfl

theorem Inv.requestPacket (h : n.Inv) (hs : n.step (.requestPacket j) = some n') : n'.Inv := by
  rw [step] at hs
  split_ifs at hs with hj
  cases hs
  have hq := h.queues j hj
  exact InvWith.setShaper h hj (RCShaper.requestPacket_spec (b := 0) hq).1
    fun b => (RCShaper.requestPacket_spec hq).2

/-- The timer that expires is the only one of its buffer. -/
theorem Inv.timer (h : n.Inv) (hs : n.step (.timer k) = some n') : n'.Inv := by
  obtain ⟨⟨due, b⟩, htimer, hs⟩ := Option.bind_eq_some_iff.mp hs
  dsimp only at hs
  split_ifs at hs with hdue
  cases hs
  obtain ⟨l₁, l₂, htimers, herase⟩ := exists_eraseIdx htimer
  obtain ⟨erased, herased⟩ : ∃ erased : RCNode,
      erased = { n with timers := n.timers.eraseIdx k } := ⟨_, rfl⟩
  have hdues : ∀ b', b' ≠ b → erased.dues b' = n.dues b' := by
    intro b' hb'
    rw [herased, dues, dues, herase, htimers, List.filter_append, List.filter_append,
      List.filter_cons_of_neg]
    simpa using hb'.symm
  have hlength : (n.dues b).length = (erased.dues b).length + 1 := by
    rw [herased, length_dues, length_dues, herase, htimers, List.countP_append,
      List.countP_append, List.countP_cons]
    simp
    omega
  have haccount := h.account b
  obtain ⟨hone, hpos⟩ := haccount.of_timer (by omega)
  have hnone : erased.dues b = [] := List.eq_nil_of_length_eq_zero (by omega)
  have hown : n.dues b = [n.now] := by
    obtain ⟨due', hdue'⟩ := List.length_eq_one_iff.mp hone
    have hmem : due ∈ n.dues b := by
      rw [dues, htimers]
      simp
    rw [hdue', List.mem_singleton] at hmem
    rw [hdue', ← hmem, hdue]
  rw [hlength] at haccount
  have hspaced := h.spaced b
  rw [hown, ← hnone] at hspaced
  rw [← herased]
  subst herased
  refine .setBuffer h.gates (RCBuffer.handleTimer_cases hpos rfl).1 h.onTheWay h.queues
    (haccount.handleTimer rfl) (hspaced.handleTimer hnone hpos rfl) fun b' hb' => ?_
  rw [hdues b' hb']
  exact ⟨h.account b', h.spaced b'⟩

theorem Inv.advance {t : ℕ} (h : n.Inv) (hs : n.step (.advance t) = some n') : n'.Inv := by
  rw [step] at hs
  split_ifs at hs with hadvance
  cases hs
  obtain ⟨hlt, -, htimers⟩ := hadvance
  refine ⟨h.gates, h.onTheWay, h.queues, h.account, fun b => ?_⟩
  have hspaced := h.spaced b
  refine { hspaced with
    lastSent_le := hspaced.lastSent_le.trans hlt.le
    time_le := fun d hd => (hspaced.time_le d hd).trans hlt.le
    expired := fun hb d hd => (hspaced.expired hb d hd).trans hlt.le
    due := fun due hdue => ⟨?_, (hspaced.due due hdue).2⟩ }
  obtain ⟨timer, htimer, rfl⟩ := List.mem_map.mp hdue
  exact htimers timer (List.mem_of_mem_filter htimer)

theorem Inv.step {e : RCEvent} (h : n.Inv) (hs : n.step e = some n') : n'.Inv := by
  cases e with
  | frame => exact h.frame hs
  | deliver => exact h.deliver hs
  | bestEffort => exact h.bestEffort hs
  | requestPacket => exact h.requestPacket hs
  | timer => exact h.timer hs
  | advance => exact h.advance hs

theorem reachable_of_runFrom {es : List RCEvent} (h : n.Idle)
    (hr : system.runFrom n es = some n') : system.Reachable n' :=
  System.reachable_of_runFrom (s := n) h hr

theorem inv_of_reachable (h : system.Reachable n) : n.Inv :=
  h.invariant (fun _ hinit => Idle.inv hinit) fun _ _ _ hinv hs => hinv.step hs

/-- A frame leaves its buffer a bandwidth allocation gap after one that left when a timer expired,
and at most the jitter earlier than that after one that left as soon as it came. So many frames
leave the buffer in a window at most. -/
theorem departures_apart (h : system.Reachable n) (b : ℕ) :
    (n.departures b).Pairwise (fun later earlier =>
      earlier.time + (n.rcBuffers b).gap earlier ≤ later.time) ∧
    ∀ start width,
      ((n.departures b).countP (fun d => start ≤ d.time ∧ d.time ≤ start + width) - 1) *
        ((n.rcBuffers b).bag - (n.rcBuffers b).jitter) ≤ width := by
  have hspaced := ((inv_of_reachable h).spaced b).spaced
  refine ⟨hspaced, fun start width => ?_⟩
  rw [List.countP_eq_length_filter]
  refine mul_gap_le_of_pairwise Departure.time start ?_ ?_
  · refine (hspaced.filter _).imp fun {later earlier} hgap => ?_
    have hle : (n.rcBuffers b).bag - (n.rcBuffers b).jitter ≤ (n.rcBuffers b).gap earlier := by
      rw [RCBuffer.gap]
      split_ifs
      · exact Nat.sub_le _ _
      · exact le_rfl
    omega
  · intro d hd
    simpa using (List.mem_filter.mp hd).2

/-- A buffer that may not send waits for copies in the ports or for one timer, never for both and
never for nothing. -/
theorem sends_or_waits (h : system.Reachable n) (b : ℕ) :
    if (n.rcBuffers b).bagExpired then n.copies b = 0 ∧ n.dues b = []
    else (0 < n.copies b ∧ n.dues b = [] ∧
        (n.rcBuffers b).numReset + n.copies b = (n.rcBuffers b).destinationGates.length) ∨
      (n.copies b = 0 ∧ ∃ due, n.dues b = [due] ∧ n.now ≤ due) := by
  have hinv := inv_of_reachable h
  have haccount := hinv.account b
  have hspaced := hinv.spaced b
  generalize hcopies : n.copies b + 0 = copies at haccount
  generalize htimers : (n.dues b).length = timers at haccount
  cases haccount with
  | expired hexpired =>
    rw [if_pos hexpired]
    exact ⟨hcopies, List.eq_nil_of_length_eq_zero htimers⟩
  | inPorts hclosed hpos hall =>
    rw [if_neg (by simp [hclosed])]
    subst hcopies
    exact .inl ⟨hpos, List.eq_nil_of_length_eq_zero htimers, hall⟩
  | waiting hclosed _ =>
    rw [if_neg (by simp [hclosed])]
    obtain ⟨due, hdue⟩ := List.length_eq_one_iff.mp htimers
    refine .inr ⟨hcopies, due, hdue, (hspaced.due due ?_).1⟩
    rw [hdue]
    exact List.mem_cons_self

/-- A buffer with two ports. -/
def twoPorts : RCNode where
  ports := 2
  rcBuffers _ := { bag := 10, jitter := 4, destinationGates := [0, 1], buffer := .queue {} }
  shapers _ := { rcQueue := [[]] }

theorem idle_twoPorts : twoPorts.Idle where
  gates _ j hj := by
    change j ∈ [0, 1] at hj
    change j < 2
    simp only [List.mem_cons, List.not_mem_nil, or_false] at hj
    omega
  bagExpired _ := rfl
  lastSent _ := rfl
  queues _ _ := List.cons_ne_nil _ _
  empty _ _ queue hqueue := List.mem_singleton.mp hqueue
  onTheWay := rfl
  timers := rfl
  departures _ := rfl

/-- A frame leaves as soon as it comes, and the next one waits for the timer. -/
def twoFrames : List RCEvent :=
  [.requestPacket 0, .requestPacket 1, .advance 20, .frame 0 ⟨1, 100⟩, .deliver 0, .deliver 0,
    .advance 22, .frame 0 ⟨2, 100⟩, .advance 26, .timer 0]

/-- The jitter is used up. -/
theorem departures_apart_twoFrames : ∃ n, system.runFrom twoPorts twoFrames = some n ∧
    n.departures 0 = [⟨26, true⟩, ⟨20, false⟩] ∧
    (n.departures 0).Pairwise fun later earlier =>
      earlier.time + (n.rcBuffers 0).gap earlier ≤ later.time := by
  obtain ⟨n, hn, hdepartures⟩ : ∃ n, system.runFrom twoPorts twoFrames = some n ∧
      n.departures 0 = [⟨26, true⟩, ⟨20, false⟩] := ⟨_, rfl, rfl⟩
  have hreachable := reachable_of_runFrom idle_twoPorts hn
  exact ⟨n, hn, hdepartures, (departures_apart hreachable 0).1⟩

/-- The copies of the second frame are in the ports. -/
theorem sends_or_waits_twoFrames : ∃ n, system.runFrom twoPorts twoFrames = some n ∧
    n.copies 0 = 2 ∧ n.dues 0 = [] := by
  obtain ⟨n, hn, hexpired, hdues⟩ : ∃ n, system.runFrom twoPorts twoFrames = some n ∧
      (n.rcBuffers 0).bagExpired = false ∧
      ((n.rcBuffers 0).numReset, (n.rcBuffers 0).destinationGates.length, n.dues 0) =
        (0, 2, []) := ⟨_, rfl, rfl, rfl⟩
  obtain ⟨hnum, hgates, hdues⟩ : (n.rcBuffers 0).numReset = 0 ∧
      (n.rcBuffers 0).destinationGates.length = 2 ∧ n.dues 0 = [] := by
    simpa using hdues
  have h := sends_or_waits (reachable_of_runFrom idle_twoPorts hn) 0
  rw [if_neg (by simp [hexpired])] at h
  rcases h with ⟨-, -, hall⟩ | ⟨-, due, hdue, -⟩
  · exact ⟨n, hn, by omega, hdues⟩
  · rw [hdues] at hdue
    cases hdue

end RCNode

end TsnReconfig.AS6802
