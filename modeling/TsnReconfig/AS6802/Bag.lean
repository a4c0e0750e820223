import TsnReconfig.AS6802.RCBuffer

/-!
# Bandwidth allocation gaps

A buffer sends a frame, counts the copies that leave its ports, sets a timer with the last one and
may send the next frame when it expires. The timer makes up for the time that the copies needed, but
for no more than the jitter.
-/

namespace TsnReconfig.AS6802

open Shaper

/-- A frame has left its buffer, when a timer expired or as soon as it came. -/
structure Departure where
  time : ℕ
  onExpiry : Bool
  deriving DecidableEq

/-! ## Copies and timers -/

namespace RCBuffer
variable {b b' : RCBuffer} {copies timers now : ℕ} {frame : EtherFrame}
  {sent : Option EtherFrame}

/-- Where the buffer stands: it may send, or so many copies of its last frame are in the ports, or a
timer is registered. -/
inductive Account (b : RCBuffer) : ℕ → ℕ → Prop
  | expired (bagExpired : b.bagExpired = true) : b.Account 0 0
  | inPorts {copies : ℕ} (bagExpired : b.bagExpired = false) (pos : 0 < copies)
      (all : b.numReset + copies = b.destinationGates.length) : b.Account copies 0
  | waiting (bagExpired : b.bagExpired = false) (gates : 0 < b.destinationGates.length) :
    b.Account 0 1

/-- The copies of a frame. -/
def numCopies (b : RCBuffer) (sent : Option EtherFrame) : ℕ :=
  if sent.isSome then b.destinationGates.length else 0

/-- What a frame does to a buffer. -/
theorem handleFrame_cases (h : b.handleFrame frame = some (b', sent)) :
    b'.destinationGates = b.destinationGates ∧ b'.bag = b.bag ∧ b'.jitter = b.jitter ∧
      b'.lastSent = b.lastSent ∧
      ((sent = none ∧ b'.bagExpired = b.bagExpired ∧ b'.numReset = b.numReset) ∨
        (sent.isSome ∧ 0 < b.destinationGates.length ∧ b.bagExpired = true ∧
          b'.bagExpired = false ∧ b'.numReset = 0)) := by
  obtain ⟨buffer, -, h⟩ := Option.bind_eq_some_iff.mp h
  dsimp only at h
  split_ifs at h with hopen
  · split at h
    · cases h
      exact ⟨rfl, rfl, rfl, rfl, .inr ⟨rfl, hopen.1, hopen.2, rfl, rfl⟩⟩
    · cases h
      exact ⟨rfl, rfl, rfl, rfl, .inl ⟨rfl, rfl, rfl⟩⟩
  · cases h
    exact ⟨rfl, rfl, rfl, rfl, .inl ⟨rfl, rfl, rfl⟩⟩

/-- What a timer event does to a buffer with destination gates. -/
theorem handleTimer_cases (hpos : 0 < b.destinationGates.length)
    (h : b.handleTimer now = (b', sent)) :
    b'.destinationGates = b.destinationGates ∧ b'.bag = b.bag ∧ b'.jitter = b.jitter ∧
      ((sent = none ∧ b'.bagExpired = true ∧ b'.lastSent = b.lastSent) ∨
        (sent.isSome ∧ b'.bagExpired = false ∧ b'.numReset = 0 ∧ b'.lastSent = now)) := by
  rw [handleTimer, if_pos hpos] at h
  split at h
  · cases h
    exact ⟨rfl, rfl, rfl, .inr ⟨rfl, rfl, rfl, rfl⟩⟩
  · cases h
    exact ⟨rfl, rfl, rfl, .inl ⟨rfl, rfl, rfl⟩⟩

theorem Account.handleFrame (h : b.Account copies timers)
    (hs : b.handleFrame frame = some (b', sent)) :
    b'.Account (copies + b'.numCopies sent) timers := by
  obtain ⟨hgates, -, -, -, hsent⟩ := handleFrame_cases hs
  rw [numCopies, hgates]
  rcases hsent with ⟨rfl, hexpired, hnum⟩ | ⟨hsome, hpos, hopen, hexpired, hnum⟩
  · cases h with
    | expired hb => exact .expired (hexpired.trans hb)
    | inPorts hb pos all =>
      refine .inPorts (hexpired.trans hb) pos ?_
      rw [hnum, hgates]
      exact all
    | waiting hb hpos => exact .waiting (hexpired.trans hb) (hgates ▸ hpos)
  · rw [if_pos hsome]
    cases h with
    | expired hb =>
      refine .inPorts hexpired (by omega) ?_
      rw [hnum, hgates]
      omega
    | inPorts hb => exact absurd (hopen.symm.trans hb) (by decide)
    | waiting hb => exact absurd (hopen.symm.trans hb) (by decide)

theorem Account.handleTimer (h : b.Account copies (timers + 1))
    (hs : b.handleTimer now = (b', sent)) :
    b'.Account (copies + b'.numCopies sent) timers := by
  cases h with
  | waiting hb hpos =>
    obtain ⟨hgates, -, -, hsent⟩ := handleTimer_cases hpos hs
    rw [numCopies, hgates]
    rcases hsent with ⟨rfl, hexpired, -⟩ | ⟨hsome, hexpired, hnum, -⟩
    · exact .expired hexpired
    · rw [if_pos hsome]
      refine .inPorts hexpired (by omega) ?_
      rw [hnum, hgates]
      omega

/-- A copy has left its port. -/
theorem Account.resetBag (h : b.Account (copies + 1) timers) :
    (b.resetBag now).1.Account copies (timers + (b.resetBag now).2.toList.length) := by
  cases h with
  | inPorts hb pos all =>
    unfold RCBuffer.resetBag
    dsimp only
    by_cases hlast : b.numReset + 1 = b.destinationGates.length
    · rw [if_pos hlast]
      obtain rfl : copies = 0 := by omega
      refine .waiting hb ?_
      change 0 < b.destinationGates.length
      omega
    · rw [if_neg hlast]
      refine .inPorts hb (by omega) ?_
      change b.numReset + 1 + copies = b.destinationGates.length
      omega

/-- A buffer with a timer has nothing else, and gates to send to. -/
theorem Account.of_timer (h : b.Account copies timers) (hpos : 0 < timers) :
    timers = 1 ∧ 0 < b.destinationGates.length := by
  cases h with
  | expired => cases hpos
  | inPorts => cases hpos
  | waiting _ hgates => exact ⟨rfl, hgates⟩

/-- A buffer that may send has no timer. -/
theorem Account.of_expired (h : b.Account copies timers) (hb : b.bagExpired = true) :
    timers = 0 := by
  cases h with
  | expired => rfl
  | inPorts hclosed => exact absurd (hb.symm.trans hclosed) (by decide)
  | waiting hclosed => exact absurd (hb.symm.trans hclosed) (by decide)

theorem destinationGates_resetBag : (b.resetBag now).1.destinationGates = b.destinationGates := by
  unfold RCBuffer.resetBag
  dsimp only
  split_ifs
  all_goals rfl

/-! ## The gaps between departures -/

/-- What lies between a departure and the next one at least. -/
def gap (b : RCBuffer) (d : Departure) : ℕ :=
  if d.onExpiry then b.bag else b.bag - b.jitter

/-- The departures of a buffer, the last one first, and what keeps the next one away from them. -/
structure Spaced (b : RCBuffer) (now : ℕ) (departures : List Departure) (dues : List ℕ) :
    Prop where
  spaced : departures.Pairwise fun later earlier => earlier.time + b.gap earlier ≤ later.time
  lastSent_le : b.lastSent ≤ now
  last : ∀ d ∈ departures.head?, b.lastSent ≤ d.time ∧ (d.onExpiry = true → b.lastSent = d.time)
  time_le : ∀ d ∈ departures, d.time ≤ now
  expired : b.bagExpired = true → ∀ d ∈ departures, d.time + b.gap d ≤ now
  due : ∀ due ∈ dues, now ≤ due ∧ ∀ d ∈ departures, d.time + b.gap d ≤ due

variable {departures : List Departure} {dues : List ℕ} {due : ℕ}

theorem gap_eq (hbag : b'.bag = b.bag) (hjitter : b'.jitter = b.jitter) : b'.gap = b.gap := by
  funext d
  rw [gap, gap, hbag, hjitter]

/-- The buffer sends a frame when it may. -/
theorem Spaced.send {onExpiry : Bool} (h : b.Spaced now departures dues) (hgap : b'.gap = b.gap)
    (hmay : ∀ d ∈ departures, d.time + b.gap d ≤ now) (hexpired : b'.bagExpired = false)
    (hdues : dues = []) (hlast : b'.lastSent ≤ now)
    (hsent : onExpiry = true → b'.lastSent = now) :
    b'.Spaced now (⟨now, onExpiry⟩ :: departures) dues where
  spaced := by
    rw [hgap]
    exact List.pairwise_cons.mpr ⟨hmay, h.spaced⟩
  lastSent_le := hlast
  last d hd := by
    cases hd
    exact ⟨hlast, hsent⟩
  time_le d hd := by
    rcases List.mem_cons.mp hd with rfl | hd
    · exact le_rfl
    · exact h.time_le d hd
  expired hb := by
    rw [hexpired] at hb
    cases hb
  due due hdue := by
    rw [hdues] at hdue
    cases hdue

theorem Spaced.handleFrame (h : b.Spaced now departures dues)
    (hdues : b.bagExpired = true → dues = [])
    (hs : b.handleFrame frame = some (b', sent)) :
    b'.Spaced now (if sent.isSome then ⟨now, false⟩ :: departures else departures) dues := by
  obtain ⟨-, hbag, hjitter, hlast, hsent⟩ := handleFrame_cases hs
  have hgap := gap_eq hbag hjitter
  rcases hsent with ⟨rfl, hexpired, -⟩ | ⟨hsome, -, hopen, hexpired, -⟩
  · exact {
      spaced := hgap ▸ h.spaced
      lastSent_le := hlast ▸ h.lastSent_le
      last := hlast ▸ h.last
      time_le := h.time_le
      expired := by
        rw [hexpired, hgap]
        exact h.expired
      due := hgap ▸ h.due }
  · rw [if_pos hsome]
    refine h.send hgap (h.expired hopen) hexpired (hdues hopen) (hlast ▸ h.lastSent_le) ?_
    intro hfalse
    cases hfalse

theorem Spaced.handleTimer (h : b.Spaced now departures (now :: dues)) (hdues : dues = [])
    (hpos : 0 < b.destinationGates.length) (hs : b.handleTimer now = (b', sent)) :
    b'.Spaced now (if sent.isSome then ⟨now, true⟩ :: departures else departures) dues := by
  obtain ⟨-, hbag, hjitter, hsent⟩ := handleTimer_cases hpos hs
  have hgap := gap_eq hbag hjitter
  have hmay := (h.due now List.mem_cons_self).2
  have hrest : b.Spaced now departures dues :=
    { h with due := fun due hdue => h.due due (List.mem_cons_of_mem _ hdue) }
  rcases hsent with ⟨rfl, -, hlast⟩ | ⟨hsome, hexpired, -, hlast⟩
  · exact {
      spaced := hgap ▸ h.spaced
      lastSent_le := hlast ▸ h.lastSent_le
      last := hlast ▸ h.last
      time_le := h.time_le
      expired := fun _ => hgap ▸ hmay
      due := hgap ▸ hrest.due }
  · rw [if_pos hsome]
    exact hrest.send hgap hmay hexpired hdues hlast.le fun _ => hlast

/-- The timer that the last copy sets is not too early: it makes up for the time that the copies
needed, but for no more than the jitter. -/
theorem Spaced.resetBag (h : b.Spaced now departures dues) :
    (b.resetBag now).1.Spaced now departures
      (dues ++ (b.resetBag now).2.toList.map (now + ·)) := by
  unfold RCBuffer.resetBag
  dsimp only
  have hrest : ({ b with numReset := b.numReset + 1 } : RCBuffer).Spaced now departures dues :=
    ⟨h.spaced, h.lastSent_le, h.last, h.time_le, h.expired, h.due⟩
  by_cases hlast : b.numReset + 1 = b.destinationGates.length
  · rw [if_pos hlast]
    refine { hrest with due := fun due hdue => ?_ }
    rcases List.mem_append.mp hdue with hdue | hdue
    · exact hrest.due due hdue
    obtain ⟨timer, htimer, rfl⟩ := List.mem_map.mp hdue
    rw [Option.toList_some, List.mem_singleton] at htimer
    refine ⟨Nat.le_add_right _ _, ?_⟩
    -- the last departure keeps its gap, and the ones before are behind it
    have hhead : ∀ d ∈ departures.head?, d.time + b.gap d ≤ now + timer := by
      intro d hd
      obtain ⟨hle, heq⟩ := h.last d hd
      have htime := h.time_le d (List.mem_of_mem_head? hd)
      rw [htimer, gap]
      by_cases hon : d.onExpiry = true
      · have hsent := heq hon
        rw [if_pos hon]
        split_ifs <;> omega
      · rw [if_neg hon]
        split_ifs <;> omega
    intro d hd
    change d.time + b.gap d ≤ now + timer
    cases departures with
    | nil => cases hd
    | cons d' departures =>
      have hfirst := hhead d' rfl
      rcases List.mem_cons.mp hd with rfl | hd
      · exact hfirst
      · have hbefore := (List.pairwise_cons.mp h.spaced).1 d hd
        omega
  · rw [if_neg hlast]
    simpa using hrest

end RCBuffer

end TsnReconfig.AS6802
