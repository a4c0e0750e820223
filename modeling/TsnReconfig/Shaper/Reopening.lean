import TsnReconfig.Lib.System
import TsnReconfig.Shaper.SelectionAlgorithm

/-!
# Closed shapers

A credit based shaper that has no credit waits for a timer event. The event is lost when it comes
while nothing is reserved, and a frame that leaves the queue empty may leave it with credit.
-/

namespace TsnReconfig.Shaper

open Avb Gates Lib

namespace CreditBasedShaper
variable (c : CreditBasedShaper) (ticks reservedBandwidth : ℕ) (preciseTick : ℚ)

/-- The time that it takes to send a frame, after which the queue has a size. -/
def sendDuration (size : ℕ) : ℚ :=
  ((c.queueSize - size + preambleBytes + sfdBytes + interframeGapBits / 8) * 8 : ℕ) /
    c.nominalDatarate

@[simp] theorem registerEvent_credit : (c.registerEvent ticks).credit = c.credit := by
  unfold registerEvent
  split_ifs <;> rfl

@[simp] theorem registerEvent_queueSize : (c.registerEvent ticks).queueSize = c.queueSize := by
  unfold registerEvent
  split_ifs <;> rfl

theorem registerEvent_timer : (c.registerEvent ticks).timer ≠ none := by
  unfold registerEvent
  split_ifs with h
  · exact Option.some_ne_none ticks
  · exact h

@[simp] theorem scheduleZero_credit :
    (c.scheduleZero reservedBandwidth preciseTick).credit = c.credit := by
  unfold scheduleZero
  split_ifs
  · exact registerEvent_credit ..
  · rfl

@[simp] theorem scheduleZero_queueSize :
    (c.scheduleZero reservedBandwidth preciseTick).queueSize = c.queueSize := by
  unfold scheduleZero
  split_ifs
  · exact registerEvent_queueSize ..
  · rfl

theorem scheduleZero_timer (h : c.credit < 0) :
    (c.scheduleZero reservedBandwidth preciseTick).timer ≠ none := by
  rw [scheduleZero, if_pos h]
  exact registerEvent_timer c _

theorem gain_credit_le (currentTime : ℚ) :
    (c.gain reservedBandwidth currentTime true).credit ≤ 0 := by
  dsimp only [gain]
  split_ifs with h
  · exact le_refl 0
  · exact not_lt.mp fun hpos => h ⟨rfl, hpos⟩

end CreditBasedShaper

/-- The shaper is open if and only if it has credit, without credit it has scheduled an event, and
it has no more than zero while the queue is empty. -/
structure SelectionAlgorithm.Reopens (a : SelectionAlgorithm) (c : CreditBasedShaper) : Prop where
  shaper : a.shaper = some c
  opened_iff : a.state = .opened ↔ 0 ≤ c.credit
  scheduled : c.credit < 0 → c.timer ≠ none
  empty : c.queueSize = 0 → c.credit ≤ 0

/-- A shaper at a time. `differences` has the differences of the bandwidths of the port and of the
reservations with which frames were charged. -/
structure TimedShaper where
  algorithm : SelectionAlgorithm
  time : ℚ := 0
  differences : List ℤ := []

/-- A signal of the queue, for frames that arrive or depart, a request of the selection, the timer
event, and the signal of the MAC. -/
inductive ShaperEvent
  | size (l : ℕ)
  | isOpen
  | timer
  | macIdle
  deriving DecidableEq

def ShaperEvent.run (a : SelectionAlgorithm) (r : Readings) :
    ShaperEvent → SelectionAlgorithm × List GateState
  | .size l => a.receiveSize r l
  | .isOpen => a.isOpen r
  | .timer => a.handleMessage r
  | .macIdle => a.macIdle r

namespace TimedShaper

/-- The difference that a departure evaluates. -/
def evaluated (c : CreditBasedShaper) (r : Readings) : ShaperEvent → List ℤ
  | .size l =>
    if l < c.queueSize then [c.portBandwidth - r.getBandwidthForModuleAndSRClass c.srClass] else []
  | _ => []

/-- An event at a time that does not go back, while no more is reserved than the bandwidth of the
port. The timer event comes only if it is scheduled. -/
def step (s : TimedShaper) (e : Readings × ShaperEvent) : Option TimedShaper :=
  match s.algorithm.shaper with
  | none => none
  | some c =>
    if s.time ≤ e.1.currentTime ∧
        (e.1.getBandwidthForModuleAndSRClass c.srClass : ℤ) ≤ c.portBandwidth ∧
        (e.2 = .timer → c.timer ≠ none) then
      some ⟨(e.2.run s.algorithm e.1).1, e.1.currentTime,
        evaluated c e.1 e.2 ++ s.differences⟩
    else none

def runs : System TimedShaper (Readings × ShaperEvent) where
  init s := ∃ srClass nominalDatarate,
    s = { algorithm := ⟨.opened, some { srClass, nominalDatarate }⟩ }
  step := step

/-- A closed shaper will reopen, and no difference of the bandwidths was negative. -/
structure AlwaysReopens (s : TimedShaper) : Prop where
  reopens : ∃ c, s.algorithm.Reopens c
  differences : ∀ d ∈ s.differences, 0 ≤ d

/-- The timer event finds a reservation or credit, and a frame that leaves the queue empty costs all
the credit there is. -/
def paysOff (s : TimedShaper) (e : Readings × ShaperEvent) : Bool :=
  s.algorithm.shaper.all fun c =>
    let reservedBandwidth := e.1.getBandwidthForModuleAndSRClass c.srClass
    match e.2 with
    | .timer => reservedBandwidth != 0 || decide ((0 : ℤ) ≤ c.credit)
    | .size l => l != 0 || c.queueSize == 0 ||
        decide (c.credit ≤ ⌈((c.portBandwidth : ℚ) - reservedBandwidth) * c.sendDuration l⌉)
    | .isOpen => true
    | .macIdle => true

/-! ## What the operations keep -/

variable {a : SelectionAlgorithm} {c : CreditBasedShaper} {r : Readings}

theorem refreshState_opened_iff (a : SelectionAlgorithm) (c : CreditBasedShaper) :
    (a.refreshState c).1.state = .opened ↔ 0 ≤ c.credit := by
  change (if c.credit < 0 then GateState.closed else .opened) = .opened ↔ _
  split_ifs with h
  · exact ⟨fun hstate => (by cases hstate), fun hcredit => absurd h (not_lt.mpr hcredit)⟩
  · exact ⟨fun _ => not_lt.mp h, fun _ => rfl⟩

/-- `idleSlope` with a reservation schedules an event if there is no credit, and it gains none for an
empty queue. -/
theorem reopens_idleSlope {maxCreditZero : Bool} {c₀ : CreditBasedShaper}
    (hcredit : c₀.credit = c.credit) (hopened : a.state = .opened ↔ 0 ≤ c.credit)
    (hempty : c₀.queueSize = 0 → maxCreditZero = true ∧ c.credit ≤ 0)
    (hreserved : r.getBandwidthForModuleAndSRClass c₀.srClass ≠ 0 ∨ 0 ≤ c.credit ∨
      c₀.timer ≠ none) : ∃ c', (a.idleSlope r c₀ maxCreditZero).1.Reopens c' := by
  rw [← hcredit] at hopened hempty hreserved
  unfold SelectionAlgorithm.idleSlope
  dsimp only
  split_ifs with hzero hduration
  · -- nothing is reserved, and nothing is done
    refine ⟨_, rfl, hopened, fun hneg => ?_, fun hqueue => (hempty hqueue).2⟩
    rcases hreserved with hreserved | hcredit | hscheduled
    · exact absurd hzero hreserved
    · exact absurd hneg (not_lt.mpr hcredit)
    · exact hscheduled
  · refine ⟨_, rfl, refreshState_opened_iff a _, fun hneg => ?_, fun hqueue => ?_⟩
    · rw [CreditBasedShaper.scheduleZero_credit] at hneg
      exact CreditBasedShaper.scheduleZero_timer _ _ _ hneg
    · rw [CreditBasedShaper.scheduleZero_queueSize] at hqueue
      rw [CreditBasedShaper.scheduleZero_credit, (hempty hqueue).1]
      exact CreditBasedShaper.gain_credit_le ..
  · refine ⟨_, rfl, ?_, fun hneg => ?_, fun hqueue => ?_⟩
    · rw [CreditBasedShaper.scheduleZero_credit]
      exact hopened
    · rw [CreditBasedShaper.scheduleZero_credit] at hneg
      exact CreditBasedShaper.scheduleZero_timer _ _ _ hneg
    · rw [CreditBasedShaper.scheduleZero_queueSize] at hqueue
      rw [CreditBasedShaper.scheduleZero_credit]
      exact (hempty hqueue).2

/-- `sendSlope` schedules an event, and the condition on the credit leaves an empty queue none. -/
theorem reopens_sendSlope {duration : ℚ} (h : a.Reopens c) {c₀ : CreditBasedShaper}
    (hcredit : c₀.credit = c.credit) (htimer : c₀.timer = c.timer)
    (hreserved : (r.getBandwidthForModuleAndSRClass c₀.srClass : ℤ) ≤ c₀.portBandwidth)
    (hempty : c₀.queueSize = 0 → c.credit ≤
      ⌈((c₀.portBandwidth : ℚ) - r.getBandwidthForModuleAndSRClass c₀.srClass) * duration⌉) :
    ∃ c', (a.sendSlope r c₀ duration).1.Reopens c' := by
  unfold SelectionAlgorithm.sendSlope
  dsimp only
  split_ifs with hduration
  · refine ⟨_, rfl, refreshState_opened_iff a _, fun _ => ?_, fun hqueue => ?_⟩
    · exact CreditBasedShaper.registerEvent_timer _ _
    · rw [CreditBasedShaper.registerEvent_queueSize] at hqueue
      rw [CreditBasedShaper.registerEvent_credit]
      have hcost := hempty hqueue
      rw [← hcredit] at hcost
      exact sub_nonpos.mpr hcost
  · refine ⟨_, rfl, ?_, fun hneg => ?_, fun hqueue => ?_⟩
    · rw [hcredit]
      exact h.opened_iff
    · rw [hcredit] at hneg
      rw [htimer]
      exact h.scheduled hneg
    · rw [hcredit]
      refine (hempty hqueue).trans (Int.ceil_le.mpr ?_)
      -- nothing is charged, as the time is not positive
      have hdifference : (0 : ℚ) ≤ (c₀.portBandwidth : ℚ) -
          r.getBandwidthForModuleAndSRClass c₀.srClass := by
        rw [sub_nonneg]
        exact_mod_cast hreserved
      rw [Int.cast_zero]
      exact mul_nonpos_of_nonneg_of_nonpos hdifference (not_lt.mp hduration)

/-- What an event leaves, under the condition. -/
theorem reopens_run {s : TimedShaper} {e : ShaperEvent} (h : s.algorithm.Reopens c)
    (hreserved : (r.getBandwidthForModuleAndSRClass c.srClass : ℤ) ≤ c.portBandwidth)
    (hok : s.paysOff (r, e) = true) : ∃ c', (e.run s.algorithm r).1.Reopens c' := by
  rw [paysOff, h.shaper, Option.all_some] at hok
  have hempty : c.queueSize = 0 → decide (c.queueSize = 0) = true ∧ c.credit ≤ 0 := fun hqueue =>
    ⟨decide_eq_true hqueue, h.empty hqueue⟩
  have hidle : r.getBandwidthForModuleAndSRClass c.srClass ≠ 0 ∨ 0 ≤ c.credit ∨ c.timer ≠ none := by
    by_cases hneg : c.credit < 0
    · exact .inr (.inr (h.scheduled hneg))
    · exact .inr (.inl (not_lt.mp hneg))
  cases e with
  | size l =>
    simp only [ShaperEvent.run, SelectionAlgorithm.receiveSize, h.shaper]
    simp only [Bool.or_eq_true, bne_iff_ne, beq_iff_eq, decide_eq_true_eq] at hok
    split_ifs with harrived hdeparted
    · refine reopens_idleSlope rfl h.opened_iff (fun hqueue => ?_) hidle
      have hzero : l = 0 := hqueue
      omega
    · refine reopens_sendSlope h rfl rfl hreserved fun hqueue => ?_
      have hzero : l = 0 := hqueue
      have hne : c.queueSize ≠ 0 := by omega
      exact hok.resolve_left fun hor => hor.elim (fun hl => hl hzero) hne
    · have hsame : l = c.queueSize := by omega
      subst hsame
      exact ⟨_, rfl, h.opened_iff, h.scheduled, h.empty⟩
  | isOpen =>
    simp only [ShaperEvent.run, SelectionAlgorithm.isOpen, h.shaper]
    exact reopens_idleSlope rfl h.opened_iff hempty hidle
  | timer =>
    simp only [ShaperEvent.run, SelectionAlgorithm.handleMessage, h.shaper]
    simp only [Bool.or_eq_true, bne_iff_ne, decide_eq_true_eq] at hok
    refine reopens_idleSlope rfl h.opened_iff hempty ?_
    exact hok.imp_right .inl
  | macIdle =>
    simp only [ShaperEvent.run, SelectionAlgorithm.macIdle, h.shaper]
    exact reopens_idleSlope rfl h.opened_iff hempty hidle

/-- What a step is. -/
theorem step_eq_some {s s' : TimedShaper} {e : Readings × ShaperEvent}
    (h : s.algorithm.shaper = some c) (hs : step s e = some s') :
    (e.1.getBandwidthForModuleAndSRClass c.srClass : ℤ) ≤ c.portBandwidth ∧
      s' = ⟨(e.2.run s.algorithm e.1).1, e.1.currentTime,
        evaluated c e.1 e.2 ++ s.differences⟩ := by
  simp only [step, h] at hs
  split_ifs at hs with hguard
  exact ⟨hguard.2.1, (Option.some.inj hs).symm⟩

theorem differences_evaluated {e : ShaperEvent}
    (hreserved : (r.getBandwidthForModuleAndSRClass c.srClass : ℤ) ≤ c.portBandwidth) :
    ∀ d ∈ evaluated c r e, 0 ≤ d := by
  intro d hd
  cases e with
  | size l =>
    simp only [evaluated] at hd
    split_ifs at hd
    · rw [List.mem_singleton.mp hd]
      exact sub_nonneg.mpr hreserved
    · cases hd
  | isOpen => cases hd
  | timer => cases hd
  | macIdle => cases hd

theorem AlwaysReopens.step {s s' : TimedShaper} {e : Readings × ShaperEvent}
    (h : s.AlwaysReopens) (hok : s.paysOff e = true) (hs : TimedShaper.step s e = some s') :
    s'.AlwaysReopens := by
  obtain ⟨c, hc⟩ := h.reopens
  obtain ⟨hreserved, rfl⟩ := step_eq_some hc.shaper hs
  refine ⟨reopens_run hc hreserved hok, fun d hd => ?_⟩
  rcases List.mem_append.mp hd with hd | hd
  · exact differences_evaluated hreserved d hd
  · exact h.differences d hd

/-- The condition is needed in each step. -/
theorem AlwaysReopens.paysOff {s s' : TimedShaper} {e : Readings × ShaperEvent}
    (h : s.AlwaysReopens) (h' : s'.AlwaysReopens) (hs : TimedShaper.step s e = some s')
    (hrate : ∀ c, s.algorithm.shaper = some c → 0 < c.nominalDatarate) : s.paysOff e = true := by
  obtain ⟨c, hc⟩ := h.reopens
  obtain ⟨hreserved, rfl⟩ := step_eq_some hc.shaper hs
  obtain ⟨c', hc'⟩ := h'.reopens
  rw [TimedShaper.paysOff, hc.shaper, Option.all_some]
  obtain ⟨r, e⟩ := e
  cases e with
  | size l =>
    by_cases hl : l = 0
    · subst hl
      by_cases hqueue : c.queueSize = 0
      · simp [hqueue]
      · -- even an empty frame takes time on the wire, so that the credit is charged
        have hduration : 0 < c.sendDuration 0 := by
          refine div_pos ?_ (hrate c hc.shaper)
          exact_mod_cast Nat.mul_pos (by simp [preambleBytes, sfdBytes]) (by decide)
        have hshaper := hc'.shaper
        have hcredit := hc'.empty
        simp only [ShaperEvent.run, SelectionAlgorithm.receiveSize, hc.shaper, Nat.not_lt_zero,
          if_false, if_pos (Nat.pos_of_ne_zero hqueue)] at hshaper
        unfold CreditBasedShaper.sendDuration at hduration
        unfold SelectionAlgorithm.sendSlope at hshaper
        rw [if_pos hduration] at hshaper
        obtain rfl := Option.some.inj hshaper
        have hpaid := hcredit (CreditBasedShaper.registerEvent_queueSize _ _)
        rw [CreditBasedShaper.registerEvent_credit] at hpaid
        simp only [Bool.or_eq_true, decide_eq_true_eq]
        exact .inr (sub_nonpos.mp hpaid)
    · simp [hl]
  | isOpen => rfl
  | timer =>
    by_cases hzero : r.getBandwidthForModuleAndSRClass c.srClass = 0
    · have hshaper := hc'.shaper
      simp only [ShaperEvent.run, SelectionAlgorithm.handleMessage, hc.shaper,
        SelectionAlgorithm.idleSlope, hzero, if_true] at hshaper
      obtain rfl := Option.some.inj hshaper
      simp only [hzero, bne_self_eq_false, Bool.false_or, decide_eq_true_eq]
      -- without a reservation nothing is scheduled in place of the event that came
      exact not_lt.mp fun hneg => hc'.scheduled hneg rfl
    · simp [hzero]
  | macIdle => rfl

/-- A clock with the ticks of bytes at 100 Mbit/s, and a reservation. -/
def reading (currentTime : ℚ) (reservedBandwidth : ℕ) : Readings :=
  ⟨currentTime, 8 / 100000000, fun _ => reservedBandwidth⟩

def fastEthernet : TimedShaper :=
  { algorithm := ⟨.opened, some { srClass := .A, nominalDatarate := 100000000 }⟩ }

end TimedShaper

end TsnReconfig.Shaper
