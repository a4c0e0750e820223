import Mathlib.Data.List.Sort
import Mathlib.Order.Bounds.Basic
import TsnReconfig.Gates.Timer

/-!
# Timers with clock correction

`Timer` with both kinds of events and `clockCorrection`. The tick of the oscillator is constant, and
sums of times do not overflow.
-/

namespace TsnReconfig.Gates

/-- `SimTime::getMaxTime`. -/
def maxTime : ℕ := 9223372036854775807

/-- `static_cast<uint64_t>` of a sum of ticks. -/
def toUInt64 (x : ℤ) : ℕ :=
  if 0 ≤ x then x.toNat else (x + 18446744073709551616).toNat

/-- A `SchedulerActionTimeEvent` with the period it is registered for. -/
structure ActionTimeEvent (E : Type*) where
  event : E
  actionTime : ℕ
  nextCycle : Bool
  period : Period
  deriving DecidableEq, Repr

/-- `Timer`; the action points of `SchedulerTimerEvent`s are in a map of their own. -/
structure CorrectedTimer (E : Type*) extends Timer (ActionTimeEvent E) where
  registredTimerEvents : List (ℕ × E) := []
  allowedEventDelay : ℤ := -1
  deriving DecidableEq, Repr

/-- The map that is built by one `push_back` after the other. -/
def pushAll {E : Type*} (l : List (ℕ × E)) : List (ℕ × E) :=
  l.foldl (fun m x => pushBack x.1 x.2 m) []

/-- The loop that moves an action point by whole cycles; it does not end for a cycle of no ticks,
which is left out. -/
def moveCycles (cycleTicks ticks correctedTick : ℕ) : ℕ :=
  if correctedTick < ticks ∧ 0 < cycleTicks then
    moveCycles cycleTicks ticks (correctedTick + cycleTicks)
  else correctedTick
termination_by ticks - correctedTick

/-- The delay of an event is one that `allowedEventDelay` allows. -/
def DelayAllowed (allowedEventDelay : ℤ) (delay : ℕ) : Prop :=
  allowedEventDelay < 0 ∨ (delay : ℤ) < allowedEventDelay

instance (allowedEventDelay : ℤ) (delay : ℕ) : Decidable (DelayAllowed allowedEventDelay delay) :=
  inferInstanceAs (Decidable (_ ∨ _))

namespace CorrectedTimer
variable {E : Type*} (t : CorrectedTimer E)

def recalculate (now : ℕ) : CorrectedTimer E :=
  { t with toTimer := t.toTimer.recalculate now }

/-- `nextAction`, `none` if no events are registered. -/
def nextAction : Option ℕ :=
  match t.registredActionTimeEvents.head?, t.registredTimerEvents.head? with
  | none, none => none
  | some x, none => some x.1
  | none, some y => some y.1
  | some x, some y => if x.1 < y.1 then some x.1 else some y.1

def reschedule (now : ℕ) : Option (CorrectedTimer E) :=
  let t := t.recalculate now
  match t.nextAction with
  | none => some { t with selfMessage := none }
  | some nextActionTicks =>
    if nextActionTicks < t.ticks then none
    else some { t with selfMessage := some (now + (nextActionTicks - t.ticks) * t.currentTick) }

/-- The timer is rescheduled when an event is registered for an action point. -/
def Reschedules (actionpoint : ℕ) : Prop :=
  t.selfMessage = none ∨ ∀ oldActionpoint ∈ t.nextAction, actionpoint < oldActionpoint

instance (actionpoint : ℕ) : Decidable (t.Reschedules actionpoint) :=
  inferInstanceAs (Decidable (_ ∨ _))

/-- `registerEvent` for a `SchedulerTimerEvent`, with the events it sends at once. -/
def registerTimerEvent (now ticks : ℕ) (e : E) : Option (CorrectedTimer E × List E) :=
  if maxTime < ticks * t.currentTick then none
  else
    let t := t.recalculate now
    if ticks = 0 then some (t, [e])
    else
      let actionpoint := t.ticks + ticks
      let t' := { t with registredTimerEvents := pushBack actionpoint e t.registredTimerEvents }
      (if t.Reschedules actionpoint then t'.reschedule now else some t').map (·, [])

/-- `registerEvent` for a `SchedulerActionTimeEvent`, with the events it sends at once. -/
def registerActionTimeEvent (now : ℕ) (e : ActionTimeEvent E) :
    Option (CorrectedTimer E × List E) :=
  if e.period.cycleTicks < e.actionTime then some (t, [])
  else
    let t := t.recalculate now
    let actionpoint := t.actionpoint e.period e.actionTime e.nextCycle
    if actionpoint = t.ticks then some (t, [e.event])
    else if actionpoint < t.ticks then none
    else
      let t' := { t with
        registredActionTimeEvents :=
          pushBack actionpoint.toNat e t.registredActionTimeEvents }
      (if t.Reschedules actionpoint.toNat then t'.reschedule now else some t').map (·, [])

/-- `sendOutEvents`, with the events it sends. -/
def sendOutEvents (now : ℕ) : Option (CorrectedTimer E × List E) :=
  let t := t.recalculate now
  let due := t.registredActionTimeEvents.takeWhile (·.1 ≤ t.ticks)
  let dueTimers := t.registredTimerEvents.takeWhile (·.1 ≤ t.ticks)
  let t' := { t with
    registredActionTimeEvents := t.registredActionTimeEvents.dropWhile (·.1 ≤ t.ticks)
    registredTimerEvents := t.registredTimerEvents.dropWhile (·.1 ≤ t.ticks) }
  if dueTimers.any (1 < t.ticks - ·.1) then none
  else (t'.reschedule now).map (·, due.map (·.2.event) ++ dueTimers.map (·.2))

/-- The action point that the correction gives to an event, `none` if it sends the event. -/
def correctedTick (ticks : ℕ) (x : ℕ × ActionTimeEvent E) : Option ℕ :=
  if x.1 < ticks then
    if DelayAllowed t.allowedEventDelay (ticks - x.1) then none
    else some (moveCycles x.2.period.cycleTicks ticks x.1)
  else some x.1

/-- The first part of `clockCorrection`: the ticks and the action points. -/
def correct (correctionTicks : ℤ) : CorrectedTimer E :=
  let ticks := toUInt64 (t.ticks + correctionTicks)
  { t with
    ticks := ticks
    registredTimerEvents :=
      pushAll (t.registredTimerEvents.map fun x => (toUInt64 (x.1 + correctionTicks), x.2))
    registredActionTimeEvents := pushAll (t.registredActionTimeEvents.filterMap fun x =>
      (t.correctedTick ticks x).map (·, x.2)) }

/-- The events that `clockCorrection` sends itself. -/
def skipped (correctionTicks : ℤ) : List (ℕ × ActionTimeEvent E) :=
  t.registredActionTimeEvents.filter fun x =>
    (t.correctedTick (toUInt64 (t.ticks + correctionTicks)) x).isNone

/-- `clockCorrection`, with the events it sends itself and those it has sent out. -/
def clockCorrection (now : ℕ) (correctionTicks : ℤ) :
    Option (CorrectedTimer E × List E × List E) := do
  let t' ← (t.correct correctionTicks).reschedule now
  let (t', sent) ← t'.sendOutEvents now
  return (t', (t.skipped correctionTicks).map (·.2.event), sent)

/-! ## Timers without timer events -/

section
variable {t} {now : ℕ}

theorem nextAction_toTimer (h : t.registredTimerEvents = []) :
    t.nextAction = t.toTimer.nextAction := by
  unfold nextAction Timer.nextAction
  rw [h]
  cases t.registredActionTimeEvents.head? <;> rfl

theorem reschedule_toTimer (h : t.registredTimerEvents = []) :
    (t.reschedule now).map (·.toTimer) = t.toTimer.reschedule now := by
  have hnext : (t.recalculate now).nextAction = (t.toTimer.recalculate now).nextAction :=
    nextAction_toTimer h
  simp only [reschedule, Timer.reschedule, hnext]
  cases (t.toTimer.recalculate now).nextAction with
  | none => rfl
  | some p => exact apply_ite (Option.map _) ..

theorem reschedules_toTimer (h : t.registredTimerEvents = []) (p : ℕ) :
    t.Reschedules p ↔ t.toTimer.Reschedules p := by
  rw [Reschedules, Timer.Reschedules, nextAction_toTimer h]

/-- A timer without timer events registers an event for an action time like `Timer`. -/
theorem registerActionTimeEvent_toTimer (h : t.registredTimerEvents = [])
    (e : ActionTimeEvent E) :
    (t.registerActionTimeEvent now e).map (fun r => (r.1.toTimer, r.2)) =
      (t.toTimer.registerEvent now e.period e.actionTime e.nextCycle e).map fun r =>
        (r.1, r.2.map (·.event)) := by
  have hrec : t.toTimer.recalculate now = (t.recalculate now).toTimer := rfl
  have h' : (t.recalculate now).registredTimerEvents = [] := h
  simp only [registerActionTimeEvent, Timer.registerEvent, Timer.registerAt, hrec]
  generalize t.recalculate now = t at h'
  generalize t.actionpoint e.period e.actionTime e.nextCycle = p
  have hreschedule : (CorrectedTimer.reschedule { t with
      registredActionTimeEvents := pushBack p.toNat e t.registredActionTimeEvents } now).map
        (·.toTimer) = Timer.reschedule { t.toTimer with
      registredActionTimeEvents := pushBack p.toNat e t.registredActionTimeEvents } now :=
    reschedule_toTimer h'
  simp only [reschedules_toTimer h']
  split_ifs
  · rfl
  · rfl
  · rfl
  · rw [← hreschedule, Option.map_map, Option.map_map, Option.map_map]
    rfl
  · rfl

theorem sendOutEvents_toTimer (h : t.registredTimerEvents = []) :
    (t.sendOutEvents now).map (fun r => (r.1.toTimer, r.2)) =
      (t.toTimer.sendOutEvents now).map fun r => (r.1, r.2.map (·.event)) := by
  have hrec : t.toTimer.recalculate now = (t.recalculate now).toTimer := rfl
  have h' : (t.recalculate now).registredTimerEvents = [] := h
  simp only [sendOutEvents, Timer.sendOutEvents, hrec]
  generalize t.recalculate now = t at h'
  have hreschedule : (CorrectedTimer.reschedule { t with
      registredActionTimeEvents := t.registredActionTimeEvents.dropWhile (·.1 ≤ t.ticks)
      registredTimerEvents := t.registredTimerEvents.dropWhile (·.1 ≤ t.ticks) } now).map
        (·.toTimer) = Timer.reschedule { t.toTimer with
      registredActionTimeEvents := t.registredActionTimeEvents.dropWhile (·.1 ≤ t.ticks) } now :=
    reschedule_toTimer (by rw [h']; rfl)
  rw [← hreschedule, if_neg (by simp [h']), Option.map_map, Option.map_map, Option.map_map, h']
  apply congrArg (Option.map · _)
  funext t'
  simp

end

/-! ## Timers that keep time -/

/-- The action points of all events. -/
def actionpoints : List ℕ :=
  t.registredActionTimeEvents.map (·.1) ++ t.registredTimerEvents.map (·.1)

/-- The registered events. -/
def events : List E :=
  t.registredActionTimeEvents.map (·.2.event) ++ t.registredTimerEvents.map (·.2)

/-- How far the ticks are ahead of those of the oscillator. -/
def ahead : ℤ :=
  t.ticks - (t.lastRecalculation / t.currentTick : ℕ)

/-- At a time no event is late. -/
structure Ready (now : ℕ) : Prop where
  pos : 0 < t.currentTick
  grid : t.currentTick ∣ t.lastRecalculation
  past : t.lastRecalculation ≤ now
  sortedActionTimeEvents : t.registredActionTimeEvents.Pairwise (·.1 ≤ ·.1)
  sortedTimerEvents : t.registredTimerEvents.Pairwise (·.1 ≤ ·.1)
  future : ∀ p ∈ t.actionpoints, (t.recalculate now).ticks ≤ p

/-- Besides, the self message comes in the tick of the next events. -/
structure Accurate (now : ℕ) : Prop extends t.Ready now where
  scheduled : ∀ p, IsLeast {p | p ∈ t.actionpoints} p →
    ∃ m, t.selfMessage = some m ∧ now ≤ m ∧ (t.recalculate m).ticks = p

variable {t} {t' : CorrectedTimer E} {now now' p : ℕ}

theorem mem_actionpoints : p ∈ t.actionpoints ↔
    (∃ x ∈ t.registredActionTimeEvents, x.1 = p) ∨ ∃ x ∈ t.registredTimerEvents, x.1 = p := by
  rw [actionpoints, List.mem_append, List.mem_map, List.mem_map]

theorem ticks_recalculate (now : ℕ) :
    (t.recalculate now).ticks = t.ticks + (now - t.lastRecalculation) / t.currentTick := rfl

/-- The first of a sorted list of action points is the least of them. -/
theorem le_of_head? {F : Type*} {l : List (ℕ × F)} (h : l.Pairwise (·.1 ≤ ·.1)) {y : ℕ × F}
    (hy : l.head? = some y) : ∀ x ∈ l, y.1 ≤ x.1 := by
  obtain ⟨rest, rfl⟩ := List.head?_eq_some_iff.mp hy
  intro x hx
  rcases List.mem_cons.mp hx with rfl | hx
  · exact le_rfl
  · exact (List.pairwise_cons.mp h).1 x hx

theorem isLeast_of_nextAction (h : t.registredActionTimeEvents.Pairwise (·.1 ≤ ·.1))
    (h' : t.registredTimerEvents.Pairwise (·.1 ≤ ·.1)) (hp : t.nextAction = some p) :
    IsLeast {p | p ∈ t.actionpoints} p := by
  have hmem : ∀ q, q ∈ {p | p ∈ t.actionpoints} ↔
      (∃ x ∈ t.registredActionTimeEvents, x.1 = q) ∨
        ∃ x ∈ t.registredTimerEvents, x.1 = q := fun q => mem_actionpoints
  unfold nextAction at hp
  cases ha : t.registredActionTimeEvents.head? with
  | none =>
    have hnil := List.head?_eq_none_iff.mp ha
    cases ht : t.registredTimerEvents.head? with
    | none => simp [ha, ht] at hp
    | some y =>
      obtain rfl : y.1 = p := by simpa [ha, ht] using hp
      refine ⟨(hmem _).mpr (.inr ⟨y, List.mem_of_head? ht, rfl⟩), fun q hq => ?_⟩
      rcases (hmem q).mp hq with ⟨x, hx, rfl⟩ | ⟨x, hx, rfl⟩
      · rw [hnil] at hx
        cases hx
      · exact le_of_head? h' ht x hx
  | some x =>
    have hleast := le_of_head? h ha
    cases ht : t.registredTimerEvents.head? with
    | none =>
      have hnil := List.head?_eq_none_iff.mp ht
      obtain rfl : x.1 = p := by simpa [ha, ht] using hp
      refine ⟨(hmem _).mpr (.inl ⟨x, List.mem_of_head? ha, rfl⟩), fun q hq => ?_⟩
      rcases (hmem q).mp hq with ⟨z, hz, rfl⟩ | ⟨z, hz, rfl⟩
      · exact hleast z hz
      · rw [hnil] at hz
        cases hz
    | some y =>
      have hleast' := le_of_head? h' ht
      simp only [ha, ht] at hp
      split_ifs at hp with hlt
      · obtain rfl := Option.some.inj hp
        refine ⟨(hmem _).mpr (.inl ⟨x, List.mem_of_head? ha, rfl⟩), fun q hq => ?_⟩
        rcases (hmem q).mp hq with ⟨z, hz, rfl⟩ | ⟨z, hz, rfl⟩
        · exact hleast z hz
        · exact hlt.le.trans (hleast' z hz)
      · obtain rfl := Option.some.inj hp
        refine ⟨(hmem _).mpr (.inr ⟨y, List.mem_of_head? ht, rfl⟩), fun q hq => ?_⟩
        rcases (hmem q).mp hq with ⟨z, hz, rfl⟩ | ⟨z, hz, rfl⟩
        · exact (not_lt.mp hlt).trans (hleast z hz)
        · exact hleast' z hz

theorem exists_nextAction (hp : p ∈ t.actionpoints) : ∃ q, t.nextAction = some q := by
  unfold nextAction
  cases ha : t.registredActionTimeEvents with
  | cons x l =>
    cases ht : t.registredTimerEvents with
    | nil => exact ⟨_, rfl⟩
    | cons y l' =>
      by_cases hlt : x.1 < y.1
      · exact ⟨_, if_pos hlt⟩
      · exact ⟨_, if_neg hlt⟩
  | nil =>
    cases ht : t.registredTimerEvents with
    | nil => simp [actionpoints, ha, ht] at hp
    | cons y l' => exact ⟨_, rfl⟩

/-- A recalculation changes nothing for a later one. -/
theorem ticks_recalculate_recalculate (hle : now ≤ now') :
    ((t.recalculate now).recalculate now').ticks = (t.recalculate now').ticks := by
  have hdiv : (now - t.lastRecalculation) / t.currentTick ≤
      (now' - t.lastRecalculation) / t.currentTick :=
    Nat.div_le_div_right (by omega)
  calc ((t.recalculate now).recalculate now').ticks
    _ = t.ticks + (now - t.lastRecalculation) / t.currentTick +
        (now' - (t.lastRecalculation +
          (now - t.lastRecalculation) / t.currentTick * t.currentTick)) / t.currentTick := rfl
    _ = t.ticks + (now - t.lastRecalculation) / t.currentTick +
        ((now' - t.lastRecalculation) / t.currentTick -
          (now - t.lastRecalculation) / t.currentTick) := by
      rw [← Nat.sub_sub, Nat.mul_comm, Nat.sub_mul_div]
    _ = t.ticks + (now' - t.lastRecalculation) / t.currentTick := by omega

theorem ticks_recalculate_mono (hle : now ≤ now') :
    (t.recalculate now).ticks ≤ (t.recalculate now').ticks :=
  Nat.add_le_add_left (Nat.div_le_div_right (by omega)) _

namespace Ready

theorem recalculate (h : t.Ready now) : (t.recalculate now).Ready now := by
  have hle : (now - t.lastRecalculation) / t.currentTick * t.currentTick ≤
      now - t.lastRecalculation := Nat.div_mul_le_self ..
  have hpast := h.past
  refine ⟨h.pos, (Nat.dvd_add_right h.grid).mpr (Nat.dvd_mul_left ..), ?_, h.sortedActionTimeEvents,
    h.sortedTimerEvents, fun p hp => ?_⟩
  · change t.lastRecalculation + _ * t.currentTick ≤ now
    omega
  · rw [ticks_recalculate_recalculate le_rfl]
    exact h.future p hp

/-- The ticks that are counted are those of the oscillator and the corrections. -/
theorem ticks_eq (h : t.Ready now) :
    ((t.recalculate now).ticks : ℤ) = (now / t.currentTick : ℕ) + t.ahead := by
  obtain ⟨k, hk⟩ := h.grid
  have hlast : t.lastRecalculation / t.currentTick = k := by
    rw [hk, Nat.mul_div_cancel_left _ h.pos]
  have hnow : now / t.currentTick = k + (now - t.lastRecalculation) / t.currentTick := by
    obtain ⟨d, rfl⟩ := Nat.exists_eq_add_of_le h.past
    rw [Nat.add_sub_cancel_left, hk, Nat.mul_add_div h.pos]
  rw [ticks_recalculate, ahead, hlast, hnow]
  push_cast
  omega

theorem ahead_recalculate (h : t.Ready now) : (t.recalculate now).ahead = t.ahead := by
  have hticks := h.recalculate.ticks_eq
  rw [ticks_recalculate_recalculate le_rfl, h.ticks_eq] at hticks
  exact (add_left_cancel hticks).symm

/-- The timer is scheduled for the tick of the next events. -/
theorem reschedule (h : t.Ready now) :
    ∃ m, t.reschedule now = some { t.recalculate now with selfMessage := m } ∧
      Accurate { t.recalculate now with selfMessage := m } now := by
  have hrec := h.recalculate
  have hready (m : Option ℕ) : Ready { t.recalculate now with selfMessage := m } now :=
    ⟨hrec.pos, hrec.grid, hrec.past, hrec.sortedActionTimeEvents, hrec.sortedTimerEvents,
      hrec.future⟩
  unfold CorrectedTimer.reschedule
  cases hnext : (t.recalculate now).nextAction with
  | none =>
    refine ⟨none, by simp only [hnext], hready none, fun p hp => ?_⟩
    obtain ⟨q, hq⟩ := exists_nextAction (t := t.recalculate now) hp.1
    rw [hq] at hnext
    cases hnext
  | some p =>
    have hleast := isLeast_of_nextAction hrec.sortedActionTimeEvents hrec.sortedTimerEvents hnext
    have hle : (t.recalculate now).ticks ≤ p := h.future p hleast.1
    refine ⟨some (now + (p - (t.recalculate now).ticks) * (t.recalculate now).currentTick), ?_,
      hready _, fun q hq => ?_⟩
    · simp only [hnext, if_neg (not_lt.mpr hle)]
    · obtain rfl : q = p := hq.unique hleast
      refine ⟨_, rfl, Nat.le_add_right .., ?_⟩
      -- the message comes as long after the beginning of its tick as it is now
      have hfloor : (now - (t.recalculate now).lastRecalculation) / t.currentTick = 0 := by
        have heq := ticks_recalculate_recalculate (t := t) (le_refl now)
        rw [ticks_recalculate] at heq
        exact Nat.add_left_cancel heq
      have hdistance : now + (q - (t.recalculate now).ticks) * t.currentTick -
          (t.recalculate now).lastRecalculation =
          now - (t.recalculate now).lastRecalculation +
            t.currentTick * (q - (t.recalculate now).ticks) := by
        have hpast := hrec.past
        rw [Nat.mul_comm]
        omega
      change (t.recalculate now).ticks + (now + (q - (t.recalculate now).ticks) * t.currentTick -
          (t.recalculate now).lastRecalculation) / t.currentTick = q
      rw [hdistance, Nat.add_mul_div_left _ _ h.pos, hfloor]
      omega

end Ready

/-- Time passes until the self message. -/
theorem Accurate.mono (h : t.Accurate now) (hle : now ≤ now')
    (hself : ∀ m ∈ t.selfMessage, now' ≤ m) : t.Accurate now' := by
  have hscheduled : ∀ p, IsLeast {p | p ∈ t.actionpoints} p →
      ∃ m, t.selfMessage = some m ∧ now' ≤ m ∧ (t.recalculate m).ticks = p := by
    intro p hp
    obtain ⟨m, hm, -, hticks⟩ := h.scheduled p hp
    exact ⟨m, hm, hself m hm, hticks⟩
  refine ⟨⟨h.pos, h.grid, h.past.trans hle, h.sortedActionTimeEvents, h.sortedTimerEvents,
    fun p hp => ?_⟩, hscheduled⟩
  obtain ⟨q, hq⟩ := exists_nextAction hp
  have hleast := isLeast_of_nextAction h.sortedActionTimeEvents h.sortedTimerEvents hq
  obtain ⟨m, -, hm, rfl⟩ := hscheduled q hleast
  exact (ticks_recalculate_mono hm).trans (hleast.2 hp)

theorem Accurate.recalculate (h : t.Accurate now) : (t.recalculate now).Accurate now := by
  refine ⟨h.toReady.recalculate, fun p hp => ?_⟩
  obtain ⟨m, hself, hm, hticks⟩ := h.scheduled p hp
  exact ⟨m, hself, hm, by rw [ticks_recalculate_recalculate hm, hticks]⟩

/-! ## Registering -/

/-- Two timers that differ in when they were recalculated and scheduled. -/
structure SameEvents (t t' : CorrectedTimer E) : Prop where
  currentTick : t'.currentTick = t.currentTick
  allowedEventDelay : t'.allowedEventDelay = t.allowedEventDelay
  ahead : t'.ahead = t.ahead
  registredActionTimeEvents : t'.registredActionTimeEvents = t.registredActionTimeEvents
  registredTimerEvents : t'.registredTimerEvents = t.registredTimerEvents

theorem Ready.sameEvents_reschedule (h : t.Ready now) :
    ∃ t', t.reschedule now = some t' ∧ t'.Accurate now ∧ t.SameEvents t' ∧
      t'.ticks = (t.recalculate now).ticks := by
  obtain ⟨m, hm, haccurate⟩ := h.reschedule
  exact ⟨_, hm, haccurate, ⟨rfl, rfl, h.ahead_recalculate, rfl, rfl⟩, rfl⟩

/-- One more action point, for which the timer is rescheduled if it has to. -/
theorem Accurate.insert (h : t.Accurate now) {l : List (ℕ × ActionTimeEvent E)}
    {l' : List (ℕ × E)} (hl : l.Pairwise (·.1 ≤ ·.1)) (hl' : l'.Pairwise (·.1 ≤ ·.1))
    (hmem : ∀ q, q ∈ l.map (·.1) ++ l'.map (·.1) ↔ q = p ∨ q ∈ t.actionpoints)
    (hp : (t.recalculate now).ticks ≤ p) :
    ∃ t', (if t.Reschedules p then
        CorrectedTimer.reschedule
          { t with registredActionTimeEvents := l, registredTimerEvents := l' } now
      else some { t with registredActionTimeEvents := l, registredTimerEvents := l' }) = some t' ∧
      t'.Accurate now ∧
      SameEvents { t with registredActionTimeEvents := l, registredTimerEvents := l' } t' := by
  have hready :
      Ready { t with registredActionTimeEvents := l, registredTimerEvents := l' } now := by
    refine ⟨h.pos, h.grid, h.past, hl, hl', fun q hq => ?_⟩
    rcases (hmem q).mp hq with rfl | hq
    · exact hp
    · exact h.future q hq
  split_ifs with hr
  · obtain ⟨t', ht', haccurate, hsame, -⟩ := hready.sameEvents_reschedule
    exact ⟨t', ht', haccurate, hsame⟩
  · refine ⟨_, rfl, ⟨hready, fun q hq => ?_⟩, ⟨rfl, rfl, rfl, rfl, rfl⟩⟩
    -- the next action point stays the same
    have hold : ∃ o, t.nextAction = some o ∧ o ≤ p := by
      by_contra hnone
      exact hr (.inr fun o ho => not_le.mp fun hle => hnone ⟨o, ho, hle⟩)
    obtain ⟨o, ho, hle⟩ := hold
    have hleast := isLeast_of_nextAction h.sortedActionTimeEvents h.sortedTimerEvents ho
    have hqo : q = o := by
      apply le_antisymm
      · exact hq.2 ((hmem o).mpr (.inr hleast.1))
      · rcases (hmem q).mp hq.1 with rfl | hq
        · exact hle
        · exact hleast.2 hq
    rw [hqo]
    exact h.scheduled o hleast

theorem mem_map_pushBack {F : Type*} {e : F} {l : List (ℕ × F)} {q : ℕ} :
    q ∈ (pushBack p e l).map (·.1) ↔ q = p ∨ q ∈ l.map (·.1) := by
  rw [((pushBack_perm p e l).map _).mem_iff, List.map_cons, List.mem_cons]

/-- An event for a number of ticks is sent at once or after as many of them. -/
theorem Accurate.registerTimerEvent (h : t.Accurate now) {ticks : ℕ} {e : E}
    (hmax : ticks * t.currentTick ≤ maxTime) :
    ∃ t' sent, t.registerTimerEvent now ticks e = some (t', sent) ∧ t'.Accurate now ∧
      ((ticks = 0 ∧ sent = [e] ∧ t.SameEvents t') ∨
        (sent = [] ∧ SameEvents
          { t with
            registredTimerEvents :=
              pushBack ((t.recalculate now).ticks + ticks) e t.registredTimerEvents } t')) := by
  unfold CorrectedTimer.registerTimerEvent
  rw [if_neg (not_lt.mpr hmax)]
  have hahead := h.ahead_recalculate
  by_cases hzero : ticks = 0
  · refine ⟨t.recalculate now, [e], by simp only [if_pos hzero], h.recalculate,
      .inl ⟨hzero, rfl, ?_⟩⟩
    exact ⟨rfl, rfl, hahead, rfl, rfl⟩
  · obtain ⟨t', ht', haccurate, hsame⟩ := h.recalculate.insert
      (p := (t.recalculate now).ticks + ticks) h.sortedActionTimeEvents
      (pushBack_sorted (e := e) h.sortedTimerEvents) (fun q => by
        rw [List.mem_append, mem_map_pushBack, or_left_comm, ← List.mem_append]
        rfl)
      (by rw [ticks_recalculate_recalculate le_rfl]; exact Nat.le_add_right ..)
    refine ⟨t', [], ?_, haccurate, .inr ⟨rfl, ?_⟩⟩
    · simp only [if_neg hzero]
      exact congrArg (Option.map (·, [])) ht'
    · exact ⟨hsame.currentTick, hsame.allowedEventDelay, hsame.ahead.trans hahead,
        hsame.registredActionTimeEvents, hsame.registredTimerEvents⟩

instance (c a : ℕ) : Decidable (Timer.DistanceFits c a) :=
  inferInstanceAs (Decidable (_ ∧ _))

/-- The action point is one at which the period is at the action time. -/
theorem exists_actionpoint {t : Timer E} {period : Period} {actionTime : ℕ} (nextCycle : Bool)
    (hlt : actionTime < period.cycleTicks)
    (hfits : Timer.DistanceFits (period.getTicks t.ticks) actionTime) :
    ∃ p : ℕ, t.actionpoint period actionTime nextCycle = p ∧ t.ticks ≤ p ∧
      period.getTicks p = actionTime := by
  have hc := Period.getTicks_lt hlt t.ticks
  unfold Timer.actionpoint
  rw [Timer.toInt32_eq hfits.1 hfits.2]
  by_cases hnext : (actionTime : ℤ) - period.getTicks t.ticks < 0 ∨
      (actionTime : ℤ) - period.getTicks t.ticks = 0 ∧ nextCycle
  · refine ⟨t.ticks + (period.cycleTicks + actionTime - period.getTicks t.ticks), ?_, by omega, ?_⟩
    · rw [if_pos hnext]
      omega
    · rw [Period.getTicks_add, Nat.add_sub_cancel' (by omega), Nat.add_mod_left,
        Nat.mod_eq_of_lt hlt]
  · refine ⟨t.ticks + (actionTime - period.getTicks t.ticks), ?_, by omega, ?_⟩
    · rw [if_neg hnext]
      omega
    · rw [Period.getTicks_add, Nat.add_sub_cancel' (by omega), Nat.mod_eq_of_lt hlt]

/-- An event for an action time is sent at once or when the period comes to it. -/
theorem Accurate.registerActionTimeEvent (h : t.Accurate now) {e : ActionTimeEvent E}
    (hlt : e.actionTime < e.period.cycleTicks)
    (hfits : Timer.DistanceFits (e.period.getTicks (t.recalculate now).ticks) e.actionTime) :
    ∃ t' sent, t.registerActionTimeEvent now e = some (t', sent) ∧ t'.Accurate now ∧
      ((sent = [e.event] ∧ t.SameEvents t' ∧ e.period.getTicks t'.ticks = e.actionTime) ∨
        ∃ p, sent = [] ∧ e.period.getTicks p = e.actionTime ∧ SameEvents
          { t with
            registredActionTimeEvents := pushBack p e t.registredActionTimeEvents } t') := by
  obtain ⟨p, hp, hle, hphase⟩ := exists_actionpoint (t := (t.recalculate now).toTimer)
    e.nextCycle hlt hfits
  have hahead := h.ahead_recalculate
  unfold CorrectedTimer.registerActionTimeEvent
  rw [if_neg (not_lt.mpr hlt.le)]
  simp only [hp, Int.toNat_natCast]
  by_cases hnow : p = (t.recalculate now).ticks
  · refine ⟨t.recalculate now, [e.event], by rw [if_pos (by rw [hnow])], h.recalculate,
      .inl ⟨rfl, ?_, ?_⟩⟩
    · exact ⟨rfl, rfl, hahead, rfl, rfl⟩
    · rw [← hnow, hphase]
  · obtain ⟨t', ht', haccurate, hsame⟩ := h.recalculate.insert (p := p)
      (pushBack_sorted (e := e) h.sortedActionTimeEvents) h.sortedTimerEvents (fun q => by
        rw [List.mem_append, mem_map_pushBack, or_assoc, ← List.mem_append]
        rfl)
      (by rw [ticks_recalculate_recalculate le_rfl]; exact hle)
    refine ⟨t', [], ?_, haccurate, .inr ⟨p, rfl, hphase, ?_⟩⟩
    · rw [if_neg (by omega), if_neg (by omega)]
      exact congrArg (Option.map (·, [])) ht'
    · exact ⟨hsame.currentTick, hsame.allowedEventDelay, hsame.ahead.trans hahead,
        hsame.registredActionTimeEvents, hsame.registredTimerEvents⟩

/-! ## Sending -/

/-- What is due at a time is for the tick of that time. -/
theorem Ready.due (h : t.Ready now) (hp : p ∈ t.actionpoints)
    (hle : p ≤ (t.recalculate now).ticks) : p = (t.recalculate now).ticks :=
  le_antisymm hle (h.future p hp)

theorem Ready.sendOutEvents (h : t.Ready now) :
    ∃ t' due dueTimers, t.sendOutEvents now =
        some (t', due.map (·.2.event) ++ dueTimers.map (·.2)) ∧
      t'.Accurate now ∧ t'.ticks = (t.recalculate now).ticks ∧
      t'.currentTick = t.currentTick ∧ t'.allowedEventDelay = t.allowedEventDelay ∧
      t'.ahead = t.ahead ∧
      t.registredActionTimeEvents = due ++ t'.registredActionTimeEvents ∧
      t.registredTimerEvents = dueTimers ++ t'.registredTimerEvents ∧
      (∀ x ∈ due, x.1 = t'.ticks) ∧ ∀ x ∈ dueTimers, x.1 = t'.ticks := by
  have hrec := h.recalculate
  set ticks := (t.recalculate now).ticks with hticks
  set due := t.registredActionTimeEvents.takeWhile (·.1 ≤ ticks) with hdue
  set dueTimers := t.registredTimerEvents.takeWhile (·.1 ≤ ticks) with hdueTimers
  -- the timer is not late: what is due is due at this tick
  have hduetick : ∀ x ∈ due, x.1 = ticks := by
    intro x hx
    have hle := List.mem_takeWhile_imp hx
    apply h.due _ (of_decide_eq_true hle)
    exact mem_actionpoints.mpr (.inl ⟨x, (List.takeWhile_sublist _).mem hx, rfl⟩)
  have hduetimers : ∀ x ∈ dueTimers, x.1 = ticks := by
    intro x hx
    have hle := List.mem_takeWhile_imp hx
    apply h.due _ (of_decide_eq_true hle)
    exact mem_actionpoints.mpr (.inr ⟨x, (List.takeWhile_sublist _).mem hx, rfl⟩)
  have hready : Ready { t.recalculate now with
      registredActionTimeEvents := t.registredActionTimeEvents.dropWhile (·.1 ≤ ticks)
      registredTimerEvents := t.registredTimerEvents.dropWhile (·.1 ≤ ticks) } now := by
    refine ⟨hrec.pos, hrec.grid, hrec.past,
      h.sortedActionTimeEvents.sublist (List.dropWhile_sublist _),
      h.sortedTimerEvents.sublist (List.dropWhile_sublist _), fun p hp => hrec.future p ?_⟩
    rcases mem_actionpoints.mp hp with ⟨x, hx, rfl⟩ | ⟨x, hx, rfl⟩
    · exact mem_actionpoints.mpr (.inl ⟨x, (List.dropWhile_sublist _).mem hx, rfl⟩)
    · exact mem_actionpoints.mpr (.inr ⟨x, (List.dropWhile_sublist _).mem hx, rfl⟩)
  obtain ⟨t', ht', haccurate, hsame, hticks'⟩ := hready.sameEvents_reschedule
  have htick : t'.ticks = ticks := hticks'.trans (ticks_recalculate_recalculate le_rfl)
  refine ⟨t', due, dueTimers, ?_, haccurate, htick, hsame.currentTick, hsame.allowedEventDelay,
    hsame.ahead.trans h.ahead_recalculate, ?_, ?_, ?_, ?_⟩
  · have hlate : ¬(dueTimers.any (1 < ticks - ·.1)) := by
      simp only [List.any_eq_true, decide_eq_true_eq, not_exists, not_and]
      intro x hx
      rw [hduetimers x hx]
      omega
    unfold CorrectedTimer.sendOutEvents
    exact (if_neg hlate).trans (congrArg (Option.map _) ht')
  · rw [hsame.registredActionTimeEvents]
    exact (List.takeWhile_append_dropWhile ..).symm
  · rw [hsame.registredTimerEvents]
    exact (List.takeWhile_append_dropWhile ..).symm
  · rw [htick]
    exact hduetick
  · rw [htick]
    exact hduetimers

/-! ## Correcting -/

theorem pushAll_eq {F : Type*} (l : List (ℕ × F)) :
    (pushAll l).Perm l ∧ (pushAll l).Pairwise (·.1 ≤ ·.1) := by
  have hfrom : ∀ m : List (ℕ × F), m.Pairwise (·.1 ≤ ·.1) →
      (l.foldl (fun m x => pushBack x.1 x.2 m) m).Perm (l ++ m) ∧
        (l.foldl (fun m x => pushBack x.1 x.2 m) m).Pairwise (·.1 ≤ ·.1) := by
    induction l with
    | nil => exact fun m hm => ⟨.refl _, hm⟩
    | cons x l ih =>
      intro m hm
      obtain ⟨hperm, hsorted⟩ := ih _ (pushBack_sorted (p := x.1) (e := x.2) hm)
      refine ⟨hperm.trans ?_, hsorted⟩
      exact ((pushBack_perm x.1 x.2 m).append_left l).trans List.perm_middle
  obtain ⟨hperm, hsorted⟩ := hfrom [] .nil
  exact ⟨by simpa [pushAll] using hperm, hsorted⟩

theorem toUInt64_eq {x : ℤ} (h : 0 ≤ x) : (toUInt64 x : ℤ) = x := by
  rw [toUInt64, if_pos h]
  omega

theorem moveCycles_spec {cycleTicks : ℕ} (ticks : ℕ) (hpos : 0 < cycleTicks) (p : ℕ) :
    ticks ≤ moveCycles cycleTicks ticks p ∧
      moveCycles cycleTicks ticks p % cycleTicks = p % cycleTicks := by
  fun_induction moveCycles cycleTicks ticks p with
  | case1 p hlt ih => exact ⟨ih.1, ih.2.trans (Nat.add_mod_right ..)⟩
  | case2 p hge => exact ⟨by omega, rfl⟩

/-- The correction does the same with an event for a number of ticks as for a later one: its action
point has passed at neither of them, or at both, and then its delay is allowed at both or at none
and its period does not come to the action time in between. -/
def SameFate (allowedEventDelay : ℤ) (ticks ticks' p cycleTicks : ℕ) : Prop :=
  ticks' ≤ p ∨ p < ticks ∧ (DelayAllowed allowedEventDelay (ticks' - p) ∨
    ¬DelayAllowed allowedEventDelay (ticks - p) ∧
      ∀ q < ticks', ticks ≤ q → q % cycleTicks ≠ p % cycleTicks)

instance (allowedEventDelay : ℤ) (ticks ticks' p cycleTicks : ℕ) :
    Decidable (SameFate allowedEventDelay ticks ticks' p cycleTicks) :=
  inferInstanceAs (Decidable (_ ∨ _ ∧ (_ ∨ _ ∧ _)))

variable {ticks ticks' : ℕ} {x : ℕ × ActionTimeEvent E}

theorem correctedTick_eq_some (hpos : 0 < x.2.period.cycleTicks) (hle : ticks ≤ ticks')
    (hfate : SameFate t.allowedEventDelay ticks ticks' x.1 x.2.period.cycleTicks)
    (hp : t.correctedTick ticks x = some p) :
    ticks' ≤ p ∧ p % x.2.period.cycleTicks = x.1 % x.2.period.cycleTicks := by
  obtain ⟨hmoved, hphase⟩ := moveCycles_spec ticks hpos x.1
  unfold correctedTick at hp
  split_ifs at hp with hlt hdelay
  · obtain rfl := Option.some.inj hp
    refine ⟨?_, hphase⟩
    rcases hfate with hfuture | ⟨-, hallowed | ⟨-, hnone⟩⟩
    · omega
    · refine absurd (hallowed.imp_right fun hlt' => ?_) hdelay
      omega
    · by_contra hearly
      exact hnone _ (not_le.mp hearly) hmoved hphase
  · obtain rfl := Option.some.inj hp
    exact ⟨by rcases hfate with hfuture | ⟨hpast, -⟩ <;> omega, rfl⟩

theorem correctedTick_eq_none (hle : ticks ≤ ticks')
    (hfate : SameFate t.allowedEventDelay ticks ticks' x.1 x.2.period.cycleTicks)
    (hp : t.correctedTick ticks x = none) :
    x.1 < ticks' ∧ DelayAllowed t.allowedEventDelay (ticks' - x.1) := by
  unfold correctedTick at hp
  split_ifs at hp with hlt hdelay
  refine ⟨by omega, ?_⟩
  rcases hfate with hfuture | ⟨-, hallowed | ⟨hnot, -⟩⟩
  · omega
  · exact hallowed
  · exact absurd hdelay hnot

/-- No event is lost or doubled by the correction. -/
theorem events_correct (t : CorrectedTimer E) (c : ℤ) :
    ((t.correct c).events ++ (t.skipped c).map (·.2.event)).Perm t.events := by
  set f := t.correctedTick (toUInt64 (t.ticks + c)) with hf
  have hkept : (t.registredActionTimeEvents.filterMap fun x => (f x).map (·, x.2)).map
      (·.2.event) = (t.registredActionTimeEvents.filter fun x => (f x).isSome).map (·.2.event) := by
    induction t.registredActionTimeEvents with
    | nil => rfl
    | cons x l ih =>
      cases hx : f x <;> simp [hx, ih]
  have hactions : ((t.correct c).registredActionTimeEvents.map (·.2.event)).Perm
      ((t.registredActionTimeEvents.filter fun x => (f x).isSome).map (·.2.event)) := by
    rw [← hkept]
    exact (pushAll_eq _).1.map _
  have htimers : ((t.correct c).registredTimerEvents.map (·.2)).Perm
      (t.registredTimerEvents.map (·.2)) := by
    have hperm := (pushAll_eq (t.registredTimerEvents.map fun x => (toUInt64 (x.1 + c), x.2))).1
    have hmap := hperm.map Prod.snd
    rw [List.map_map] at hmap
    exact hmap
  have hsplit : ((t.registredActionTimeEvents.filter fun x => (f x).isSome).map (·.2.event) ++
      (t.skipped c).map (·.2.event)).Perm (t.registredActionTimeEvents.map (·.2.event)) := by
    rw [← List.map_append]
    refine List.Perm.map _ ?_
    have hnone : (fun x => (f x).isNone) = fun x => !(f x).isSome := by
      funext x
      cases f x <;> rfl
    unfold skipped
    rw [← hf, hnone]
    exact List.filter_append_perm _ _
  refine ((hactions.append htimers).append_right _).trans ?_
  rw [List.append_assoc]
  refine (List.perm_append_comm.append_left _).trans ?_
  rw [← List.append_assoc]
  exact hsplit.append_right _

/-- Every event meets the same fate for the number of ticks that `clockCorrection` finds as for the
one that is brought up to date. -/
structure Correctable (t : CorrectedTimer E) (now : ℕ) (c : ℤ) : Prop where
  nonneg : 0 ≤ t.ticks + c
  sameFate : ∀ x ∈ t.registredActionTimeEvents, SameFate t.allowedEventDelay (t.ticks + c).toNat
    ((t.recalculate now).ticks + c).toNat x.1 x.2.period.cycleTicks

instance (t : CorrectedTimer E) (now : ℕ) (c : ℤ) : Decidable (t.Correctable now c) :=
  decidable_of_iff (0 ≤ t.ticks + c ∧ ∀ x ∈ t.registredActionTimeEvents,
      SameFate t.allowedEventDelay (t.ticks + c).toNat ((t.recalculate now).ticks + c).toNat x.1
        x.2.period.cycleTicks)
    ⟨fun h => ⟨h.1, h.2⟩, fun h => ⟨h.nonneg, h.sameFate⟩⟩

section
variable {c : ℤ}

theorem ticks_correct (hc : t.Correctable now c) : ((t.correct c).ticks : ℤ) = t.ticks + c :=
  toUInt64_eq hc.nonneg

theorem ticks_recalculate_correct (hc : t.Correctable now c) :
    (((t.correct c).recalculate now).ticks : ℤ) = (t.recalculate now).ticks + c := by
  have hticks := ticks_correct hc
  have hrec : ((t.correct c).recalculate now).ticks =
      (t.correct c).ticks + (now - t.lastRecalculation) / t.currentTick := rfl
  rw [hrec, ticks_recalculate]
  push_cast
  omega

theorem mem_timerEvents_correct (h : t.Ready now) (hc : t.Correctable now c) {y : ℕ × E}
    (hy : y ∈ (t.correct c).registredTimerEvents) :
    ∃ x ∈ t.registredTimerEvents, y.2 = x.2 ∧ (y.1 : ℤ) = x.1 + c := by
  obtain ⟨x, hx, rfl⟩ := List.mem_map.mp ((pushAll_eq _).1.mem_iff.mp hy)
  refine ⟨x, hx, rfl, toUInt64_eq ?_⟩
  have hfuture := h.future x.1 (mem_actionpoints.mpr (.inr ⟨x, hx, rfl⟩))
  have hle : t.ticks ≤ (t.recalculate now).ticks := Nat.le_add_right ..
  have hnonneg := hc.nonneg
  omega

theorem mem_actionTimeEvents_correct (hc : t.Correctable now c)
    (hpos : ∀ x ∈ t.registredActionTimeEvents, 0 < x.2.period.cycleTicks)
    {y : ℕ × ActionTimeEvent E} (hy : y ∈ (t.correct c).registredActionTimeEvents) :
    ((t.correct c).recalculate now).ticks ≤ y.1 ∧
      ∃ x ∈ t.registredActionTimeEvents, y.2 = x.2 ∧
        y.1 % x.2.period.cycleTicks = x.1 % x.2.period.cycleTicks := by
  obtain ⟨x, hx, hxy⟩ := List.mem_filterMap.mp ((pushAll_eq _).1.mem_iff.mp hy)
  obtain ⟨p, hp, rfl⟩ := Option.map_eq_some_iff.mp hxy
  have hticks := ticks_recalculate_correct hc
  have hle : t.ticks ≤ (t.recalculate now).ticks := Nat.le_add_right ..
  have huint : toUInt64 (t.ticks + c) = (t.ticks + c).toNat := if_pos hc.nonneg
  rw [huint] at hp
  obtain ⟨hfuture, hphase⟩ :=
    correctedTick_eq_some (hpos x hx) (by omega) (hc.sameFate x hx) hp
  exact ⟨by omega, x, hx, rfl, hphase⟩

theorem mem_skipped (h : t.Ready now) (hc : t.Correctable now c) (hx : x ∈ t.skipped c) :
    x ∈ t.registredActionTimeEvents ∧ (t.recalculate now).ticks ≤ x.1 ∧
      x.1 < ((t.correct c).recalculate now).ticks ∧
      DelayAllowed t.allowedEventDelay (((t.correct c).recalculate now).ticks - x.1) := by
  obtain ⟨hmem, hnone⟩ := List.mem_filter.mp hx
  have hticks := ticks_recalculate_correct hc
  have hle : t.ticks ≤ (t.recalculate now).ticks := Nat.le_add_right ..
  have huint : toUInt64 (t.ticks + c) = (t.ticks + c).toNat := if_pos hc.nonneg
  rw [huint, Option.isNone_iff_eq_none] at hnone
  have hnow : ((t.correct c).recalculate now).ticks = ((t.recalculate now).ticks + c).toNat := by
    omega
  obtain ⟨hpast, hdelay⟩ := correctedTick_eq_none (by omega) (hc.sameFate x hmem) hnone
  rw [hnow]
  exact ⟨hmem, h.future x.1 (mem_actionpoints.mpr (.inl ⟨x, hmem, rfl⟩)), hpast, hdelay⟩

theorem Ready.correct (h : t.Ready now) (hc : t.Correctable now c)
    (hpos : ∀ x ∈ t.registredActionTimeEvents, 0 < x.2.period.cycleTicks) :
    (t.correct c).Ready now := by
  refine ⟨h.pos, h.grid, h.past, (pushAll_eq _).2, (pushAll_eq _).2, fun p hp => ?_⟩
  rcases mem_actionpoints.mp hp with ⟨y, hy, rfl⟩ | ⟨y, hy, rfl⟩
  · exact (mem_actionTimeEvents_correct hc hpos hy).1
  · obtain ⟨x, hx, -, heq⟩ := mem_timerEvents_correct h hc hy
    have hfuture := h.future x.1 (mem_actionpoints.mpr (.inr ⟨x, hx, rfl⟩))
    have hticks := ticks_recalculate_correct hc
    omega

/-- The correction does not fail, and what it sends out is for the tick of its time. -/
theorem Ready.clockCorrection (h : t.Ready now) (hc : t.Correctable now c)
    (hpos : ∀ x ∈ t.registredActionTimeEvents, 0 < x.2.period.cycleTicks) :
    ∃ t' due dueTimers, t.clockCorrection now c =
        some (t', (t.skipped c).map (·.2.event), due.map (·.2.event) ++ dueTimers.map (·.2)) ∧
      t'.Accurate now ∧ t'.ticks = ((t.correct c).recalculate now).ticks ∧
      t'.currentTick = t.currentTick ∧ t'.allowedEventDelay = t.allowedEventDelay ∧
      t'.ahead = t.ahead + c ∧
      (t.correct c).registredActionTimeEvents = due ++ t'.registredActionTimeEvents ∧
      (t.correct c).registredTimerEvents = dueTimers ++ t'.registredTimerEvents ∧
      (∀ x ∈ due, x.1 = t'.ticks) ∧ ∀ x ∈ dueTimers, x.1 = t'.ticks := by
  have hready := h.correct hc hpos
  obtain ⟨t₁, hreschedule, haccurate, hsame, -⟩ := hready.sameEvents_reschedule
  obtain ⟨t', due, dueTimers, hsend, haccurate', hticks', htick', hdelay', hahead', hactions,
    htimers, hdue, hdueTimers⟩ := haccurate.toReady.sendOutEvents
  have hahead : (t.correct c).ahead = t.ahead + c := by
    have hcorrect := ticks_correct hc
    change ((t.correct c).ticks : ℤ) - (t.lastRecalculation / t.currentTick : ℕ) = _
    rw [hcorrect, CorrectedTimer.ahead]
    omega
  have hnow : (t₁.recalculate now).ticks = ((t.correct c).recalculate now).ticks := by
    apply Int.natCast_inj.mp
    rw [haccurate.toReady.ticks_eq, hready.ticks_eq, hsame.currentTick, hsame.ahead]
  refine ⟨t', due, dueTimers, ?_, haccurate', hticks'.trans hnow, htick'.trans hsame.currentTick,
    hdelay'.trans hsame.allowedEventDelay, by rw [hahead', hsame.ahead, hahead], ?_, ?_, hdue,
    hdueTimers⟩
  · unfold CorrectedTimer.clockCorrection
    rw [hreschedule]
    exact congrArg (Option.bind · _) hsend
  · rw [← hsame.registredActionTimeEvents, hactions]
  · rw [← hsame.registredTimerEvents, htimers]

end

end CorrectedTimer

end TsnReconfig.Gates
