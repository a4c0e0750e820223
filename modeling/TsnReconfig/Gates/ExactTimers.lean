import TsnReconfig.Gates.CorrectedTimer
import TsnReconfig.Lib.System

/-!
# Timers under clock correction

The events of a timer in any sequence of registrations, self messages and clock corrections.
-/

namespace TsnReconfig.Gates
open Lib

/-! ## Runs of a timer -/

/-- A registered event: a `SchedulerTimerEvent` with the tick of the oscillator in which it was
registered, or a `SchedulerActionTimeEvent`. -/
inductive Registration
  | timerEvent (ticks oscillatorTick : ℕ)
  | actionTimeEvent (actionTime : ℕ) (period : Period)
  deriving DecidableEq, Repr

/-- An event was sent: in which tick of the oscillator, and at how many ticks of the timer. For an
event that a correction skipped, `ticksBefore` are those before the correction. -/
structure Delivery where
  id : ℕ
  oscillatorTick : ℕ
  ticks : ℕ
  ticksBefore : Option ℕ := none
  deriving DecidableEq, Repr

/-- A timer and what has happened to it. Events are numbered in the order of their registration. -/
structure TimerRun where
  timer : CorrectedTimer ℕ
  now : ℕ := 0
  failed : Bool := false
  registered : List Registration := []
  deliveries : List Delivery := []
  deriving DecidableEq, Repr

inductive TimerCall
  | pass (time : ℕ)
  | selfMessage
  | registerTimerEvent (ticks : ℕ)
  | registerActionTimeEvent (actionTime : ℕ) (nextCycle : Bool) (period : Period)
  | clockCorrection (correctionTicks : ℤ)

namespace TimerRun
variable (s : TimerRun)

/-- The events that a handler has sent. -/
def delivered (timer : CorrectedTimer ℕ) (ticksBefore : Option ℕ) (ids : List ℕ) :
    List Delivery :=
  ids.map fun id => ⟨id, s.now / s.timer.currentTick, timer.ticks, ticksBefore⟩

/-- The state after a handler, which is given by the timer it leaves and the events it sends. -/
def after (registrations : List Registration) :
    Option (CorrectedTimer ℕ × List ℕ × List ℕ) → TimerRun
  | none => { s with failed := true }
  | some (timer, skipped, sent) =>
    { s with
      timer := timer
      registered := s.registered ++ registrations
      deliveries := s.deliveries ++
        (s.delivered timer (some (s.timer.recalculate s.now).ticks) skipped ++
          s.delivered timer none sent) }

/-- Time does not pass beyond the self message, and nothing happens after a failure. -/
def step (call : TimerCall) : Option TimerRun :=
  if s.failed then none
  else
    match call with
    | .pass time =>
      if s.now ≤ time ∧ ∀ m ∈ s.timer.selfMessage, time ≤ m then some { s with now := time }
      else none
    | .selfMessage =>
      if s.timer.selfMessage = some s.now then
        some (s.after [] ((s.timer.sendOutEvents s.now).map fun r => (r.1, [], r.2)))
      else none
    | .registerTimerEvent ticks =>
      some (s.after [.timerEvent ticks (s.now / s.timer.currentTick)]
        ((s.timer.registerTimerEvent s.now ticks s.registered.length).map fun r =>
          (r.1, [], r.2)))
    | .registerActionTimeEvent actionTime nextCycle period =>
      some (s.after (if period.cycleTicks < actionTime then [] else
          [.actionTimeEvent actionTime period])
        ((s.timer.registerActionTimeEvent s.now
          ⟨s.registered.length, actionTime, nextCycle, period⟩).map fun r => (r.1, [], r.2)))
    | .clockCorrection correctionTicks =>
      some (s.after [] (s.timer.clockCorrection s.now correctionTicks))

/-- The runs of a timer from its initialization. -/
def runs : System TimerRun TimerCall where
  init s := ∃ currentTick allowedEventDelay, 0 < currentTick ∧
    s = { timer := { currentTick, allowedEventDelay } }
  step := step

end TimerRun

/-! ## What is expected of a timer -/

/-- The delivery that is due to a registered event. -/
def Delivery.DueTo (allowedEventDelay : ℤ) (d : Delivery) : Registration → Prop
  | .timerEvent ticks oscillatorTick => d.oscillatorTick = oscillatorTick + ticks
  | .actionTimeEvent actionTime period =>
    (d.ticksBefore = none ∧ period.getTicks d.ticks = actionTime) ∨
      ∃ before ∈ d.ticksBefore, ∃ p, before ≤ p ∧ p < d.ticks ∧
        period.getTicks p = actionTime ∧ DelayAllowed allowedEventDelay (d.ticks - p)

namespace TimerRun

/-- No handler has failed, each event is registered or was delivered, once and as it should be, and
none that is registered is late; the self message comes in the tick of the earliest of them. -/
structure Exact (s : TimerRun) : Prop where
  running : s.failed = false
  once : (s.timer.events ++ s.deliveries.map (·.id)).Perm (List.range s.registered.length)
  delivered : ∀ d ∈ s.deliveries, ∃ r, s.registered[d.id]? = some r ∧
    d.DueTo s.timer.allowedEventDelay r
  timerEvents : ∀ x ∈ s.timer.registredTimerEvents, ∃ ticks oscillatorTick,
    s.registered[x.2]? = some (.timerEvent ticks oscillatorTick) ∧
      s.now / s.timer.currentTick ≤ oscillatorTick + ticks
  actionTimeEvents : ∀ x ∈ s.timer.registredActionTimeEvents, ∃ actionTime period,
    s.registered[x.2.event]? = some (.actionTimeEvent actionTime period) ∧
      period.getTicks x.1 = actionTime ∧ (s.timer.recalculate s.now).ticks ≤ x.1
  scheduled : s.timer.actionpoints ≠ [] → ∃ m p, s.timer.selfMessage = some m ∧ s.now ≤ m ∧
    (s.timer.recalculate m).ticks = p ∧ IsLeast {p | p ∈ s.timer.actionpoints} p

/-- The calls that are expected: the number of ticks stays a number, a timer event is not later than
time goes, and cycles have a length. -/
def Expected (s : TimerRun) : TimerCall → Prop
  | .registerTimerEvent ticks => ticks * s.timer.currentTick ≤ maxTime
  | .registerActionTimeEvent _ _ period => 0 < period.cycleTicks
  | .clockCorrection correctionTicks => 0 ≤ (s.timer.recalculate s.now).ticks + correctionTicks
  | _ => True

instance (s : TimerRun) (call : TimerCall) : Decidable (s.Expected call) :=
  match call with
  | .registerTimerEvent _ => inferInstanceAs (Decidable (_ ≤ _))
  | .registerActionTimeEvent .. => inferInstanceAs (Decidable (_ < _))
  | .clockCorrection _ => inferInstanceAs (Decidable (_ ≤ _))
  | .pass _ => .isTrue trivial
  | .selfMessage => .isTrue trivial

/-- The calls the timer is exact for: an action time is one the period comes to, at a distance an
`int32_t` holds, and a correction does the same with every event as if it knew the number of ticks
of its time. -/
def Kept (s : TimerRun) : TimerCall → Prop
  | .registerTimerEvent ticks => ticks * s.timer.currentTick ≤ maxTime
  | .registerActionTimeEvent actionTime _ period => period.cycleTicks < actionTime ∨
    actionTime < period.cycleTicks ∧
      Timer.DistanceFits (period.getTicks (s.timer.recalculate s.now).ticks) actionTime
  | .clockCorrection correctionTicks => s.timer.Correctable s.now correctionTicks
  | _ => True

instance (s : TimerRun) (call : TimerCall) : Decidable (s.Kept call) :=
  match call with
  | .registerTimerEvent _ => inferInstanceAs (Decidable (_ ≤ _))
  | .registerActionTimeEvent .. => inferInstanceAs (Decidable (_ ∨ _ ∧ _))
  | .clockCorrection c => inferInstanceAs (Decidable (s.timer.Correctable s.now c))
  | .pass _ => .isTrue trivial
  | .selfMessage => .isTrue trivial

/-! ## Invariant -/

structure Inv (s : TimerRun) : Prop where
  running : s.failed = false
  accurate : s.timer.Accurate s.now
  once : (s.timer.events ++ s.deliveries.map (·.id)).Perm (List.range s.registered.length)
  delivered : ∀ d ∈ s.deliveries, ∃ r, s.registered[d.id]? = some r ∧
    d.DueTo s.timer.allowedEventDelay r
  timerEvents : ∀ x ∈ s.timer.registredTimerEvents, ∃ ticks oscillatorTick : ℕ,
    s.registered[x.2]? = some (.timerEvent ticks oscillatorTick) ∧
      (x.1 : ℤ) = oscillatorTick + ticks + s.timer.ahead
  actionTimeEvents : ∀ x ∈ s.timer.registredActionTimeEvents,
    s.registered[x.2.event]? = some (.actionTimeEvent x.2.actionTime x.2.period) ∧
      0 < x.2.period.cycleTicks ∧ x.2.period.getTicks x.1 = x.2.actionTime

variable {s s' : TimerRun}

theorem Inv.exact (h : s.Inv) : s.Exact where
  running := h.running
  once := h.once
  delivered := h.delivered
  timerEvents x hx := by
    obtain ⟨ticks, oscillatorTick, hr, heq⟩ := h.timerEvents x hx
    refine ⟨ticks, oscillatorTick, hr, ?_⟩
    have hticks := h.accurate.toReady.ticks_eq
    have hfuture := h.accurate.future x.1
      (CorrectedTimer.mem_actionpoints.mpr (.inr ⟨x, hx, rfl⟩))
    omega
  actionTimeEvents x hx := by
    obtain ⟨hr, -, hphase⟩ := h.actionTimeEvents x hx
    exact ⟨_, _, hr, hphase,
      h.accurate.future x.1 (CorrectedTimer.mem_actionpoints.mpr (.inl ⟨x, hx, rfl⟩))⟩
  scheduled hne := by
    obtain ⟨q, hq⟩ := List.exists_mem_of_ne_nil _ hne
    obtain ⟨p, hp⟩ := CorrectedTimer.exists_nextAction hq
    have hleast := CorrectedTimer.isLeast_of_nextAction h.accurate.sortedActionTimeEvents
      h.accurate.sortedTimerEvents hp
    obtain ⟨m, hm, hle, hticks⟩ := h.accurate.scheduled p hleast
    exact ⟨m, p, hm, hle, hticks, hleast⟩

theorem Inv.init (h : runs.init s) : s.Inv := by
  obtain ⟨currentTick, allowedEventDelay, hpos, rfl⟩ := h
  have hready : CorrectedTimer.Ready (E := ℕ)
      { currentTick, allowedEventDelay, registredTimerEvents := [] } 0 :=
    ⟨hpos, Nat.dvd_zero _, le_rfl, .nil, .nil, fun _ hp => absurd hp List.not_mem_nil⟩
  exact ⟨rfl, ⟨hready, fun _ hp => absurd hp.1 List.not_mem_nil⟩, .refl _,
    fun _ hd => absurd hd List.not_mem_nil, fun _ hx => absurd hx List.not_mem_nil,
    fun _ hx => absurd hx List.not_mem_nil⟩

theorem getElem?_append_of_some {α : Type*} {l : List α} {i : ℕ} {x : α} (h : l[i]? = some x)
    (l' : List α) : (l ++ l')[i]? = some x := by
  rw [List.getElem?_append_left (List.getElem?_eq_some_iff.mp h).1, h]

/-- What a handler has to leave and to send. -/
theorem Inv.after (h : s.Inv) {timer : CorrectedTimer ℕ} {skipped sent ids : List ℕ}
    {registrations : List Registration} (haccurate : timer.Accurate s.now)
    (hallowed : timer.allowedEventDelay = s.timer.allowedEventDelay)
    (hids : List.range (s.registered ++ registrations).length =
      List.range s.registered.length ++ ids)
    (hperm : (timer.events ++ (skipped ++ sent)).Perm (s.timer.events ++ ids))
    (hskipped : ∀ d ∈ s.delivered timer (some (s.timer.recalculate s.now).ticks) skipped,
      ∃ r, (s.registered ++ registrations)[d.id]? = some r ∧
        d.DueTo s.timer.allowedEventDelay r)
    (hsent : ∀ d ∈ s.delivered timer none sent,
      ∃ r, (s.registered ++ registrations)[d.id]? = some r ∧
        d.DueTo s.timer.allowedEventDelay r)
    (htimerEvents : ∀ x ∈ timer.registredTimerEvents, ∃ ticks oscillatorTick : ℕ,
      (s.registered ++ registrations)[x.2]? = some (.timerEvent ticks oscillatorTick) ∧
        (x.1 : ℤ) = oscillatorTick + ticks + timer.ahead)
    (hactionTimeEvents : ∀ x ∈ timer.registredActionTimeEvents,
      (s.registered ++ registrations)[x.2.event]? =
          some (.actionTimeEvent x.2.actionTime x.2.period) ∧
        0 < x.2.period.cycleTicks ∧ x.2.period.getTicks x.1 = x.2.actionTime) :
    (s.after registrations (some (timer, skipped, sent))).Inv := by
  refine ⟨h.running, haccurate, ?_, fun d hd => ?_, htimerEvents, hactionTimeEvents⟩
  · have hsentIds : (s.delivered timer (some (s.timer.recalculate s.now).ticks) skipped ++
        s.delivered timer none sent).map (·.id) = skipped ++ sent := by
      simp [TimerRun.delivered, Function.comp_def]
    change (timer.events ++ (s.deliveries ++ _).map (·.id)).Perm
      (List.range (s.registered ++ registrations).length)
    rw [hids, List.map_append, hsentIds]
    -- what the timer still has, was skipped or sent, with the earlier deliveries
    have hold : (timer.events ++ (s.deliveries.map (·.id) ++ (skipped ++ sent))).Perm
        ((timer.events ++ (skipped ++ sent)) ++ s.deliveries.map (·.id)) := by
      rw [List.append_assoc]
      exact List.perm_append_comm.append_left _
    have hnew : ((s.timer.events ++ ids) ++ s.deliveries.map (·.id)).Perm
        ((s.timer.events ++ s.deliveries.map (·.id)) ++ ids) := by
      rw [List.append_assoc, List.append_assoc]
      exact List.perm_append_comm.append_left _
    exact (hold.trans (hperm.append_right _)).trans (hnew.trans (h.once.append_right _))
  · change ∃ r, (s.registered ++ registrations)[d.id]? = some r ∧
      d.DueTo timer.allowedEventDelay r
    rw [hallowed]
    rcases List.mem_append.mp hd with hd | hd
    · obtain ⟨r, hr, hdue⟩ := h.delivered d hd
      exact ⟨r, getElem?_append_of_some hr _, hdue⟩
    · rcases List.mem_append.mp hd with hd | hd
      · exact hskipped d hd
      · exact hsent d hd

/-- The events that were registered before stay as they are. -/
theorem Inv.timerEvents_append (h : s.Inv) (registrations : List Registration) :
    ∀ x ∈ s.timer.registredTimerEvents, ∃ ticks oscillatorTick : ℕ,
      (s.registered ++ registrations)[x.2]? = some (.timerEvent ticks oscillatorTick) ∧
        (x.1 : ℤ) = oscillatorTick + ticks + s.timer.ahead := by
  intro x hx
  obtain ⟨ticks, oscillatorTick, hr, heq⟩ := h.timerEvents x hx
  exact ⟨ticks, oscillatorTick, getElem?_append_of_some hr _, heq⟩

theorem Inv.actionTimeEvents_append (h : s.Inv) (registrations : List Registration) :
    ∀ x ∈ s.timer.registredActionTimeEvents,
      (s.registered ++ registrations)[x.2.event]? =
          some (.actionTimeEvent x.2.actionTime x.2.period) ∧
        0 < x.2.period.cycleTicks ∧ x.2.period.getTicks x.1 = x.2.actionTime := by
  intro x hx
  obtain ⟨hr, hphase⟩ := h.actionTimeEvents x hx
  exact ⟨getElem?_append_of_some hr _, hphase⟩

theorem Inv.pass {time : ℕ} (h : s.Inv) (hs : s.step (.pass time) = some s') : s'.Inv := by
  rw [TimerRun.step, if_neg (by simp [h.running])] at hs
  split_ifs at hs with hpass
  obtain rfl := Option.some.inj hs
  exact ⟨h.running, h.accurate.mono hpass.1 hpass.2, h.once, h.delivered, h.timerEvents,
    h.actionTimeEvents⟩

/-- What is sent out for the ticks of the timer is due. -/
theorem dueTo_of_due {registered : List Registration} {timer : CorrectedTimer ℕ}
    {due : List (ℕ × ActionTimeEvent ℕ)} {dueTimers : List (ℕ × ℕ)} {allowedEventDelay : ℤ}
    (hticks : (timer.ticks : ℤ) = (s.now / s.timer.currentTick : ℕ) + timer.ahead)
    (hdue : ∀ x ∈ due, x.1 = timer.ticks ∧
      registered[x.2.event]? = some (.actionTimeEvent x.2.actionTime x.2.period) ∧
        x.2.period.getTicks x.1 = x.2.actionTime)
    (hdueTimers : ∀ x ∈ dueTimers, x.1 = timer.ticks ∧ ∃ ticks oscillatorTick : ℕ,
      registered[x.2]? = some (.timerEvent ticks oscillatorTick) ∧
        (x.1 : ℤ) = oscillatorTick + ticks + timer.ahead) :
    ∀ d ∈ s.delivered timer none (due.map (·.2.event) ++ dueTimers.map (·.2)),
      ∃ r, registered[d.id]? = some r ∧ d.DueTo allowedEventDelay r := by
  intro d hd
  obtain ⟨id, hid, rfl⟩ := List.mem_map.mp hd
  rcases List.mem_append.mp hid with hid | hid
  · obtain ⟨x, hx, rfl⟩ := List.mem_map.mp hid
    obtain ⟨heq, hr, hphase⟩ := hdue x hx
    exact ⟨_, hr, .inl ⟨rfl, by rw [← heq, hphase]⟩⟩
  · obtain ⟨x, hx, rfl⟩ := List.mem_map.mp hid
    obtain ⟨heq, ticks, oscillatorTick, hr, hkey⟩ := hdueTimers x hx
    refine ⟨_, hr, ?_⟩
    change s.now / s.timer.currentTick = oscillatorTick + ticks
    omega

/-- The events before some are sent out are those after it and the ones that are sent. -/
theorem events_perm {t t' : CorrectedTimer ℕ} {due : List (ℕ × ActionTimeEvent ℕ)}
    {dueTimers : List (ℕ × ℕ)}
    (hactions : t.registredActionTimeEvents = due ++ t'.registredActionTimeEvents)
    (htimers : t.registredTimerEvents = dueTimers ++ t'.registredTimerEvents) :
    (t'.events ++ (due.map (·.2.event) ++ dueTimers.map (·.2))).Perm t.events := by
  rw [CorrectedTimer.events, CorrectedTimer.events, hactions, htimers, List.perm_iff_count]
  intro id
  simp only [List.count_append, List.map_append]
  omega

theorem Inv.selfMessage (h : s.Inv) (hs : s.step .selfMessage = some s') : s'.Inv := by
  rw [TimerRun.step, if_neg (by simp [h.running])] at hs
  split_ifs at hs
  obtain rfl := Option.some.inj hs
  obtain ⟨timer, due, dueTimers, hsend, haccurate, hticks, htick, hallowed, hahead, hactions,
    htimers, hdue, hdueTimers⟩ := h.accurate.toReady.sendOutEvents
  rw [hsend]
  have hids : List.range (s.registered ++ []).length = List.range s.registered.length ++ [] := by
    simp
  have htimerEvents := h.timerEvents_append []
  have hactionTimeEvents := h.actionTimeEvents_append []
  rw [htimers, ← hahead] at htimerEvents
  rw [hactions] at hactionTimeEvents
  apply h.after haccurate hallowed hids
  · rw [List.append_nil]
    exact events_perm hactions htimers
  · exact fun d hd => absurd hd List.not_mem_nil
  · apply dueTo_of_due
    · rw [hticks, h.accurate.toReady.ticks_eq, hahead]
    · intro x hx
      obtain ⟨hr, -, hphase⟩ := hactionTimeEvents x (List.mem_append_left _ hx)
      exact ⟨hdue x hx, hr, hphase⟩
    · exact fun x hx => ⟨hdueTimers x hx, htimerEvents x (List.mem_append_left _ hx)⟩
  · exact fun x hx => htimerEvents x (List.mem_append_right _ hx)
  · exact fun x hx => hactionTimeEvents x (List.mem_append_right _ hx)

theorem range_concat (registered : List Registration) (r : Registration) :
    List.range (registered ++ [r]).length =
      List.range registered.length ++ [registered.length] := by
  rw [List.length_append, List.length_singleton, List.range_succ]

theorem Inv.registerTimerEvent {ticks : ℕ} (h : s.Inv)
    (hmax : ticks * s.timer.currentTick ≤ maxTime)
    (hs : s.step (.registerTimerEvent ticks) = some s') : s'.Inv := by
  rw [TimerRun.step, if_neg (by simp [h.running])] at hs
  obtain rfl := Option.some.inj hs
  obtain ⟨timer, sent, hregister, haccurate, hcases⟩ :=
    h.accurate.registerTimerEvent (e := s.registered.length) hmax
  rw [hregister]
  have hids := range_concat s.registered (.timerEvent ticks (s.now / s.timer.currentTick))
  have htimerEvents := h.timerEvents_append [.timerEvent ticks (s.now / s.timer.currentTick)]
  have hactionTimeEvents :=
    h.actionTimeEvents_append [.timerEvent ticks (s.now / s.timer.currentTick)]
  have hnew : (s.registered ++ [.timerEvent ticks (s.now / s.timer.currentTick)])[
      s.registered.length]? = some (.timerEvent ticks (s.now / s.timer.currentTick)) :=
    List.getElem?_concat_length
  have hticks := h.accurate.toReady.ticks_eq
  -- an event for now is sent at once, the others are registered
  rcases hcases with ⟨hzero, rfl, hsame⟩ | ⟨rfl, hsame⟩
  · apply h.after haccurate hsame.allowedEventDelay hids
    · rw [CorrectedTimer.events, hsame.registredActionTimeEvents, hsame.registredTimerEvents]
      exact .refl _
    · exact fun d hd => absurd hd List.not_mem_nil
    · intro d hd
      obtain rfl := List.mem_singleton.mp hd
      refine ⟨_, hnew, ?_⟩
      change s.now / s.timer.currentTick = s.now / s.timer.currentTick + ticks
      omega
    · rw [hsame.registredTimerEvents, hsame.ahead]
      exact htimerEvents
    · rw [hsame.registredActionTimeEvents]
      exact hactionTimeEvents
  · apply h.after haccurate hsame.allowedEventDelay hids
    · rw [CorrectedTimer.events, hsame.registredActionTimeEvents, hsame.registredTimerEvents,
        List.append_nil, List.append_nil]
      refine (((pushBack_perm ..).map _).append_left _).trans ?_
      exact List.perm_middle.trans (List.perm_append_singleton _ _).symm
    · exact fun d hd => absurd hd List.not_mem_nil
    · exact fun d hd => absurd hd List.not_mem_nil
    · rw [hsame.registredTimerEvents, hsame.ahead]
      intro x hx
      rcases List.mem_cons.mp ((pushBack_perm ..).mem_iff.mp hx) with rfl | hx
      · refine ⟨_, _, hnew, ?_⟩
        push_cast
        rw [hticks]
        change _ = _ + s.timer.ahead
        omega
      · exact htimerEvents x hx
    · rw [hsame.registredActionTimeEvents]
      exact hactionTimeEvents

theorem Inv.registerActionTimeEvent {actionTime : ℕ} {nextCycle : Bool} {period : Period}
    (h : s.Inv) (hkept : s.Kept (.registerActionTimeEvent actionTime nextCycle period))
    (hs : s.step (.registerActionTimeEvent actionTime nextCycle period) = some s') : s'.Inv := by
  rw [TimerRun.step, if_neg (by simp [h.running])] at hs
  obtain rfl := Option.some.inj hs
  rcases hkept with hout | ⟨hlt, hfits⟩
  · -- the event is out of the cycle, and nothing happens
    have hnone : s.timer.registerActionTimeEvent s.now
        ⟨s.registered.length, actionTime, nextCycle, period⟩ = some (s.timer, []) := if_pos hout
    rw [if_pos hout, hnone]
    have hids : List.range (s.registered ++ []).length =
        List.range s.registered.length ++ [] := by simp
    exact h.after h.accurate rfl hids (.refl _) (fun d hd => absurd hd List.not_mem_nil)
      (fun d hd => absurd hd List.not_mem_nil) (h.timerEvents_append [])
      (h.actionTimeEvents_append [])
  obtain ⟨timer, sent, hregister, haccurate, hcases⟩ := h.accurate.registerActionTimeEvent
    (e := ⟨s.registered.length, actionTime, nextCycle, period⟩) hlt hfits
  rw [if_neg (not_lt.mpr hlt.le), hregister]
  have hids := range_concat s.registered (.actionTimeEvent actionTime period)
  have htimerEvents := h.timerEvents_append [.actionTimeEvent actionTime period]
  have hactionTimeEvents := h.actionTimeEvents_append [.actionTimeEvent actionTime period]
  have hnew : (s.registered ++ [.actionTimeEvent actionTime period])[s.registered.length]? =
      some (.actionTimeEvent actionTime period) := List.getElem?_concat_length
  rcases hcases with ⟨rfl, hsame, hphase⟩ | ⟨p, rfl, hphase, hsame⟩
  · apply h.after haccurate hsame.allowedEventDelay hids
    · rw [CorrectedTimer.events, hsame.registredActionTimeEvents, hsame.registredTimerEvents]
      exact .refl _
    · exact fun d hd => absurd hd List.not_mem_nil
    · intro d hd
      obtain rfl := List.mem_singleton.mp hd
      exact ⟨_, hnew, .inl ⟨rfl, hphase⟩⟩
    · rw [hsame.registredTimerEvents, hsame.ahead]
      exact htimerEvents
    · rw [hsame.registredActionTimeEvents]
      exact hactionTimeEvents
  · apply h.after haccurate hsame.allowedEventDelay hids
    · rw [CorrectedTimer.events, hsame.registredActionTimeEvents, hsame.registredTimerEvents,
        List.append_nil, List.append_nil]
      refine (((pushBack_perm ..).map _).append_right _).trans ?_
      exact (List.perm_append_singleton _ _).symm
    · exact fun d hd => absurd hd List.not_mem_nil
    · exact fun d hd => absurd hd List.not_mem_nil
    · rw [hsame.registredTimerEvents, hsame.ahead]
      exact htimerEvents
    · rw [hsame.registredActionTimeEvents]
      intro x hx
      rcases List.mem_cons.mp ((pushBack_perm ..).mem_iff.mp hx) with rfl | hx
      · exact ⟨hnew, Nat.zero_lt_of_lt hlt, hphase⟩
      · exact hactionTimeEvents x hx

/-- Only the place of an action point in its cycle matters. -/
theorem getTicks_congr {period : Period} {p q : ℕ}
    (h : p % period.cycleTicks = q % period.cycleTicks) :
    period.getTicks p = period.getTicks q := by
  have hle := period.offset_le
  unfold Period.getTicks
  rw [Nat.add_comm _ p, Nat.add_comm _ q, Nat.add_sub_assoc hle, Nat.add_sub_assoc hle,
    Nat.add_mod, h, ← Nat.add_mod]

theorem Inv.clockCorrection {c : ℤ} (h : s.Inv) (hc : s.timer.Correctable s.now c)
    (hs : s.step (.clockCorrection c) = some s') : s'.Inv := by
  rw [TimerRun.step, if_neg (by simp [h.running])] at hs
  obtain rfl := Option.some.inj hs
  have hready := h.accurate.toReady
  have hpos : ∀ x ∈ s.timer.registredActionTimeEvents, 0 < x.2.period.cycleTicks :=
    fun x hx => (h.actionTimeEvents x hx).2.1
  obtain ⟨timer, due, dueTimers, hcorrect, haccurate, hticks, htick, hallowed, hahead, hactions,
    htimers, hdue, hdueTimers⟩ := hready.clockCorrection hc hpos
  rw [hcorrect]
  have hids : List.range (s.registered ++ []).length = List.range s.registered.length ++ [] := by
    simp
  have hnow := hready.ticks_eq
  have hcorrected := CorrectedTimer.ticks_recalculate_correct hc
  have htimerEvents : ∀ x ∈ (s.timer.correct c).registredTimerEvents, ∃ ticks oscillatorTick : ℕ,
      (s.registered ++ [])[x.2]? = some (.timerEvent ticks oscillatorTick) ∧
        (x.1 : ℤ) = oscillatorTick + ticks + timer.ahead := by
    intro y hy
    obtain ⟨x, hx, hevent, heq⟩ := CorrectedTimer.mem_timerEvents_correct hready hc hy
    obtain ⟨ticks, oscillatorTick, hr, hkey⟩ := h.timerEvents_append [] x hx
    exact ⟨ticks, oscillatorTick, by rw [hevent, hr], by omega⟩
  have hactionTimeEvents : ∀ x ∈ (s.timer.correct c).registredActionTimeEvents,
      (s.registered ++ [])[x.2.event]? = some (.actionTimeEvent x.2.actionTime x.2.period) ∧
        0 < x.2.period.cycleTicks ∧ x.2.period.getTicks x.1 = x.2.actionTime := by
    intro y hy
    obtain ⟨-, x, hx, hevent, hmod⟩ := CorrectedTimer.mem_actionTimeEvents_correct hc hpos hy
    obtain ⟨hr, hcycle, hphase⟩ := h.actionTimeEvents_append [] x hx
    rw [hevent]
    exact ⟨hr, hcycle, (getTicks_congr hmod).trans hphase⟩
  rw [htimers] at htimerEvents
  rw [hactions] at hactionTimeEvents
  apply h.after haccurate hallowed hids
  · rw [List.append_nil]
    refine (List.perm_append_comm.append_left _).trans ?_
    rw [← List.append_assoc]
    exact ((events_perm hactions htimers).append_right _).trans
      (CorrectedTimer.events_correct s.timer c)
  · -- the action points that are skipped lie between the ticks before and after the correction
    intro d hd
    obtain ⟨id, hid, rfl⟩ := List.mem_map.mp hd
    obtain ⟨x, hx, rfl⟩ := List.mem_map.mp hid
    obtain ⟨hmem, hge, hlt, hdelay⟩ := CorrectedTimer.mem_skipped hready hc hx
    obtain ⟨hr, -, hphase⟩ := h.actionTimeEvents_append [] x hmem
    rw [← hticks] at hlt hdelay
    exact ⟨_, hr, .inr ⟨_, rfl, x.1, hge, hlt, hphase, hdelay⟩⟩
  · apply dueTo_of_due
    · rw [hticks, hcorrected, hnow, hahead]
      omega
    · intro x hx
      obtain ⟨hr, -, hphase⟩ := hactionTimeEvents x (List.mem_append_left _ hx)
      exact ⟨hdue x hx, hr, hphase⟩
    · exact fun x hx => ⟨hdueTimers x hx, htimerEvents x (List.mem_append_left _ hx)⟩
  · exact fun x hx => htimerEvents x (List.mem_append_right _ hx)
  · exact fun x hx => hactionTimeEvents x (List.mem_append_right _ hx)

theorem Inv.step {call : TimerCall} (h : s.Inv) (hkept : s.Kept call)
    (hs : s.step call = some s') : s'.Inv := by
  cases call with
  | pass time => exact h.pass hs
  | selfMessage => exact h.selfMessage hs
  | registerTimerEvent ticks => exact h.registerTimerEvent hkept hs
  | registerActionTimeEvent actionTime nextCycle period => exact h.registerActionTimeEvent hkept hs
  | clockCorrection c => exact h.clockCorrection hkept hs

/-- A timer is exact as long as every correction meets the events as if it knew the number of ticks
of its time, and action times are ones the periods come to. -/
theorem exact_of_kept (h : runs.ReachableUnder Kept s) : s.Exact := by
  have hinv : s.Inv := System.ReachableUnder.invariant h (fun _ => Inv.init)
    fun _ _ _ _ hinv hkept hs => hinv.step hkept hs
  exact hinv.exact

/-- A timer whose ticks have a length, at its initialization. -/
def initialTimer (currentTick : ℕ) : TimerRun where
  timer := { currentTick }

def twentyTicks : Period := ⟨20, 0, Nat.zero_le _⟩

/-- Between two ticks the clock is put forward over the event for an action time, and the timer
events come as many ticks after their registrations as they should. -/
theorem exact_of_kept_corrected : ∃ s : TimerRun, runs.ReachableUnder Kept s ∧
    s.deliveries = [⟨1, 2, 6, some 2⟩, ⟨0, 3, 7, none⟩, ⟨2, 6, 10, none⟩] ∧ s.Exact := by
  have hrun : (runs.runUnder Kept (initialTimer 2)
      [.registerTimerEvent 3, .registerActionTimeEvent 5 false twentyTicks, .pass 5,
        .registerTimerEvent 4, .clockCorrection 4, .pass 7, .selfMessage, .pass 13,
        .selfMessage]).map (·.deliveries) =
      some [⟨1, 2, 6, some 2⟩, ⟨0, 3, 7, none⟩, ⟨2, 6, 10, none⟩] := by decide +kernel
  obtain ⟨s, hs, hdeliveries⟩ := Option.map_eq_some_iff.mp hrun
  have hreachable : runs.ReachableUnder Kept s :=
    System.ReachableUnder.run (.init ⟨2, -1, by decide, rfl⟩) hs
  exact ⟨s, hreachable, hdeliveries, exact_of_kept hreachable⟩

/-- A correction between two ticks puts the clock forward over an event for an action time. It looks
at the number of ticks of the last call, for which the event is still to come, and fails. -/
theorem correction_fails : ¬∀ s : TimerRun, runs.ReachableUnder Expected s → s.Exact := by
  have hrun : (runs.runUnder Expected (initialTimer 1)
      [.registerActionTimeEvent 5 false twentyTicks, .pass 3, .clockCorrection 4]).map (·.failed) =
      some true := by decide +kernel
  obtain ⟨s, hs, hfailed⟩ := Option.map_eq_some_iff.mp hrun
  intro hexact
  have hreachable : runs.ReachableUnder Expected s :=
    System.ReachableUnder.run (.init ⟨1, -1, by decide, rfl⟩) hs
  rw [(hexact s hreachable).running] at hfailed
  cases hfailed

end TimerRun

end TsnReconfig.Gates
