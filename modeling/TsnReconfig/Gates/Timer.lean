import Mathlib.Data.List.TakeWhile
import Mathlib.Data.Nat.Basic
import Mathlib.Algebra.Order.Ring.Nat

/-!
# The timer

`Timer` with its `Oscillator`, and `Period`. The clock is not corrected and the length of a tick is
constant, so that the two lengths of the oscillator are one. Times are counted in the resolution of
the simulation. Timer events (`SchedulerTimerEvent`) are left out.
-/

namespace TsnReconfig.Gates

/-! ## Periods -/

/-- `Period`; the range of its parameters is checked when they are read. -/
structure Period where
  cycleTicks : ℕ
  offsetTicks : ℕ
  offset_le : offsetTicks ≤ cycleTicks
  deriving DecidableEq, Repr

namespace Period
variable (period : Period)

/-- `getTicks`, when the timer is at a number of ticks. -/
def getTicks (totalTicks : ℕ) : ℕ :=
  (period.cycleTicks + totalTicks - period.offsetTicks) % period.cycleTicks

theorem getTicks_add (k d : ℕ) :
    period.getTicks (k + d) = (period.getTicks k + d) % period.cycleTicks := by
  have hle := period.offset_le
  unfold getTicks
  rw [Nat.mod_add_mod]
  congr 1
  omega

/-- The ticks from one time in the period to the next occurrence of another one. -/
def wait (c a : ℕ) : ℕ :=
  if c ≤ a then a - c else period.cycleTicks - c + a

variable {period}

theorem wait_pos {c a : ℕ} (hc : c < period.cycleTicks) (hne : a ≠ c) : 0 < period.wait c a := by
  unfold wait
  split_ifs
  all_goals omega

theorem getTicks_lt {a : ℕ} (h : a < period.cycleTicks) (k : ℕ) :
    period.getTicks k < period.cycleTicks :=
  Nat.mod_lt _ (Nat.zero_lt_of_lt h)

theorem getTicks_add_wait {k a : ℕ} (ha : a < period.cycleTicks) :
    period.getTicks (k + period.wait (period.getTicks k) a) = a := by
  have hc := getTicks_lt ha k
  rw [getTicks_add]
  unfold wait
  split_ifs with hle
  · rw [Nat.add_sub_cancel' hle]
    exact Nat.mod_eq_of_lt ha
  · rw [← Nat.add_assoc, Nat.add_sub_cancel' hc.le, Nat.add_mod_left]
    exact Nat.mod_eq_of_lt ha

end Period

/-! ## Timers -/

/-- `Timer` with the tick of its oscillator, for events of any kind. The map from action points to
lists of events is a list in the order of the action points. -/
structure Timer (E : Type*) where
  currentTick : ℕ
  ticks : ℕ := 0
  lastRecalculation : ℕ := 0
  registredActionTimeEvents : List (ℕ × E) := []
  selfMessage : Option ℕ := none
  deriving DecidableEq, Repr

/-- `static_cast<int32_t>`. -/
def toInt32 (x : ℤ) : ℤ :=
  x.bmod 4294967296

/-- `registredActionTimeEvents[actionpoint].push_back(event)`. -/
def pushBack {E : Type*} (actionpoint : ℕ) (e : E) : List (ℕ × E) → List (ℕ × E)
  | [] => [(actionpoint, e)]
  | x :: l =>
    if x.1 ≤ actionpoint then x :: pushBack actionpoint e l else (actionpoint, e) :: x :: l

namespace Timer
variable {E : Type*} (t : Timer E)

/-- `recalculate`. Nothing is left to do if it was called before at the same time. -/
def recalculate (now : ℕ) : Timer E :=
  let elapsedTicks := (now - t.lastRecalculation) / t.currentTick
  { t with
    ticks := t.ticks + elapsedTicks
    lastRecalculation := t.lastRecalculation + elapsedTicks * t.currentTick }

/-- `nextAction`, `none` if no events are registered. -/
def nextAction : Option ℕ :=
  t.registredActionTimeEvents.head?.map (·.1)

def reschedule (now : ℕ) : Option (Timer E) :=
  let t := t.recalculate now
  match t.nextAction with
  | none => some { t with selfMessage := none }
  | some nextActionTicks =>
    if nextActionTicks < t.ticks then none
    else some { t with selfMessage := some (now + (nextActionTicks - t.ticks) * t.currentTick) }

/-- An event that is registered for an action point becomes the next one. -/
def Reschedules (actionpoint : ℕ) : Prop :=
  t.selfMessage = none ∨ ∀ oldActionpoint ∈ t.nextAction, actionpoint < oldActionpoint

instance (actionpoint : ℕ) : Decidable (t.Reschedules actionpoint) :=
  inferInstanceAs (Decidable (_ ∨ _))

/-- The registration of an event for an action point. -/
def registerAt (now actionpoint : ℕ) (e : E) : Option (Timer E) :=
  let t' := { t with
    registredActionTimeEvents := pushBack actionpoint e t.registredActionTimeEvents }
  if t.Reschedules actionpoint then t'.reschedule now else some t'

/-- The action point for a time in the period. -/
def actionpoint (period : Period) (actionTime : ℕ) (nextCycle : Bool) : ℤ :=
  let distance := toInt32 (actionTime - period.getTicks t.ticks)
  if distance < 0 ∨ distance = 0 ∧ nextCycle then t.ticks + (period.cycleTicks + distance)
  else t.ticks + distance

/-- `registerEvent` for an event with an action time, with the events it sends at once. -/
def registerEvent (now : ℕ) (period : Period) (actionTime : ℕ) (nextCycle : Bool) (e : E) :
    Option (Timer E × List E) :=
  if period.cycleTicks < actionTime then some (t, [])
  else
    let t := t.recalculate now
    let actionpoint := t.actionpoint period actionTime nextCycle
    if actionpoint = t.ticks then some (t, [e])
    else if actionpoint < t.ticks then none
    else (t.registerAt now actionpoint.toNat e).map (·, [])

/-- `sendOutEvents`, with the events it sends. -/
def sendOutEvents (now : ℕ) : Option (Timer E × List E) :=
  let t := t.recalculate now
  let due := t.registredActionTimeEvents.takeWhile (·.1 ≤ t.ticks)
  let t := { t with
    registredActionTimeEvents := t.registredActionTimeEvents.dropWhile (·.1 ≤ t.ticks) }
  (t.reschedule now).map (·, due.map (·.2))

end Timer

theorem pushBack_perm {E : Type*} (p : ℕ) (e : E) (l : List (ℕ × E)) :
    (pushBack p e l).Perm ((p, e) :: l) := by
  induction l with
  | nil => exact .refl _
  | cons x l ih =>
    unfold pushBack
    split_ifs
    · exact (ih.cons x).trans (.swap ..)
    · exact .refl _

theorem pushBack_sorted {E : Type*} {p : ℕ} {e : E} {l : List (ℕ × E)}
    (h : l.Pairwise (·.1 ≤ ·.1)) : (pushBack p e l).Pairwise (·.1 ≤ ·.1) := by
  induction l with
  | nil => exact List.pairwise_singleton _ _
  | cons x l ih =>
    obtain ⟨hx, hl⟩ := List.pairwise_cons.mp h
    unfold pushBack
    split_ifs with hp
    · refine List.pairwise_cons.mpr ⟨fun y hy => ?_, ih hl⟩
      rcases List.mem_cons.mp ((pushBack_perm p e l).mem_iff.mp hy) with rfl | hy
      · exact hp
      · exact hx y hy
    · refine List.pairwise_cons.mpr ⟨fun y hy => ?_, h⟩
      rcases List.mem_cons.mp hy with rfl | hy
      · exact (not_le.mp hp).le
      · exact (not_le.mp hp).le.trans (hx y hy)

theorem lt_of_mem_dropWhile {E : Type*} {ticks : ℕ} {l : List (ℕ × E)}
    (h : l.Pairwise (·.1 ≤ ·.1)) : ∀ x ∈ l.dropWhile (·.1 ≤ ticks), ticks < x.1 := by
  induction l with
  | nil => simp
  | cons y l ih =>
    obtain ⟨hy, hl⟩ := List.pairwise_cons.mp h
    by_cases hle : y.1 ≤ ticks
    · rw [List.dropWhile_cons_of_pos (by simpa using hle)]
      exact ih hl
    · rw [List.dropWhile_cons_of_neg (by simpa using hle)]
      intro x hx
      rcases List.mem_cons.mp hx with rfl | hx
      · exact not_le.mp hle
      · exact (not_le.mp hle).trans_le (hy x hx)

/-! ## On the grid -/

namespace Timer
variable {E : Type*}

/-- At a time the self message is scheduled for the beginning of the next tick that has events,
and no such tick has begun before. -/
structure OnGrid (t : Timer E) (now : ℕ) : Prop where
  pos : 0 < t.currentTick
  last : t.lastRecalculation = t.ticks * t.currentTick
  past : t.lastRecalculation ≤ now
  sorted : t.registredActionTimeEvents.Pairwise (·.1 ≤ ·.1)
  future : ∀ x ∈ t.registredActionTimeEvents, now ≤ x.1 * t.currentTick
  scheduled : t.selfMessage = t.nextAction.map (· * t.currentTick)

variable {t : Timer E} {now now' : ℕ}

/-- The next action point is the first of all. -/
theorem le_of_mem_nextAction (hsorted : t.registredActionTimeEvents.Pairwise (·.1 ≤ ·.1)) {p : ℕ}
    (hp : p ∈ t.nextAction) : ∀ x ∈ t.registredActionTimeEvents, p ≤ x.1 := by
  obtain ⟨y, hy, rfl⟩ := Option.map_eq_some_iff.mp hp
  obtain ⟨l, hl⟩ := List.head?_eq_some_iff.mp hy
  rw [hl] at hsorted ⊢
  intro x hx
  rcases List.mem_cons.mp hx with rfl | hx
  · exact le_rfl
  · exact (List.pairwise_cons.mp hsorted).1 x hx

theorem exists_nextAction {x : ℕ × E} (hx : x ∈ t.registredActionTimeEvents) :
    ∃ p, t.nextAction = some p := by
  obtain ⟨y, l, hl⟩ := List.exists_cons_of_ne_nil (List.ne_nil_of_mem hx)
  exact ⟨y.1, by rw [nextAction, hl]; rfl⟩

theorem recalculate_eq (hpos : 0 < t.currentTick)
    (hlast : t.lastRecalculation = t.ticks * t.currentTick) (hpast : t.lastRecalculation ≤ now) :
    t.recalculate now = { t with
      ticks := now / t.currentTick
      lastRecalculation := now / t.currentTick * t.currentTick } := by
  have hticks : t.ticks + (now - t.lastRecalculation) / t.currentTick = now / t.currentTick := by
    obtain ⟨d, rfl⟩ := Nat.exists_eq_add_of_le hpast
    rw [Nat.add_sub_cancel_left, hlast, Nat.add_comm (t.ticks * _), Nat.add_mul_div_right _ _ hpos,
      Nat.add_comm]
  have hmul := congrArg (· * t.currentTick) hticks
  simp only [Nat.add_mul, ← hlast] at hmul
  simp only [recalculate, hticks, hmul]

theorem OnGrid.recalculate_eq (h : t.OnGrid now) : t.recalculate now = { t with
    ticks := now / t.currentTick
    lastRecalculation := now / t.currentTick * t.currentTick } :=
  Timer.recalculate_eq h.pos h.last h.past

/-- Time passes until the self message. -/
theorem OnGrid.mono (h : t.OnGrid now) (hle : now ≤ now')
    (hself : ∀ m ∈ t.selfMessage, now' ≤ m) : t.OnGrid now' where
  pos := h.pos
  last := h.last
  past := h.past.trans hle
  sorted := h.sorted
  scheduled := h.scheduled
  future x hx := by
    obtain ⟨p, hp⟩ := exists_nextAction hx
    have hm : now' ≤ p * t.currentTick := by
      refine hself _ ?_
      rw [h.scheduled, hp]
      rfl
    exact hm.trans (Nat.mul_le_mul_right _ (le_of_mem_nextAction h.sorted hp x hx))

theorem reschedule_eq (hpos : 0 < t.currentTick)
    (hlast : t.lastRecalculation = t.ticks * t.currentTick) (hpast : t.lastRecalculation ≤ now)
    (hfuture : ∀ x ∈ t.registredActionTimeEvents, now / t.currentTick ≤ x.1) :
    t.reschedule now = some { t with
      ticks := now / t.currentTick
      lastRecalculation := now / t.currentTick * t.currentTick
      selfMessage := t.nextAction.map fun p =>
        now + (p - now / t.currentTick) * t.currentTick } := by
  unfold reschedule
  rw [recalculate_eq hpos hlast hpast]
  unfold nextAction
  cases hhead : t.registredActionTimeEvents.head? with
  | none => simp only [hhead, Option.map_none]
  | some x =>
    have hx := hfuture x (List.mem_of_head? hhead)
    simp only [hhead, Option.map_some, if_neg (not_lt.mpr hx)]

/-- A timer that is rescheduled at the beginning of a tick comes on the grid. -/
theorem exists_reschedule (hpos : 0 < t.currentTick)
    (hlast : t.lastRecalculation = t.ticks * t.currentTick) (hpast : t.lastRecalculation ≤ now)
    (hsorted : t.registredActionTimeEvents.Pairwise (·.1 ≤ ·.1)) (hgrid : now % t.currentTick = 0)
    (hfuture : ∀ x ∈ t.registredActionTimeEvents, now / t.currentTick ≤ x.1) :
    ∃ t', t.reschedule now = some t' ∧ t'.OnGrid now ∧
      t'.registredActionTimeEvents = t.registredActionTimeEvents ∧
      t'.currentTick = t.currentTick := by
  have hnow : now / t.currentTick * t.currentTick = now :=
    Nat.div_mul_cancel (Nat.dvd_of_mod_eq_zero hgrid)
  refine ⟨_, reschedule_eq hpos hlast hpast hfuture, ⟨hpos, rfl, hnow.le, hsorted, ?_, ?_⟩,
    rfl, rfl⟩
  · intro x hx
    calc now = now / t.currentTick * t.currentTick := hnow.symm
      _ ≤ x.1 * t.currentTick := Nat.mul_le_mul_right _ (hfuture x hx)
  · -- the self message comes when the tick of the next events begins
    change t.nextAction.map _ = t.nextAction.map _
    refine Option.map_congr fun p hp => ?_
    obtain ⟨x, hx, rfl⟩ := Option.map_eq_some_iff.mp hp
    have hle := Nat.mul_le_mul_right t.currentTick (hfuture x (List.mem_of_head? hx))
    change now + (x.1 - now / t.currentTick) * t.currentTick = x.1 * t.currentTick
    rw [Nat.sub_mul]
    omega

/-! ## Registering and sending -/

/-- An event for an action point is in time if the timer is not rescheduled for it between the
beginnings of two ticks. -/
def InTime (t : Timer E) (now actionpoint : ℕ) : Prop :=
  now % t.currentTick = 0 ∨ ¬t.Reschedules actionpoint

theorem OnGrid.recalculate (h : t.OnGrid now) : (t.recalculate now).OnGrid now := by
  rw [h.recalculate_eq]
  exact ⟨h.pos, rfl, Nat.div_mul_le_self _ _, h.sorted, h.future, h.scheduled⟩

theorem OnGrid.div_le (h : t.OnGrid now) {x : ℕ × E} (hx : x ∈ t.registredActionTimeEvents) :
    now / t.currentTick ≤ x.1 :=
  Nat.div_le_of_le_mul (by rw [Nat.mul_comm]; exact h.future x hx)

theorem nextAction_pushBack {p : ℕ} {e : E} (hr : ¬t.Reschedules p) :
    ({ t with registredActionTimeEvents :=
        pushBack p e t.registredActionTimeEvents } : Timer E).nextAction = t.nextAction := by
  have hold : ∃ q ∈ t.nextAction, q ≤ p := by
    by_contra hnone
    exact hr (.inr fun q hq => not_le.mp fun hle => hnone ⟨q, hq, hle⟩)
  obtain ⟨q, hq, hle⟩ := hold
  obtain ⟨x, hx, rfl⟩ := Option.map_eq_some_iff.mp hq
  obtain ⟨l, hl⟩ := List.head?_eq_some_iff.mp hx
  unfold nextAction
  rw [hl, pushBack, if_pos hle]
  rfl

/-- Once an event is registered, the timer is not rescheduled for another one then or later. -/
theorem OnGrid.not_reschedules (h : t.OnGrid now) {x : ℕ × E}
    (hx : x ∈ t.registredActionTimeEvents) {p : ℕ} (hp : x.1 ≤ p) : ¬t.Reschedules p := by
  obtain ⟨q, hq⟩ := exists_nextAction hx
  rintro (hself | hlt)
  · rw [h.scheduled, hq] at hself
    cases hself
  · have hle := le_of_mem_nextAction h.sorted hq x hx
    have hlt := hlt q hq
    omega

theorem exists_registerAt (h : t.OnGrid now) {p : ℕ} {e : E} (hp : now / t.currentTick < p)
    (htime : t.InTime now p) :
    ∃ t', t.registerAt now p e = some t' ∧ t'.OnGrid now ∧
      t'.registredActionTimeEvents = pushBack p e t.registredActionTimeEvents ∧
      t'.currentTick = t.currentTick := by
  have hmem : ∀ x ∈ pushBack p e t.registredActionTimeEvents,
      x = (p, e) ∨ x ∈ t.registredActionTimeEvents :=
    fun x hx => List.mem_cons.mp ((pushBack_perm p e _).mem_iff.mp hx)
  unfold registerAt
  by_cases hr : t.Reschedules p
  · rw [if_pos hr]
    refine exists_reschedule h.pos h.last h.past (pushBack_sorted h.sorted)
      (htime.resolve_right (not_not_intro hr)) fun x hx => ?_
    rcases hmem x hx with rfl | hx
    · exact hp.le
    · exact h.div_le hx
  · rw [if_neg hr]
    refine ⟨_, rfl, ⟨h.pos, h.last, h.past, pushBack_sorted h.sorted, fun x hx => ?_, ?_⟩, rfl, rfl⟩
    · rcases hmem x hx with rfl | hx
      · exact (Nat.lt_mul_of_div_lt hp h.pos).le
      · exact h.future x hx
    · -- the next action point stays the same
      rw [h.scheduled]
      exact congrArg _ (nextAction_pushBack hr).symm

theorem exists_sendOutEvents (h : t.OnGrid now) (hself : t.selfMessage = some now) :
    ∃ t' due, t.sendOutEvents now = some (t', due.map (·.2)) ∧ t'.OnGrid now ∧
      t.registredActionTimeEvents = due ++ t'.registredActionTimeEvents ∧
      (∀ x ∈ due, x.1 = now / t.currentTick) ∧
      (∀ x ∈ t'.registredActionTimeEvents, now / t.currentTick < x.1) ∧
      t'.currentTick = t.currentTick := by
  have hge : ∀ x ∈ t.registredActionTimeEvents, now / t.currentTick ≤ x.1 :=
    fun x hx => h.div_le hx
  have hgrid : now % t.currentTick = 0 := by
    rw [h.scheduled] at hself
    obtain ⟨p, -, rfl⟩ := Option.map_eq_some_iff.mp hself
    exact Nat.mul_mod_left ..
  have hrest : ∀ x ∈ t.registredActionTimeEvents.dropWhile (·.1 ≤ now / t.currentTick),
      now / t.currentTick < x.1 := lt_of_mem_dropWhile h.sorted
  have hsorted : (t.registredActionTimeEvents.dropWhile
      (·.1 ≤ now / t.currentTick)).Pairwise (·.1 ≤ ·.1) :=
    h.sorted.sublist (List.dropWhile_sublist _)
  unfold sendOutEvents
  rw [h.recalculate_eq]
  obtain ⟨t', hr, hgrid', hregistred, htick⟩ := exists_reschedule (t := { t with
      ticks := now / t.currentTick
      lastRecalculation := now / t.currentTick * t.currentTick
      registredActionTimeEvents :=
        t.registredActionTimeEvents.dropWhile (·.1 ≤ now / t.currentTick) })
    h.pos rfl (Nat.div_mul_le_self _ _) hsorted hgrid fun x hx => (hrest x hx).le
  refine ⟨t', t.registredActionTimeEvents.takeWhile (·.1 ≤ now / t.currentTick),
    by simp only [hr, Option.map_some], hgrid', ?_, fun x hx => ?_, ?_, htick⟩
  · rw [hregistred]
    exact (List.takeWhile_append_dropWhile ..).symm
  · have hle := List.mem_takeWhile_imp hx
    have hmem := (List.takeWhile_sublist _).mem hx
    exact le_antisymm (of_decide_eq_true hle) (hge x hmem)
  · rw [hregistred]
    exact hrest

/-- The distance of an action time is one that an `int32_t` holds. -/
def DistanceFits (c a : ℕ) : Prop :=
  -2147483648 ≤ (a : ℤ) - c ∧ (a : ℤ) - c < 2147483648

theorem toInt32_eq {x : ℤ} (hle : -2147483648 ≤ x) (hlt : x < 2147483648) : toInt32 x = x := by
  exact Int.bmod_eq_of_le (by omega) (by omega)

theorem actionpoint_eq {period : Period} {a : ℕ} (ha : a < period.cycleTicks)
    (hfits : DistanceFits (period.getTicks t.ticks) a) :
    t.actionpoint period a false = t.ticks + period.wait (period.getTicks t.ticks) a := by
  have hc := Period.getTicks_lt ha t.ticks
  unfold actionpoint Period.wait
  rw [toInt32_eq hfits.1 hfits.2]
  simp only [Bool.false_eq_true, and_false, or_false]
  split_ifs
  all_goals omega

/-- An event is sent at once at its action time, and is registered for the next one otherwise. -/
theorem exists_registerEvent (h : t.OnGrid now) {period : Period} {a c : ℕ} {e : E}
    (hc : period.getTicks (now / t.currentTick) = c) (ha : a < period.cycleTicks)
    (hfits : DistanceFits c a)
    (htime : a ≠ c → t.InTime now (now / t.currentTick + period.wait c a)) :
    ∃ t' sent, t.registerEvent now period a false e = some (t', sent) ∧ t'.OnGrid now ∧
      t'.currentTick = t.currentTick ∧
      (a = c ∧ sent = [e] ∧ t'.registredActionTimeEvents = t.registredActionTimeEvents ∨
        a ≠ c ∧ sent = [] ∧ t'.registredActionTimeEvents =
          pushBack (now / t.currentTick + period.wait c a) e t.registredActionTimeEvents) := by
  have hlt : c < period.cycleTicks := hc ▸ Period.getTicks_lt ha _
  have hrec := h.recalculate
  have hticks : (t.recalculate now).ticks = now / t.currentTick := by rw [h.recalculate_eq]
  have hregistred : (t.recalculate now).registredActionTimeEvents = t.registredActionTimeEvents :=
    rfl
  have htick : (t.recalculate now).currentTick = t.currentTick := rfl
  have hpoint : (t.recalculate now).actionpoint period a false =
      ((now / t.currentTick + period.wait c a : ℕ) : ℤ) := by
    rw [actionpoint_eq ha (by rw [hticks, hc]; exact hfits), hticks, hc]
    rfl
  unfold registerEvent
  rw [if_neg (not_lt.mpr ha.le)]
  simp only [hpoint, hticks]
  by_cases hac : a = c
  · have hwait : period.wait c a = 0 := by
      rw [hac, Period.wait, if_pos le_rfl, Nat.sub_self]
    rw [hwait, if_pos (by rfl)]
    exact ⟨_, _, rfl, hrec, htick, .inl ⟨hac, rfl, hregistred⟩⟩
  · have hpos := Period.wait_pos hlt hac
    rw [if_neg (by omega), if_neg (by omega), Int.toNat_natCast]
    obtain ⟨t', ht', hgrid, hreg, htick'⟩ := exists_registerAt hrec (e := e)
      (p := now / t.currentTick + period.wait c a) (by rw [htick]; omega) (htime hac)
    refine ⟨t', [], by rw [ht']; rfl, hgrid, htick'.trans htick, .inr ⟨hac, rfl, ?_⟩⟩
    rw [hreg, hregistred]

end Timer

end TsnReconfig.Gates
