import TsnReconfig.Gates.GateControlList

/-!
# The gates follow the control list

The condition under which they do, and the invariant: at any time the event for the next row is on
its way, registered for the start of that row, or not needed any more since there is one row.
-/

namespace TsnReconfig.Gates

open Lib

namespace GatedPort

/-! ## The property -/

/-- The events that are registered or on their way. -/
def pending (s : GatedPort) : List Event :=
  s.timer.registredActionTimeEvents.map (·.2) ++ s.inFlight

/-- The event for a row is registered properly: its distance fits, and the timer is not rescheduled
for it between the beginnings of two ticks. -/
def RegistersWell (s : GatedPort) (row : Row) : Prop :=
  Timer.DistanceFits s.periodTicks (row.startTick s.timer.currentTick) ∧
    (row.startTick s.timer.currentTick ≠ s.periodTicks →
      s.timer.InTime s.now ((s.timer.recalculate s.now).ticks +
        s.period.wait s.periodTicks (row.startTick s.timer.currentTick)))

/-- The rows are in the order of their times, which are in the period. -/
structure InPeriod (s : GatedPort) (rows : List Row) : Prop where
  sorted : rows.Pairwise (·.start ≤ ·.start)
  nonneg : ∀ row ∈ rows, 0 ≤ row.start
  below : ∀ row ∈ rows, row.start < s.period.cycleTicks * s.timer.currentTick

/-- A list that the module gets along with. An empty one only comes when no event of the present
list is pending, several rows do not all start at one tick, no pending event has one of the next
two names, and the event for the first row is registered properly. -/
structure Accepts (s : GatedPort) (rows : List Row) : Prop where
  inPeriod : s.InPeriod rows
  empty : rows = [] → ∀ msg ∈ s.pending, msg.hasName s.timerEventName = false
  distinct : 1 < rows.length → ∃ x ∈ rows, ∃ y ∈ rows,
    x.startTick s.timer.currentTick ≠ y.startTick s.timer.currentTick
  fresh : rows ≠ [] → ∀ msg ∈ s.pending, msg.hasName (some (s.configNo + 1)) = false ∧
    msg.hasName (some (s.configNo + 1 + 1)) = false
  first : ∀ row ∈ rows[firstElement rows (s.periodTicks * s.timer.currentTick)]?,
    s.RegistersWell row

/-- The condition for an event at its time. -/
def Admits (s : GatedPort) : PortEvent → Prop
  | .editConfig config => ∀ gcl, s.configuredList config = some gcl →
    ∀ rows, gcl.mapM (readRow s.numGates) = some rows → s.Accepts rows
  | .setGateControlList gcl | .parameterChange gcl =>
    ∀ rows, gcl.mapM (readRow s.numGates) = some rows → s.Accepts rows
  | .registerOther actionpoint => s.timer.InTime s.now actionpoint
  | .timerMessage => True
  | .deliver => ∀ msg ∈ s.inFlight.head?, msg.hasName s.timerEventName →
    1 < s.gateControlList.length →
      ∀ row ∈ s.gateControlList[s.switchToNextGateControlElement.gateControlElement]?,
        s.RegistersWell row

/-- The condition under which the gates follow the lists. -/
def Proper (s : GatedPort) (e : ℕ × PortEvent) : Prop :=
  { s with now := e.1 }.Admits e.2

/-! ## The invariant -/

/-- The registered events with the present name. -/
def registeredOwn (s : GatedPort) : List (ℕ × Event) :=
  s.timer.registredActionTimeEvents.filter (·.2.hasName s.timerEventName)

/-- The messages on their way with the present name. -/
def inFlightOwn (s : GatedPort) : List Event :=
  s.inFlight.filter (·.hasName s.timerEventName)

/-- The event for the next row, which starts at a tick of the period. -/
inductive Awaited (s : GatedPort) (start : ℕ) : Prop
  /-- It is on its way. -/
  | inFlight (registered : s.registeredOwn = []) (msg : Event) (inFlight : s.inFlightOwn = [msg])
    (starts : s.periodTicks = start)
  /-- It is registered for the start of the row, and until then the gates have the right states. -/
  | registered (q : ℕ) (msg : Event) (registered : s.registeredOwn = [(q, msg)])
    (inFlight : s.inFlightOwn = []) (starts : s.period.getTicks q = start) (row : Row)
    (gates : s.gates = row.gates)
    (inForce : ∀ k, s.now / s.timer.currentTick ≤ k → k < q →
      rowInForce s.timer.currentTick s.gateControlList (s.period.getTicks k) = some row)
  /-- The only row has been reached. -/
  | done (registered : s.registeredOwn = []) (inFlight : s.inFlightOwn = []) (row : Row)
    (only : s.gateControlList = [row]) (gates : s.gates = row.gates)

structure Following (s : GatedPort) : Prop where
  grid : s.timer.OnGrid s.now
  own : ∀ name list, .gateControl name list ∈ s.pending → name = s.timerEventName →
    list = s.lists
  idle : s.gateControlList = [] → s.registeredOwn = [] ∧ s.inFlightOwn = []
  sorted : s.gateControlList.Pairwise (·.start ≤ ·.start)
  distinct : 1 < s.gateControlList.length → ∃ x ∈ s.gateControlList, ∃ y ∈ s.gateControlList,
    x.startTick s.timer.currentTick ≠ y.startTick s.timer.currentTick
  awaited : s.gateControlList ≠ [] → ∃ hj : s.gateControlElement < s.gateControlList.length,
    s.Awaited (s.gateControlList[s.gateControlElement].startTick s.timer.currentTick)

section
variable {s s' : GatedPort}

theorem periodTicks_eq (h : s.timer.OnGrid s.now) :
    s.periodTicks = s.period.getTicks (s.now / s.timer.currentTick) := by
  rw [periodTicks, h.recalculate_eq]

theorem own_eq_nil (h : ∀ msg ∈ s.pending, msg.hasName s.timerEventName = false) :
    s.registeredOwn = [] ∧ s.inFlightOwn = [] := by
  unfold registeredOwn inFlightOwn
  simp only [List.filter_eq_nil_iff, Bool.not_eq_true]
  exact ⟨fun x hx => h _ (List.mem_append_left _ (List.mem_map_of_mem hx)),
    fun msg hmsg => h msg (List.mem_append_right _ hmsg)⟩

theorem filter_pushBack_of_neg {p : ℕ} {e : Event} {l : List (ℕ × Event)}
    {f : ℕ × Event → Bool} (he : f (p, e) = false) : (pushBack p e l).filter f = l.filter f := by
  induction l with
  | nil => simp [pushBack, he]
  | cons x l ih =>
    unfold pushBack
    split_ifs
    · rw [List.filter_cons, List.filter_cons, ih]
    · rw [List.filter_cons_of_neg (by simp [he])]

theorem filter_pushBack_of_pos {p : ℕ} {e : Event} {l : List (ℕ × Event)} {name : Option UInt32}
    (he : e.hasName name) (hl : l.filter (·.2.hasName name) = []) :
    (pushBack p e l).filter (·.2.hasName name) = [(p, e)] := by
  have hperm := (pushBack_perm p e l).filter (·.2.hasName name)
  rw [List.filter_cons_of_pos (by simpa using he), hl] at hperm
  exact List.perm_singleton.mp hperm

/-- The event that the next row needs, with the gates until then. -/
def Next (s : GatedPort) (j : ℕ) (hj : j < s.gateControlList.length) : Prop :=
  s.gateControlList[j].startTick s.timer.currentTick = s.periodTicks ∨
    ((∀ x ∈ s.gateControlList.take j, x.startTick s.timer.currentTick ≤ s.periodTicks) ∧
        s.periodTicks < s.gateControlList[j].startTick s.timer.currentTick ∨
      j = 0 ∧ (∀ x ∈ s.gateControlList, x.startTick s.timer.currentTick ≤ s.periodTicks) ∧
        s.gateControlList[j].startTick s.timer.currentTick < s.periodTicks) ∧
    ∃ row, before s.gateControlList j = some row ∧ s.gates = row.gates

/-- What is pending after an event has been registered. -/
theorem mem_pending_registered {timer : Timer Event} {sent : List Event} {e msg : Event} {q : ℕ}
    (hcases : sent = [e] ∧
        timer.registredActionTimeEvents = s.timer.registredActionTimeEvents ∨
      sent = [] ∧
        timer.registredActionTimeEvents = pushBack q e s.timer.registredActionTimeEvents)
    (hmsg : msg ∈ pending { s with timer, inFlight := s.inFlight ++ sent }) :
    msg = e ∨ msg ∈ s.pending := by
  simp only [pending, List.mem_append, List.mem_map] at hmsg ⊢
  rcases hcases with ⟨rfl, hregistred⟩ | ⟨rfl, hregistred⟩
  · rw [hregistred] at hmsg
    rcases hmsg with hmsg | hmsg | hmsg
    · exact .inr (.inl hmsg)
    · exact .inr (.inr hmsg)
    · exact .inl (List.mem_singleton.mp hmsg)
  · rw [hregistred] at hmsg
    rcases hmsg with ⟨x, hx, rfl⟩ | hmsg | hmsg
    · rcases List.mem_cons.mp ((pushBack_perm ..).mem_iff.mp hx) with rfl | hx
      · exact .inl rfl
      · exact .inr (.inl ⟨x, hx, rfl⟩)
    · exact .inr (.inr hmsg)
    · cases hmsg

/-- The event that has been registered for a row is awaited: it is on its way when the row starts
now, and registered for its start otherwise. -/
theorem awaited_registered {timer : Timer Event} {sent : List Event} {j : ℕ}
    (hgrid : s.timer.OnGrid s.now) (hsorted : s.gateControlList.Pairwise (·.start ≤ ·.start))
    (hj : j < s.gateControlList.length) (hreg : s.registeredOwn = [])
    (hfl : s.inFlightOwn = []) (hnext : s.Next j hj)
    (hcycle : s.gateControlList[j].startTick s.timer.currentTick < s.period.cycleTicks)
    (htimer : timer.OnGrid s.now) (htick : timer.currentTick = s.timer.currentTick)
    (hcases : s.gateControlList[j].startTick s.timer.currentTick = s.periodTicks ∧
        sent = [.gateControl s.timerEventName s.lists] ∧
        timer.registredActionTimeEvents = s.timer.registredActionTimeEvents ∨
      s.gateControlList[j].startTick s.timer.currentTick ≠ s.periodTicks ∧ sent = [] ∧
        timer.registredActionTimeEvents = pushBack (s.now / s.timer.currentTick +
            s.period.wait s.periodTicks (s.gateControlList[j].startTick s.timer.currentTick))
          (.gateControl s.timerEventName s.lists) s.timer.registredActionTimeEvents) :
    Awaited { s with timer, inFlight := s.inFlight ++ sent }
      (s.gateControlList[j].startTick s.timer.currentTick) := by
  have hname : (Event.gateControl s.timerEventName s.lists).hasName s.timerEventName := by
    simp [Event.hasName]
  have hticks : s.period.getTicks (s.now / s.timer.currentTick) = s.periodTicks :=
    (periodTicks_eq hgrid).symm
  rcases hcases with ⟨heq, rfl, hregistred⟩ | ⟨hne, rfl, hregistred⟩
  · refine .inFlight ?_ (.gateControl s.timerEventName s.lists) ?_ ?_
    · exact (congrArg (List.filter _) hregistred).trans hreg
    · refine (List.filter_append ..).trans ?_
      change s.inFlightOwn ++ [Event.gateControl s.timerEventName s.lists].filter
        (·.hasName s.timerEventName) = _
      rw [hfl, List.filter_cons_of_pos hname]
      rfl
    · rw [heq, periodTicks_eq htimer, ← hticks]
      exact congrArg (fun k => s.period.getTicks (s.now / k)) htick
  · obtain ⟨hlater, row, hbefore, hgates⟩ := hnext.resolve_left hne
    have hown := (congrArg (List.filter fun x => x.2.hasName s.timerEventName)
      hregistred).trans (filter_pushBack_of_pos hname hreg)
    refine .registered _ _ hown ?_ ?_ row hgates ?_
    · exact (congrArg (List.filter _) (List.append_nil _)).trans hfl
    · have hwait := Period.getTicks_add_wait (k := s.now / s.timer.currentTick) hcycle
      rw [hticks] at hwait
      exact hwait
    · change ∀ k, s.now / timer.currentTick ≤ k → _ → rowInForce timer.currentTick _ _ = _
      rw [htick]
      exact fun k hk hlt =>
        (rowInForce_wait hsorted hj hticks hcycle hlater k hk hlt).trans hbefore

/-- The event for the present row, when there is none before. -/
theorem exists_scheduled (hgrid : s.timer.OnGrid s.now)
    (hsorted : s.gateControlList.Pairwise (·.start ≤ ·.start))
    (hj : s.gateControlElement < s.gateControlList.length) (hreg : s.registeredOwn = [])
    (hfl : s.inFlightOwn = []) (hnext : s.Next _ hj)
    (hwell : s.RegistersWell s.gateControlList[s.gateControlElement])
    (hs : s.scheduleCurrentGateControlElementTime false = some s') :
    ∃ timer sent, s' = { s with timer, inFlight := s.inFlight ++ sent } ∧ timer.OnGrid s.now ∧
      timer.currentTick = s.timer.currentTick ∧
      (∀ msg ∈ s'.pending, msg = .gateControl s.timerEventName s.lists ∨ msg ∈ s.pending) ∧
      s'.Awaited (s.gateControlList[s.gateControlElement].startTick s.timer.currentTick) ∧
      s'.RegistersWell s.gateControlList[s.gateControlElement] ∧
      (s.gateControlList[s.gateControlElement].startTick s.timer.currentTick = s.periodTicks ∧
          sent = [.gateControl s.timerEventName s.lists] ∧
          timer.registredActionTimeEvents = s.timer.registredActionTimeEvents ∨
        sent = [] ∧ ∃ q, s.now / s.timer.currentTick < q ∧ timer.registredActionTimeEvents =
          pushBack q (.gateControl s.timerEventName s.lists)
            s.timer.registredActionTimeEvents) := by
  have hrow : s.gateControlList[s.gateControlElement]? = some _ := List.getElem?_eq_getElem hj
  have hticks : s.period.getTicks (s.now / s.timer.currentTick) = s.periodTicks :=
    (periodTicks_eq hgrid).symm
  obtain ⟨hfits, htime⟩ := hwell
  rw [hgrid.recalculate_eq] at htime
  simp only [scheduleCurrentGateControlElementTime, hrow, Option.bind_eq_bind,
    Option.bind_some] at hs
  split_ifs at hs with hcycle
  · cases hs
  obtain ⟨timer, sent, hevent, hgrid', htick, hcases⟩ := Timer.exists_registerEvent hgrid
    (e := .gateControl s.timerEventName s.lists) hticks (not_le.mp hcycle) hfits htime
  simp only [registerEvent, hevent, Option.map_some, Option.some.injEq] at hs
  subst hs
  have hperiod : ({ s with timer, inFlight := s.inFlight ++ sent } : GatedPort).periodTicks =
      s.periodTicks := by
    rw [periodTicks_eq (s := { s with timer, inFlight := s.inFlight ++ sent }) hgrid', ← hticks]
    exact congrArg (fun k => s.period.getTicks (s.now / k)) htick
  refine ⟨timer, sent, rfl, hgrid', htick,
    fun msg => mem_pending_registered (hcases.imp And.right And.right),
    awaited_registered hgrid hsorted hj hreg hfl hnext (not_le.mp hcycle) hgrid' htick hcases,
    ⟨?_, fun hne => .inr ?_⟩, ?_⟩
  · rw [hperiod]
    change Timer.DistanceFits s.periodTicks (Row.startTick timer.currentTick _)
    rw [htick]
    exact hfits
  · -- the event is registered already for this time
    change Row.startTick timer.currentTick _ ≠ _ at hne
    rw [hperiod, htick] at hne
    obtain ⟨heq, -⟩ | ⟨-, -, hregistred⟩ := hcases
    · exact absurd heq hne
    · have hmem := (pushBack_perm (s.now / s.timer.currentTick + s.period.wait s.periodTicks
        (s.gateControlList[s.gateControlElement].startTick s.timer.currentTick))
        (.gateControl s.timerEventName s.lists) s.timer.registredActionTimeEvents).mem_iff.mpr
        (List.mem_cons_self ..)
      rw [← hregistred] at hmem
      refine hgrid'.not_reschedules hmem (le_of_eq ?_)
      rw [hperiod]
      change _ = (timer.recalculate s.now).ticks +
        s.period.wait s.periodTicks (Row.startTick timer.currentTick _)
      rw [hgrid'.recalculate_eq, htick]
  · refine hcases.imp_right fun ⟨hne, hsent, hregistred⟩ => ⟨hsent, _, ?_, hregistred⟩
    have hlt := Period.getTicks_lt (not_le.mp hcycle) (s.now / s.timer.currentTick)
    rw [hticks] at hlt
    exact Nat.lt_add_of_pos_right (Period.wait_pos hlt hne)

/-! ## Reading a list -/

theorem exists_switchToFirst (htick : 0 < s.timer.currentTick) (hne : s.gateControlList ≠ []) :
    ∃ gates, s.switchToFirstGateControlElement = some { s with
        gateControlElement :=
          firstElement s.gateControlList (s.periodTicks * s.timer.currentTick)
        gates } ∧
      ∃ hj : firstElement s.gateControlList (s.periodTicks * s.timer.currentTick) <
          s.gateControlList.length,
        ({ s with gates } : GatedPort).Next _ hj := by
  obtain ⟨hj, hcases⟩ := firstElement_cases (c := s.periodTicks) htick hne
  obtain ⟨row, hrow⟩ := exists_before hj
  simp only [switchToFirstGateControlElement, List.getElem?_eq_getElem hj, hrow,
    Option.bind_eq_bind, Option.bind_some]
  rcases hcases with hstart | ⟨hstart, hcases⟩
  · rw [if_neg (not_not_intro hstart)]
    exact ⟨s.gates, rfl, hj, .inl (startTick_eq htick hstart)⟩
  · rw [if_pos hstart]
    refine ⟨row.gates, rfl, hj, ?_⟩
    rcases hcases with hlater | ⟨hzero, hle⟩
    · exact .inr ⟨.inl hlater, row, hrow, rfl⟩
    · rcases (hle _ (List.getElem_mem hj)).eq_or_lt with heq | hlt
      · exact .inl heq
      · exact .inr ⟨.inr ⟨hzero, hle, hlt⟩, row, hrow, rfl⟩

/-- A list has been read from a state: the event for its first row is on its way or registered. -/
structure Reads (s s' : GatedPort) (rows : List Row) : Prop where
  now : s'.now = s.now
  numGates : s'.numGates = s.numGates
  period : s'.period = s.period
  tick : s'.timer.currentTick = s.timer.currentTick
  configNo : s'.configNo = s.configNo + 1
  name : s'.timerEventName = some (s.configNo + 1)
  lists : s'.lists = s.lists + 1
  list : s'.gateControlList = rows
  grid : s'.timer.OnGrid s'.now
  pending : ∀ msg ∈ s'.pending,
    msg = .gateControl (some (s.configNo + 1)) (s.lists + 1) ∨ msg ∈ s.pending
  awaited : ∃ hj : s'.gateControlElement < s'.gateControlList.length,
    s'.Awaited (s'.gateControlList[s'.gateControlElement].startTick s'.timer.currentTick)
  first : ∀ row ∈ rows[firstElement rows (s'.periodTicks * s'.timer.currentTick)]?,
    s'.RegistersWell row

theorem reads_of_handleParameterChange {gcl : ControlListTokens} {rows : List Row}
    (hgrid : s.timer.OnGrid s.now) (hrows : gcl.mapM (readRow s.numGates) = some rows)
    (hne : rows ≠ []) (hsorted : rows.Pairwise (·.start ≤ ·.start))
    (hfresh : ∀ msg ∈ s.pending, msg.hasName (some (s.configNo + 1)) = false)
    (hwell : ∀ row ∈ rows[firstElement rows (s.periodTicks * s.timer.currentTick)]?,
      s.RegistersWell row)
    (hs : s.handleParameterChange gcl = some s') : s.Reads s' rows := by
  obtain ⟨gates, hfirst, hj, hnext⟩ := exists_switchToFirst
    (s := { s with gateControlList := rows, lists := s.lists + 1 }) hgrid.pos hne
  simp only [handleParameterChange, hrows, Option.bind_eq_bind, Option.bind_some] at hs
  rw [if_neg hne, hfirst] at hs
  simp only [Option.bind_some] at hs
  obtain ⟨hreg, hfl⟩ := own_eq_nil (s := { s with
    timerEventName := some (s.configNo + 1) }) hfresh
  have hrow := List.getElem?_eq_getElem hj
  obtain ⟨timer, sent, rfl, hgrid', htick, hpending, hawaited, hfirst', -⟩ :=
    exists_scheduled (s := { s with
      gateControlList := rows
      lists := s.lists + 1
      gateControlElement := firstElement rows (s.periodTicks * s.timer.currentTick)
      gates
      configNo := s.configNo + 1
      timerEventName := some (s.configNo + 1) }) hgrid hsorted hj hreg hfl hnext
      (hwell _ hrow) hs
  refine ⟨rfl, rfl, rfl, htick, rfl, rfl, rfl, rfl, hgrid', hpending, ⟨hj, ?_⟩, ?_⟩
  · change Awaited _ (Row.startTick timer.currentTick _)
    rw [htick]
    exact hawaited
  · rw [periodTicks_eq hgrid']
    change ∀ row ∈ rows[firstElement rows (s.period.getTicks (s.now / timer.currentTick) *
      timer.currentTick)]?, _
    rw [htick, ← periodTicks_eq hgrid]
    intro row hmem
    cases Option.mem_unique hmem hrow
    exact hfirst'

/-- The event of the list that was read is the only one with its name. -/
theorem Reads.following {rows : List Row} (h : s.Reads s' rows)
    (hsorted : rows.Pairwise (·.start ≤ ·.start))
    (hdistinct : 1 < rows.length → ∃ x ∈ rows, ∃ y ∈ rows,
      x.startTick s.timer.currentTick ≠ y.startTick s.timer.currentTick)
    (hfresh : ∀ msg ∈ s.pending, msg.hasName (some (s.configNo + 1)) = false) :
    s'.Following where
  grid := h.grid
  own name list hmem hname := by
    rcases h.pending _ hmem with heq | hmem
    · cases heq
      exact h.lists.symm
    · have hold := hfresh _ hmem
      rw [hname, h.name] at hold
      simp [Event.hasName] at hold
  idle hnil := by
    obtain ⟨hj, -⟩ := h.awaited
    rw [hnil] at hj
    cases hj
  sorted := by
    rw [h.list]
    exact hsorted
  distinct := by
    rw [h.list, h.tick]
    exact hdistinct
  awaited _ := h.awaited

end

end GatedPort

end TsnReconfig.Gates
