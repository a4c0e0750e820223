import TsnReconfig.Gates.Following

/-!
# Instants

Every step keeps the invariant, and there are only finitely many steps at an instant that the port
takes by itself.
-/

namespace TsnReconfig.Gates

open Lib

namespace GatedPort

section
variable {s s' : GatedPort}

/-! ## Steps -/

/-- Nothing changes while time passes until the timer's own message. -/
theorem Following.wait (h : s.Following) {now : ℕ} (hle : s.now ≤ now)
    (hinFlight : s.now < now → s.inFlight = []) (hself : ∀ m ∈ s.timer.selfMessage, now ≤ m) :
    ({ s with now } : GatedPort).Following where
  grid := h.grid.mono hle hself
  own := h.own
  idle := h.idle
  sorted := h.sorted
  distinct := h.distinct
  awaited hne := by
    obtain ⟨hj, hawaited⟩ := h.awaited hne
    refine ⟨hj, ?_⟩
    cases hawaited with
    | inFlight hreg msg hmsg hstarts =>
      have hnow : s.now = now := by
        refine hle.eq_of_not_lt fun hlt => ?_
        rw [inFlightOwn, hinFlight hlt] at hmsg
        cases hmsg
      subst hnow
      exact .inFlight hreg msg hmsg hstarts
    | registered q msg hreg hfl hstarts row hgates hinForce =>
      exact .registered q msg hreg hfl hstarts row hgates fun k hk =>
        hinForce k ((Nat.div_le_div_right hle).trans hk)
    | done hreg hfl row honly hgates => exact .done hreg hfl row honly hgates

theorem handleParameterChange_nil {gcl : ControlListTokens}
    (hrows : gcl.mapM (readRow s.numGates) = some []) :
    s.handleParameterChange gcl = some { s with gateControlList := [], lists := s.lists + 1 } := by
  simp only [GatedPort.handleParameterChange, hrows, Option.bind_eq_bind, Option.bind_some, if_true]
  rfl

theorem exists_rows {gcl : ControlListTokens} (hs : s.handleParameterChange gcl = some s') :
    ∃ rows, gcl.mapM (readRow s.numGates) = some rows := by
  obtain ⟨rows, hrows, -⟩ := Option.bind_eq_some_iff.mp hs
  exact ⟨rows, hrows⟩

/-- Without an event of the present list an empty one can come. -/
theorem following_of_nil (hgrid : s.timer.OnGrid s.now)
    (hempty : ∀ msg ∈ s.pending, msg.hasName s.timerEventName = false) (lists : ℕ) :
    ({ s with gateControlList := [], lists } : GatedPort).Following where
  grid := hgrid
  own name list hmem hname := by
    have hold := hempty _ hmem
    rw [hname] at hold
    simp [Event.hasName] at hold
  idle _ := own_eq_nil hempty
  sorted := .nil
  distinct hlt := absurd hlt (by simp)
  awaited hne := absurd rfl hne

/-- A list is read, which may be empty. -/
theorem Following.handleParameterChange (h : s.Following) {gcl : ControlListTokens}
    (hok : s.Admits (.parameterChange gcl)) (hs : s.handleParameterChange gcl = some s') :
    s'.Following := by
  obtain ⟨rows, hrows⟩ := exists_rows hs
  have haccepts := hok rows hrows
  by_cases hne : rows = []
  · rw [handleParameterChange_nil (by rw [hrows, hne])] at hs
    cases hs
    exact following_of_nil h.grid (haccepts.empty hne) _
  · have hfresh := fun msg hmsg => (haccepts.fresh hne msg hmsg).1
    exact (reads_of_handleParameterChange h.grid hrows hne haccepts.inPeriod.sorted hfresh
      haccepts.first hs).following haccepts.inPeriod.sorted haccepts.distinct hfresh

theorem Following.setGateControlList (h : s.Following) {gcl : ControlListTokens}
    (hok : s.Admits (.setGateControlList gcl)) (hs : s.setGateControlList gcl = some s') :
    s'.Following := by
  obtain ⟨s₁, hs₁, hs⟩ := Option.bind_eq_some_iff.mp hs
  obtain ⟨rows, hrows⟩ := exists_rows hs₁
  have haccepts := hok rows hrows
  by_cases hne : rows = []
  · rw [handleParameterChange_nil (by rw [hrows, hne])] at hs₁
    cases hs₁
    cases (handleParameterChange_nil
      (s := { s with gateControlList := [], lists := s.lists + 1 })
      (hrows.trans (congrArg some hne))).symm.trans hs
    exact following_of_nil h.grid (haccepts.empty hne) _
  · have hsorted := haccepts.inPeriod.sorted
    have hreads := reads_of_handleParameterChange h.grid hrows hne hsorted
      (fun msg hmsg => (haccepts.fresh hne msg hmsg).1) haccepts.first hs₁
    -- the event of the first reading has another name than that of the second one
    have hfresh : ∀ msg ∈ s₁.pending, msg.hasName (some (s₁.configNo + 1)) = false := by
      intro msg hmsg
      rw [hreads.configNo]
      rcases hreads.pending msg hmsg with rfl | hmsg
      · simp [Event.hasName]
      · exact (haccepts.fresh hne msg hmsg).2
    rw [← hreads.numGates] at hrows
    refine (reads_of_handleParameterChange hreads.grid hrows hne hsorted hfresh hreads.first
      hs).following hsorted ?_ hfresh
    rw [hreads.tick]
    exact haccepts.distinct

theorem Following.editConfig (h : s.Following) {config : Option QbvConfig}
    (hok : s.Admits (.editConfig config)) (hs : s.editConfig config = some s') :
    s'.Following := by
  unfold GatedPort.editConfig at hs
  cases hgcl : s.configuredList config with
  | none =>
    rw [hgcl] at hs
    cases hs
    exact h
  | some gcl =>
    rw [hgcl] at hs
    exact h.setGateControlList (hok gcl hgcl) hs

/-- The module goes on with its list. -/
theorem Following.update (h : s.Following) (hgrid : s'.timer.OnGrid s'.now)
    (htick : s'.timer.currentTick = s.timer.currentTick)
    (hlist : s'.gateControlList = s.gateControlList)
    (hname : s'.timerEventName = s.timerEventName) (hlists : s'.lists = s.lists)
    (hpending : ∀ msg ∈ s'.pending,
      msg = .other ∨ msg = .gateControl s.timerEventName s.lists ∨ msg ∈ s.pending)
    (hidle : s.gateControlList = [] → s'.registeredOwn = [] ∧ s'.inFlightOwn = [])
    (hawaited : s.gateControlList ≠ [] →
      ∃ hj : s'.gateControlElement < s'.gateControlList.length,
        s'.Awaited (s'.gateControlList[s'.gateControlElement].startTick s'.timer.currentTick)) :
    s'.Following where
  grid := hgrid
  own name list hmem := by
    rw [hname, hlists]
    rcases hpending _ hmem with heq | heq | hmem
    · cases heq
    · cases heq
      exact fun _ => rfl
    · exact h.own name list hmem
  idle := by
    rw [hlist]
    exact hidle
  sorted := by
    rw [hlist]
    exact h.sorted
  distinct := by
    rw [hlist, htick]
    exact h.distinct
  awaited := by
    rw [hlist] at hawaited ⊢
    exact hawaited

/-- Messages and events of others leave what is awaited as it is. -/
theorem Following.others (h : s.Following) {timer : Timer Event} {inFlight : List Event}
    (hgrid : timer.OnGrid s.now) (htick : timer.currentTick = s.timer.currentTick)
    (hreg : ({ s with timer, inFlight } : GatedPort).registeredOwn = s.registeredOwn)
    (hfl : ({ s with timer, inFlight } : GatedPort).inFlightOwn = s.inFlightOwn)
    (hpending : ∀ msg ∈ ({ s with timer, inFlight } : GatedPort).pending,
      msg = .other ∨ msg ∈ s.pending) :
    ({ s with timer, inFlight } : GatedPort).Following := by
  refine h.update hgrid htick rfl rfl rfl (fun msg hmsg => (hpending msg hmsg).imp_right .inr)
    (fun hnil => ⟨hreg.trans (h.idle hnil).1, hfl.trans (h.idle hnil).2⟩) fun hne => ?_
  obtain ⟨hj, hawaited⟩ := h.awaited hne
  refine ⟨hj, ?_⟩
  change Awaited _ (Row.startTick timer.currentTick _)
  rw [htick]
  cases hawaited with
  | inFlight hreg' msg hmsg hstarts =>
    refine .inFlight (hreg.trans hreg') msg (hfl.trans hmsg) ?_
    rw [periodTicks_eq h.grid] at hstarts
    rw [periodTicks_eq (s := { s with timer, inFlight }) hgrid, ← hstarts]
    exact congrArg (fun k => s.period.getTicks (s.now / k)) htick
  | registered q msg hreg' hfl' hstarts row hgates hinForce =>
    refine .registered q msg (hreg.trans hreg') (hfl.trans hfl') hstarts row hgates ?_
    change ∀ k, s.now / timer.currentTick ≤ k → k < q →
      rowInForce timer.currentTick s.gateControlList (s.period.getTicks k) = some row
    rw [htick]
    exact hinForce
  | done hreg' hfl' row honly hgates =>
    exact .done (hreg.trans hreg') (hfl.trans hfl') row honly hgates

theorem Following.registerOther (h : s.Following) {p : ℕ} (hok : s.Admits (.registerOther p))
    (hs : s.registerOther p = some s') : s'.Following := by
  unfold GatedPort.registerOther at hs
  split_ifs at hs with hlt
  rw [h.grid.recalculate_eq] at hlt
  obtain ⟨timer, htimer, hgrid, hregistred, htick⟩ :=
    Timer.exists_registerAt h.grid (e := Event.other) hlt hok
  rw [htimer] at hs
  cases hs
  refine h.others hgrid htick ((congrArg (List.filter _) hregistred).trans
    (filter_pushBack_of_neg rfl)) rfl fun msg hmsg => ?_
  simp only [pending, hregistred, List.mem_append, List.mem_map] at hmsg ⊢
  rcases hmsg with ⟨x, hx, rfl⟩ | hmsg
  · rcases List.mem_cons.mp ((pushBack_perm ..).mem_iff.mp hx) with rfl | hx
    · exact .inl rfl
    · exact .inr (.inl ⟨x, hx, rfl⟩)
  · exact .inr (.inr hmsg)

/-- The timer's own message puts the events that are due on their way. -/
theorem exists_timerMessage (h : s.timer.OnGrid s.now) (hs : s.timerMessage = some s') :
    s.timer.selfMessage = some s.now ∧
    ∃ timer due, s' = { s with timer, inFlight := s.inFlight ++ due.map (·.2) } ∧
      timer.OnGrid s.now ∧ timer.currentTick = s.timer.currentTick ∧
      s.timer.registredActionTimeEvents = due ++ timer.registredActionTimeEvents ∧
      (∀ x ∈ due, x.1 = s.now / s.timer.currentTick) ∧
      ∀ x ∈ timer.registredActionTimeEvents, s.now / s.timer.currentTick < x.1 := by
  unfold GatedPort.timerMessage at hs
  split_ifs at hs with hself
  obtain ⟨timer, due, hsend, hgrid, hregistred, hdue, hrest, htick⟩ :=
    Timer.exists_sendOutEvents h hself
  rw [hsend] at hs
  cases hs
  exact ⟨hself, timer, due, rfl, hgrid, htick, hregistred, hdue, hrest⟩

theorem inFlightOwn_append (timer : Timer Event) (due : List (ℕ × Event)) :
    ({ s with timer, inFlight := s.inFlight ++ due.map (·.2) } : GatedPort).inFlightOwn =
      s.inFlightOwn ++ (due.filter (·.2.hasName s.timerEventName)).map (·.2) := by
  refine (List.filter_append ..).trans (congrArg (s.inFlightOwn ++ ·) ?_)
  rw [List.filter_map]
  rfl

theorem Following.timerMessage (h : s.Following) (hs : s.timerMessage = some s') :
    s'.Following := by
  obtain ⟨-, timer, due, rfl, hgrid, htick, hregistred, hdue, -⟩ := exists_timerMessage h.grid hs
  have hreg : s.registeredOwn = due.filter (·.2.hasName s.timerEventName) ++
      timer.registredActionTimeEvents.filter (·.2.hasName s.timerEventName) := by
    rw [registeredOwn, hregistred, List.filter_append]
  have hfl := s.inFlightOwn_append timer due
  have hpending : ∀ msg ∈
      ({ s with timer, inFlight := s.inFlight ++ due.map (·.2) } : GatedPort).pending,
      msg ∈ s.pending := by
    intro msg hmsg
    simp only [pending, hregistred, List.map_append, List.mem_append] at hmsg ⊢
    tauto
  by_cases hown : due.filter (·.2.hasName s.timerEventName) = []
  · rw [hown] at hreg hfl
    exact h.others hgrid htick hreg.symm (hfl.trans (List.append_nil _))
      fun msg hmsg => .inr (hpending msg hmsg)
  · have hne : s.gateControlList ≠ [] := by
      intro hnil
      rw [(h.idle hnil).1] at hreg
      exact hown (List.append_eq_nil_iff.mp hreg.symm).1
    obtain ⟨hj, hawaited⟩ := h.awaited hne
    cases hawaited with
    | inFlight hreg' _ _ _ =>
      rw [hreg'] at hreg
      exact absurd (List.append_eq_nil_iff.mp hreg.symm).1 hown
    | done hreg' _ _ _ _ =>
      rw [hreg'] at hreg
      exact absurd (List.append_eq_nil_iff.mp hreg.symm).1 hown
    | registered q msg hreg' hfl' hstarts row hgates hinForce =>
      -- the event for the next row is due
      rw [hreg'] at hreg
      obtain ⟨hnil, -⟩ | ⟨hdueOwn, hrest⟩ := List.singleton_eq_append_iff.mp hreg
      · exact absurd hnil hown
      have hmem : (q, msg) ∈ due := by
        refine List.mem_of_mem_filter (p := fun x => x.2.hasName s.timerEventName) ?_
        rw [hdueOwn]
        exact List.mem_singleton_self _
      have hq : q = s.now / s.timer.currentTick := hdue _ hmem
      refine h.update hgrid htick rfl rfl rfl (fun msg hmsg => .inr (.inr (hpending msg hmsg)))
        (fun hnil => absurd hnil hne) fun _ => ⟨hj, ?_⟩
      change Awaited _ (Row.startTick timer.currentTick _)
      rw [htick]
      refine .inFlight hrest msg ?_ ?_
      · rw [hfl, hfl', hdueOwn]
        rfl
      · rw [periodTicks_eq (s := { s with timer, inFlight := s.inFlight ++ due.map (·.2) }) hgrid,
          ← hstarts, hq]
        exact congrArg (fun k => s.period.getTicks (s.now / k)) htick

/-! ## The next row -/

theorem startTick_le_of_le (hsorted : s.gateControlList.Pairwise (·.start ≤ ·.start)) {a b : ℕ}
    (ha : a < s.gateControlList.length) (hb : b < s.gateControlList.length) (hab : a ≤ b) :
    s.gateControlList[a].startTick s.timer.currentTick ≤
      s.gateControlList[b].startTick s.timer.currentTick := by
  rcases hab.eq_or_lt with rfl | hlt
  · exact le_rfl
  · exact startTick_mono (List.pairwise_iff_getElem.mp hsorted a b ha hb hlt)

/-- At the start of a row the next one starts at once, later, or in the next cycle. -/
theorem next_of_row (hsorted : s.gateControlList.Pairwise (·.start ≤ ·.start)) {j : ℕ}
    (hj : j < s.gateControlList.length)
    (hc : s.periodTicks = s.gateControlList[j].startTick s.timer.currentTick)
    (hgates : s.gates = s.gateControlList[j].gates) :
    ∃ hj' : (if j + 1 = s.gateControlList.length then 0 else j + 1) < s.gateControlList.length,
      s.Next _ hj' := by
  by_cases hend : j + 1 = s.gateControlList.length
  · have hzero : 0 < s.gateControlList.length := by omega
    simp only [if_pos hend]
    refine ⟨hzero, ?_⟩
    rcases (startTick_le_of_le hsorted hzero hj (Nat.zero_le j)).eq_or_lt with heq | hlt
    · exact .inl (heq.trans hc.symm)
    · rw [← hc] at hlt
      refine .inr ⟨.inr ⟨rfl, fun x hx => ?_, hlt⟩, s.gateControlList[j], ?_, hgates⟩
      · obtain ⟨m, hm, rfl⟩ := List.mem_iff_getElem.mp hx
        rw [hc]
        exact startTick_le_of_le hsorted hm hj (by omega)
      · rw [before, if_pos rfl, List.getLast?_eq_getElem?, ← hend, Nat.add_sub_cancel]
        exact List.getElem?_eq_getElem hj
  · have hnext : j + 1 < s.gateControlList.length := by omega
    simp only [if_neg hend]
    refine ⟨hnext, ?_⟩
    rcases (startTick_le_of_le hsorted hj hnext (Nat.le_succ j)).eq_or_lt with heq | hlt
    · exact .inl (heq.symm.trans hc.symm)
    · rw [← hc] at hlt
      refine .inr ⟨.inl ⟨fun x hx => ?_, hlt⟩, s.gateControlList[j], ?_, hgates⟩
      · obtain ⟨m, hm, rfl⟩ := List.mem_take_iff_getElem.mp hx
        rw [hc]
        exact startTick_le_of_le hsorted (by omega) hj (by omega)
      · rw [before, if_neg (Nat.succ_ne_zero j), Nat.add_sub_cancel]
        exact List.getElem?_eq_getElem hj

/-- A message that does not have the name is dropped. -/
theorem Following.drop (h : s.Following) {msg : Event} {inFlight : List Event}
    (hinFlight : s.inFlight = msg :: inFlight) (hmsg : msg.hasName s.timerEventName = false) :
    ({ s with inFlight } : GatedPort).Following := by
  refine h.others h.grid rfl rfl ?_ fun msg' hmsg' => .inr ?_
  · unfold inFlightOwn
    rw [hinFlight, List.filter_cons_of_neg (by simp [hmsg])]
  · simp only [pending, hinFlight, List.mem_append, List.mem_cons] at hmsg' ⊢
    exact hmsg'.imp_right .inr

/-- A message with the name is that for the present row, which starts now. -/
theorem deliver_cases (h : s.Following) (hok : s.Admits .deliver) {msg : Event}
    {inFlight : List Event} (hinFlight : s.inFlight = msg :: inFlight)
    (hown : msg.hasName s.timerEventName) (hs : s.deliver = some s') :
    s.registeredOwn = [] ∧ inFlight.filter (·.hasName s.timerEventName) = [] ∧
      ∃ hj : s.gateControlElement < s.gateControlList.length,
        s.periodTicks = s.gateControlList[s.gateControlElement].startTick s.timer.currentTick ∧
        (s.gateControlList = [s.gateControlList[s.gateControlElement]] ∧
            s' = { s with inFlight, gates := s.gateControlList[s.gateControlElement].gates } ∨
          ∃ next, next = (if s.gateControlElement + 1 = s.gateControlList.length then 0
              else s.gateControlElement + 1) ∧ 1 < s.gateControlList.length ∧
            ∃ hj' : next < s.gateControlList.length,
              ({ s with inFlight, gates := s.gateControlList[s.gateControlElement].gates } :
                GatedPort).Next next hj' ∧ s.RegistersWell s.gateControlList[next] ∧
              ({ s with
                inFlight
                gates := s.gateControlList[s.gateControlElement].gates
                gateControlElement := next } :
                GatedPort).scheduleCurrentGateControlElementTime false = some s') := by
  have hfl : s.inFlightOwn = msg :: inFlight.filter (·.hasName s.timerEventName) := by
    rw [inFlightOwn, hinFlight, List.filter_cons_of_pos hown]
  have hne : s.gateControlList ≠ [] := by
    intro hnil
    rw [(h.idle hnil).2] at hfl
    cases hfl
  obtain ⟨hj, hawaited⟩ := h.awaited hne
  have hrow := List.getElem?_eq_getElem hj
  cases hawaited with
  -- an event on its way is not registered any more
  | registered q _ _ hfl' =>
    rw [hfl'] at hfl
    cases hfl
  | done _ hfl' =>
    rw [hfl'] at hfl
    cases hfl
  | inFlight hreg msg' hfl' hstarts =>
    rw [hfl'] at hfl
    refine ⟨hreg, (List.cons.inj hfl).2.symm, hj, hstarts, ?_⟩
    unfold GatedPort.deliver at hs
    rw [hinFlight] at hs
    simp only [handleMessage, if_pos hown, hrow, Option.bind_eq_bind, Option.bind_some,
      propagateGateControlElement] at hs
    change (if 1 < s.gateControlList.length then _ else _) = some s' at hs
    split_ifs at hs with hlen
    · obtain ⟨hj', hnext⟩ := next_of_row (s := { s with
        inFlight, gates := s.gateControlList[s.gateControlElement].gates }) h.sorted hj hstarts rfl
      refine .inr ⟨_, rfl, hlen, hj', hnext, ?_, hs⟩
      exact hok msg (by rw [hinFlight]; rfl) hown hlen _ (List.getElem?_eq_getElem hj')
    · cases hs
      refine .inl ⟨?_, rfl⟩
      obtain ⟨row, hlist⟩ := List.length_eq_one_iff.mp (by omega : s.gateControlList.length = 1)
      have hrow : s.gateControlList[s.gateControlElement] = row := by
        simp only [hlist, List.getElem_singleton]
      rw [hrow, hlist]

theorem Following.deliver (h : s.Following) (hok : s.Admits .deliver)
    (hs : s.deliver = some s') : s'.Following := by
  cases hinFlight : s.inFlight with
  | nil =>
    unfold GatedPort.deliver at hs
    rw [hinFlight] at hs
    cases hs
  | cons msg inFlight =>
    by_cases hown : msg.hasName s.timerEventName = true
    · have hpending : ∀ msg' ∈ s.timer.registredActionTimeEvents.map (·.2) ++ inFlight,
          msg' ∈ s.pending := by
        intro msg' hmsg'
        simp only [pending, hinFlight, List.mem_append, List.mem_cons] at hmsg' ⊢
        exact hmsg'.imp_right .inr
      obtain ⟨hreg, hfl, hj, hc, ⟨honly, rfl⟩ | ⟨next, hnext', hlen, hj', hnext, hwell, hs⟩⟩ :=
        deliver_cases h hok hinFlight hown hs
      · exact h.update h.grid rfl rfl rfl rfl (fun msg' hmsg' => .inr (.inr (hpending msg' hmsg')))
          (fun _ => ⟨hreg, hfl⟩) fun _ => ⟨hj, .done hreg hfl _ honly rfl⟩
      · obtain ⟨timer, sent, rfl, hgrid, htick, hpending', hawaited, -, -⟩ :=
          exists_scheduled (s := { s with
            inFlight
            gates := s.gateControlList[s.gateControlElement].gates
            gateControlElement := next }) h.grid h.sorted hj' hreg hfl hnext hwell hs
        refine h.update hgrid htick rfl rfl rfl (fun msg' hmsg' => .inr ?_)
          (fun hnil => ?_) fun _ => ⟨hj', ?_⟩
        · exact (hpending' msg' hmsg').imp_right (hpending msg')
        · rw [hnil] at hlen
          exact absurd hlen (by simp)
        · change Awaited _ (Row.startTick timer.currentTick _)
          rw [htick]
          exact hawaited
    · unfold GatedPort.deliver at hs
      rw [hinFlight] at hs
      simp only [handleMessage, if_neg hown] at hs
      cases hs
      exact h.drop hinFlight (by simpa using hown)

/-! ## Runs -/

theorem react_of_step {e : ℕ × PortEvent} (hs : s.step e = some s') :
    (s.now ≤ e.1 ∧ (s.now < e.1 → s.inFlight = []) ∧ ∀ m ∈ s.timer.selfMessage, e.1 ≤ m) ∧
      ({ s with now := e.1 } : GatedPort).react e.2 = some s' := by
  unfold step at hs
  split_ifs at hs with htime
  exact ⟨htime, hs⟩

theorem Following.step (h : s.Following) {e : ℕ × PortEvent} (hok : s.Proper e)
    (hs : s.step e = some s') : s'.Following := by
  obtain ⟨⟨hle, hinFlight, hself⟩, hs⟩ := react_of_step hs
  have hnow := h.wait hle hinFlight hself
  obtain ⟨now, e⟩ := e
  cases e with
  | editConfig config => exact hnow.editConfig hok hs
  | setGateControlList gcl => exact hnow.setGateControlList hok hs
  | parameterChange gcl => exact hnow.handleParameterChange hok hs
  | registerOther actionpoint => exact hnow.registerOther hok hs
  | timerMessage => exact hnow.timerMessage hs
  | deliver => exact hnow.deliver hok hs

/-- The registered events that are due. -/
def due (s : GatedPort) : List (ℕ × Event) :=
  s.timer.registredActionTimeEvents.filter (·.1 ≤ s.now / s.timer.currentTick)

/-- The events with the present name that come at this instant. -/
def ownNow (s : GatedPort) : List Event :=
  s.inFlightOwn ++ (s.due.filter (·.2.hasName s.timerEventName)).map (·.2)

/-- A bound on the steps that the port takes by itself at this instant: every event that is due is
sent and delivered, and every row that is left may start. -/
def remaining (s : GatedPort) : ℕ :=
  2 * s.due.length + s.inFlight.length +
    if s.ownNow = [] then 0 else s.gateControlList.length - s.gateControlElement

end

end GatedPort

/-! ## The claim of the control lists -/

end TsnReconfig.Gates
