import TsnReconfig.Lib.System
import TsnReconfig.Network.PacketIns

/-!
# The security controller

`AVBSecurityControllerApp`, which takes the packets of an anomaly detection for anomalies and goes
back from `DANGER` at the `AnomalyTimeout` that it schedules for itself.
-/

namespace TsnReconfig.Avb

open Lib OpenFlow Switch Network

/-- `SecurityState`. -/
inductive SecurityState
  | none | ok | warning | danger
  deriving DecidableEq, Repr

def SecurityState.value : SecurityState → ℕ
  | none => 0
  | ok => 1
  | warning => 2
  | danger => 3

/-- The parameters, with a timeout that is never zero. -/
structure SecurityParams where
  nadsPort : Int
  allowNewFlows : Bool
  allowARP : Bool
  allowSRP : Bool
  anomalyTimeout : SimTime
  anomalyTimeout_pos : 0 < anomalyTimeout

/-- A packet-in with its reason. What it encapsulates may be an `SRPFrame` if it is no Ethernet
frame. -/
structure SecurityPacketIn where
  swInfo : ℕ
  message : PacketInMessage
  noMatch : Bool
  isSrp : Bool

/-- The members, the messages that the module has scheduled for itself, and the port that each
flow modification got: none where it was read from an empty list. -/
structure AVBSecurityControllerApp where
  state : SecurityState := .ok
  anomalyCount : ℕ := 0
  lastAnomaly : SimTime := 0
  anomalyScheduled : Bool := false
  timeouts : List SimTime := []
  outPorts : List (Option UInt32) := []

namespace AVBSecurityControllerApp

variable (p : SecurityParams) (now : SimTime)

/-- What `createFlowModMessage` does with the ports. It goes on after a read from an empty list. -/
def createFlowModMessage (a : AVBSecurityControllerApp) (outports : List UInt32) :
    AVBSecurityControllerApp :=
  { a with outPorts := a.outPorts ++ [outports.head?] }

/-- `handleNewSwitch`. The controller is never joined by the port of the detection. -/
def handleNewSwitch (a : AVBSecurityControllerApp) : AVBSecurityControllerApp :=
  a.createFlowModMessage [ofppController]

/-- `scheduleSelfMessage`. -/
def scheduleSelfMessage (a : AVBSecurityControllerApp) : AVBSecurityControllerApp :=
  if ¬a.anomalyScheduled then
    if a.lastAnomaly + p.anomalyTimeout > now then
      { a with
        timeouts := (a.lastAnomaly + p.anomalyTimeout) :: a.timeouts
        anomalyCount := 0
        anomalyScheduled := true }
    else a
  else a

/-- `handleNADSMessage`. The ports of the flow to delete are `NULL`. -/
def handleNADSMessage (packet : SecurityPacketIn) (a : AVBSecurityControllerApp) :
    AVBSecurityControllerApp :=
  let a := { a with state := .danger, lastAnomaly := now, anomalyCount := a.anomalyCount + 1 }
  let a := if packet.noMatch then a.handleNewSwitch else a
  (a.createFlowModMessage []).scheduleSelfMessage p now

/-- `isWhitelisted`. -/
def isWhitelisted (packet : SecurityPacketIn) : Bool :=
  match packet.message.encapsulatedPacket with
  | some frame => if frame.etherType = ethertypeArp then p.allowARP else p.allowNewFlows
  | none => if packet.isSrp then p.allowSRP else p.allowNewFlows

/-- The packet is an Ethernet frame from the port of the detection. -/
def isAnomaly (packet : SecurityPacketIn) : Option Bool :=
  match packet.message.encapsulatedPacket with
  | some _ => (extractCommonHeaderFields packet.swInfo packet.message).map fun headerFields =>
      p.nadsPort > -1 ∧ headerFields.inport = .ofInt p.nadsPort
  | none => some false

/-- `receiveSignal` for a packet-in. -/
def receiveSignal (packet : SecurityPacketIn) (a : AVBSecurityControllerApp) :
    Option AVBSecurityControllerApp :=
  (isAnomaly p packet).map fun anomaly =>
    let a := if anomaly then handleNADSMessage p now packet a else a
    if packet.noMatch ∧ ¬isWhitelisted p packet ∧ a.state.value < SecurityState.warning.value then
      { a with state := .warning }
    else a

/-- `handleMessage` for an `AnomalyTimeout`. -/
def handleMessage (a : AVBSecurityControllerApp) : AVBSecurityControllerApp :=
  let a := { a with anomalyScheduled := false }
  if a.lastAnomaly + p.anomalyTimeout ≤ now ∧ a.anomalyCount = 0 then { a with state := .warning }
  else a.scheduleSelfMessage p now

end AVBSecurityControllerApp

/-! ## Runs -/

/-- The controller with the time, and the times of the anomalies, the latest first. -/
structure SecurityRun where
  app : AVBSecurityControllerApp
  clock : SimTime
  anomalies : List SimTime

inductive SecurityEvent
  | packetIn (packet : SecurityPacketIn)
  | anomalyTimeout

/-- What one event does. A scheduled message comes at its time, before or after the packet-ins of
the same time, and after it no time passes while the message is still there. -/
def SecurityRun.step (p : SecurityParams) (s : SecurityRun) (e : SimTime × SecurityEvent) :
    Option SecurityRun :=
  if s.clock ≤ e.1 ∧ ∀ t ∈ s.app.timeouts, e.1 ≤ t then
    match e.2 with
    | .packetIn packet => (s.app.receiveSignal p e.1 packet).map fun app =>
        ⟨app, e.1, if AVBSecurityControllerApp.isAnomaly p packet = some true
          then e.1 :: s.anomalies else s.anomalies⟩
    | .anomalyTimeout =>
      if e.1 ∈ s.app.timeouts then
        some ⟨{ s.app with timeouts := s.app.timeouts.erase e.1 }.handleMessage p e.1, e.1,
          s.anomalies⟩
      else none
  else none

def securityController (p : SecurityParams) : System SecurityRun (SimTime × SecurityEvent) where
  init s := s = ⟨{}, 0, []⟩
  step := SecurityRun.step p

/-! ## What a run should keep -/

/-- In danger one timeout is pending, which comes in time, and the danger is over only when no
anomaly has happened for so long. -/
structure TimerRight (p : SecurityParams) (s : SecurityRun) : Prop where
  pending : s.app.state = .danger → ∃ t a, s.app.timeouts = [t] ∧ s.anomalies.head? = some a ∧
    t ≤ a + p.anomalyTimeout
  leaves : ∀ e s', s.step p e = some s' → s.app.state = .danger → s'.app.state ≠ .danger →
    ∀ a ∈ s.anomalies, a + p.anomalyTimeout ≤ e.1

/-- No port was read from an empty list either. -/
structure AlwaysReset (p : SecurityParams) (s : SecurityRun) : Prop extends TimerRight p s where
  reads : none ∉ s.app.outPorts

/-- The timeout does not find several anomalies of the time for which it was scheduled. -/
def FindsReset (p : SecurityParams) (s : SecurityRun) (e : SimTime × SecurityEvent) : Prop :=
  match e.2 with
  | .anomalyTimeout => e.1 < s.app.lastAnomaly + p.anomalyTimeout ∨ s.app.anomalyCount = 0
  | .packetIn _ => True

/-! ## The timer -/

variable {p : SecurityParams} {now : SimTime} {packet : SecurityPacketIn}
  {a a' : AVBSecurityControllerApp} {s s' : SecurityRun} {e : SimTime × SecurityEvent}

namespace AVBSecurityControllerApp

@[simp] theorem createFlowModMessage_state (a : AVBSecurityControllerApp) (outports : List UInt32) :
    (a.createFlowModMessage outports).state = a.state := rfl

@[simp] theorem createFlowModMessage_lastAnomaly (a : AVBSecurityControllerApp)
    (outports : List UInt32) : (a.createFlowModMessage outports).lastAnomaly = a.lastAnomaly := rfl

@[simp] theorem createFlowModMessage_anomalyScheduled (a : AVBSecurityControllerApp)
    (outports : List UInt32) :
    (a.createFlowModMessage outports).anomalyScheduled = a.anomalyScheduled := rfl

@[simp] theorem createFlowModMessage_timeouts (a : AVBSecurityControllerApp)
    (outports : List UInt32) : (a.createFlowModMessage outports).timeouts = a.timeouts := rfl

@[simp] theorem createFlowModMessage_outPorts (a : AVBSecurityControllerApp)
    (outports : List UInt32) :
    (a.createFlowModMessage outports).outPorts = a.outPorts ++ [outports.head?] := rfl

@[simp] theorem scheduleSelfMessage_state (p : SecurityParams) (now : SimTime)
    (a : AVBSecurityControllerApp) : (a.scheduleSelfMessage p now).state = a.state := by
  unfold scheduleSelfMessage
  split_ifs <;> rfl

@[simp] theorem scheduleSelfMessage_outPorts (p : SecurityParams) (now : SimTime)
    (a : AVBSecurityControllerApp) : (a.scheduleSelfMessage p now).outPorts = a.outPorts := by
  unfold scheduleSelfMessage
  split_ifs <;> rfl

@[simp] theorem handleNADSMessage_state (p : SecurityParams) (now : SimTime)
    (packet : SecurityPacketIn) (a : AVBSecurityControllerApp) :
    (a.handleNADSMessage p now packet).state = .danger := by
  simp only [handleNADSMessage, scheduleSelfMessage_state, createFlowModMessage_state]
  split_ifs <;> rfl

/-- A packet that is no anomaly never ends the danger. -/
theorem receiveSignal_cases (h : a.receiveSignal p now packet = some a') :
    isAnomaly p packet = some true ∧ a' = a.handleNADSMessage p now packet ∨
      isAnomaly p packet ≠ some true ∧
        (a' = a ∨ a.state ≠ .danger ∧ a' = { a with state := .warning }) := by
  obtain ⟨anomaly, hanomaly, rfl⟩ := Option.map_eq_some_iff.mp h
  rw [hanomaly]
  cases anomaly with
  | true =>
    refine .inl ⟨rfl, ?_⟩
    simp only [if_true, handleNADSMessage_state]
    apply if_neg
    rintro ⟨-, -, hlt⟩
    exact absurd hlt (by decide)
  | false =>
    refine .inr ⟨by decide, ?_⟩
    simp only [Bool.false_eq_true, if_false]
    split_ifs with hwarn
    · refine .inr ⟨fun hdanger => ?_, rfl⟩
      rw [hdanger] at hwarn
      exact absurd hwarn.2.2 (by decide)
    · exact .inl rfl

/-- What the timer needs: in danger a timeout is pending when the flag says so, not later than the
last anomaly allows, and no other timeout is ever pending. -/
structure Timer (p : SecurityParams) (a : AVBSecurityControllerApp) : Prop where
  scheduled : a.anomalyScheduled →
    a.state = .danger ∧ ∃ t, a.timeouts = [t] ∧ t ≤ a.lastAnomaly + p.anomalyTimeout
  unscheduled : ¬a.anomalyScheduled → a.timeouts = []

/-- A timeout is scheduled if none is, for a later time. -/
theorem Timer.scheduleSelfMessage (h : a.Timer p) (hdanger : a.state = .danger) (now : SimTime) :
    (a.scheduleSelfMessage p now).Timer p ∧
      (a.scheduleSelfMessage p now).state = .danger ∧
      (a.scheduleSelfMessage p now).lastAnomaly = a.lastAnomaly ∧
      ((a.scheduleSelfMessage p now).anomalyScheduled ↔
        a.anomalyScheduled ∨ now < a.lastAnomaly + p.anomalyTimeout) := by
  unfold AVBSecurityControllerApp.scheduleSelfMessage
  by_cases hflag : a.anomalyScheduled
  · rw [if_neg (not_not.mpr hflag)]
    exact ⟨h, hdanger, rfl, by simp [hflag]⟩
  · rw [if_pos hflag]
    split_ifs with hlater
    · refine ⟨⟨fun _ => ⟨hdanger, _, ?_, le_rfl⟩, fun hnot => absurd rfl hnot⟩, hdanger, rfl, ?_⟩
      · simp only [h.unscheduled hflag]
      · simp only [true_iff]
        exact .inr hlater
    · refine ⟨h, hdanger, rfl, ?_⟩
      simp only [hflag, Bool.false_eq_true, false_or]
      exact iff_of_false id hlater

/-- An anomaly leaves a timeout pending in any case. -/
theorem Timer.handleNADSMessage (h : a.Timer p) (packet : SecurityPacketIn)
    (hclock : a.lastAnomaly ≤ now) :
    (a.handleNADSMessage p now packet).Timer p ∧
      (a.handleNADSMessage p now packet).state = .danger ∧
      (a.handleNADSMessage p now packet).lastAnomaly = now ∧
      (a.handleNADSMessage p now packet).anomalyScheduled := by
  unfold AVBSecurityControllerApp.handleNADSMessage
  extract_lets a₁ a₂
  have hfields : a₂.state = .danger ∧ a₂.lastAnomaly = now ∧
      a₂.anomalyScheduled = a.anomalyScheduled ∧ a₂.timeouts = a.timeouts := by
    dsimp only [a₂]
    split_ifs
    · exact ⟨rfl, rfl, rfl, rfl⟩
    · exact ⟨rfl, rfl, rfl, rfl⟩
  obtain ⟨hdanger, hlast, hflag, htimeouts⟩ := hfields
  have htimer : (a₂.createFlowModMessage []).Timer p := by
    constructor
    · intro hscheduled
      obtain ⟨-, t, ht, hle⟩ := h.scheduled (hflag ▸ hscheduled)
      refine ⟨hdanger, t, htimeouts.trans ht, ?_⟩
      change t ≤ a₂.lastAnomaly + _
      rw [hlast]
      exact hle.trans (Int.add_le_add_right hclock _)
    · intro hscheduled
      exact htimeouts.trans (h.unscheduled (hflag ▸ hscheduled))
  obtain ⟨h₁, h₂, h₃, h₄⟩ := htimer.scheduleSelfMessage hdanger now
  refine ⟨h₁, h₂, h₃.trans hlast, h₄.mpr (.inr ?_)⟩
  change now < a₂.lastAnomaly + _
  rw [hlast]
  exact Int.lt_add_of_pos_right now p.anomalyTimeout_pos

/-- A timeout that comes in danger ends it when the last anomaly is that long ago, unless another
one was counted. Else it schedules the next timeout, if there is a later anomaly. -/
theorem timer_handleMessage (now : SimTime) (hdanger : a.state = .danger) (hempty : a.timeouts = [])
    (ha' : a.handleMessage p now = a') :
    a'.Timer p ∧ a'.lastAnomaly = a.lastAnomaly ∧
      (a'.state ≠ .danger → a.lastAnomaly + p.anomalyTimeout ≤ now) ∧
      (a'.state = .danger → (now < a.lastAnomaly + p.anomalyTimeout ∨ a.anomalyCount = 0) →
        a'.anomalyScheduled) := by
  unfold handleMessage at ha'
  dsimp only at ha'
  split_ifs at ha' with hreset
  · subst ha'
    exact ⟨⟨fun hnot => absurd hnot Bool.false_ne_true, fun _ => hempty⟩, rfl, fun _ => hreset.1,
      fun hd => by cases hd⟩
  · have htimer : ({ a with anomalyScheduled := false } : AVBSecurityControllerApp).Timer p :=
      ⟨fun hnot => absurd hnot Bool.false_ne_true, fun _ => hempty⟩
    obtain ⟨h₁, h₂, h₃, h₄⟩ := htimer.scheduleSelfMessage hdanger now
    rw [ha'] at h₁ h₂ h₃ h₄
    refine ⟨h₁, h₃, fun hnot => absurd h₂ hnot, fun _ hfinds => h₄.mpr (.inr ?_)⟩
    rcases hfinds with hlater | hzero
    · exact hlater
    · exact Int.not_le.mp fun hle => hreset ⟨hle, hzero⟩

end AVBSecurityControllerApp

/-! ## The runs -/

/-- What every run keeps. -/
structure SecurityRun.Inv (p : SecurityParams) (s : SecurityRun) : Prop where
  timer : s.app.Timer p
  last : ∀ t ∈ s.anomalies, t ≤ s.app.lastAnomaly
  head : s.app.state = .danger → s.anomalies.head? = some s.app.lastAnomaly
  clock : s.app.lastAnomaly ≤ s.clock
  reads : none ∈ s.app.outPorts ↔ s.anomalies ≠ []

/-- In danger the timeout is pending. -/
def SecurityRun.Armed (s : SecurityRun) : Prop := s.app.state = .danger → s.app.anomalyScheduled

namespace SecurityRun

theorem step_cases (h : s.step p e = some s') : s.clock ≤ e.1 ∧
    ((∃ packet, e.2 = .packetIn packet ∧
      AVBSecurityControllerApp.isAnomaly p packet = some true ∧
      s' = ⟨s.app.handleNADSMessage p e.1 packet, e.1, e.1 :: s.anomalies⟩) ∨
    (∃ packet, e.2 = .packetIn packet ∧
      (s' = ⟨s.app, e.1, s.anomalies⟩ ∨
        s.app.state ≠ .danger ∧ s' = ⟨{ s.app with state := .warning }, e.1, s.anomalies⟩)) ∨
    (e.2 = .anomalyTimeout ∧ e.1 ∈ s.app.timeouts ∧
      s' = ⟨{ s.app with timeouts := s.app.timeouts.erase e.1 }.handleMessage p e.1, e.1,
        s.anomalies⟩)) := by
  rw [step, Option.ite_none_right_eq_some] at h
  obtain ⟨hclock, h⟩ := h
  refine ⟨hclock.1, ?_⟩
  obtain ⟨now, packet | _⟩ := e
  · obtain ⟨app, happ, rfl⟩ := Option.map_eq_some_iff.mp h
    rcases AVBSecurityControllerApp.receiveSignal_cases happ with
      ⟨hanomaly, rfl⟩ | ⟨hnot, rfl | ⟨hstate, rfl⟩⟩
    · refine .inl ⟨packet, rfl, hanomaly, ?_⟩
      rw [if_pos hanomaly]
    · refine .inr (.inl ⟨packet, rfl, .inl ?_⟩)
      rw [if_neg hnot]
    · refine .inr (.inl ⟨packet, rfl, .inr ⟨hstate, ?_⟩⟩)
      rw [if_neg hnot]
  · obtain ⟨hmem, h⟩ := (Option.ite_none_right_eq_some).mp h
    cases h
    exact .inr (.inr ⟨rfl, hmem, rfl⟩)

theorem inv_init : Inv p ⟨{}, 0, []⟩ where
  timer := ⟨fun h => absurd h Bool.false_ne_true, fun _ => rfl⟩
  last t ht := by cases ht
  head h := by cases h
  clock := le_rfl
  reads := by simp

theorem Inv.anomaly (h : Inv p s) (hclock : s.clock ≤ now) :
    Inv p ⟨s.app.handleNADSMessage p now packet, now, now :: s.anomalies⟩ := by
  obtain ⟨htimer, -, hlast, -⟩ := h.timer.handleNADSMessage packet
    (h.clock.trans hclock)
  refine ⟨htimer, fun t ht => ?_, fun _ => ?_, hlast.le, ?_⟩
  · rw [hlast]
    rcases List.mem_cons.mp ht with rfl | ht
    · exact le_rfl
    · exact (h.last t ht).trans (h.clock.trans hclock)
  · rw [hlast]
    rfl
  · simp [AVBSecurityControllerApp.handleNADSMessage]

theorem Inv.other (h : Inv p s) (hclock : s.clock ≤ now) : Inv p ⟨s.app, now, s.anomalies⟩ where
  timer := h.timer
  last := h.last
  head := h.head
  clock := h.clock.trans hclock
  reads := h.reads

theorem Inv.warning (h : Inv p s) (hclock : s.clock ≤ now) (hstate : s.app.state ≠ .danger) :
    Inv p ⟨{ s.app with state := .warning }, now, s.anomalies⟩ where
  timer := ⟨fun hflag => absurd (h.timer.scheduled hflag).1 hstate, h.timer.unscheduled⟩
  last := h.last
  head hdanger := by cases hdanger
  clock := h.clock.trans hclock
  reads := h.reads

/-- The state in which a timeout comes: that of danger, and no other timeout is pending. -/
theorem Inv.danger (h : Inv p s) (hnow : now ∈ s.app.timeouts) :
    s.app.state = .danger ∧ s.app.timeouts.erase now = [] := by
  have hflag : s.app.anomalyScheduled := by
    by_contra hnot
    rw [h.timer.unscheduled hnot] at hnow
    cases hnow
  obtain ⟨hdanger, t, ht, -⟩ := h.timer.scheduled hflag
  rw [ht] at hnow ⊢
  rw [List.mem_singleton.mp hnow, List.erase_cons_head]
  exact ⟨hdanger, rfl⟩

theorem handleMessage_outPorts (p : SecurityParams) (now : SimTime) (a : AVBSecurityControllerApp) :
    (a.handleMessage p now).outPorts = a.outPorts := by
  simp only [AVBSecurityControllerApp.handleMessage]
  split_ifs <;> simp

theorem Inv.timeout (h : Inv p s) (hclock : s.clock ≤ now) (hnow : now ∈ s.app.timeouts) :
    Inv p ⟨{ s.app with timeouts := s.app.timeouts.erase now }.handleMessage p now, now,
      s.anomalies⟩ := by
  obtain ⟨hdanger, hempty⟩ := h.danger hnow
  obtain ⟨htimer, hlast, -, -⟩ := AVBSecurityControllerApp.timer_handleMessage (p := p) now
    (a := { s.app with timeouts := s.app.timeouts.erase now }) hdanger hempty rfl
  refine ⟨htimer, fun t ht => ?_, fun _ => ?_, ?_, ?_⟩
  · rw [hlast]
    exact h.last t ht
  · rw [hlast]
    exact h.head hdanger
  · rw [hlast]
    exact h.clock.trans hclock
  · rw [handleMessage_outPorts]
    exact h.reads

/-- What one step does: it keeps the invariant, it ends the danger only when no anomaly has
happened for so long, and it keeps the timeout pending if a timeout that comes finds what it
needs. -/
theorem Inv.step (h : Inv p s) (hs : s.step p e = some s') :
    Inv p s' ∧ (s.app.state = .danger → s'.app.state ≠ .danger →
      ∀ t ∈ s.anomalies, t + p.anomalyTimeout ≤ e.1) ∧
    (FindsReset p s e → s.Armed → s'.Armed) := by
  obtain ⟨hclock, hcases⟩ := step_cases hs
  rcases hcases with ⟨packet, -, -, rfl⟩ | ⟨packet, -, rfl | ⟨hstate, rfl⟩⟩ |
    ⟨htimeout, hmem, rfl⟩
  · obtain ⟨-, hdanger, -, hflag⟩ := h.timer.handleNADSMessage packet
      (h.clock.trans hclock)
    exact ⟨h.anomaly hclock, fun _ hnot => absurd hdanger hnot, fun _ _ _ => hflag⟩
  · exact ⟨h.other hclock, fun hd hnot => absurd hd hnot, fun _ harmed => harmed⟩
  · exact ⟨h.warning hclock hstate, fun hd => absurd hd hstate, fun _ _ hd => by cases hd⟩
  · obtain ⟨hdanger, hempty⟩ := h.danger hmem
    obtain ⟨-, -, hleaves, harmed⟩ := AVBSecurityControllerApp.timer_handleMessage (p := p)
      e.1 (a := { s.app with timeouts := s.app.timeouts.erase e.1 }) hdanger hempty rfl
    refine ⟨h.timeout hclock hmem, fun _ hnot t ht => ?_, fun hfinds _ hd => harmed hd ?_⟩
    · exact (Int.add_le_add_right (h.last t ht) _).trans (hleaves hnot)
    · unfold FindsReset at hfinds
      rw [htimeout] at hfinds
      exact hfinds

/-- The timer is right exactly when a timeout is pending in danger. -/
theorem Inv.timerRight_iff (h : Inv p s) : TimerRight p s ↔ s.Armed := by
  constructor
  · intro hright hdanger
    obtain ⟨t, -, ht, -, -⟩ := hright.pending hdanger
    by_contra hnot
    rw [h.timer.unscheduled hnot] at ht
    cases ht
  · intro harmed
    refine ⟨fun hdanger => ?_, fun e s' hs hdanger hnot => (h.step hs).2.1 hdanger hnot⟩
    obtain ⟨-, t, ht, hle⟩ := h.timer.scheduled (harmed hdanger)
    exact ⟨t, _, ht, h.head hdanger, hle⟩

end SecurityRun

theorem inv_of_reachable (h : (securityController p).Reachable s) : s.Inv p := by
  refine h.invariant (fun s hs => ?_) fun s e s' hinv hs => (hinv.step hs).1
  rw [hs]
  exact SecurityRun.inv_init

theorem armed_of_reachableUnder (h : (securityController p).ReachableUnder (FindsReset p) s) :
    s.Armed := by
  refine h.invariant (fun s hs => ?_) fun s e s' hreach harmed hok hs => ?_
  · rw [hs]
    intro hdanger
    cases hdanger
  · exact ((inv_of_reachable hreach.reachable).step hs).2.2 hok harmed

/-- A run is right until its first anomaly, which reads a port from an empty list. The timer alone
is right as long as no timeout finds several anomalies of the time for which it was scheduled. -/
theorem alwaysReset_iff (p : SecurityParams) (s : SecurityRun)
    (h : (securityController p).Reachable s) :
    (AlwaysReset p s ↔ s.anomalies = []) ∧
      ((securityController p).ReachableUnder (FindsReset p) s → TimerRight p s) := by
  have hinv : s.Inv p := inv_of_reachable h
  refine ⟨⟨fun hright => ?_, fun hempty => ?_⟩, fun hunder => ?_⟩
  · by_contra hne
    exact hright.reads (hinv.reads.mpr hne)
  · refine ⟨hinv.timerRight_iff.mpr fun hdanger => ?_, fun hread => hinv.reads.mp hread hempty⟩
    -- without an anomaly there is no danger
    have hhead := hinv.head hdanger
    rw [hempty] at hhead
    cases hhead
  · exact hinv.timerRight_iff.mpr (armed_of_reachableUnder hunder)

def detectionAtPort3 : SecurityParams where
  nadsPort := 3
  allowNewFlows := true
  allowARP := true
  allowSRP := true
  anomalyTimeout := 100
  anomalyTimeout_pos := by decide

/-- A frame from the port of the detection. -/
def anomalyPacket : SecurityPacketIn where
  swInfo := 0
  message := ⟨ofpNoBuffer, .zero, some ⟨1, 2, 0x0800, 3, none, .other⟩⟩
  noMatch := false
  isSrp := false

theorem alwaysReset_iff_anomaly : ∃ s,
    (securityController detectionAtPort3).runFrom ⟨{}, 0, []⟩ [(5, .packetIn anomalyPacket)] =
      some s ∧ (AlwaysReset detectionAtPort3 s ↔ s.anomalies = []) ∧
        TimerRight detectionAtPort3 s := by
  obtain ⟨s, hs⟩ : ∃ s, (securityController detectionAtPort3).step ⟨{}, 0, []⟩
      (5, .packetIn anomalyPacket) = some s := ⟨_, rfl⟩
  have hfinds : FindsReset detectionAtPort3 ⟨{}, 0, []⟩ (5, .packetIn anomalyPacket) := trivial
  have hunder : (securityController detectionAtPort3).ReachableUnder
      (FindsReset detectionAtPort3) s := .step (.init rfl) hfinds hs
  have hright := alwaysReset_iff detectionAtPort3 s hunder.reachable
  refine ⟨s, ?_, hright.1, hright.2 hunder⟩
  rw [System.runFrom, hs]
  rfl

/-- After two anomalies at the same time the timeout neither ends the danger nor comes again. -/
theorem not_alwaysReset : ¬∀ (p : SecurityParams) (s : SecurityRun),
    (securityController p).Reachable s → AlwaysReset p s := by
  intro h
  obtain ⟨s, hs, hdanger, htimeouts⟩ : ∃ s,
      (securityController detectionAtPort3).runFrom ⟨{}, 0, []⟩ [(5, .packetIn anomalyPacket),
        (5, .packetIn anomalyPacket), (105, .anomalyTimeout)] = some s ∧
      s.app.state = .danger ∧ s.app.timeouts = [] := ⟨_, rfl, rfl, rfl⟩
  obtain ⟨t, -, ht, -, -⟩ :=
    (h detectionAtPort3 s (System.reachable_of_runFrom rfl hs)).pending hdanger
  rw [htimeouts] at ht
  cases ht

end TsnReconfig.Avb
