import TsnReconfig.Lib.ServiceLoop
import TsnReconfig.OpenFlow.FlowTable

/-!
# Service times

`ProcessingTimeSimulation`, `OF_SwitchAgent` and `OF_Controller` take messages one after the other,
each with code of its own, and schedule a message of their own for each that they take. The
messages are of any kind; the handlers are `none` where `scheduleAt` throws.
-/

namespace TsnReconfig.Network

open OpenFlow Lib

/-- `scheduleAt`, which does not go back. -/
def scheduleAt (now time : SimTime) : Option SimTime :=
  if now ≤ time then some time else none

/-! ## The base of the NETCONF servers -/

/-- `ProcessingTimeSimulation`. The parameters are read again whenever they change. -/
structure ProcessingTimeSimulation (M : Type*) where
  processingTime : SimTime
  allowParallelProcessing : Bool
  msgList : List M := []
  busy : Bool := false
  deriving DecidableEq, Repr

inductive ProcessingParameter
  | processingTime (value : SimTime)
  | allowParallelProcessing (value : Bool)
  deriving DecidableEq, Repr

namespace ProcessingTimeSimulation
variable {M : Type*} (s : ProcessingTimeSimulation M)

def handleParameterChange : ProcessingParameter → ProcessingTimeSimulation M
  | .processingTime value => { s with processingTime := value }
  | .allowParallelProcessing value => { s with allowParallelProcessing := value }

/-- `triggerNextProcessingTime`, with the message it schedules. -/
def triggerNextProcessingTime (now : SimTime) :
    Option (ProcessingTimeSimulation M × Option (SimTime × M)) :=
  match s.msgList with
  | [] => some ({ s with busy := false }, none)
  | msgFromList :: msgList =>
    (scheduleAt now (now + s.processingTime)).map fun time =>
      ({ s with msgList }, some (time, msgFromList))

def simulateProcessingTime (now : SimTime) (msg : M) :
    Option (ProcessingTimeSimulation M × Admission SimTime) :=
  if s.busy ∧ ¬s.allowParallelProcessing then
    some ({ s with msgList := s.msgList ++ [msg] }, .waiting)
  else
    (scheduleAt now (now + s.processingTime)).map fun time =>
      ({ s with busy := true }, .scheduled time)

variable {s} {s' : ProcessingTimeSimulation M} {now : SimTime} {msg : M}

theorem simulateProcessingTime_cases {a : Admission SimTime}
    (h : s.simulateProcessingTime now msg = some (s', a)) :
    s.busy ∧ s' = { s with msgList := s.msgList ++ [msg] } ∧ a = .waiting ∨
      (s.allowParallelProcessing ∨ s.busy = false) ∧ s' = { s with busy := true } ∧
        ∃ time, a = .scheduled time := by
  unfold simulateProcessingTime at h
  split_ifs at h with hwait
  · cases h
    exact .inl ⟨hwait.1, rfl, rfl⟩
  · obtain ⟨time, -, h⟩ := Option.map_eq_some_iff.mp h
    cases h
    refine .inr ⟨?_, rfl, time, rfl⟩
    grind

theorem triggerNextProcessingTime_cases {next : Option (SimTime × M)}
    (h : s.triggerNextProcessingTime now = some (s', next)) :
    s.msgList = [] ∧ s' = { s with busy := false } ∧ next = none ∨
      ∃ time msg msgList, s.msgList = msg :: msgList ∧ s' = { s with msgList } ∧
        next = some (time, msg) := by
  unfold triggerNextProcessingTime at h
  split at h
  next hlist =>
    cases h
    exact .inl ⟨hlist, rfl, rfl⟩
  next msg msgList hlist =>
    obtain ⟨time, -, h⟩ := Option.map_eq_some_iff.mp h
    cases h
    exact .inr ⟨time, msg, msgList, hlist, rfl, rfl⟩

/-- `handleMessage`: a message of its own ends the processing of another one. -/
def loop (M : Type*) :
    ServiceLoop (ProcessingTimeSimulation M) M SimTime ProcessingParameter where
  arrive := simulateProcessingTime
  finish := triggerNextProcessingTime
  change := handleParameterChange
  queue := msgList
  busy := busy
  parallel := allowParallelProcessing
  fast _ := false
  arrive_scheduled h := by
    obtain ⟨-, -, h⟩ | ⟨hfree, rfl, -⟩ := simulateProcessingTime_cases h
    · cases h
    · exact ⟨hfree, rfl, rfl, rfl⟩
  arrive_waiting h := by
    obtain ⟨hbusy, rfl, -⟩ | ⟨-, -, time, h⟩ := simulateProcessingTime_cases h
    · exact ⟨hbusy, rfl, hbusy, rfl⟩
    · cases h
  arrive_handled h := by
    obtain ⟨-, -, h⟩ | ⟨-, -, time, h⟩ := simulateProcessingTime_cases h
    all_goals cases h
  arrive_ignored h := by
    obtain ⟨-, -, h⟩ | ⟨-, -, time, h⟩ := simulateProcessingTime_cases h
    all_goals cases h
  finish_none h := by
    obtain ⟨hlist, rfl, -⟩ | ⟨time, msg, msgList, -, -, h⟩ := triggerNextProcessingTime_cases h
    · exact ⟨hlist, hlist, rfl⟩
    · cases h
  finish_some h := by
    obtain ⟨-, -, hnext⟩ | ⟨time, msg, msgList, hlist, rfl, hnext⟩ :=
      triggerNextProcessingTime_cases h
    · cases hnext
    · cases hnext
      exact ⟨hlist, rfl⟩
  queue_change s c := by cases c with | _ => rfl
  busy_change s c := by cases c with | _ => rfl

/-- The runs of a new module, with any parameters. -/
def runs (M : Type*) :
    System (ServiceRun (ProcessingTimeSimulation M) M SimTime)
      (SimTime × ServiceEvent M ProcessingParameter) :=
  (loop M).system fun s => s.msgList = [] ∧ s.busy = false

end ProcessingTimeSimulation

/-! ## The agents of the switches -/

/-- A message for the gate `controlPlaneIn`: that the connection is established, or any other. -/
inductive ControlPlaneMessage (P : Type*)
  | established
  | other (packet : P)
  deriving DecidableEq, Repr

def ControlPlaneMessage.isEstablished {P : Type*} : ControlPlaneMessage P → Bool
  | .established => true
  | .other _ => false

/-- The members of `OF_SwitchAgent` for its service times. -/
structure AgentService (P : Type*) where
  ofServiceTime : SimTime
  parallelProcessing : Bool
  msgList : List (ControlPlaneMessage P) := []
  ofBusy : Bool := false
  deriving DecidableEq, Repr

inductive AgentParameter
  | serviceTime (value : SimTime)
  | parallelProcessing (value : Bool)
  deriving DecidableEq, Repr

namespace AgentService
variable {P : Type*} (s : AgentService P)

def handleParameterChange : AgentParameter → AgentService P
  | .serviceTime value => { s with ofServiceTime := value }
  | .parallelProcessing value => { s with parallelProcessing := value }

/-- `scheduleForServiceTime`: the time of the message. -/
def scheduleForServiceTime (now : SimTime) : Option SimTime :=
  scheduleAt now (now + s.ofServiceTime)

def scheduleNextServiceTime (now : SimTime) :
    Option (AgentService P × Option (SimTime × ControlPlaneMessage P)) :=
  match s.msgList with
  | [] => some ({ s with ofBusy := false }, none)
  | msgFromList :: msgList =>
    (s.scheduleForServiceTime now).map fun time => ({ s with msgList }, some (time, msgFromList))

def simulateServiceTime (now : SimTime) (msg : ControlPlaneMessage P) :
    Option (AgentService P × Admission SimTime) :=
  if s.parallelProcessing ∨ ¬s.ofBusy then
    (s.scheduleForServiceTime now).map fun time => ({ s with ofBusy := true }, .scheduled time)
  else some ({ s with msgList := s.msgList ++ [msg] }, .waiting)

/-- `handleMessage` for the messages of others. The socket takes an established connection. -/
def handleMessage (now : SimTime) (msg : ControlPlaneMessage P) :
    Option (AgentService P × Admission SimTime) :=
  if msg.isEstablished then some (s, .handled) else s.simulateServiceTime now msg

variable {s} {s' : AgentService P} {now : SimTime} {msg : ControlPlaneMessage P}

theorem handleMessage_cases {a : Admission SimTime}
    (h : s.handleMessage now msg = some (s', a)) :
    msg.isEstablished ∧ s' = s ∧ a = .handled ∨
      msg.isEstablished = false ∧
        (s.ofBusy ∧ s' = { s with msgList := s.msgList ++ [msg] } ∧ a = .waiting ∨
          (s.parallelProcessing ∨ s.ofBusy = false) ∧ s' = { s with ofBusy := true } ∧
            ∃ time, a = .scheduled time) := by
  unfold handleMessage simulateServiceTime at h
  split_ifs at h with hestablished hfree
  · cases h
    exact .inl ⟨hestablished, rfl, rfl⟩
  · obtain ⟨time, -, h⟩ := Option.map_eq_some_iff.mp h
    cases h
    refine .inr ⟨by simpa using hestablished, .inr ⟨by simpa using hfree, rfl, time, rfl⟩⟩
  · cases h
    have hbusy : s.ofBusy = true := by
      by_contra hbusy
      exact hfree (.inr hbusy)
    exact .inr ⟨by simpa using hestablished, .inl ⟨hbusy, rfl, rfl⟩⟩

theorem scheduleNextServiceTime_cases {next : Option (SimTime × ControlPlaneMessage P)}
    (h : s.scheduleNextServiceTime now = some (s', next)) :
    s.msgList = [] ∧ s' = { s with ofBusy := false } ∧ next = none ∨
      ∃ time msg msgList, s.msgList = msg :: msgList ∧ s' = { s with msgList } ∧
        next = some (time, msg) := by
  unfold scheduleNextServiceTime at h
  split at h
  next hlist =>
    cases h
    exact .inl ⟨hlist, rfl, rfl⟩
  next msg msgList hlist =>
    obtain ⟨time, -, h⟩ := Option.map_eq_some_iff.mp h
    cases h
    exact .inr ⟨time, msg, msgList, hlist, rfl, rfl⟩

/-- The agent with its messages of kind `MSGKIND_SERVICETIME`. -/
def loop (P : Type*) :
    ServiceLoop (AgentService P) (ControlPlaneMessage P) SimTime AgentParameter where
  arrive := handleMessage
  finish := scheduleNextServiceTime
  change := handleParameterChange
  queue := msgList
  busy := ofBusy
  parallel := parallelProcessing
  fast := ControlPlaneMessage.isEstablished
  arrive_scheduled h := by
    obtain ⟨-, -, h⟩ | ⟨hslow, ⟨-, -, h⟩ | ⟨hfree, rfl, -⟩⟩ := handleMessage_cases h
    · cases h
    · cases h
    · exact ⟨hfree, rfl, rfl, hslow⟩
  arrive_waiting h := by
    obtain ⟨-, -, h⟩ | ⟨hslow, ⟨hbusy, rfl, -⟩ | ⟨-, -, time, h⟩⟩ := handleMessage_cases h
    · cases h
    · exact ⟨hbusy, rfl, hbusy, hslow⟩
    · cases h
  arrive_handled h := by
    obtain ⟨hfast, rfl, -⟩ | ⟨-, ⟨-, -, h⟩ | ⟨-, -, time, h⟩⟩ := handleMessage_cases h
    · exact ⟨rfl, rfl, hfast⟩
    · cases h
    · cases h
  arrive_ignored h := by
    obtain ⟨-, -, h⟩ | ⟨-, ⟨-, -, h⟩ | ⟨-, -, time, h⟩⟩ := handleMessage_cases h
    all_goals cases h
  finish_none h := by
    obtain ⟨hlist, rfl, -⟩ | ⟨time, msg, msgList, -, -, h⟩ := scheduleNextServiceTime_cases h
    · exact ⟨hlist, hlist, rfl⟩
    · cases h
  finish_some h := by
    obtain ⟨-, -, hnext⟩ | ⟨time, msg, msgList, hlist, rfl, hnext⟩ :=
      scheduleNextServiceTime_cases h
    · cases hnext
    · cases hnext
      exact ⟨hlist, rfl⟩
  queue_change s c := by cases c with | _ => rfl
  busy_change s c := by cases c with | _ => rfl

/-- The runs of a new agent, with any parameters. -/
def runs (P : Type*) :
    System (ServiceRun (AgentService P) (ControlPlaneMessage P) SimTime)
      (SimTime × ServiceEvent (ControlPlaneMessage P) AgentParameter) :=
  (loop P).system fun s => s.msgList = [] ∧ s.ofBusy = false

end AgentService

/-! ## The controller -/

/-- The members of `OF_Controller` for its service times. -/
structure ControllerService (M : Type*) where
  serviceTime : SimTime
  booted : Bool := false
  msgList : List M := []
  busy : Bool := false
  deriving DecidableEq, Repr

/-- The messages of its own besides those for the service times. -/
inductive ControllerSelfMessage
  | booted
  | extractTopo
  deriving DecidableEq, Repr

namespace ControllerService
variable {M : Type*} (s : ControllerService M)

def handleSelfMessage : ControllerSelfMessage → ControllerService M
  | .booted => { s with booted := true }
  | .extractTopo => s

/-- `handleMessage` for a message of its own that ends the service of another one, after that has
been processed. -/
def handleServiceTime (now : SimTime) : Option (ControllerService M × Option (SimTime × M)) :=
  match s.msgList with
  | [] => some ({ s with busy := false }, none)
  | msgfromlist :: msgList =>
    (scheduleAt now (now + s.serviceTime)).map fun time =>
      ({ s with msgList }, some (time, msgfromlist))

/-- `handleMessage` for the messages of others. -/
def handleMessage (now : SimTime) (msg : M) :
    Option (ControllerService M × Admission SimTime) :=
  if s.booted then
    if s.busy then some ({ s with msgList := s.msgList ++ [msg] }, .waiting)
    else
      (scheduleAt now (now + s.serviceTime)).map fun time =>
        ({ s with busy := true }, .scheduled time)
  else some (s, .ignored)

variable {s} {s' : ControllerService M} {now : SimTime} {msg : M}

theorem handleMessage_cases {a : Admission SimTime}
    (h : s.handleMessage now msg = some (s', a)) :
    s.booted = false ∧ s' = s ∧ a = .ignored ∨
      s.booted ∧ (s.busy ∧ s' = { s with msgList := s.msgList ++ [msg] } ∧ a = .waiting ∨
        s.busy = false ∧ s' = { s with busy := true } ∧ ∃ time, a = .scheduled time) := by
  unfold handleMessage at h
  split_ifs at h with hbooted hbusy
  · cases h
    exact .inr ⟨hbooted, .inl ⟨hbusy, rfl, rfl⟩⟩
  · obtain ⟨time, -, h⟩ := Option.map_eq_some_iff.mp h
    cases h
    exact .inr ⟨hbooted, .inr ⟨by simpa using hbusy, rfl, time, rfl⟩⟩
  · cases h
    exact .inl ⟨by simpa using hbooted, rfl, rfl⟩

theorem handleServiceTime_cases {next : Option (SimTime × M)}
    (h : s.handleServiceTime now = some (s', next)) :
    s.msgList = [] ∧ s' = { s with busy := false } ∧ next = none ∨
      ∃ time msg msgList, s.msgList = msg :: msgList ∧ s' = { s with msgList } ∧
        next = some (time, msg) := by
  unfold handleServiceTime at h
  split at h
  next hlist =>
    cases h
    exact .inl ⟨hlist, rfl, rfl⟩
  next msg msgList hlist =>
    obtain ⟨time, -, h⟩ := Option.map_eq_some_iff.mp h
    cases h
    exact .inr ⟨time, msg, msgList, hlist, rfl, rfl⟩

/-- The controller takes one message at a time, and none before it has booted. -/
def loop (M : Type*) : ServiceLoop (ControllerService M) M SimTime ControllerSelfMessage where
  arrive := handleMessage
  finish := handleServiceTime
  change := handleSelfMessage
  queue := msgList
  busy := busy
  parallel _ := false
  fast _ := false
  arrive_scheduled h := by
    obtain ⟨-, -, h⟩ | ⟨-, ⟨-, -, h⟩ | ⟨hfree, rfl, -⟩⟩ := handleMessage_cases h
    · cases h
    · cases h
    · exact ⟨.inr hfree, rfl, rfl, rfl⟩
  arrive_waiting h := by
    obtain ⟨-, -, h⟩ | ⟨-, ⟨hbusy, rfl, -⟩ | ⟨-, -, time, h⟩⟩ := handleMessage_cases h
    · cases h
    · exact ⟨hbusy, rfl, hbusy, rfl⟩
    · cases h
  arrive_handled h := by
    obtain ⟨-, -, h⟩ | ⟨-, ⟨-, -, h⟩ | ⟨-, -, time, h⟩⟩ := handleMessage_cases h
    all_goals cases h
  arrive_ignored h := by
    obtain ⟨-, rfl, -⟩ | ⟨-, ⟨-, -, h⟩ | ⟨-, -, time, h⟩⟩ := handleMessage_cases h
    · exact ⟨rfl, rfl⟩
    · cases h
    · cases h
  finish_none h := by
    obtain ⟨hlist, rfl, -⟩ | ⟨time, msg, msgList, -, -, h⟩ := handleServiceTime_cases h
    · exact ⟨hlist, hlist, rfl⟩
    · cases h
  finish_some h := by
    obtain ⟨-, -, hnext⟩ | ⟨time, msg, msgList, hlist, rfl, hnext⟩ := handleServiceTime_cases h
    · cases hnext
    · cases hnext
      exact ⟨hlist, rfl⟩
  queue_change s c := by cases c with | _ => rfl
  busy_change s c := by cases c with | _ => rfl

/-- The runs of a new controller, with any service time. -/
def runs (M : Type*) :
    System (ServiceRun (ControllerService M) M SimTime)
      (SimTime × ServiceEvent M ControllerSelfMessage) :=
  (loop M).system fun s => s.booted = false ∧ s.msgList = [] ∧ s.busy = false

end ControllerService

/-! ## Nothing is lost -/

theorem ProcessingTimeSimulation.losesNothing (M : Type*) :
    (loop M).LosesNothing (fun s => s.msgList = [] ∧ s.busy = false) fun _ _ => True := by
  refine ServiceLoop.losesNothing (fun _ h => h) fun s s' t m _ hignored => ?_
  obtain ⟨-, -, h⟩ | ⟨-, -, time, h⟩ := simulateProcessingTime_cases hignored
  all_goals cases h

theorem AgentService.losesNothing (P : Type*) :
    (loop P).LosesNothing (fun s => s.msgList = [] ∧ s.ofBusy = false) fun _ _ => True := by
  refine ServiceLoop.losesNothing (fun _ h => h) fun s s' t m _ hignored => ?_
  obtain ⟨-, -, h⟩ | ⟨-, ⟨-, -, h⟩ | ⟨-, -, time, h⟩⟩ := handleMessage_cases hignored
  all_goals cases h

theorem ControllerService.losesNothing (M : Type*) :
    (loop M).LosesNothing (fun s => s.booted = false ∧ s.msgList = [] ∧ s.busy = false)
      fun s _ => s.booted := by
  refine ServiceLoop.losesNothing (fun _ h => h.2) fun s s' t m hbooted hignored => ?_
  obtain ⟨hbooted', -, -⟩ | ⟨-, ⟨-, -, h⟩ | ⟨-, -, time, h⟩⟩ := handleMessage_cases hignored
  · rw [hbooted] at hbooted'
    cases hbooted'
  all_goals cases h

/-- No module loses a message, processes it twice or leaves it in the queue without a service
event. In serial mode the messages are processed in their order, one at a time, but an agent
handles at once what says that its connection is established. -/
theorem serviceTimes_lose_nothing (M P : Type*) :
    (ProcessingTimeSimulation.loop M).LosesNothing (fun s => s.msgList = [] ∧ s.busy = false)
        (fun _ _ => True) ∧
      (∀ s, (ProcessingTimeSimulation.runs M).ReachableUnder
        (fun s _ => s.server.allowParallelProcessing = false) s → s.processed <+: s.arrived) ∧
    (AgentService.loop P).LosesNothing (fun s => s.msgList = [] ∧ s.ofBusy = false)
        (fun _ _ => True) ∧
      (∀ s t s', (AgentService.loop P).step s (t, .arrive .established) = some s' →
        s'.processed = s.processed ++ [.established] ∧ s'.server = s.server) ∧
    (ControllerService.loop M).LosesNothing
        (fun s => s.booted = false ∧ s.msgList = [] ∧ s.busy = false) (fun s _ => s.booted) ∧
      ∀ s, (ControllerService.runs M).Reachable s →
        (ControllerService.loop M).InOrder s ∧ s.processed <+: s.arrived := by
  refine ⟨ProcessingTimeSimulation.losesNothing M, fun s h => ?_, AgentService.losesNothing P,
    fun s t s' hs => ?_, ControllerService.losesNothing M, fun s h => ?_⟩
  · exact ((ProcessingTimeSimulation.losesNothing M).inOrder s h).forall_prior fun _ => rfl
  · obtain ⟨server, admission, harrive, rfl⟩ := ServiceLoop.take_of_step hs
    cases harrive
    exact ⟨rfl, rfl⟩
  · have hinOrder := (ControllerService.losesNothing M).inOrder s (h.mono fun _ _ _ => rfl)
    exact ⟨hinOrder, hinOrder.forall_prior fun _ => rfl⟩

/-- An agent with a service time of 5 in serial mode. -/
def newAgent : ServiceRun (AgentService ℕ) (ControlPlaneMessage ℕ) SimTime :=
  { server := { ofServiceTime := 5, parallelProcessing := false }, now := 0 }

/-- Two messages arrive at a time, and the second one is scheduled when the first one has been
processed. -/
theorem serviceTimes_lose_nothing_twoMessages : ∃ s, (AgentService.runs ℕ).runFrom newAgent
    [(0, .arrive (.other 1)), (0, .arrive (.other 2)), (5, .finish 0)] = some s ∧
      s.processed = [.other 1] ∧ s.scheduled = [(10, .other 2)] ∧
      (AgentService.loop ℕ).Conserved s := by
  obtain ⟨s, hs, hprocessed, hscheduled⟩ : ∃ s, (AgentService.runs ℕ).runFrom newAgent
      [(0, .arrive (.other 1)), (0, .arrive (.other 2)), (5, .finish 0)] = some s ∧
        s.processed = [.other 1] ∧ s.scheduled = [(10, .other 2)] := ⟨_, rfl, rfl, rfl⟩
  have hreach : (AgentService.runs ℕ).Reachable s :=
    System.reachable_of_runFrom ⟨_, _, ⟨rfl, rfl⟩, rfl⟩ hs
  exact ⟨s, hs, hprocessed, hscheduled,
    (serviceTimes_lose_nothing ℕ ℕ).2.2.1.conserved s hreach⟩

/-- What says that the connection is established overtakes the message in service. -/
theorem established_not_inOrder : ∃ s,
    (AgentService.runs ℕ).ReachableUnder (fun s _ => s.server.parallelProcessing = false) s ∧
      ¬s.processed <+: s.arrived := by
  have hinit : (AgentService.runs ℕ).ReachableUnder
      (fun s _ => s.server.parallelProcessing = false) newAgent :=
    .init ⟨_, _, ⟨rfl, rfl⟩, rfl⟩
  obtain ⟨s, hs, hprocessed, harrived⟩ : ∃ s, (AgentService.runs ℕ).runUnder
      (fun s _ => s.server.parallelProcessing = false) newAgent
      [(0, .arrive (.other 1)), (0, .arrive .established)] = some s ∧
        s.processed = [.established] ∧ s.arrived = [.other 1, .established] :=
    ⟨_, rfl, rfl, rfl⟩
  refine ⟨s, hinit.run hs, ?_⟩
  rw [hprocessed, harrived]
  exact of_decide_eq_true rfl

end TsnReconfig.Network
