import TsnReconfig.Controller.VersionBookkeeping
import TsnReconfig.Opt.Requests

/-!
# The admission of streams

`RequestHandlerControllerApp` stores the stream of an advertisement and has `OPCE2` look for a
path. The assignments of an admitted demand go to the configuration engine, under the number
`OPCE2` gave the demand; the optimiser numbers the demands by itself.
-/

namespace TsnReconfig.Opt
open Lib OpenFlow Controller

/-- `TalkerAdvertise`, the members the controller reads. -/
structure TalkerAdvertise where
  streamId : UInt64
  sourceAddress : MACAddress
  destinationAddress : MACAddress
  vlanIdentifier : UInt16
  maxFrameSize : UInt16
  maxIntervalFrames : UInt16
  deriving DecidableEq, Repr

namespace TalkerAdvertise

/-- The stream `saveTalker` makes of an advertisement from the switch `swInfo`. -/
def stream (ta : TalkerAdvertise) (swInfo : SwitchInfo) : Stream where
  sid := ta.streamId
  vlanid := ta.vlanIdentifier
  talkerSwInfo := swInfo
  talker := ta.sourceAddress
  listener := ta.destinationAddress

/-- What `requestPathforTalker` reads off an advertisement and its stream. `memory` is what its
variable `dst_topo_index` holds when no host has the destination address. -/
def request (ta : TalkerAdvertise) (c : ControllerTables) (memory : ℕ) (st : Stream) : Request where
  srcTopoIndex := st.talkerSwInfo.topoIndex
  dstTopoIndex := ((c.hostProfileTable.find? (·.macAddress = ta.destinationAddress)).map
    HostProfile.connectedSwTopoIndex).getD memory
  vlan := ta.vlanIdentifier
  rate := 8 * ta.maxFrameSize.toNat / (ta.maxIntervalFrames.toNat * 1000)

end TalkerAdvertise

/-- A call of `configureDataPlane`: the demand it is for, and its arguments. -/
structure Accepted where
  demand : DemandTuple
  id : ℕ
  streamId : UInt64
  deriving DecidableEq, Repr

/-- The two controller applications, with the calls from one to the other, oldest first. -/
structure AdmissionState where
  opce : OPCE2
  engine : ConfigurationEngine
  accepted : List Accepted

/-- An advertisement, with what the memory and the solver hold ready for it, or an
acknowledgement of a rule. -/
inductive AdmissionEvent
  | talkerAdvertise (swInfo : SwitchInfo) (ta : TalkerAdvertise) (topoMemory : ℕ)
      (matchMemory : OxmBasicMatch) (answer : SolverAnswer)
  | ack (memory : UInt64) (matchVersion : UInt16) (sw : ℕ)

section
variable (c : ControllerTables) {t : Topology} (lib : Libraries t)

/-- `RequestHandlerControllerApp::receiveSignal` for an advertisement. The rate of one without
any frames in its interval is infinite and not modelled. -/
def receiveAdvertise (s : AdmissionState) (swInfo : SwitchInfo) (ta : TalkerAdvertise)
    (topoMemory : ℕ) (matchMemory : OxmBasicMatch) (answer : SolverAnswer) :
    Option AdmissionState := do
  let e := { s.engine with
    registeredStreams := s.engine.registeredStreams.insert ta.streamId (ta.stream swInfo) }
  let st ← e.registeredStreams[ta.streamId]?
  let r := ta.request c topoMemory st
  if ta.maxIntervalFrames ≠ 0 ∧ s.opce.possible lib r answer = true then
    match s.opce.requestPathforTalker lib r answer with
    | (opce, none) => return ⟨opce, e, s.accepted⟩
    | (opce, some (id, assignments)) =>
      let configured ← configureDataPlane c matchMemory e id ta.streamId assignments
      return ⟨opce, configured.engine, s.accepted ++ [⟨s.opce.demand r, id, ta.streamId⟩]⟩
  else none

/-- The runs of the two applications: advertisements, and acknowledgements in between. -/
def admissions : System AdmissionState AdmissionEvent where
  init s := ∃ isTaggingEnabled idleTimeout hardTimeout priority,
    s = ⟨.start, .start isTaggingEnabled idleTimeout hardTimeout priority, []⟩
  step
    | s, .talkerAdvertise swInfo ta topoMemory matchMemory answer =>
      receiveAdvertise c lib s swInfo ta topoMemory matchMemory answer
    | s, .ack memory matchVersion sw => do
      let (v, _) ← s.engine.versions.receiveAck c memory matchVersion sw
      return { s with engine := { s.engine with versions := v } }

/-- The talker and the listener of an advertisement hang on different switches, and its request
is clean. -/
def AdmissionOk (s : AdmissionState) : AdmissionEvent → Prop
  | .talkerAdvertise swInfo ta topoMemory _ answer =>
    let r := ta.request c topoMemory (ta.stream swInfo)
    r.srcTopoIndex ≠ r.dstTopoIndex ∧ Clean lib s.opce r answer
  | .ack _ _ _ => True

instance (s : AdmissionState) (e : AdmissionEvent) : Decidable (AdmissionOk c lib s e) := by
  cases e <;> unfold AdmissionOk <;> infer_instance

end

/-- The number of a demand is its position in the list of demands and the id under which the
configuration engine has its stream; the next number is new to the engine. -/
structure DemandIdentity (s : AdmissionState) : Prop where
  size : s.opce.demandIndex = s.opce.allDemands.length
  index : ∀ i (d : DemandTuple), s.opce.allDemands[i]? = some d → d.index = i
  demands : s.accepted.map Accepted.demand = s.opce.allDemands
  ids : ∀ i (call : Accepted), s.accepted[i]? = some call → call.id = i
  stored : ∀ call ∈ s.accepted, s.engine.demandtoStreamIdMap[(call.id : Int)]? = some call.streamId
  assignments : ∀ a ∈ s.opce.allAssignments, ∃ call, s.accepted[a.demandIndex]? = some call ∧
    s.engine.demandtoStreamIdMap[(a.demandIndex : Int)]? = some call.streamId
  fresh : ∀ call ∈ s.accepted, call.id < s.opce.demandIndex
  records : ∀ a ∈ s.engine.prevAssignments, a.demandIndex < s.opce.demandIndex

/-! ## One step -/

variable {c : ControllerTables} {t : Topology} {lib : Libraries t} {s s' : AdmissionState}

/-- A request between two switches changes the counters only, or adds its demand and passes on
the assignments. -/
theorem OPCE2.requestPathforTalker_cases {s : OPCE2} {r : Request} {answer : SolverAnswer}
    (hne : r.srcTopoIndex ≠ r.dstTopoIndex) :
    (∃ counters, s.requestPathforTalker lib r answer = ({ s with counters := counters }, none)) ∨
      ∃ counters assignments, s.requestPathforTalker lib r answer =
        (⟨s.demandIndex + 1, s.allDemands ++ [s.demand r], assignments, counters⟩,
          some (s.demandIndex, assignments)) := by
  have heq := @OPCE2.requestPathforTalker_of_ne _ lib s r answer hne
  by_cases hempty : (optimize lib (s.allDemands ++ [s.demand r]) s.assignmentPairs answer
      s.counters).2.getD [] = []
  · left
    rw [heq]
    exact ⟨_, if_neg (not_not.mpr hempty)⟩
  · right
    rw [heq]
    exact ⟨_, _, if_pos hempty⟩

theorem receiveAdvertise_eq_some {swInfo : SwitchInfo} {ta : TalkerAdvertise} {topoMemory : ℕ}
    {matchMemory : OxmBasicMatch} {answer : SolverAnswer}
    (h : receiveAdvertise c lib s swInfo ta topoMemory matchMemory answer = some s') :
    let e := { s.engine with
      registeredStreams := s.engine.registeredStreams.insert ta.streamId (ta.stream swInfo) }
    let r := ta.request c topoMemory (ta.stream swInfo)
    s.opce.possible lib r answer = true ∧
      ((∃ opce, s.opce.requestPathforTalker lib r answer = (opce, none) ∧
          s' = ⟨opce, e, s.accepted⟩) ∨
        ∃ opce id assignments configured,
          s.opce.requestPathforTalker lib r answer = (opce, some (id, assignments)) ∧
          configureDataPlane c matchMemory e id ta.streamId assignments = some configured ∧
          s' = ⟨opce, configured.engine, s.accepted ++ [⟨s.opce.demand r, id, ta.streamId⟩]⟩) := by
  obtain ⟨st, hst, h⟩ := Option.bind_eq_some_iff.mp h
  obtain rfl : ta.stream swInfo = st := by
    rw [getElem?_insert, if_pos rfl] at hst
    exact Option.some.inj hst
  dsimp only at h
  split_ifs at h with hpossible
  refine ⟨hpossible.2, ?_⟩
  cases hcall : s.opce.requestPathforTalker lib (ta.request c topoMemory (ta.stream swInfo))
      answer with
  | mk opce call =>
    rw [hcall] at h
    cases call with
    | none =>
      left
      exact ⟨opce, rfl, (Option.some.inj h).symm⟩
    | some call =>
      obtain ⟨id, assignments⟩ := call
      right
      obtain ⟨configured, hconfigured, h⟩ := Option.bind_eq_some_iff.mp h
      exact ⟨opce, id, assignments, configured, rfl, hconfigured, (Option.some.inj h).symm⟩

theorem DemandIdentity.length_accepted (h : DemandIdentity s) :
    s.accepted.length = s.opce.demandIndex := by
  rw [h.size, ← h.demands, List.length_map]

/-- A rejected request. -/
theorem DemandIdentity.rejected (h : DemandIdentity s) {streams : Std.TreeMap UInt64 Stream}
    {counters : Counters} :
    DemandIdentity ⟨{ s.opce with counters := counters },
      { s.engine with registeredStreams := streams }, s.accepted⟩ :=
  ⟨h.size, h.index, h.demands, h.ids, h.stored, h.assignments, h.fresh, h.records⟩

/-- An admitted request, whose assignments refer to the demands passed on. -/
theorem DemandIdentity.concat (h : DemandIdentity s) {r : Request} {sid : UInt64}
    {assignments : List Assignment} {counters : Counters} {e e' : ConfigurationEngine}
    (hmap : e.demandtoStreamIdMap = s.engine.demandtoStreamIdMap)
    (hprev : e.prevAssignments = s.engine.prevAssignments)
    (hassignments : ∀ a ∈ assignments, a.demandIndex < s.opce.demandIndex + 1)
    (hstored : Extends (e.demandtoStreamIdMap.insert s.opce.demandIndex sid)
      e'.demandtoStreamIdMap)
    (hrecords : ∀ a ∈ e'.prevAssignments,
      ∃ a' ∈ e.prevAssignments ++ assignments, a'.demandIndex = a.demandIndex) :
    DemandIdentity ⟨⟨s.opce.demandIndex + 1, s.opce.allDemands ++ [s.opce.demand r], assignments,
      counters⟩, e', s.accepted ++ [⟨s.opce.demand r, s.opce.demandIndex, sid⟩]⟩ := by
  set new : Accepted := ⟨s.opce.demand r, s.opce.demandIndex, sid⟩
  have hlength : (s.accepted ++ [new]).length = s.opce.demandIndex + 1 := by
    rw [List.length_append, h.length_accepted, List.length_singleton]
  have hids : ∀ i (call : Accepted), (s.accepted ++ [new])[i]? = some call → call.id = i := by
    intro i call hi
    rcases getElem?_concat_eq_some.mp hi with hi | ⟨rfl, rfl⟩
    · exact h.ids i call hi
    · exact h.length_accepted.symm
  -- the number of the new demand is fresh, so that the earlier ones keep their streams
  have hcalls : ∀ call ∈ s.accepted ++ [new],
      e'.demandtoStreamIdMap[(call.id : Int)]? = some call.streamId := by
    intro call hcall
    apply hstored
    rcases List.mem_append.mp hcall with hcall | hcall
    · have hlt := h.fresh call hcall
      rw [getElem?_insert, if_neg (by omega), hmap]
      exact h.stored call hcall
    · obtain rfl := List.mem_singleton.mp hcall
      rw [getElem?_insert, if_pos rfl]
  refine ⟨?_, ?_, ?_, hids, hcalls, ?_, ?_, ?_⟩
  · simp [h.size]
  · intro i d hd
    rcases getElem?_concat_eq_some.mp hd with hd | ⟨rfl, rfl⟩
    · exact h.index i d hd
    · exact h.size
  · simp [h.demands, new]
  · intro a ha
    have hlt := hassignments a ha
    rw [← hlength] at hlt
    have hget := List.getElem?_eq_getElem hlt
    have hcall := hcalls _ (List.mem_of_getElem? hget)
    rw [hids _ _ hget] at hcall
    exact ⟨_, hget, hcall⟩
  · intro call hcall
    rcases List.mem_append.mp hcall with hcall | hcall
    · exact (h.fresh call hcall).trans (Nat.lt_succ_self _)
    · obtain rfl := List.mem_singleton.mp hcall
      exact Nat.lt_succ_self _
  · intro a ha
    obtain ⟨a', ha', hindex⟩ := hrecords a ha
    rw [← hindex]
    rcases List.mem_append.mp ha' with ha' | ha'
    · rw [hprev] at ha'
      exact (h.records a' ha').trans (Nat.lt_succ_self _)
    · exact hassignments a' ha'

/-! ## Whole runs -/

/-- What holds in runs of clean requests between different switches. -/
structure Admitted (lib : Libraries t) (s : AdmissionState) : Prop where
  regular : Regular lib s.opce
  identity : DemandIdentity s

theorem Admitted.init (h : (admissions c lib).init s) : Admitted lib s := by
  obtain ⟨isTaggingEnabled, idleTimeout, hardTimeout, priority, rfl⟩ := h
  constructor
  · exact ⟨rfl, by simp [OPCE2.start], by simp [OPCE2.start], by simp [OPCE2.start]⟩
  · constructor <;> simp [OPCE2.start, ConfigurationEngine.start]

theorem Admitted.step {e : AdmissionEvent} (h : Admitted lib s) (hok : AdmissionOk c lib s e)
    (hs : (admissions c lib).step s e = some s') : Admitted lib s' := by
  cases e with
  | ack memory matchVersion sw =>
    obtain ⟨⟨v, messages⟩, -, hs⟩ := Option.bind_eq_some_iff.mp hs
    obtain rfl := Option.some.inj hs
    have hi := h.identity
    exact ⟨h.regular, ⟨hi.size, hi.index, hi.demands, hi.ids, hi.stored, hi.assignments, hi.fresh,
      hi.records⟩⟩
  | talkerAdvertise swInfo ta topoMemory matchMemory answer =>
    obtain ⟨hne, hclean⟩ := hok
    obtain ⟨hpossible, hcases⟩ := receiveAdvertise_eq_some hs
    obtain ⟨hregular, -, -⟩ := h.regular.request hclean hpossible
    rcases @OPCE2.requestPathforTalker_cases _ lib s.opce _ answer hne with
      ⟨counters, heq⟩ | ⟨counters, assignments, heq⟩
    · rw [heq] at hregular hcases
      rcases hcases with ⟨opce, hopce, rfl⟩ | ⟨opce, id, assignments, configured, hopce, -⟩
      · obtain rfl := (Prod.mk.inj hopce).1
        exact ⟨hregular, h.identity.rejected⟩
      · cases (Prod.mk.inj hopce).2
    · rw [heq] at hregular hcases
      rcases hcases with ⟨opce, hopce, -⟩ | ⟨opce, id, assignments', configured, hopce, hcall, rfl⟩
      · cases (Prod.mk.inj hopce).2
      · obtain ⟨rfl, hcall'⟩ := Prod.mk.inj hopce
        obtain ⟨rfl, rfl⟩ := Prod.mk.inj (Option.some.inj hcall')
        obtain ⟨hstored, hrecords⟩ := configureDataPlane_stored (by omega) hcall
        refine ⟨hregular, h.identity.concat rfl rfl (fun a ha => ?_) hstored hrecords⟩
        have hlt := (hregular.assignments a ha).1
        rw [List.length_append, List.length_singleton, ← h.identity.size] at hlt
        exact hlt

/-- **Demand identity**: in every run of clean requests between different switches the two
applications and the optimiser mean the same demand by a number. -/
theorem demandIdentity_of_reachableUnder
    (h : (admissions c lib).ReachableUnder (AdmissionOk c lib) s) : DemandIdentity s := by
  have hadmitted : Admitted lib s :=
    h.invariant (fun _ => .init) fun _ _ _ _ hP hok hs => hP.step hok hs
  exact hadmitted.identity

/-- The advertisement of a stream for the host with the address `listener`, from a host on the
switch `swInfo`. -/
def sampleAdvertise (sid : UInt64) (listener : MACAddress) (swInfo : SwitchInfo)
    (answer : SolverAnswer) : AdmissionEvent :=
  .talkerAdvertise swInfo ⟨sid, 1, listener, 0, 1250, 1⟩ 0 .zero answer

def admissionStart : AdmissionState := ⟨.start, .start true 0 0 0, []⟩

theorem demandIdentity_of_reachableUnder_sample : ∃ s,
    (admissions sampleTables (.reference GD.twoNodes)).ReachableUnder
      (AdmissionOk sampleTables (.reference GD.twoNodes)) s ∧
    s.accepted = [⟨⟨0, 0, 1, 0, 10, 7⟩, 0, 7⟩] ∧ DemandIdentity s := by
  have hrun : (((admissions sampleTables (.reference GD.twoNodes)).runUnder
      (AdmissionOk sampleTables (.reference GD.twoNodes)) admissionStart
      [sampleAdvertise 7 2 ⟨0⟩ (.solution GD.sampleValuation), .ack 0 1 0]).any fun s =>
        decide (s.accepted = [⟨⟨0, 0, 1, 0, 10, 7⟩, 0, 7⟩])) = true := by
    decide +kernel
  obtain ⟨s, hs, haccepted⟩ := (Option.any_eq_true _ _).mp hrun
  have hinit : (admissions sampleTables (.reference GD.twoNodes)).init admissionStart :=
    ⟨true, 0, 0, 0, rfl⟩
  have hreachable := System.ReachableUnder.run (.init hinit) hs
  exact ⟨s, hreachable, of_decide_eq_true haccepted, demandIdentity_of_reachableUnder hreachable⟩

/-- A stream between hosts on switch 1 takes the number 0 and gives it to no demand. The next
stream is stored under 1, while its assignment has the index 0. -/
theorem sameSwitch_not_demandIdentity : ∃ s,
    (admissions sampleTables (.reference GD.twoNodes)).Reachable s ∧
      s.opce.demandIndex = 2 ∧ s.opce.allDemands.length = 1 ∧
      s.accepted.map Accepted.id = [1] ∧ s.opce.allAssignments.map Assignment.demandIndex = [0] ∧
      s.engine.demandtoStreamIdMap[(0 : Int)]? = none ∧ ¬DemandIdentity s := by
  have hrun : (((admissions sampleTables (.reference GD.twoNodes)).runFrom admissionStart
      [sampleAdvertise 6 2 ⟨1⟩ .noSolution,
        sampleAdvertise 7 2 ⟨0⟩ (.solution GD.sampleValuation)]).any fun s =>
        decide (s.opce.demandIndex = 2 ∧ s.opce.allDemands.length = 1 ∧
          s.accepted.map Accepted.id = [1] ∧
          s.opce.allAssignments.map Assignment.demandIndex = [0] ∧
          s.engine.demandtoStreamIdMap[(0 : Int)]? = none)) = true := by
    decide +kernel
  obtain ⟨s, hs, hstate⟩ := (Option.any_eq_true _ _).mp hrun
  obtain ⟨hindex, hlength, hids, hassignments, hmap⟩ := of_decide_eq_true hstate
  refine ⟨s, System.reachable_of_runFrom ⟨true, 0, 0, 0, rfl⟩ hs, hindex, hlength, hids,
    hassignments, hmap, fun h => ?_⟩
  have hsize := h.size
  rw [hindex, hlength] at hsize
  cases hsize

end TsnReconfig.Opt
