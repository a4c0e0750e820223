import TsnReconfig.Opt.Admission

/-!
# Streams advertised again

The controller does not look whether it has a demand of the stream of an advertisement
already.
-/

namespace TsnReconfig.Opt
open Lib OpenFlow Controller

section
variable (c : ControllerTables) {t : Topology} (lib : Libraries t)

/-- The rules `configureDataPlane` sends for an advertisement. -/
def rulesSent (s : AdmissionState) : AdmissionEvent → List Rule
  | .talkerAdvertise swInfo ta topoMemory matchMemory answer =>
    let e := { s.engine with
      registeredStreams := s.engine.registeredStreams.insert ta.streamId (ta.stream swInfo) }
    let r := ta.request c topoMemory (ta.stream swInfo)
    match (s.opce.requestPathforTalker lib r answer).2 with
    | none => []
    | some (id, assignments) =>
      (configureDataPlane c matchMemory e id ta.streamId assignments).elim [] fun configured =>
        configured.installs.flatMap Install.rules
  | .ack _ _ _ => []

/-- The advertisement of a stream with an accepted demand. -/
def Repeats (s : AdmissionState) : AdmissionEvent → Prop
  | .talkerAdvertise _ ta _ _ _ => ta.streamId ∈ s.accepted.map Accepted.streamId
  | .ack _ _ _ => False

/-- The demands, what the next model has of them, and the rules stay as they are. -/
structure Idempotent (s : AdmissionState) (e : AdmissionEvent) (s' : AdmissionState) : Prop where
  demands : s'.opce.allDemands = s.opce.allDemands
  pairs : s'.opce.assignmentPairs = s.opce.assignmentPairs
  accepted : s'.accepted = s.accepted
  rules : rulesSent c lib s e = []

/-- The demands in the model are those of the accepted streams, one for each stream. -/
structure ChargedOnce (s : AdmissionState) : Prop where
  demands : s.opce.allDemands = s.accepted.map Accepted.demand
  once : (s.accepted.map Accepted.streamId).Nodup

/-- A stream with an accepted demand is advertised again only between hosts of one switch, or
when the optimiser has no assignments for the demands with one more of this stream. -/
def RepeatOk (s : AdmissionState) : AdmissionEvent → Prop
  | .talkerAdvertise swInfo ta topoMemory _ answer =>
    let r := ta.request c topoMemory (ta.stream swInfo)
    ta.streamId ∈ s.accepted.map Accepted.streamId → r.srcTopoIndex = r.dstTopoIndex ∨
      (optimize lib (s.opce.allDemands ++ [s.opce.demand r]) s.opce.assignmentPairs answer
        s.opce.counters).2.getD [] = []
  | .ack _ _ _ => True

end

variable {c : ControllerTables} {t : Topology} {lib : Libraries t} {s s' : AdmissionState}

/-! ## One advertisement -/

/-- The demand is added exactly when its request is between two switches and the optimiser has
assignments. -/
theorem OPCE2.requestPathforTalker_eq_none_iff {s : OPCE2} {r : Request} {answer : SolverAnswer} :
    (s.requestPathforTalker lib r answer).2 = none ↔ r.srcTopoIndex = r.dstTopoIndex ∨
      (optimize lib (s.allDemands ++ [s.demand r]) s.assignmentPairs answer s.counters).2.getD []
        = [] := by
  by_cases heq : r.srcTopoIndex = r.dstTopoIndex
  · simp [OPCE2.requestPathforTalker_of_eq heq, heq]
  · rw [OPCE2.requestPathforTalker_of_ne heq, or_iff_right heq]
    split_ifs with hempty
    · simp [hempty]
    · simp [not_not.mp hempty]

/-- A request without assignments leaves the demands and assignments alone. -/
theorem OPCE2.requestPathforTalker_of_none {s : OPCE2} {r : Request} {answer : SolverAnswer}
    (h : (s.requestPathforTalker lib r answer).2 = none) :
    (s.requestPathforTalker lib r answer).1.allDemands = s.allDemands ∧
      (s.requestPathforTalker lib r answer).1.allAssignments = s.allAssignments := by
  by_cases heq : r.srcTopoIndex = r.dstTopoIndex
  · simp [OPCE2.requestPathforTalker_of_eq heq]
  · rcases @OPCE2.requestPathforTalker_cases _ lib s r answer heq with
      ⟨counters, hcall⟩ | ⟨counters, assignments, hcall⟩
    · simp [hcall]
    · rw [hcall] at h
      cases h

theorem OPCE2.requestPathforTalker_of_some {s opce : OPCE2} {r : Request} {answer : SolverAnswer}
    {call : ℕ × List Assignment} (h : s.requestPathforTalker lib r answer = (opce, some call)) :
    opce.allDemands = s.allDemands ++ [s.demand r] := by
  by_cases heq : r.srcTopoIndex = r.dstTopoIndex
  · rw [OPCE2.requestPathforTalker_of_eq heq] at h
    cases (Prod.mk.inj h).2
  · rcases @OPCE2.requestPathforTalker_cases _ lib s r answer heq with
      ⟨counters, hcall⟩ | ⟨counters, assignments, hcall⟩
    · cases (Prod.mk.inj (hcall.symm.trans h)).2
    · rw [← (Prod.mk.inj (hcall.symm.trans h)).1]

theorem idempotent_iff {e : AdmissionEvent} (hrepeats : Repeats s e)
    (hs : (admissions c lib).step s e = some s') :
    Idempotent c lib s e s' ↔ RepeatOk c lib s e := by
  cases e with
  | ack memory matchVersion sw => exact hrepeats.elim
  | talkerAdvertise swInfo ta topoMemory matchMemory answer =>
    obtain ⟨-, hcases⟩ := receiveAdvertise_eq_some hs
    have hiff := @OPCE2.requestPathforTalker_eq_none_iff _ lib s.opce
      (ta.request c topoMemory (ta.stream swInfo)) answer
    have hok : RepeatOk c lib s (.talkerAdvertise swInfo ta topoMemory matchMemory answer) ↔
        (s.opce.requestPathforTalker lib (ta.request c topoMemory (ta.stream swInfo)) answer).2 =
          none := by
      rw [hiff]
      exact ⟨fun hok => hok hrepeats, fun hnone _ => hnone⟩
    rw [hok]
    rcases hcases with ⟨opce, hcall, rfl⟩ | ⟨opce, id, assignments, configured, hcall, -, rfl⟩
    · have hnone : (s.opce.requestPathforTalker lib
          (ta.request c topoMemory (ta.stream swInfo)) answer).2 = none := by
        rw [hcall]
      obtain ⟨hdemands, hassignments⟩ := OPCE2.requestPathforTalker_of_none hnone
      rw [hcall] at hdemands hassignments
      refine iff_of_true ⟨hdemands, ?_, rfl, ?_⟩ hnone
      · exact congrArg (List.map fun a : Assignment => (a.demandIndex, a.pathIndex)) hassignments
      · simp only [rulesSent, hnone]
    · rw [hcall]
      refine iff_of_false (fun h => ?_) (by simp)
      have hlength := congrArg List.length h.accepted
      simp at hlength

/-! ## Whole runs -/

theorem ChargedOnce.init (h : (admissions c lib).init s) : ChargedOnce s := by
  obtain ⟨isTaggingEnabled, idleTimeout, hardTimeout, priority, rfl⟩ := h
  exact ⟨rfl, List.nodup_nil⟩

theorem ChargedOnce.step {e : AdmissionEvent} (h : ChargedOnce s) (hok : RepeatOk c lib s e)
    (hs : (admissions c lib).step s e = some s') : ChargedOnce s' := by
  cases e with
  | ack memory matchVersion sw =>
    obtain ⟨⟨v, messages⟩, -, hs⟩ := Option.bind_eq_some_iff.mp hs
    obtain rfl := Option.some.inj hs
    exact ⟨h.demands, h.once⟩
  | talkerAdvertise swInfo ta topoMemory matchMemory answer =>
    obtain ⟨-, hcases⟩ := receiveAdvertise_eq_some hs
    have hiff := @OPCE2.requestPathforTalker_eq_none_iff _ lib s.opce
      (ta.request c topoMemory (ta.stream swInfo)) answer
    rcases hcases with ⟨opce, hcall, rfl⟩ | ⟨opce, id, assignments, configured, hcall, -, rfl⟩
    · have hdemands := (OPCE2.requestPathforTalker_of_none (by rw [hcall])).1
      rw [hcall] at hdemands
      exact ⟨hdemands.trans h.demands, h.once⟩
    · constructor
      · rw [List.map_append, ← h.demands]
        exact OPCE2.requestPathforTalker_of_some hcall
      · rw [List.map_append, List.map_singleton]
        refine h.once.append (List.nodup_singleton _) (List.disjoint_singleton.mpr fun hmem => ?_)
        have hnone := hiff.mpr (hok hmem)
        rw [hcall] at hnone
        cases hnone

/-- **One demand for each stream**: as long as no stream is advertised again and gets another
path, every stream is in the model once. An advertisement of a stream with a demand changes
nothing exactly when it meets the condition. -/
theorem chargedOnce_of_reachableUnder
    (h : (admissions c lib).ReachableUnder (RepeatOk c lib) s) :
    ChargedOnce s ∧ ∀ e s', Repeats s e → (admissions c lib).step s e = some s' →
      (Idempotent c lib s e s' ↔ RepeatOk c lib s e) := by
  refine ⟨?_, fun e s' => idempotent_iff⟩
  exact h.invariant (fun _ => .init) fun _ _ _ _ hP hok hs => hP.step hok hs

/-- The second model has no solution. -/
theorem chargedOnce_of_reachableUnder_sample : ∃ s s',
    (admissions sampleTables (.reference GD.twoNodes)).runFrom admissionStart
      [sampleAdvertise 7 2 ⟨0⟩ (.solution GD.sampleValuation)] = some s ∧
    s.accepted.length = 1 ∧ ChargedOnce s ∧
    (admissions sampleTables (.reference GD.twoNodes)).step s
      (sampleAdvertise 7 2 ⟨0⟩ .noSolution) = some s' ∧
    Idempotent sampleTables (.reference GD.twoNodes) s (sampleAdvertise 7 2 ⟨0⟩ .noSolution)
      s' := by
  have hrun : ((admissions sampleTables (.reference GD.twoNodes)).runFrom admissionStart
      [sampleAdvertise 7 2 ⟨0⟩ (.solution GD.sampleValuation)]).any fun s =>
      decide (s.accepted.map Accepted.streamId = [7]) &&
        ((admissions sampleTables (.reference GD.twoNodes)).step s
          (sampleAdvertise 7 2 ⟨0⟩ .noSolution)).isSome := by
    decide +kernel
  obtain ⟨s, hs, hfacts⟩ := (Option.any_eq_true _ _).mp hrun
  obtain ⟨hids, hstep⟩ := (Bool.and_eq_true _ _).mp hfacts
  have hids := of_decide_eq_true hids
  obtain ⟨s', hs'⟩ := Option.isSome_iff_exists.mp hstep
  obtain ⟨s₁, hs₁, h⟩ := Option.bind_eq_some_iff.mp hs
  obtain rfl := Option.some.inj h
  have hfirst : RepeatOk sampleTables (.reference GD.twoNodes) admissionStart
      (sampleAdvertise 7 2 ⟨0⟩ (.solution GD.sampleValuation)) := by
    intro hmem
    cases hmem
  have hreach : (admissions sampleTables (.reference GD.twoNodes)).ReachableUnder
      (RepeatOk sampleTables (.reference GD.twoNodes)) s₁ :=
    .step (.init ⟨true, 0, 0, 0, rfl⟩) hfirst hs₁
  obtain ⟨honce, hrepeated⟩ := chargedOnce_of_reachableUnder hreach
  have hmem : Repeats s₁ (sampleAdvertise 7 2 ⟨0⟩ .noSolution) := by
    show (7 : UInt64) ∈ s₁.accepted.map Accepted.streamId
    rw [hids]
    exact List.mem_singleton_self 7
  have hnone : ∀ (demands : List DemandTuple) (A : List (ℕ × ℕ)) (counters : Counters),
      (optimize (.reference GD.twoNodes) demands A .noSolution counters).2.getD [] = [] := by
    intro demands A counters
    unfold optimize
    cases GD.build (.reference GD.twoNodes) demands A counters with
    | mk counters p =>
      cases p with
      | none => rfl
      | some p => cases hm : p.addConstraints <;> simp [hm]
  refine ⟨s₁, s', hs, ?_, honce, hs', (hrepeated _ _ hmem hs').mpr fun _ => .inr (hnone _ _ _)⟩
  simpa using congrArg List.length hids

/-- Both demands on the one path. -/
def twiceValuation (i : ℕ) : ℚ := if i ∈ [0, 1, 2, 10, 18, 19] then 1 else 0

/-- The same advertisement twice: the link is charged for the stream twice. -/
theorem readvertised_not_chargedOnce : ∃ s,
    (admissions sampleTables (.reference GD.twoNodes)).Reachable s ∧
      s.accepted.map Accepted.streamId = [7, 7] ∧
      s.opce.allDemands = [⟨0, 0, 1, 0, 10, 7⟩, ⟨1, 0, 1, 0, 10, 7⟩] ∧ ¬ChargedOnce s := by
  have hrun : ((admissions sampleTables (.reference GD.twoNodes)).runFrom admissionStart
      [sampleAdvertise 7 2 ⟨0⟩ (.solution GD.sampleValuation),
        sampleAdvertise 7 2 ⟨0⟩ (.solution twiceValuation)]).any fun s =>
      decide (s.accepted.map Accepted.streamId = [7, 7] ∧
        s.opce.allDemands = [⟨0, 0, 1, 0, 10, 7⟩, ⟨1, 0, 1, 0, 10, 7⟩]) := by
    decide +kernel
  obtain ⟨s, hs, hfacts⟩ := (Option.any_eq_true _ _).mp hrun
  obtain ⟨hids, hdemands⟩ := of_decide_eq_true hfacts
  refine ⟨s, System.reachable_of_runFrom ⟨true, 0, 0, 0, rfl⟩ hs, hids, hdemands, fun h => ?_⟩
  have honce := h.once
  rw [hids] at honce
  simp at honce

end TsnReconfig.Opt
