import Mathlib.Data.List.Nodup
import TsnReconfig.Controller.VersionBookkeeping

/-!
# Acknowledgements nobody waits for

The runs of the engine with a record of every acknowledgement it handled. One that is not
awaited should leave the tables as they are; the last one of a version should lead to the
only `ActivationMessage` for it.
-/

namespace TsnReconfig.Controller
open OpenFlow Lib

/-! ## The acknowledgements of a run -/

/-- An acknowledgement with the tables before and after it and the messages it led to. -/
structure AckRecord where
  before : VersionTables
  matchVersion : UInt16
  sw : ℕ
  after : VersionTables
  messages : List (SwitchInfo × ToSwitch)

structure AckState where
  run : EngineState
  acks : List AckRecord

def ackStep (c : ControllerTables) (s : AckState) (ev : EngineEvent) : Option AckState := do
  let run ← engineStep c s.run ev
  match ev with
  | .ack memory matchVersion sw =>
    let before := s.run.engine.versions
    let (after, messages) ← before.receiveAck c memory matchVersion sw
    return ⟨run, ⟨before, matchVersion, sw, after, messages⟩ :: s.acks⟩
  | _ => return ⟨run, s.acks⟩

/-- The engine with tagging enabled or not. -/
def ackRuns (c : ControllerTables) : System AckState EngineEvent where
  init s := ∃ isTaggingEnabled idleTimeout hardTimeout priority,
    s = ⟨⟨.start isTaggingEnabled idleTimeout hardTimeout priority, []⟩, []⟩
  step := ackStep c

/-- The version an `ActivationMessage` is for. -/
def activationOf : ToSwitch → Option UInt16
  | .packetOut (.activationMessage matchVersion _) => some matchVersion
  | _ => none

/-- The versions for which an `ActivationMessage` went out. -/
def activated (acks : List AckRecord) : List UInt16 :=
  acks.flatMap fun a => a.messages.filterMap fun m => activationOf m.2

/-! ## What is expected of them -/

namespace VersionTables

/-- The version `w` waits for the acknowledgement of the switch `sw`. -/
def Awaits (v : VersionTables) (w : UInt16) (sw : ℕ) : Prop :=
  ∃ path, v.ackWaitingPaths[w]? = some path ∧ sw ∈ path

structure SameTables (v v' : VersionTables) : Prop where
  streamFlowVersionTable : ∀ sid : UInt64,
    v'.streamFlowVersionTable[sid]? = v.streamFlowVersionTable[sid]?
  ackWaitingPaths : ∀ w : UInt16, v'.ackWaitingPaths[w]? = v.ackWaitingPaths[w]?
  ingressSwTable : ∀ w : UInt16, v'.ingressSwTable[w]? = v.ingressSwTable[w]?

end VersionTables

/-- An acknowledgement nobody waits for changes and sends nothing, and what is sent is the
activation of its version for a stream that waits for it. -/
structure HandledRight (a : AckRecord) : Prop where
  harmless : ¬ a.before.Awaits a.matchVersion a.sw → a.before.SameTables a.after ∧ a.messages = []
  names : ∀ m ∈ a.messages, a.matchVersion ≠ 0 ∧ ∃ sid, a.before.Pending sid a.matchVersion ∧
    m.2 = .packetOut (.activationMessage a.matchVersion sid)

/-- Every acknowledgement was handled right and no version was activated twice. -/
def AcksRight (s : AckState) : Prop :=
  (∀ a ∈ s.acks, HandledRight a) ∧ (activated s.acks).Nodup

/-! ## When they are met -/

/-- The version waits for acknowledgements, and for others than that of the switch unless a
stream waits for the version. -/
def AckOk (v : VersionTables) (w : UInt16) (sw : ℕ) : Prop :=
  w ∈ v.ackWaitingPaths ∧
    ((∃ sw' ∈ v.ackWaitingPaths.getD w [], sw' ≠ sw) ∨ w ≠ 0 ∧ ∃ sid, v.Pending sid w)

/-- The condition on an event: the numbers a call may give out were not activated before. -/
def AckEventOk (s : AckState) : EngineEvent → Prop
  | .saveTalker _ => True
  | .configureDataPlane _ demandid sid newAssignments =>
    ∀ j < (callTargets s.run.engine demandid sid newAssignments).length,
      s.run.engine.versions.ofMatchVersionNumber + .ofNat j ∉ activated s.acks
  | .ack _ matchVersion sw => AckOk s.run.engine.versions matchVersion sw

/-! ## One acknowledgement -/

/-- No version waits for an empty path. -/
def PathsNonempty (v : VersionTables) : Prop :=
  ∀ (w : UInt16) (path : List ℕ), v.ackWaitingPaths[w]? = some path → path ≠ []

section Ack
variable {c : ControllerTables} {v v' : VersionTables} {memory : UInt64} {w : UInt16} {sw : ℕ}
  {messages : List (SwitchInfo × ToSwitch)}

theorem pathsNonempty_ack (hv : PathsNonempty v)
    (h : v.receiveAck c memory w sw = some (v', messages)) : PathsNonempty v' := by
  intro x path hx
  rcases receiveAck_eq_some h with ⟨old, -, hne, -, rfl⟩ | ⟨-, u, info, message, hu, -, rfl⟩
  · simp only [getElem?_insert] at hx
    split_ifs at hx
    · obtain rfl := Option.some.inj hx
      exact hne
    · exact hv x path hx
  · rw [getElem?_erase] at hx
    split_ifs at hx
    exact hv x path hx

/-- An acknowledgement is handled right exactly under the condition. -/
theorem handledRight_of_ack (hv : PathsNonempty v)
    (h : v.receiveAck c memory w sw = some (v', messages)) :
    HandledRight ⟨v, w, sw, v', messages⟩ ↔ AckOk v w sw := by
  rcases receiveAck_eq_some h with
    ⟨path, hpath, hne, rfl, rfl⟩ | ⟨hlast, u, info, message, hu, rfl, rfl⟩
  · obtain ⟨sw', hsw'⟩ := List.exists_mem_of_ne_nil _ hne
    -- another switch is still waited for, so that the message changes nothing it should not
    have hothers : ∃ sw' ∈ path, sw' ≠ sw := ⟨sw', by simpa using hsw'⟩
    have hmem : w ∈ v.ackWaitingPaths := by simp [Std.TreeMap.mem_iff_isSome_getElem?, hpath]
    refine iff_of_true ⟨fun hnot => ⟨⟨fun _ => rfl, ?_, fun _ => rfl⟩, rfl⟩, by simp⟩ ?_
    · intro x
      have hsame : path.filter (· != sw) = path := by
        refine List.filter_eq_self.mpr fun a ha => ?_
        have : a ≠ sw := by
          rintro rfl
          exact hnot ⟨path, hpath, ha⟩
        simpa using this
      rw [getElem?_insert, hsame]
      split_ifs with hx
      · rw [hx, hpath]
      · rfl
    · exact ⟨hmem, .inl (by simpa [Std.TreeMap.getD_eq_getD_getElem?, hpath] using hothers)⟩
  · have honly : ¬ ∃ sw' ∈ v.ackWaitingPaths.getD w [], sw' ≠ sw := by
      rintro ⟨sw', hmem, hsw'⟩
      simpa using (List.filter_eq_nil_iff.mp hlast) sw' hmem <| by simpa using hsw'
    constructor
    · intro hr
      have hawaits : v.Awaits w sw := by
        by_contra hnot
        simpa using (hr.harmless hnot).2
      obtain ⟨path, hpath, -⟩ := hawaits
      obtain ⟨hw, sid, hp, -⟩ := hr.names _ (List.mem_singleton_self _)
      refine ⟨?_, .inr ⟨hw, sid, hp⟩⟩
      simp [Std.TreeMap.mem_iff_isSome_getElem?, hpath]
    · rintro ⟨hmem, hothers⟩
      obtain ⟨hw, sid, hp⟩ := hothers.resolve_left honly
      refine ⟨fun hnot => absurd ?_ hnot, ?_⟩
      · rw [Std.TreeMap.mem_iff_isSome_getElem?] at hmem
        obtain ⟨path, hpath⟩ := Option.isSome_iff_exists.mp hmem
        obtain ⟨a, ha⟩ := List.exists_mem_of_ne_nil _ (hv w path hpath)
        have hsw : a = sw := by
          by_contra hne
          exact honly ⟨a, by simpa [Std.TreeMap.getD_eq_getD_getElem?, hpath] using ha, hne⟩
        exact ⟨path, hpath, hsw ▸ ha⟩
      · intro m hm
        obtain rfl := List.mem_singleton.mp hm
        obtain ⟨-, -, ⟨sid', hp', hmessage, -⟩ | ⟨hnone, -, -⟩⟩ := activateMatchVersion_eq_some hu
        · exact ⟨hw, sid', hp', hmessage⟩
        · exact absurd hp (hnone sid)

/-- The versions that still wait after an acknowledgement, and the one it activated. -/
theorem waiting_ack (hok : AckOk v w sw)
    (h : v.receiveAck c memory w sw = some (v', messages)) :
    (messages = [] ∧ ∀ x, x ∈ v'.ackWaitingPaths ↔ x ∈ v.ackWaitingPaths) ∨
      (messages.filterMap fun m => activationOf m.2) = [w] ∧ w ≠ 0 ∧
        ∀ x, x ∈ v'.ackWaitingPaths ↔ x ≠ w ∧ x ∈ v.ackWaitingPaths := by
  rcases receiveAck_eq_some h with
    ⟨path, hpath, hne, rfl, rfl⟩ | ⟨hlast, u, info, message, hu, rfl, rfl⟩
  · refine .inl ⟨rfl, fun x => ?_⟩
    rw [mem_insert]
    refine ⟨?_, .inr⟩
    rintro (rfl | hx)
    · exact hok.1
    · exact hx
  · have hw : w ≠ 0 := by
      rcases hok.2 with ⟨sw', hmem, hsw'⟩ | ⟨hw, -⟩
      · have := (List.filter_eq_nil_iff.mp hlast) sw' hmem
        simp [hsw'] at this
      · exact hw
    refine .inr ⟨?_, hw, fun x => mem_erase⟩
    obtain ⟨-, -, ⟨sid, -, rfl, -⟩ | ⟨-, rfl, -⟩⟩ := activateMatchVersion_eq_some hu <;> rfl

end Ack

/-! ## A call -/

section Call
variable {c : ControllerTables} {v v' : VersionTables}

/-- An installation moves the counter on by one or leaves it. -/
theorem counter_install (sid : UInt64) (path : List ℕ) (ingress : Int) :
    (v.install sid path ingress).ofMatchVersionNumber = v.ofMatchVersionNumber ∨
      (v.install sid path ingress).ofMatchVersionNumber = v.ofMatchVersionNumber + 1 := by
  simp only [install_eq_with, VersionTables.addMatchVersiontoStream]
  split_ifs
  · exact .inl rfl
  · split
    · exact .inr rfl
    · split_ifs
      · exact .inr rfl
      · exact .inl rfl

theorem ackWaitingPaths_install (sid : UInt64) (path : List ℕ) (ingress : Int) :
    (v.install sid path ingress).ackWaitingPaths =
      v.ackWaitingPaths.insert v.matchVersion path := by
  rw [install_eq_with]

theorem matchVersion_eq (v : VersionTables) :
    v.matchVersion = 0 ∨ v.matchVersion = v.ofMatchVersionNumber := by
  unfold VersionTables.matchVersion
  split_ifs
  · exact .inr rfl
  · exact .inl rfl

/-- Only versions that waited before, zero and the numbers from the counter on wait after a
chain of installations. -/
theorem waiting_chain {is : List Install} (hc : InstallChain c v is v') {w : UInt16}
    (hw : w ∈ v'.ackWaitingPaths) :
    w ∈ v.ackWaitingPaths ∨ w = 0 ∨
      ∃ j < is.length, w = v.ofMatchVersionNumber + .ofNat j := by
  induction hc with
  | nil => exact .inl hw
  | cons hi _ ih =>
    obtain ⟨k, node, -, -, rfl⟩ := hi.tables
    rcases ih hw with hmem | hzero | ⟨j, hj, rfl⟩
    · rw [ackWaitingPaths_install, mem_insert] at hmem
      rcases hmem with rfl | hmem
      · rcases matchVersion_eq _ with hzero | hcounter
        · exact .inr (.inl hzero)
        · exact .inr (.inr ⟨0, by simp, by simpa using hcounter⟩)
      · exact .inl hmem
    · exact .inr (.inl hzero)
    · refine .inr (.inr ?_)
      rcases counter_install _ _ _ with hcounter | hcounter <;> rw [hcounter]
      · exact ⟨j, by simp; omega, rfl⟩
      · exact ⟨j + 1, by simpa using hj, add_one_add_ofNat _ j⟩

theorem pathsNonempty_chain {is : List Install} (hc : InstallChain c v is v')
    (hv : PathsNonempty v) : PathsNonempty v' := by
  induction hc with
  | nil => exact hv
  | cons hi _ ih =>
    refine ih fun w path hw => ?_
    obtain ⟨k, node, hk, -, rfl⟩ := hi.tables
    rw [ackWaitingPaths_install, getElem?_insert] at hw
    split_ifs at hw
    · obtain rfl := Option.some.inj hw
      rintro hnil
      simp [hnil] at hk
    · exact hv w path hw

end Call

/-! ## Whole runs -/

variable {c : ControllerTables}

/-- What a step on an acknowledgement does. -/
theorem ackStep_ack_eq_some {s s' : AckState} {memory : UInt64} {w : UInt16} {sw : ℕ}
    (hs : ackStep c s (.ack memory w sw) = some s') :
    ∃ v messages, s.run.engine.versions.receiveAck c memory w sw = some (v, messages) ∧
      s'.run.engine.versions = v ∧
      s'.acks = ⟨s.run.engine.versions, w, sw, v, messages⟩ :: s.acks := by
  obtain ⟨run, hrun, hs⟩ := Option.bind_eq_some_iff.mp hs
  obtain ⟨⟨after, messages⟩, ha, hs⟩ := Option.bind_eq_some_iff.mp hs
  obtain ⟨⟨v, sent⟩, hv, hrun⟩ := Option.bind_eq_some_iff.mp hrun
  obtain ⟨rfl, rfl⟩ := Prod.mk.inj (Option.some.inj (hv.symm.trans ha))
  obtain rfl := Option.some.inj hrun
  obtain rfl := Option.some.inj hs
  exact ⟨v, sent, ha, rfl, rfl⟩

theorem ackStep_call_eq_some {s s' : AckState} {memory : OxmBasicMatch} {demandid : Int}
    {sid : UInt64} {assignments : List Assignment}
    (hs : ackStep c s (.configureDataPlane memory demandid sid assignments) = some s') :
    ∃ installs : List Install,
      InstallChain c s.run.engine.versions installs s'.run.engine.versions ∧
      installs.length = (callTargets s.run.engine demandid sid assignments).length ∧
      s'.acks = s.acks := by
  obtain ⟨run, hrun, hs⟩ := Option.bind_eq_some_iff.mp hs
  obtain rfl := Option.some.inj hs
  obtain ⟨r, hr, hrun⟩ := Option.bind_eq_some_iff.mp hrun
  obtain rfl := Option.some.inj hrun
  obtain ⟨hchain, htargets, -⟩ := configureDataPlane_eq_some hr
  exact ⟨r.installs, hchain, by rw [← htargets, List.length_map], rfl⟩

theorem ackStep_saveTalker_eq_some {s s' : AckState} {st : Stream}
    (hs : ackStep c s (.saveTalker st) = some s') :
    s'.run.engine.versions = s.run.engine.versions ∧ s'.acks = s.acks := by
  obtain rfl := Option.some.inj hs
  exact ⟨rfl, rfl⟩

theorem pathsNonempty_of_reachable {s : AckState} (h : (ackRuns c).Reachable s) :
    PathsNonempty s.run.engine.versions := by
  refine h.invariant (P := fun s => PathsNonempty s.run.engine.versions) ?_ ?_
  · rintro _ ⟨isTaggingEnabled, idleTimeout, hardTimeout, priority, rfl⟩ w path hw
    simp [ConfigurationEngine.start, VersionTables.start] at hw
  · intro s ev s' hP hs
    cases ev with
    | saveTalker st =>
      rw [(ackStep_saveTalker_eq_some hs).1]
      exact hP
    | configureDataPlane memory demandid sid assignments =>
      obtain ⟨installs, hchain, -, -⟩ := ackStep_call_eq_some hs
      exact pathsNonempty_chain hchain hP
    | ack memory w sw =>
      obtain ⟨v, messages, ha, hv, -⟩ := ackStep_ack_eq_some hs
      rw [hv]
      exact pathsNonempty_ack hP ha

/-- The acknowledgements so far were handled right, and no version that was activated waits
any more. -/
structure ActivatedOnce (s : AckState) : Prop where
  right : AcksRight s
  nonzero : 0 ∉ activated s.acks
  done : ∀ w ∈ activated s.acks, w ∉ s.run.engine.versions.ackWaitingPaths

theorem activatedOnce_ack {s s' : AckState} {memory : UInt64} {w : UInt16} {sw : ℕ}
    (h : ActivatedOnce s) (hv : PathsNonempty s.run.engine.versions)
    (hok : AckOk s.run.engine.versions w sw)
    (hs : ackStep c s (.ack memory w sw) = some s') : ActivatedOnce s' := by
  obtain ⟨v, messages, ha, hv', hacks⟩ := ackStep_ack_eq_some hs
  have hright : ∀ a ∈ s'.acks, HandledRight a := by
    intro a ha'
    rw [hacks] at ha'
    rcases List.mem_cons.mp ha' with rfl | ha'
    · exact (handledRight_of_ack hv ha).mpr hok
    · exact h.right.1 a ha'
  have hcons : activated s'.acks =
      (messages.filterMap fun m => activationOf m.2) ++ activated s.acks := by
    rw [hacks]
    rfl
  rcases waiting_ack hok ha with ⟨rfl, hwait⟩ | ⟨hmessages, hw, hwait⟩
  · rw [List.filterMap_nil, List.nil_append] at hcons
    refine ⟨⟨hright, ?_⟩, ?_, ?_⟩ <;> simp only [hcons]
    · exact h.right.2
    · exact h.nonzero
    · intro x hx hmem
      rw [hv', hwait] at hmem
      exact h.done x hx hmem
  · rw [hmessages, List.singleton_append] at hcons
    -- the version still waited before, so it was not activated yet
    have hnew : w ∉ activated s.acks := fun hmem => h.done w hmem hok.1
    refine ⟨⟨hright, ?_⟩, ?_, ?_⟩ <;> simp only [hcons]
    · exact List.nodup_cons.mpr ⟨hnew, h.right.2⟩
    · rintro hmem
      rcases List.mem_cons.mp hmem with hzero | hmem
      · exact hw hzero.symm
      · exact h.nonzero hmem
    · intro x hx hmem
      rw [hv', hwait] at hmem
      exact h.done x ((List.mem_cons.mp hx).resolve_left hmem.1) hmem.2

theorem activatedOnce_call {s s' : AckState} {memory : OxmBasicMatch} {demandid : Int}
    {sid : UInt64} {assignments : List Assignment} (h : ActivatedOnce s)
    (hok : AckEventOk s (.configureDataPlane memory demandid sid assignments))
    (hs : ackStep c s (.configureDataPlane memory demandid sid assignments) = some s') :
    ActivatedOnce s' := by
  obtain ⟨installs, hchain, hlength, hacks⟩ := ackStep_call_eq_some hs
  refine ⟨?_, ?_, fun w hw hmem => ?_⟩
  · rw [AcksRight, hacks]
    exact h.right
  · rw [hacks]
    exact h.nonzero
  · rw [hacks] at hw
    rcases waiting_chain hchain hmem with hold | rfl | ⟨j, hj, rfl⟩
    · exact h.done w hw hold
    · exact h.nonzero hw
    · exact hok j (hlength ▸ hj) hw

theorem activatedOnce_of_reachableUnder {s : AckState}
    (h : (ackRuns c).ReachableUnder AckEventOk s) : ActivatedOnce s := by
  refine h.invariant (P := ActivatedOnce) ?_ ?_
  · rintro _ ⟨isTaggingEnabled, idleTimeout, hardTimeout, priority, rfl⟩
    refine ⟨⟨?_, ?_⟩, ?_, ?_⟩ <;> simp [activated]
  · intro s ev s' hr hP hok hs
    cases ev with
    | saveTalker st =>
      obtain ⟨hversions, hacks⟩ := ackStep_saveTalker_eq_some hs
      refine ⟨?_, ?_, ?_⟩ <;> simp only [AcksRight, hversions, hacks]
      · exact hP.right
      · exact hP.nonzero
      · exact hP.done
    | configureDataPlane memory demandid sid assignments => exact activatedOnce_call hP hok hs
    | ack memory w sw =>
      exact activatedOnce_ack hP (pathsNonempty_of_reachable hr.reachable) hok hs

/-- In every reachable state an acknowledgement is handled right exactly under the condition,
and in every run whose steps all meet theirs no version is activated twice. -/
theorem acks_right_of_runs (c : ControllerTables) :
    (∀ s memory w sw s', (ackRuns c).Reachable s → ackStep c s (.ack memory w sw) = some s' →
      ∃ a, s'.acks = a :: s.acks ∧ a.before = s.run.engine.versions ∧
        a.after = s'.run.engine.versions ∧
        (HandledRight a ↔ AckOk s.run.engine.versions w sw)) ∧
    ∀ s, (ackRuns c).ReachableUnder AckEventOk s → AcksRight s := by
  refine ⟨?_, fun s h => (activatedOnce_of_reachableUnder h).right⟩
  intro s memory w sw s' h hs
  obtain ⟨v, messages, ha, hv, hacks⟩ := ackStep_ack_eq_some hs
  exact ⟨_, hacks, rfl, hv.symm, handledRight_of_ack (pathsNonempty_of_reachable h) ha⟩

def sampleAckStart : AckState := ⟨sampleStart, []⟩

/-- Stream 7 gets a path, and both switches acknowledge their rules. -/
def acknowledgedRun : List EngineEvent := admissionRun ++ [.ack 0 1 1]

theorem acks_right_of_runs_sample : ∃ s,
    (ackRuns sampleTables).runFrom sampleAckStart acknowledgedRun = some s ∧
      activated s.acks = [1] ∧ AcksRight s ∧ ∃ a ∈ s.acks, a.messages ≠ [] ∧ HandledRight a := by
  have hrun : ((ackRuns sampleTables).runFrom sampleAckStart acknowledgedRun).map
      (fun s => (activated s.acks, s.acks.head?.map AckRecord.messages)) =
      some ([1], some [(⟨0⟩, .packetOut (.activationMessage 1 7))]) := by
    decide
  obtain ⟨s, hs, hlast⟩ := Option.map_eq_some_iff.mp hrun
  obtain ⟨hactivated, hmessages⟩ := Prod.mk.inj hlast
  obtain ⟨s₁, hs₁, h⟩ := Option.bind_eq_some_iff.mp hs
  obtain ⟨s₂, hs₂, h⟩ := Option.bind_eq_some_iff.mp h
  obtain ⟨s₃, hs₃, h⟩ := Option.bind_eq_some_iff.mp h
  obtain ⟨s₄, hs₄, h⟩ := Option.bind_eq_some_iff.mp h
  obtain rfl := Option.some.inj h
  have hr₁ : (ackRuns sampleTables).ReachableUnder AckEventOk s₁ := by
    refine .step (.init ⟨true, 0, 0, 0, rfl⟩) ?_ hs₁
    trivial
  have hr₂ : (ackRuns sampleTables).ReachableUnder AckEventOk s₂ := by
    refine .step hr₁ ?_ hs₂
    obtain rfl := Option.some.inj hs₁
    intro j _
    exact List.not_mem_nil
  have hr₃ : (ackRuns sampleTables).ReachableUnder AckEventOk s₃ := by
    refine .step hr₂ ?_ hs₃
    obtain rfl := Option.some.inj hs₁
    obtain rfl := Option.some.inj hs₂
    exact ⟨by decide, .inl (by decide)⟩
  obtain ⟨hacks, hruns⟩ := acks_right_of_runs sampleTables
  obtain ⟨a, ha, -, -, hiff⟩ := hacks _ _ _ _ s₄ hr₃.reachable hs₄
  have hright : HandledRight a := by
    refine hiff.mpr ?_
    obtain rfl := Option.some.inj hs₁
    obtain rfl := Option.some.inj hs₂
    obtain rfl := Option.some.inj hs₃
    exact ⟨by decide, .inr ⟨by decide, 7, ⟨1, 0⟩, by decide, rfl⟩⟩
  have hr₄ : (ackRuns sampleTables).ReachableUnder AckEventOk s₄ := by
    refine .step hr₃ ?_ hs₄
    exact hiff.mp hright
  refine ⟨s₄, hs, hactivated, hruns s₄ hr₄, a, ?_, ?_, hright⟩
  · simp [ha]
  · rw [ha] at hmessages
    simp [Option.some.inj hmessages]

/-- The second switch acknowledges its rule once more. -/
def repeatedAckRun : List EngineEvent := acknowledgedRun ++ [.ack 0 1 1]

/-- The repeated acknowledgement leads to a second activation. -/
theorem repeatedAckRun_activates_twice : ∃ s, (ackRuns sampleTables).Reachable s ∧
    activated s.acks = [1, 1] ∧ ¬ AcksRight s := by
  have hrun : ((ackRuns sampleTables).runFrom sampleAckStart repeatedAckRun).map
      (fun s => activated s.acks) = some [1, 1] := by
    decide
  obtain ⟨s, hs, hactivated⟩ := Option.map_eq_some_iff.mp hrun
  refine ⟨s, System.reachable_of_runFrom ⟨true, 0, 0, 0, rfl⟩ hs, hactivated, fun h => ?_⟩
  have := h.2
  rw [hactivated] at this
  simp at this

end TsnReconfig.Controller
