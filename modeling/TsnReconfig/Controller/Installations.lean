import TsnReconfig.Controller.ConfigurationEngine
import TsnReconfig.Lib.Lists
import TsnReconfig.Lib.Maps

/-!
# The installations of a call

`configureDataPlane` makes its installations one after the other. Each takes the counter as
its version number; which streams get one is fixed by the records before the call.
-/

namespace TsnReconfig.Controller
open OpenFlow Lib

/-! ## One installation -/

/-- The version tables after an installation whose first switch has module id `ingress`. -/
def VersionTables.install (v : VersionTables) (sid : UInt64) (path : List ℕ) (ingress : Int) :
    VersionTables :=
  let u := { v with ackWaitingPaths := v.ackWaitingPaths.insert v.matchVersion path }
  { u.addMatchVersiontoStream sid with
    ingressSwTable := v.ingressSwTable.insert v.matchVersion ingress }

/-- The rule goes out on the socket of the switch at topology index `k` and has these
addresses, this VLAN and this version. -/
def RuleFor (c : ControllerTables) (dst src : MACAddress) (vlan matchVersion : UInt16) (k : ℕ)
    (r : Rule) : Prop :=
  ∃ node memory inport m outport priority idleTimeout hardTimeout,
    c.topology[k]? = some node ∧ c.findRelatedSwitchSocket node.moduleId = some r.switch ∧
    createDesiredMatch memory inport dst src vlan matchVersion = some m ∧
    r.flowMod = createFlowMod .add m outport priority idleTimeout hardTimeout

/-- The installation `i` takes the tables from `v` to `v'`. -/
structure InstallStep (c : ControllerTables) (v : VersionTables) (i : Install)
    (v' : VersionTables) : Prop where
  before : i.before = v
  matchVersion : i.matchVersion = v.matchVersion
  recordedNext : i.recordedNext =
    ((v'.streamFlowVersionTable[i.streamId]?).map VersionInfo.next).getD 0
  tables : ∃ k node, i.path.head? = some k ∧ c.topology[k]? = some node ∧
    v' = v.install i.streamId i.path node.moduleId
  rules : List.Forall₂ (RuleFor c i.dstHost i.srcHost i.dlVlan i.matchVersion) i.path i.rules

/-- The installations, in this order, take the tables from the first to the last. -/
inductive InstallChain (c : ControllerTables) :
    VersionTables → List Install → VersionTables → Prop
  | nil (v : VersionTables) : InstallChain c v [] v
  | cons {v v' v'' : VersionTables} {i : Install} {is : List Install} :
      InstallStep c v i v' → InstallChain c v' is v'' → InstallChain c v (i :: is) v''

variable {c : ControllerTables} {memory : OxmBasicMatch}

theorem InstallChain.append {v v' v'' : VersionTables} {is js : List Install}
    (h : InstallChain c v is v') (h' : InstallChain c v' js v'') :
    InstallChain c v (is ++ js) v'' := by
  induction h with
  | nil => exact h'
  | cons hi _ ih => exact .cons hi (ih h')

theorem InstallChain.single {v v' : VersionTables} {i : Install} (h : InstallStep c v i v') :
    InstallChain c v [i] v' :=
  .cons h (.nil _)

theorem ruleFor_of_pathRule {e : ConfigurationEngine} {nodes : List Node} {srcHost dstHost : Node}
    {vlan : UInt16} {dst src : MACAddress} {matchVersion : UInt16} {current : Node} {k ix : ℕ}
    {r : Rule} (hk : c.topology[k]? = some current)
    (h : pathRule c memory e nodes srcHost dstHost vlan dst src matchVersion current ix = some r) :
    RuleFor c dst src vlan matchVersion k r := by
  obtain ⟨info, hinfo, h⟩ := Option.bind_eq_some_iff.mp h
  obtain ⟨⟨prev, next⟩, -, h⟩ := Option.bind_eq_some_iff.mp h
  obtain ⟨m, hm, h⟩ := Option.bind_eq_some_iff.mp h
  obtain rfl := Option.some.inj h
  exact ⟨current, memory, _, m, _, _, _, _, hk, hinfo, hm, rfl⟩

theorem insertAssignedPath_eq_some {e : ConfigurationEngine} {path : List ℕ} {vlan : UInt16}
    {dst src : MACAddress} {matchVersion : UInt16} {table : Std.TreeMap UInt16 Int}
    {rules : List Rule}
    (h : insertAssignedPath c memory e path vlan dst src matchVersion = some (table, rules)) :
    (∃ k node, path.head? = some k ∧ c.topology[k]? = some node ∧
      table = e.versions.ingressSwTable.insert matchVersion node.moduleId) ∧
    List.Forall₂ (RuleFor c dst src vlan matchVersion) path rules := by
  obtain ⟨nodes, hnodes, h⟩ := Option.bind_eq_some_iff.mp h
  obtain ⟨srcSw, hsrc, h⟩ := Option.bind_eq_some_iff.mp h
  obtain ⟨dstIx, -, h⟩ := Option.bind_eq_some_iff.mp h
  obtain ⟨dsthost, -, h⟩ := Option.bind_eq_some_iff.mp h
  obtain ⟨srcIx, -, h⟩ := Option.bind_eq_some_iff.mp h
  obtain ⟨srchost, -, h⟩ := Option.bind_eq_some_iff.mp h
  obtain ⟨rs, hrs, h⟩ := Option.bind_eq_some_iff.mp h
  obtain ⟨rfl, rfl⟩ := Prod.mk.inj (Option.some.inj h)
  have hpath := forall₂_of_mapM_eq_some hnodes
  constructor
  · cases hpath with
    | nil => simp at hsrc
    | cons hk _ =>
      obtain rfl := Option.some.inj hsrc
      exact ⟨_, _, rfl, hk, rfl⟩
  · have hrules : List.Forall₂ (fun node r => ∀ k, c.topology[k]? = some node →
        RuleFor c dst src vlan matchVersion k r) nodes rs := by
      refine forall₂_of_zipIdx ((forall₂_of_mapM_eq_some hrs).imp fun p r hr k hk => ?_)
      exact ruleFor_of_pathRule hk hr
    exact forall₂_comp (fun k node r hk hr => hr k hk) hpath hrules

/-- What `assignPath` does is one installation, of the given path for the given stream. -/
theorem assignPath_eq_some {e e' : ConfigurationEngine} {st : Stream} {sid : UInt64}
    {path : List ℕ} {i : Install} (h : e.assignPath c memory st sid path = some (e', i)) :
    InstallStep c e.versions i e'.versions ∧ i.streamId = sid ∧ i.path = path ∧
      e' = { e with versions := e'.versions } := by
  obtain ⟨⟨table, rules⟩, hins, h⟩ := Option.bind_eq_some_iff.mp h
  obtain ⟨rfl, rfl⟩ := Prod.mk.inj (Option.some.inj h)
  obtain ⟨⟨k, node, hk, hnode, htable⟩, hrules⟩ := insertAssignedPath_eq_some hins
  refine ⟨⟨rfl, rfl, rfl, ⟨k, node, hk, hnode, ?_⟩, hrules⟩, rfl, rfl, rfl⟩
  rw [htable]
  simp only [VersionTables.install, VersionTables.addMatchVersiontoStream]
  split_ifs
  · rfl
  · split
    · rfl
    · split_ifs <;> rfl

/-! ## Which streams get an installation -/

namespace ConfigurationEngine

/-- The stream of a demand: the one the reconfiguration branch looks up. -/
def streamOf (e : ConfigurationEngine) (demandIndex : ℕ) : Option UInt64 :=
  (e.registeredStreams[e.demandtoStreamIdMap.getD demandIndex 0]?).map Stream.sid

/-- The two engines look up the same streams and have the same records. -/
structure SameRecords (e e' : ConfigurationEngine) : Prop where
  registeredStreams : e'.registeredStreams = e.registeredStreams
  prevAssignments : e'.prevAssignments = e.prevAssignments
  streamOf : ∀ d, e'.streamOf d = e.streamOf d
  stored : Extends e.demandtoStreamIdMap e'.demandtoStreamIdMap

theorem SameRecords.trans {e e' e'' : ConfigurationEngine} (h : SameRecords e e')
    (h' : SameRecords e' e'') : SameRecords e e'' where
  registeredStreams := h'.registeredStreams.trans h.registeredStreams
  prevAssignments := h'.prevAssignments.trans h.prevAssignments
  streamOf d := (h'.streamOf d).trans (h.streamOf d)
  stored := h.stored.trans h'.stored

end ConfigurationEngine

/-- A record after the new assignment `it`. -/
def updateRecord (it it1 : Assignment) : Assignment :=
  if it1.demandIndex = it.demandIndex then { it1 with path := it.path } else it1

/-- The installations `updatePrevious` makes, as streams and paths. -/
def changedTargets (e : ConfigurationEngine) (it : Assignment) (prev : List Assignment) :
    List (UInt64 × List ℕ) :=
  prev.filterMap fun it1 =>
    if it1.demandIndex = it.demandIndex ∧ it1.path ≠ it.path then
      (e.streamOf it1.demandIndex).map (·, it.path)
    else none

def Install.target (i : Install) : UInt64 × List ℕ := (i.streamId, i.path)

open ConfigurationEngine

theorem reconfigure_eq_some {e e' : ConfigurationEngine} {d : ℕ} {path : List ℕ} {i : Install}
    (h : e.reconfigure c memory d path = some (e', i)) :
    InstallStep c e.versions i e'.versions ∧ SameRecords e e' ∧
      (e.streamOf d).map (·, path) = some i.target := by
  obtain ⟨st, hst, h⟩ := Option.bind_eq_some_iff.mp h
  obtain ⟨hstep, hsid, hpath, he'⟩ := assignPath_eq_some h
  refine ⟨hstep, ?_, ?_⟩
  · rw [he']
    refine ⟨rfl, rfl, fun d' => ?_, extends_insertIfNew⟩
    simp only [ConfigurationEngine.streamOf, Std.TreeMap.getD_insertIfNew]
    split_ifs with hnew
    · obtain ⟨heq, hmem⟩ := hnew
      rw [← Std.LawfulEqCmp.eq_of_compare heq, Std.TreeMap.getD_eq_fallback hmem]
    · rfl
  · simp only [Install.target, hsid, hpath, ConfigurationEngine.streamOf]
    simp [hst]

theorem streamOf_eq {e e' : ConfigurationEngine} (h : SameRecords e e') :
    e'.streamOf = e.streamOf :=
  funext h.streamOf

theorem changedTargets_congr {e e' : ConfigurationEngine} (h : SameRecords e e')
    (it : Assignment) (prev : List Assignment) :
    changedTargets e' it prev = changedTargets e it prev := by
  simp only [changedTargets, streamOf_eq h]

/-- What the loop over the records does for one new assignment. -/
structure Updated (c : ControllerTables) (it : Assignment) (prev : List Assignment)
    (e e' : ConfigurationEngine) (prev' : List Assignment) (installs : List Install)
    (seen : Bool) : Prop where
  chain : InstallChain c e.versions installs e'.versions
  records : SameRecords e e'
  updated : prev' = prev.map (updateRecord it)
  targets : installs.map Install.target = changedTargets e it prev
  seen : seen = prev.any (·.demandIndex == it.demandIndex)

theorem updatePrevious_eq_some {it : Assignment} {prev prev' : List Assignment}
    {e e' : ConfigurationEngine} {installs : List Install} {seen : Bool}
    (h : updatePrevious c memory it prev e = some (e', prev', installs, seen)) :
    Updated c it prev e e' prev' installs seen := by
  induction prev generalizing e prev' installs seen with
  | nil =>
    obtain ⟨rfl, rfl, rfl, rfl⟩ : e = e' ∧ [] = prev' ∧ [] = installs ∧ false = seen := by
      simpa [updatePrevious] using h
    exact ⟨.nil _, ⟨rfl, rfl, fun _ => rfl, .refl _⟩, rfl, rfl, rfl⟩
  | cons it1 prev ih =>
    simp only [updatePrevious] at h
    split_ifs at h with hdemand hpath
    · obtain ⟨⟨e₁, i⟩, hi, h⟩ := Option.bind_eq_some_iff.mp h
      obtain ⟨⟨e₂, prev₂, is, seen₂⟩, hr, h⟩ := Option.bind_eq_some_iff.mp h
      obtain ⟨rfl, rfl, rfl, rfl⟩ : e₂ = e' ∧ _ = prev' ∧ i :: is = installs ∧ true = seen := by
        simpa using h
      obtain ⟨hstep, hsame, htarget⟩ := reconfigure_eq_some hi
      have hrest := ih hr
      refine ⟨.cons hstep hrest.chain, hsame.trans hrest.records, ?_, ?_, ?_⟩
      · simp [updateRecord, hdemand, hrest.updated]
      · have htargets := hrest.targets
        rw [changedTargets_congr hsame] at htargets
        have hhead : (if it1.demandIndex = it.demandIndex ∧ it1.path ≠ it.path then
            (e.streamOf it1.demandIndex).map (·, it.path) else none) = some i.target := by
          rw [if_pos ⟨hdemand, hpath⟩, htarget]
        rw [List.map_cons, htargets]
        simp only [changedTargets, List.filterMap_cons, hhead]
      · simp [hdemand]
    · obtain ⟨⟨e₂, prev₂, is, seen₂⟩, hr, h⟩ := Option.bind_eq_some_iff.mp h
      obtain ⟨rfl, rfl, rfl, rfl⟩ : e₂ = e' ∧ _ = prev' ∧ is = installs ∧ true = seen := by
        simpa using h
      have hrest := ih hr
      refine ⟨hrest.chain, hrest.records, ?_, ?_, ?_⟩
      · have hsame : { it1 with path := it.path } = it1 := by
          rw [← not_not.mp hpath]
        simp only [List.map_cons, updateRecord, if_pos hdemand, hsame, hrest.updated]
      · simp [hrest.targets, changedTargets, hpath]
      · simp [hdemand]
    · obtain ⟨⟨e₂, prev₂, is, seen₂⟩, hr, h⟩ := Option.bind_eq_some_iff.mp h
      obtain ⟨rfl, rfl, rfl, rfl⟩ : e₂ = e' ∧ _ = prev' ∧ is = installs ∧ seen₂ = seen := by
        simpa using h
      have hrest := ih hr
      refine ⟨hrest.chain, hrest.records, ?_, ?_, ?_⟩
      · simp [updateRecord, hdemand, hrest.updated]
      · simp [hrest.targets, changedTargets, hdemand]
      · simp [hdemand, hrest.seen]

/-- The records `prevAssignments` after a round of the outer loop. -/
def updateRecords (new : Option UInt64) (it : Assignment) (prev : List Assignment) :
    List Assignment :=
  match prev.any (·.demandIndex == it.demandIndex), new with
  | false, some _ => prev.map (updateRecord it) ++ [it]
  | _, _ => prev.map (updateRecord it)

/-- The installations of a round of the outer loop. -/
def roundTargets (e : ConfigurationEngine) (new : Option UInt64) (it : Assignment)
    (prev : List Assignment) : List (UInt64 × List ℕ) :=
  match prev.any (·.demandIndex == it.demandIndex), new with
  | false, some sid => changedTargets e it prev ++ [(sid, it.path)]
  | _, _ => changedTargets e it prev

/-- The installations of the loop over the new assignments. -/
def installTargets (e : ConfigurationEngine) (new : Option UInt64) :
    List Assignment → List Assignment → List (UInt64 × List ℕ)
  | _, [] => []
  | prev, it :: rest =>
    roundTargets e new it prev ++ installTargets e new (updateRecords new it prev) rest

/-- The engine when its loops begin, and the new stream if there is one. -/
def callStart (e : ConfigurationEngine) (demandid : Int) (sid : UInt64) :
    ConfigurationEngine × Option UInt64 :=
  if demandid ≠ -1 then
    ({ e with demandtoStreamIdMap := e.demandtoStreamIdMap.insert demandid sid }, some sid)
  else (e, none)

/-- The installations a call of `configureDataPlane` is going to make. -/
def callTargets (e : ConfigurationEngine) (demandid : Int) (sid : UInt64)
    (newAssignments : List Assignment) : List (UInt64 × List ℕ) :=
  let (e, new) := callStart e demandid sid
  installTargets e new e.prevAssignments newAssignments

theorem installTargets_congr {e e' : ConfigurationEngine} (h : e'.streamOf = e.streamOf)
    (new : Option UInt64) (prev assignments : List Assignment) :
    installTargets e' new prev assignments = installTargets e new prev assignments := by
  induction assignments generalizing prev with
  | nil => rfl
  | cons it rest ih => simp only [installTargets, roundTargets, changedTargets, h, ih]

/-- What a part of a call does: its installations are those foreseen, and it looks up the
same streams before and after. -/
structure Applied (c : ControllerTables) (e e' : ConfigurationEngine) (installs : List Install)
    (targets : List (UInt64 × List ℕ)) (prev' : List Assignment) : Prop where
  chain : InstallChain c e.versions installs e'.versions
  targets : installs.map Install.target = targets
  registeredStreams : e'.registeredStreams = e.registeredStreams
  streamOf : e'.streamOf = e.streamOf
  stored : Extends e.demandtoStreamIdMap e'.demandtoStreamIdMap
  prevAssignments : e'.prevAssignments = prev'

theorem applyAssignment_eq_some {new : Option (UInt64 × Stream)} {e e' : ConfigurationEngine}
    {it : Assignment} {installs : List Install}
    (h : e.applyAssignment c memory new it = some (e', installs)) :
    Applied c e e' installs (roundTargets e (new.map Prod.fst) it e.prevAssignments)
      (updateRecords (new.map Prod.fst) it e.prevAssignments) := by
  obtain ⟨⟨e₁, prev, is, seen⟩, hu, h⟩ := Option.bind_eq_some_iff.mp h
  have hu := updatePrevious_eq_some hu
  have hstream : e₁.streamOf = e.streamOf := streamOf_eq hu.records
  cases hseen : seen with
  | true =>
    obtain ⟨rfl, rfl⟩ := Prod.mk.inj (Option.some.inj (by simpa [hseen] using h))
    have hany := hu.seen.symm.trans hseen
    exact ⟨hu.chain, by simp [roundTargets, hany, hu.targets], hu.records.registeredStreams,
      hstream, hu.records.stored, by simp [updateRecords, hany, hu.updated]⟩
  | false =>
    have hany := hu.seen.symm.trans hseen
    cases hnew : new with
    | none =>
      obtain ⟨rfl, rfl⟩ := Prod.mk.inj (Option.some.inj (by simpa [hseen, hnew] using h))
      exact ⟨hu.chain, by simp [roundTargets, hu.targets], hu.records.registeredStreams,
        hstream, hu.records.stored, by simp [updateRecords, hu.updated]⟩
    | some p =>
      obtain ⟨sid, st⟩ := p
      simp only [hseen, hnew] at h
      obtain ⟨⟨e₂, i⟩, hi, h⟩ := Option.bind_eq_some_iff.mp h
      obtain ⟨rfl, rfl⟩ := Prod.mk.inj (Option.some.inj h)
      obtain ⟨hstep, hsid, hpath, he₂⟩ := assignPath_eq_some hi
      refine ⟨hu.chain.append (.single hstep), ?_, ?_, ?_, ?_, ?_⟩
      · simp [roundTargets, hany, hu.targets, Install.target, hsid, hpath]
      · exact (congrArg ConfigurationEngine.registeredStreams he₂).trans
          hu.records.registeredStreams
      · have : e₂.streamOf = e₁.streamOf := by rw [he₂]; rfl
        exact this.trans hstream
      · have : e₂.demandtoStreamIdMap = e₁.demandtoStreamIdMap := by rw [he₂]
        show Extends e.demandtoStreamIdMap e₂.demandtoStreamIdMap
        rw [this]
        exact hu.records.stored
      · simp [updateRecords, hany, hu.updated]

theorem applyAssignments_eq_some {new : Option (UInt64 × Stream)} {e e' : ConfigurationEngine}
    {assignments : List Assignment} {installs : List Install}
    (h : e.applyAssignments c memory new assignments = some (e', installs)) :
    Applied c e e' installs
      (installTargets e (new.map Prod.fst) e.prevAssignments assignments) e'.prevAssignments := by
  induction assignments generalizing e installs with
  | nil =>
    obtain ⟨rfl, rfl⟩ := Prod.mk.inj (Option.some.inj h)
    exact ⟨.nil _, rfl, rfl, rfl, .refl _, rfl⟩
  | cons it rest ih =>
    obtain ⟨⟨e₁, is⟩, h₁, h⟩ := Option.bind_eq_some_iff.mp h
    obtain ⟨⟨e₂, js⟩, h₂, h⟩ := Option.bind_eq_some_iff.mp h
    obtain ⟨rfl, rfl⟩ := Prod.mk.inj (Option.some.inj h)
    have h₁ := applyAssignment_eq_some h₁
    have h₂ := ih h₂
    refine ⟨h₁.chain.append h₂.chain, ?_, h₂.registeredStreams.trans h₁.registeredStreams,
      h₂.streamOf.trans h₁.streamOf, h₁.stored.trans h₂.stored, rfl⟩
    rw [List.map_append, h₁.targets, h₂.targets, installTargets, h₁.prevAssignments,
      installTargets_congr h₁.streamOf]

theorem exists_of_mem_updateRecords {new : Option UInt64} {it a : Assignment}
    {prev : List Assignment} (h : a ∈ updateRecords new it prev) :
    ∃ a' ∈ prev ++ [it], a'.demandIndex = a.demandIndex := by
  have hmap : a ∈ prev.map (updateRecord it) → ∃ a' ∈ prev ++ [it], a'.demandIndex = a.demandIndex := by
    intro ha
    obtain ⟨a', ha', rfl⟩ := List.mem_map.mp ha
    refine ⟨a', List.mem_append_left _ ha', ?_⟩
    unfold updateRecord
    split_ifs <;> rfl
  unfold updateRecords at h
  split at h
  · rcases List.mem_append.mp h with h | h
    · exact hmap h
    · exact ⟨a, List.mem_append_right _ h, rfl⟩
  · exact hmap h

/-- Every record is one of a demand that had a record before, or of a new assignment. -/
theorem exists_of_mem_prevAssignments {new : Option (UInt64 × Stream)} {e e' : ConfigurationEngine}
    {assignments : List Assignment} {installs : List Install}
    (h : e.applyAssignments c memory new assignments = some (e', installs)) {a : Assignment}
    (ha : a ∈ e'.prevAssignments) :
    ∃ a' ∈ e.prevAssignments ++ assignments, a'.demandIndex = a.demandIndex := by
  induction assignments generalizing e installs with
  | nil =>
    obtain ⟨rfl, rfl⟩ := Prod.mk.inj (Option.some.inj h)
    exact ⟨a, List.mem_append_left _ ha, rfl⟩
  | cons it rest ih =>
    obtain ⟨⟨e₁, is⟩, h₁, h⟩ := Option.bind_eq_some_iff.mp h
    obtain ⟨⟨e₂, js⟩, h₂, h⟩ := Option.bind_eq_some_iff.mp h
    obtain ⟨rfl, rfl⟩ := Prod.mk.inj (Option.some.inj h)
    obtain ⟨a', ha', hindex⟩ := ih h₂
    rcases List.mem_append.mp ha' with ha' | ha'
    · rw [(applyAssignment_eq_some h₁).prevAssignments] at ha'
      obtain ⟨a'', ha'', hindex'⟩ := exists_of_mem_updateRecords ha'
      refine ⟨a'', ?_, hindex'.trans hindex⟩
      rw [← List.singleton_append, ← List.append_assoc]
      exact List.mem_append_left _ ha''
    · exact ⟨a', List.mem_append_right _ (List.mem_cons_of_mem _ ha'), hindex⟩

/-- A call makes the installations foreseen, on the version tables only. -/
theorem configureDataPlane_eq_some {e : ConfigurationEngine} {demandid : Int} {sid : UInt64}
    {assignments : List Assignment} {r : Configured}
    (h : configureDataPlane c memory e demandid sid assignments = some r) :
    InstallChain c e.versions r.installs r.engine.versions ∧
      r.installs.map Install.target = callTargets e demandid sid assignments ∧
      r.engine.registeredStreams = e.registeredStreams := by
  unfold configureDataPlane at h
  split_ifs at h with hid
  · obtain ⟨st, -, h⟩ := Option.bind_eq_some_iff.mp h
    obtain ⟨⟨e₁, is⟩, h₁, h⟩ := Option.bind_eq_some_iff.mp h
    obtain ⟨ready, -, h⟩ := Option.bind_eq_some_iff.mp h
    obtain rfl := Option.some.inj h
    have h₁ := applyAssignments_eq_some h₁
    exact ⟨h₁.chain, by simp [callTargets, callStart, hid, h₁.targets], h₁.registeredStreams⟩
  · obtain ⟨⟨e₁, is⟩, h₁, h⟩ := Option.bind_eq_some_iff.mp h
    obtain rfl := Option.some.inj h
    have h₁ := applyAssignments_eq_some h₁
    exact ⟨h₁.chain, by simp [callTargets, callStart, hid, h₁.targets], h₁.registeredStreams⟩

/-- A call for a new demand stores the stream under its id and keeps what was stored; it has
records of the demands that had one and of the new assignments. -/
theorem configureDataPlane_stored {e : ConfigurationEngine} {demandid : Int} {sid : UInt64}
    {assignments : List Assignment} {r : Configured} (hid : demandid ≠ -1)
    (h : configureDataPlane c memory e demandid sid assignments = some r) :
    Extends (e.demandtoStreamIdMap.insert demandid sid) r.engine.demandtoStreamIdMap ∧
      ∀ a ∈ r.engine.prevAssignments,
        ∃ a' ∈ e.prevAssignments ++ assignments, a'.demandIndex = a.demandIndex := by
  unfold configureDataPlane at h
  rw [if_pos hid] at h
  obtain ⟨st, -, h⟩ := Option.bind_eq_some_iff.mp h
  obtain ⟨⟨e₁, is⟩, h₁, h⟩ := Option.bind_eq_some_iff.mp h
  obtain ⟨ready, -, h⟩ := Option.bind_eq_some_iff.mp h
  obtain rfl := Option.some.inj h
  exact ⟨(applyAssignments_eq_some h₁).stored, fun a ha => exists_of_mem_prevAssignments h₁ ha⟩

/-- A call for a new demand ends with the `ListenerReady` for its stream, another call sends
none. -/
theorem configureDataPlane_listenerReady {e : ConfigurationEngine} {demandid : Int} {sid : UInt64}
    {assignments : List Assignment} {r : Configured}
    (h : configureDataPlane c memory e demandid sid assignments = some r) :
    if demandid = -1 then r.listenerReady = none
    else ∃ info vlan, r.listenerReady = some (info, .vendor (.listenerReady sid vlan)) := by
  unfold configureDataPlane at h
  rcases eq_or_ne demandid (-1) with hid | hid
  · rw [if_neg (not_not.mpr hid)] at h
    obtain ⟨⟨e₁, is⟩, -, h⟩ := Option.bind_eq_some_iff.mp h
    obtain rfl := Option.some.inj h
    rw [if_pos hid]
  · rw [if_pos hid] at h
    obtain ⟨st, -, h⟩ := Option.bind_eq_some_iff.mp h
    obtain ⟨⟨e₁, is⟩, -, h⟩ := Option.bind_eq_some_iff.mp h
    obtain ⟨ready, hready, h⟩ := Option.bind_eq_some_iff.mp h
    obtain rfl := Option.some.inj h
    obtain ⟨st', -, hready⟩ := Option.bind_eq_some_iff.mp hready
    obtain rfl := Option.some.inj hready
    rw [if_neg hid]
    exact ⟨st'.talkerSwInfo, st.vlanid, rfl⟩

end TsnReconfig.Controller
