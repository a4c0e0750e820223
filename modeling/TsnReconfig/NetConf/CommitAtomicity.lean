import TsnReconfig.NetConf.StoreOperations
import TsnReconfig.OpenFlow.FlowTable

/-!
# Commits that fail

A commit applies the edits of the candidate one by one to the running store and clears the
candidate. When one of them fails, those before it stay applied and the others are lost, although
each is applied with the error option that asks for the state at the start.
-/

namespace TsnReconfig.NetConf

open TsnReconfig.Lib

variable {M C S : Type*} {configurators : List (Configurator C S)} {configChange : C}
  {edits : List C} {running : RunningDataStore S}

/-! ## The edits of a candidate -/

/-- The running store after the edits, whether they succeed or not. -/
def RunningDataStore.applyAll (configurators : List (Configurator C S)) (edits : List C)
    (running : RunningDataStore S) : RunningDataStore S :=
  edits.foldl (fun running configChange =>
    (running.editConfig configurators .merge .rollbackOnError configChange).2) running

/-- Every edit can be applied when its turn comes. -/
def RunningDataStore.Applicable (configurators : List (Configurator C S)) :
    List C → RunningDataStore S → Prop
  | [], _ => True
  | configChange :: edits, running =>
    (running.editConfig configurators .merge .rollbackOnError configChange).1 ∧
      Applicable configurators edits
        (running.editConfig configurators .merge .rollbackOnError configChange).2

namespace CandidateDataStore

/-- The loop of `applyTo`. -/
def applyEdits (configurators : List (Configurator C S)) (edits : List C)
    (r : Bool × RunningDataStore S) : Bool × RunningDataStore S :=
  edits.foldl (fun r configChange =>
    if r.1 then r.2.editConfig configurators .merge .rollbackOnError configChange else r) r

/-- After a failure the loop changes nothing. -/
theorem applyEdits_failed (edits : List C) (running : RunningDataStore S) :
    applyEdits configurators edits (false, running) = (false, running) := by
  induction edits with
  | nil => rfl
  | cons configChange edits ih => exact ih

theorem applyEdits_cons :
    applyEdits configurators (configChange :: edits) (true, running) =
      applyEdits configurators edits
        (running.editConfig configurators .merge .rollbackOnError configChange) := rfl

/-- The loop succeeds if every edit can be applied, and has then applied all of them. -/
theorem applyEdits_iff (configurators : List (Configurator C S)) (edits : List C)
    (running : RunningDataStore S) :
    (applyEdits configurators edits (true, running)).1 = true ↔
      running.Applicable configurators edits := by
  induction edits generalizing running with
  | nil => simp [applyEdits, RunningDataStore.Applicable]
  | cons configChange edits ih =>
    rw [applyEdits_cons, RunningDataStore.Applicable]
    cases h : running.editConfig configurators .merge .rollbackOnError configChange with
    | mk applied running' =>
      cases applied with
      | true => simp [ih running']
      | false => simp [applyEdits_failed]

theorem applyEdits_eq (h : running.Applicable configurators edits) :
    (applyEdits configurators edits (true, running)).2 = running.applyAll configurators edits := by
  induction edits generalizing running with
  | nil => rfl
  | cons configChange edits ih =>
    obtain ⟨hfirst, hrest⟩ := h
    have hedit : running.editConfig configurators .merge .rollbackOnError configChange =
        (true, (running.editConfig configurators .merge .rollbackOnError configChange).2) :=
      Prod.ext hfirst rfl
    rw [applyEdits_cons, hedit]
    exact ih hrest

/-- The edits before the first failure stay applied, and so does what the failing one has done. -/
theorem applyEdits_of_fails (edits' : List C) (h : running.Applicable configurators edits)
    (hfails : ((running.applyAll configurators edits).editConfig configurators .merge
      .rollbackOnError configChange).1 = false) :
    applyEdits configurators (edits ++ configChange :: edits') (true, running) =
      (false, running.applyAll configurators (edits ++ [configChange])) := by
  have hdone : applyEdits configurators edits (true, running) =
      (true, running.applyAll configurators edits) :=
    Prod.ext ((applyEdits_iff configurators edits running).mpr h) (applyEdits_eq h)
  have hfailed : (running.applyAll configurators edits).editConfig configurators .merge
      .rollbackOnError configChange =
        (false, running.applyAll configurators (edits ++ [configChange])) :=
    Prod.ext hfails (by simp [RunningDataStore.applyAll])
  calc applyEdits configurators (edits ++ configChange :: edits') (true, running)
      = applyEdits configurators (configChange :: edits')
          (applyEdits configurators edits (true, running)) := by
        simp only [applyEdits, List.foldl_append]
    _ = applyEdits configurators edits'
          (false, running.applyAll configurators (edits ++ [configChange])) := by
        rw [hdone, applyEdits_cons, hfailed]
    _ = (false, running.applyAll configurators (edits ++ [configChange])) :=
        applyEdits_failed _ _

end CandidateDataStore

/-! ## All or nothing -/

namespace DataStoreManager

/-- `executeCommit` applies all edits, or none and keeps them. -/
structure AllOrNothing (configurators : List (Configurator C S)) (m : DataStoreManager M C S) :
    Prop where
  failed : (m.executeCommit configurators).1 = false →
    (m.executeCommit configurators).2.runningStore = m.runningStore ∧
      (m.executeCommit configurators).2.candidateStore.configVector =
        m.candidateStore.configVector
  succeeded : (m.executeCommit configurators).1 = true →
    (m.executeCommit configurators).2.runningStore =
      m.runningStore.applyAll configurators m.candidateStore.configVector

/-- A commit is all or nothing only if no edit fails. -/
theorem allOrNothing_iff (configurators : List (Configurator C S)) (m : DataStoreManager M C S) :
    m.AllOrNothing configurators ↔
      m.runningStore.Applicable configurators m.candidateStore.configVector := by
  have hiff := CandidateDataStore.applyEdits_iff configurators m.candidateStore.configVector
    m.runningStore
  constructor
  · intro h
    by_contra hfails
    have hfalse : (m.executeCommit configurators).1 = false := by
      rw [← hiff] at hfails
      exact Bool.eq_false_iff.mpr hfails
    have hempty : m.candidateStore.configVector = [] := (h.failed hfalse).2.symm
    rw [hempty] at hfails
    exact hfails trivial
  · intro h
    have htrue : (m.executeCommit configurators).1 = true := hiff.mpr h
    exact
      { failed := fun hfalse => absurd htrue (by simp [hfalse])
        succeeded := fun _ => CandidateDataStore.applyEdits_eq h }

end DataStoreManager

/-! ## A flow table that becomes full -/

open OpenFlow

/-- The commands of `OF_NetConfConfigFlowMod` that `NetConfDataConfiguratorFlowTable` knows, and
the rest. -/
inductive FlowTableCommand
  | addFlow | modifyFlow | deleteFlow | other
  deriving DecidableEq, Repr

/-- `OF_FlowTableConfig_t`. -/
structure FlowTableConfig where
  command : FlowTableCommand
  tableId : ℕ
  flowTableEntries : List FlowTableEntry
  deriving DecidableEq, Repr

/-- One entry in the loop of `NetConfDataConfiguratorFlowTable::editConfig`, with its status. A
table that does not exist is read behind the vector. -/
def FlowTableConfig.edit (now : SimTime) (command : FlowTableCommand) (tableId : ℕ)
    (entry : FlowTableEntry) (r : Bool × List FlowTable) : Bool × List FlowTable :=
  match r.2[tableId]? with
  | none => r
  | some table =>
    match command with
    | .addFlow =>
      let added := table.addEntry now entry
      (added.1, r.2.set tableId added.2)
    | .modifyFlow =>
      let added := (table.deleteMatchingEntries entry.oxmMatch).addEntry now entry
      (added.1, r.2.set tableId added.2)
    | .deleteFlow => (true, r.2.set tableId (table.deleteMatchingEntries entry.oxmMatch))
    | .other => r

/-- `NetConfDataConfiguratorFlowTable`, for a device with its tables. -/
def Configurator.flowTable (now : SimTime) :
    Configurator (List FlowTableConfig) (List FlowTable) where
  getConfig tables := some (some (tables.zipIdx.map fun p => ⟨.other, p.2, p.1.entries⟩))
  editConfig _ _ config tables :=
    config.foldl (fun r tableConfig =>
      tableConfig.flowTableEntries.foldl (fun r entry =>
        FlowTableConfig.edit now tableConfig.command tableConfig.tableId entry r) r)
      (false, tables)
  validateConfig config _ :=
    config.any fun tableConfig =>
      !tableConfig.flowTableEntries.isEmpty && tableConfig.command ≠ .other

/-- An edit that adds an entry. -/
def addFlow (addr : ℕ) (priority : Int) : List FlowTableConfig :=
  [⟨.addFlow, 0, [⟨addr, 0, 0, 0, 0, 0, priority, 0, .zero, [1]⟩]⟩]

/-- Two edits for a table with room for one entry. -/
def fullTable : DataStoreManager ℕ (List FlowTableConfig) (List FlowTable) where
  runningStore := { state := [FlowTable.initTable 0 1 0] }
  candidateStore := { configVector := [addFlow 1 10, addFlow 2 20] }

/-- The second edit fails, the first one stays applied and the candidate is empty. -/
theorem fullTable_not_allOrNothing :
    ¬∀ m : DataStoreManager ℕ (List FlowTableConfig) (List FlowTable),
      m.AllOrNothing [.flowTable 0] := by
  intro h
  have hfailed : (fullTable.executeCommit [.flowTable 0]).1 = false := by decide
  have hcleared := ((h fullTable).failed hfailed).2
  cases hcleared

end TsnReconfig.NetConf
