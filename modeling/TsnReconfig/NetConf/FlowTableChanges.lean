import TsnReconfig.NetConf.CommitAtomicity

/-!
# The changes of a flow table configuration

An `edit-config` with changes of flow tables. The status is that of the last change with a known
command, whatever became of those before it, and the running store is content with one configurator
that is.
-/

namespace TsnReconfig.NetConf

open OpenFlow

/-- One change in the loops of `NetConfDataConfiguratorFlowTable::editConfig`. -/
structure FlowTableChange where
  command : FlowTableCommand
  tableId : ℕ
  entry : FlowTableEntry

def changes (config : List FlowTableConfig) : List FlowTableChange :=
  config.flatMap fun tableConfig => tableConfig.flowTableEntries.map fun entry =>
    ⟨tableConfig.command, tableConfig.tableId, entry⟩

namespace FlowTableChange

/-- The tables after the change, whether it is applied or not. -/
def run (now : SimTime) (tables : List FlowTable) (c : FlowTableChange) : List FlowTable :=
  (FlowTableConfig.edit now c.command c.tableId c.entry (false, tables)).2

/-- The table exists and takes the entry, or what matches it is deleted. -/
def Applied (now : SimTime) (tables : List FlowTable) (c : FlowTableChange) : Prop :=
  ∃ table, tables[c.tableId]? = some table ∧ match c.command with
    | .addFlow => (table.addEntry now c.entry).1
    | .modifyFlow => ((table.deleteMatchingEntries c.entry.oxmMatch).addEntry now c.entry).1
    | .deleteFlow => True
    | .other => False

end FlowTableChange

/-- Every change is applied when its turn comes. -/
def AllApplied (now : SimTime) : List FlowTableChange → List FlowTable → Prop
  | [], _ => True
  | c :: cs, tables => c.Applied now tables ∧ AllApplied now cs (c.run now tables)

/-- The last change with a known command is applied when its turn comes. -/
def LastApplied (now : SimTime) : List FlowTableChange → List FlowTable → Prop
  | [], _ => False
  | c :: cs, tables => LastApplied now cs (c.run now tables) ∨
      (c.command ≠ .other ∧ (∀ d ∈ cs, d.command = .other) ∧ c.Applied now tables)

/-- No table is read behind the vector. -/
def InRange (cs : List FlowTableChange) (tables : List FlowTable) : Prop :=
  ∀ c ∈ cs, c.command ≠ .other → c.tableId < tables.length

/-- A configurator of another class, and what it does with flow tables: one for other configurations
refuses them, since its `dynamic_cast` fails. -/
inductive OtherConfigurator
  | ofOtherClass (getConfig : List FlowTable → Option (Option (List FlowTableConfig)))
  | dummy (config : List FlowTableConfig)

namespace OtherConfigurator

def configurator : OtherConfigurator → Configurator (List FlowTableConfig) (List FlowTable)
  | ofOtherClass getConfig =>
    { getConfig
      editConfig _ _ _ tables := (false, tables)
      validateConfig _ _ := false }
  | dummy config => .dummy config

def confirms : OtherConfigurator → Bool
  | ofOtherClass _ => false
  | dummy _ => true

end OtherConfigurator

/-- The edit is defined, and it is confirmed exactly when all changes are applied, by the
configurator and by the store. -/
structure ConfirmsApplied (now : SimTime) (before after : List OtherConfigurator)
    (operation : EditOperation) (errorOption : ErrorOption) (config : List FlowTableConfig)
    (running : RunningDataStore (List FlowTable)) : Prop where
  inRange : InRange (changes config) running.state
  configurator : ((Configurator.flowTable now).editConfig operation errorOption config
    running.state).1 ↔ AllApplied now (changes config) running.state
  store : (running.editConfig (before.map (·.configurator) ++ .flowTable now ::
      after.map (·.configurator)) operation errorOption config).1 ↔
    AllApplied now (changes config) running.state

/-! ## The status -/

variable {now : SimTime} {c : FlowTableChange} {cs : List FlowTableChange}
  {tables : List FlowTable} {operation : EditOperation} {errorOption : ErrorOption}
  {config : List FlowTableConfig} {running : RunningDataStore (List FlowTable)}

/-- The two loops as one. -/
def editChanges (now : SimTime) (cs : List FlowTableChange) (r : Bool × List FlowTable) :
    Bool × List FlowTable :=
  cs.foldl (fun r c => FlowTableConfig.edit now c.command c.tableId c.entry r) r

theorem editConfig_flowTable (operation : EditOperation) (errorOption : ErrorOption)
    (config : List FlowTableConfig) (tables : List FlowTable) :
    (Configurator.flowTable now).editConfig operation errorOption config tables =
      editChanges now (changes config) (false, tables) := by
  simp only [Configurator.flowTable, editChanges, changes, List.foldl_flatMap, List.foldl_map]

theorem edit_other {r : Bool × List FlowTable} (h : c.command = .other) :
    FlowTableConfig.edit now c.command c.tableId c.entry r = r := by
  unfold FlowTableConfig.edit
  rw [h]
  cases r.2[c.tableId]? <;> rfl

/-- A known command for a table that exists sets the status, and the tables do not depend on the
status before it. -/
theorem edit_known (now : SimTime) (status : Bool) (h : c.command ≠ .other)
    (hrange : c.tableId < tables.length) :
    ∃ b, FlowTableConfig.edit now c.command c.tableId c.entry (status, tables) =
      (b, c.run now tables) ∧ (b ↔ c.Applied now tables) := by
  have htable := List.getElem?_eq_getElem hrange
  simp only [FlowTableChange.run, FlowTableChange.Applied, FlowTableConfig.edit, htable]
  cases hcommand : c.command with
  | addFlow => exact ⟨_, rfl, by simp⟩
  | modifyFlow => exact ⟨_, rfl, by simp⟩
  | deleteFlow => exact ⟨_, rfl, by simp⟩
  | other => exact absurd hcommand h

theorem length_run (now : SimTime) (tables : List FlowTable) (c : FlowTableChange) :
    (c.run now tables).length = tables.length := by
  unfold FlowTableChange.run FlowTableConfig.edit
  split
  · rfl
  · split <;> simp

theorem not_applied_of_other (h : c.command = .other) : ¬c.Applied now tables := by
  rintro ⟨table, -, happlied⟩
  rw [h] at happlied
  exact happlied

theorem InRange.tail (h : InRange (c :: cs) tables) : InRange cs (c.run now tables) := by
  intro d hd hcommand
  rw [length_run]
  exact h d (List.mem_cons_of_mem _ hd) hcommand

/-- The status after the loops: that of the last known change, or the one before the loops. -/
theorem editChanges_iff (h : InRange cs tables) (status : Bool) :
    (editChanges now cs (status, tables)).1 ↔
      LastApplied now cs tables ∨ (status = true ∧ ∀ c ∈ cs, c.command = .other) := by
  induction cs generalizing status tables with
  | nil => simp [editChanges, LastApplied]
  | cons c cs ih =>
    have htail : InRange cs (c.run now tables) := h.tail
    by_cases hother : c.command = .other
    · have hrun : c.run now tables = tables := by
        rw [FlowTableChange.run, edit_other hother]
      have hedit : editChanges now (c :: cs) (status, tables) =
          editChanges now cs (status, tables) := by
        rw [editChanges, List.foldl_cons, edit_other hother, editChanges]
      rw [hrun] at htail
      rw [hedit, ih htail, LastApplied, hrun, List.forall_mem_cons]
      simp only [hother, ne_eq, not_true_eq_false, false_and, or_false, true_and]
    · obtain ⟨b, hb, hiff⟩ := edit_known now status hother
        (h c List.mem_cons_self hother)
      have hedit : editChanges now (c :: cs) (status, tables) =
          editChanges now cs (b, c.run now tables) := by
        rw [editChanges, List.foldl_cons, hb, editChanges]
      rw [hedit, ih htail, LastApplied, List.forall_mem_cons]
      simp only [hother, ne_eq, not_false_eq_true, true_and, false_and, and_false, or_false]
      rw [hiff, and_comm]

theorem AllApplied.lastApplied (h : AllApplied now cs tables) (hne : cs ≠ []) :
    LastApplied now cs tables := by
  induction cs generalizing tables with
  | nil => exact absurd rfl hne
  | cons c cs ih =>
    obtain ⟨happlied, hrest⟩ := h
    cases cs with
    | nil =>
      refine .inr ⟨fun hother => not_applied_of_other hother happlied, fun d hd => ?_, happlied⟩
      cases hd
    | cons d cs => exact .inl (ih hrest (List.cons_ne_nil _ _))

/-! ## The store -/

/-- The other configurators add their own answers to that of the one for flow tables. -/
theorem editConfig_store (before after : List OtherConfigurator) :
    (running.editConfig (before.map (·.configurator) ++ .flowTable now ::
      after.map (·.configurator)) operation errorOption config).1 =
      ((before ++ after).any (·.confirms) || ((Configurator.flowTable now).editConfig operation
        errorOption config running.state).1) := by
  have hothers : ∀ (others : List OtherConfigurator)
      (r : Bool × RunningDataStore (List FlowTable)),
      (others.map (·.configurator)).foldl (fun r configurator =>
        let edited := configurator.editConfig operation errorOption config r.2.state
        (r.1 || edited.1, { r.2 with state := edited.2 })) r =
      (r.1 || others.any (·.confirms), r.2) := by
    intro others
    induction others with
    | nil =>
      intro r
      simp
    | cons other others ih =>
      intro r
      rw [List.map_cons, List.foldl_cons, ih, List.any_cons]
      cases other with
      | ofOtherClass getConfig =>
        simp [OtherConfigurator.configurator, OtherConfigurator.confirms]
      | dummy config => simp [OtherConfigurator.configurator, OtherConfigurator.confirms,
          Configurator.dummy]
  simp only [RunningDataStore.editConfig, List.foldl_append, List.foldl_cons, hothers,
    Bool.false_or, List.any_append]
  cases before.any (·.confirms) <;> cases after.any (·.confirms) <;>
    simp

/-- An edit is confirmed exactly when it was applied if it has a change, its tables exist, and all
changes are applied if the last known one is, or if a configurator confirms anything. -/
theorem confirmsApplied_iff (now : SimTime) (before after : List OtherConfigurator)
    (operation : EditOperation) (errorOption : ErrorOption) (config : List FlowTableConfig)
    (running : RunningDataStore (List FlowTable)) :
    ConfirmsApplied now before after operation errorOption config running ↔
      changes config ≠ [] ∧ InRange (changes config) running.state ∧
        (LastApplied now (changes config) running.state ∨ (before ++ after).any (·.confirms) →
          AllApplied now (changes config) running.state) := by
  have hstatus (hrange : InRange (changes config) running.state) :
      ((Configurator.flowTable now).editConfig operation errorOption config running.state).1 ↔
        LastApplied now (changes config) running.state := by
    rw [editConfig_flowTable, editChanges_iff hrange]
    simp
  constructor
  · rintro ⟨hrange, hconfigurator, hstore⟩
    rw [hstatus hrange] at hconfigurator
    rw [editConfig_store, Bool.or_eq_true, hstatus hrange] at hstore
    refine ⟨fun hempty => ?_, hrange, fun h => hstore.mp h.symm⟩
    rw [hempty] at hconfigurator
    exact hconfigurator.mpr trivial
  · rintro ⟨hne, hrange, himp⟩
    refine ⟨hrange, ?_, ?_⟩
    · rw [hstatus hrange]
      exact ⟨fun h => himp (.inl h), fun h => h.lastApplied hne⟩
    · rw [editConfig_store, Bool.or_eq_true, hstatus hrange]
      exact ⟨fun h => himp h.symm, fun h => .inr (h.lastApplied hne)⟩

/-- An entry that a full table refuses, and a deletion after it. -/
def refusedThenDeleted : List FlowTableConfig :=
  addFlow 1 10 ++ addFlow 2 20 ++
    [⟨.deleteFlow, 0, [⟨3, 0, 0, 0, 0, 0, 0, 0, { OxmBasicMatch.zero with ofbInPort := 9 }, []⟩]⟩]

theorem not_confirmsApplied : ¬∀ (now : SimTime) (before after : List OtherConfigurator)
    (operation : EditOperation) (errorOption : ErrorOption) (config : List FlowTableConfig)
    (running : RunningDataStore (List FlowTable)),
    ConfirmsApplied now before after operation errorOption config running := by
  intro h
  have hconfirmed := (h 0 [] [] .merge .rollbackOnError refusedThenDeleted
    { state := [FlowTable.initTable 0 1 0] }).configurator
  obtain ⟨-, ⟨table, htable, hadded⟩, -⟩ := hconfirmed.mp (by decide)
  cases htable
  revert hadded
  decide

end TsnReconfig.NetConf
