import TsnReconfig.Avb.SRPTable
import TsnReconfig.NetConf.DataStores

/-!
# Configurations of the SRP table

`NetConfDataConfiguratorSRP` and `NetConfDataConfiguratorMultipart` in the running store: what they
accept, and what an edit then does. A function returns `none` where the source throws.
-/

namespace TsnReconfig.NetConf

open Avb OpenFlow

/-- A talker of a configuration. -/
structure TalkerConfig (M : Type*) where
  streamId : UInt64
  module : M
  address : MACAddress
  srClass : SRClass
  framesize : UInt64
  intervalFrames : UInt16
  vlanId : UInt16
  pcp : UInt8

/-- A listener of a configuration. -/
structure ListenerConfig (M : Type*) where
  streamId : UInt64
  module : M
  vlanId : UInt16

/-- `NetConfConfigSRP`. -/
structure ConfigSRP (M : Type*) where
  talkerEntries : List (TalkerConfig M)
  listenerEntries : List (ListenerConfig M)

/-- `NetConfConfigSRP` and `NetConfConfigMultipart`. -/
inductive SrpConfig (M : Type*)
  | srp (config : ConfigSRP M)
  | multipart (configurations : List (SrpConfig M))

/-- What the table reads of its module: the time and its parameter. -/
structure TableClock where
  agingTime : SimTime
  now : SimTime

variable {M : Type*} [DecidableEq M]

/-! ## The configurator for the SRP table -/

namespace DataConfiguratorSRP

variable (clock : TableClock) (operation : EditOperation) (errorOption : ErrorOption)

def updateTalker (t : SRPTable M) (talker : TalkerConfig M) : Option (SRPTable M) :=
  (t.updateTalkerWithStreamId clock.now talker.streamId talker.module talker.address
    talker.srClass talker.framesize talker.intervalFrames talker.vlanId talker.pcp true).map (·.2)

def updateListener (t : SRPTable M) (listener : ListenerConfig M) : Option (SRPTable M) :=
  (t.updateListenerWithStreamId clock.agingTime clock.now listener.streamId listener.module
    listener.vlanId false).map (·.2)

/-- The body of the loop over the talkers; `r` has `noError` and the table. -/
def editTalker (talker : TalkerConfig M) (r : Bool × SRPTable M) : Option (Bool × SRPTable M) :=
  match operation with
  | .create =>
    let found := r.2.getTalkerForStreamId clock.agingTime clock.now talker.streamId talker.vlanId
    if found.1.isSome then some (false, found.2)
    else (updateTalker clock found.2 talker).map (r.1, ·)
  | .merge => (updateTalker clock r.2 talker).map (r.1, ·)
  | .delete =>
    (r.2.removeTalkerWithStreamId talker.streamId talker.module talker.vlanId).map fun removed =>
      (r.1 && removed.1, removed.2)
  | .remove =>
    (r.2.removeTalkerWithStreamId talker.streamId talker.module talker.vlanId).map fun removed =>
      (r.1, removed.2)
  | .none | .replace => some r

/-- The body of the loop over the listeners. To create one is an error if the stream has none. -/
def editListener (listener : ListenerConfig M) (r : Bool × SRPTable M) :
    Option (Bool × SRPTable M) :=
  match operation with
  | .create =>
    let found := r.2.getListenersForStreamId clock.agingTime clock.now listener.streamId
      listener.vlanId
    if found.1.length ≤ 0 then some (false, found.2)
    else (updateListener clock found.2 listener).map (r.1, ·)
  | .merge => (updateListener clock r.2 listener).map (r.1, ·)
  | .delete =>
    let removed := r.2.removeListenerWithStreamId listener.streamId listener.module listener.vlanId
    some (r.1 && removed.1, removed.2)
  | .remove =>
    let removed := r.2.removeListenerWithStreamId listener.streamId listener.module listener.vlanId
    some (r.1, removed.2)
  | .none | .replace => some r

/-- A loop with its check at the start of each pass. The source returns there, and so nothing after
it is done and the status stays false. -/
def editEntries {E : Type*} (edit : E → Bool × SRPTable M → Option (Bool × SRPTable M))
    (entries : List E) (r : Bool × SRPTable M) : Option (Bool × SRPTable M) :=
  entries.foldlM (fun r e => if !r.1 && errorOption = .stopOnError then some r else edit e r) r

/-- `validateConfig`. The operation would have to be two at once for a check. -/
def validateConfig (config : ConfigSRP M) (t : SRPTable M) : Bool :=
  if operation = .create ∧ operation = .delete then
    config.listenerEntries.all (fun listener => (t.getListenersForStreamId clock.agingTime clock.now
      listener.streamId listener.vlanId).1.length ≠ 0) &&
    config.talkerEntries.all fun talker => (t.getTalkerEntryForStreamId clock.agingTime clock.now
      talker.streamId talker.vlanId).1.isSome
  else true

/-- `editConfig`. -/
def editConfig (config : ConfigSRP M) (t : SRPTable M) : Option (Bool × SRPTable M) :=
  if errorOption = .rollbackOnError ∧ !validateConfig clock operation config t then some (false, t)
  else
    (editEntries errorOption (editTalker clock operation) config.talkerEntries (true, t)).bind
      (editEntries errorOption (editListener clock operation) config.listenerEntries)

end DataConfiguratorSRP

/-! ## The running store -/

/-- The classes of configurators in a switch: those for other configurations refuse these. -/
inductive ConfiguratorClass
  | flowTable | ieee8021Qbv | srp | multipart
  deriving DecidableEq, Repr

/-- The configurators of a running store, none of them twice. `initialize` adds the one for
multipart configurations if it is not there. -/
structure RunningConfigurators where
  classes : List ConfiguratorClass
  nodup : classes.Nodup
  multipart : .multipart ∈ classes

/-- The loop of `NetConfRunningDataStore::editConfig` for a configuration that only one class
knows. -/
def tryConfigurators (classes : List ConfiguratorClass) (responsible : ConfiguratorClass)
    (edit : SRPTable M → Option (Bool × SRPTable M)) (t : SRPTable M) :
    Option (Bool × SRPTable M) :=
  classes.foldlM (fun r c => (if c = responsible then edit r.2 else some (false, r.2)).map
    fun edited => (r.1 || edited.1, edited.2)) (false, t)

namespace RunningConfigurators

variable (store : RunningConfigurators) (clock : TableClock) (operation : EditOperation)
  (errorOption : ErrorOption)

mutual
/-- `NetConfRunningDataStore::validateConfig`, which does not pass the operation on. -/
def validateConfig : SrpConfig M → SRPTable M → Bool
  | .srp config, t => store.classes.any fun c => c = .srp &&
      DataConfiguratorSRP.validateConfig clock .none config t
  | .multipart configurations, t => store.classes.any fun c => c = .multipart &&
      validateConfigurations configurations t

/-- `NetConfDataConfiguratorMultipart::validateConfig`. -/
def validateConfigurations : List (SrpConfig M) → SRPTable M → Bool
  | [], _ => true
  | config :: configurations, t =>
    validateConfig config t && validateConfigurations configurations t
end

mutual
/-- `NetConfRunningDataStore::editConfig`. -/
def editConfig : SrpConfig M → SRPTable M → Option (Bool × SRPTable M)
  | .srp config, t => tryConfigurators store.classes .srp
      (DataConfiguratorSRP.editConfig clock operation errorOption config) t
  | .multipart configurations, t => tryConfigurators store.classes .multipart (fun t =>
      if errorOption = .rollbackOnError ∧ !store.validateConfigurations clock configurations t then
        some (false, t)
      else editConfigurations configurations (true, t)) t

/-- The loop of `NetConfDataConfiguratorMultipart::editConfig`. -/
def editConfigurations : List (SrpConfig M) → Bool × SRPTable M → Option (Bool × SRPTable M)
  | [], r => some r
  | config :: configurations, r =>
    (editConfig config r.2).bind fun edited =>
      let status := r.1 && edited.1
      if !status && errorOption = .stopOnError then some (false, edited.2)
      else editConfigurations configurations (status, edited.2)
end

end RunningConfigurators

/-! ## What an edit should do -/

/-- The talker is in the table as it is configured. A zero leaves open what it is. -/
def TalkerConfig.HeldBy (talker : TalkerConfig M) (t : SRPTable M) : Prop :=
  ∃ e, t.talker talker.vlanId talker.streamId = some e ∧ e.module = talker.module ∧
    e.address = talker.address ∧ e.srClass = talker.srClass ∧ e.pcp = talker.pcp ∧
    (talker.framesize ≠ 0 → e.framesize = talker.framesize) ∧
    (talker.intervalFrames ≠ 0 → e.intervalFrames = talker.intervalFrames)

/-- An entry of a configuration. -/
inductive SrpEntry (M : Type*)
  | talker (talker : TalkerConfig M)
  | listener (listener : ListenerConfig M)

namespace SrpEntry

/-- The loop body for the entry. -/
def edit (clock : TableClock) (operation : EditOperation) :
    SrpEntry M → Bool × SRPTable M → Option (Bool × SRPTable M)
  | talker c => DataConfiguratorSRP.editTalker clock operation c
  | listener c => DataConfiguratorSRP.editListener clock operation c

/-- What the operation should leave. -/
def Done (operation : EditOperation) (t : SRPTable M) : SrpEntry M → Prop
  | talker c => match operation with
    | .none => True
    | .create | .merge | .replace => c.HeldBy t
    | .delete | .remove => t.talker c.vlanId c.streamId = none
  | listener c => match operation with
    | .none => True
    | .create | .merge | .replace => (t.listener c.vlanId c.streamId c.module).isSome
    | .delete | .remove => t.listener c.vlanId c.streamId c.module = none

/-- When the code does it. A listener has to have a talker, to create one takes another listener of
the stream, and nothing is ever replaced. -/
def Ready (clock : TableClock) (operation : EditOperation) (t : SRPTable M) : SrpEntry M → Prop
  | talker c =>
    let known := t.talker c.vlanId c.streamId
    match operation with
    | .none => True
    | .create => known = none ∧ c.framesize ≠ 0 ∧ c.intervalFrames ≠ 0
    | .merge => (known = none → c.framesize ≠ 0 ∧ c.intervalFrames ≠ 0) ∧
        ∀ old, known = some old → old.module = c.module
    | .replace => c.HeldBy t
    | .delete => known.isSome ∧ ∀ old, known = some old → old.module = c.module
    | .remove => ∀ old, known = some old → old.module = c.module
  | listener c => match operation with
    | .none => True
    | .create => (t.talker c.vlanId c.streamId).isSome ∧
        (t.getListenersForStreamId clock.agingTime clock.now c.streamId c.vlanId).1 ≠ []
    | .merge => (t.talker c.vlanId c.streamId).isSome
    | .replace | .delete => (t.listener c.vlanId c.streamId c.module).isSome
    | .remove => True

end SrpEntry

/-- The entries in the order in which they are edited. -/
def ConfigSRP.entries (config : ConfigSRP M) : List (SrpEntry M) :=
  config.talkerEntries.map .talker ++ config.listenerEntries.map .listener

mutual
def SrpConfig.entries : SrpConfig M → List (SrpEntry M)
  | .srp config => config.entries
  | .multipart configurations => entriesOf configurations

def entriesOf : List (SrpConfig M) → List (SrpEntry M)
  | [] => []
  | config :: configurations => config.entries ++ entriesOf configurations
end

variable {store : RunningConfigurators} {clock : TableClock} {operation : EditOperation}
  {errorOption : ErrorOption} {t t' t₁ : SRPTable M} {e : SrpEntry M} {es : List (SrpEntry M)}

/-- Every entry is edited without an error in its turn, and then the operation is done. -/
def AppliesAll (clock : TableClock) (operation : EditOperation) :
    List (SrpEntry M) → SRPTable M → SRPTable M → Prop
  | [], t, t' => t' = t
  | e :: es, t, t' => ∃ t₁, e.edit clock operation (true, t) = some (true, t₁) ∧
      e.Done operation t₁ ∧ AppliesAll clock operation es t₁ t'

/-- Every entry finds in its turn what it needs. -/
def AllReady (clock : TableClock) (operation : EditOperation) :
    List (SrpEntry M) → SRPTable M → Prop
  | [], _ => True
  | e :: es, t => e.Ready clock operation t ∧
      ∀ t₁, e.edit clock operation (true, t) = some (true, t₁) → AllReady clock operation es t₁

/-- What is accepted is applied as a whole, and an edit with what is not accepted changes nothing,
unless it should go on after an error. -/
structure AgreesWithEdit (store : RunningConfigurators) (clock : TableClock)
    (operation : EditOperation) (config : SrpConfig M) (t : SRPTable M) : Prop where
  accepted : store.validateConfig clock config t = true → ∀ errorOption, ∃ t',
    store.editConfig clock operation errorOption config t = some (true, t') ∧
      AppliesAll clock operation config.entries t t'
  refused : store.validateConfig clock config t = false → ∀ errorOption,
    errorOption ≠ .continueOnError → ∃ b,
      store.editConfig clock operation errorOption config t = some (b, t)

/-! ## One entry -/

namespace SrpEntry

theorem heldBy_of_updateTalker {c : TalkerConfig M}
    (h : DataConfiguratorSRP.updateTalker clock t c = some t') : c.HeldBy t' := by
  obtain ⟨r, hr, rfl⟩ := Option.map_eq_some_iff.mp h
  obtain ⟨framesize, intervalFrames, htalker, hold, hnew⟩ := SRPTable.talker_updateTalker hr
  refine ⟨_, (htalker _ _).trans (if_pos ⟨rfl, rfl⟩), rfl, rfl, rfl, rfl, fun hf => ?_,
    fun hi => ?_⟩
  · cases hknown : t.talker c.vlanId c.streamId with
    | none => exact (hnew hknown).2.2.1
    | some old => exact (hold old hknown).1.trans (if_pos (UInt64.pos_iff_ne_zero.mpr hf))
  · cases hknown : t.talker c.vlanId c.streamId with
    | none => exact (hnew hknown).2.2.2
    | some old => exact (hold old hknown).2.trans (if_pos (UInt16.pos_iff_ne_zero.mpr hi))

theorem exists_updateTalker_iff {c : TalkerConfig M} :
    (∃ t', DataConfiguratorSRP.updateTalker clock t c = some t') ↔
      (t.talker c.vlanId c.streamId = none → c.framesize ≠ 0 ∧ c.intervalFrames ≠ 0) ∧
        ∀ old, t.talker c.vlanId c.streamId = some old → old.module = c.module := by
  have hiff : (t.updateTalkerWithStreamId clock.now c.streamId c.module c.address c.srClass
      c.framesize c.intervalFrames c.vlanId c.pcp true).isSome ↔ _ :=
    SRPTable.isSome_updateTalker_iff
  rw [← hiff, ← Option.isSome_iff_exists, DataConfiguratorSRP.updateTalker, Option.isSome_map]

theorem exists_updateListener_iff {c : ListenerConfig M} :
    (∃ t', DataConfiguratorSRP.updateListener clock t c = some t') ↔
      (t.talker c.vlanId c.streamId).isSome := by
  have hiff : (t.updateListenerWithStreamId clock.agingTime clock.now c.streamId c.module c.vlanId
      false).isSome ↔ _ := SRPTable.isSome_updateListener_iff
  rw [← hiff, ← Option.isSome_iff_exists, DataConfiguratorSRP.updateListener, Option.isSome_map]

theorem listener_of_updateListener {c : ListenerConfig M}
    (h : DataConfiguratorSRP.updateListener clock t c = some t') :
    (t'.listener c.vlanId c.streamId c.module).isSome := by
  obtain ⟨r, hr, rfl⟩ := Option.map_eq_some_iff.mp h
  rw [SRPTable.listener_updateListener hr, if_pos ⟨rfl, rfl, rfl⟩]
  rfl

omit [DecidableEq M] in
theorem getTalker_fst (t : SRPTable M) (agingTime now : SimTime) (sid : UInt64) (vid : UInt16) :
    (t.getTalkerForStreamId agingTime now sid vid).1 = (t.talker vid sid).map (·.module) := by
  change (((t.removeAgedEntriesIfNeeded agingTime now).talker vid sid).map _) = _
  rw [SRPTable.talker_removeAgedEntriesIfNeeded]

theorem getTalker_talker (t : SRPTable M) (agingTime now : SimTime) (sid sid' : UInt64)
    (vid v : UInt16) :
    (t.getTalkerForStreamId agingTime now sid vid).2.talker v sid' = t.talker v sid' := by
  have hsame := SRPTable.sameEntries_touchTalkers (t.removeAgedEntriesIfNeeded agingTime now) vid
  exact (hsame.talker v sid').trans SRPTable.talker_removeAgedEntriesIfNeeded

theorem getListeners_talker (t : SRPTable M) (agingTime now : SimTime) (sid sid' : UInt64)
    (vid v : UInt16) :
    (t.getListenersForStreamId agingTime now sid vid).2.talker v sid' = t.talker v sid' := by
  have hsame := SRPTable.sameEntries_touchListeners (t.removeAgedEntriesIfNeeded agingTime now) vid
  exact (hsame.talker v sid').trans SRPTable.talker_removeAgedEntriesIfNeeded

omit [DecidableEq M] in
/-- A map that only adds the status. -/
theorem exists_map_status {x : Option (SRPTable M)} {P : SRPTable M → Prop} :
    (∃ t', x.map (true, ·) = some (true, t') ∧ P t') ↔ ∃ t', x = some t' ∧ P t' := by
  simp only [Option.map_eq_some_iff, Prod.mk.injEq, true_and, exists_eq_right]

theorem edit_talker_iff (c : TalkerConfig M) :
    (∃ t', (talker c).edit clock operation (true, t) = some (true, t') ∧
      (talker c).Done operation t') ↔ (talker c).Ready clock operation t := by
  have hupdate (u : SRPTable M) :
      (∃ t', (DataConfiguratorSRP.updateTalker clock u c).map (true, ·) = some (true, t') ∧
        c.HeldBy t') ↔
      (u.talker c.vlanId c.streamId = none → c.framesize ≠ 0 ∧ c.intervalFrames ≠ 0) ∧
        ∀ old, u.talker c.vlanId c.streamId = some old → old.module = c.module := by
    rw [exists_map_status, ← exists_updateTalker_iff]
    exact exists_congr fun t' => and_iff_left_of_imp heldBy_of_updateTalker
  cases operation with
  | none => exact ⟨fun _ => trivial, fun _ => ⟨t, rfl, trivial⟩⟩
  | create =>
    -- a talker is created only where none is known
    unfold edit DataConfiguratorSRP.editTalker Ready
    dsimp only
    rw [getTalker_fst, Option.isSome_map]
    cases hknown : t.talker c.vlanId c.streamId with
    | none =>
      rw [if_neg (by simp)]
      refine (hupdate _).trans ?_
      rw [getTalker_talker, hknown]
      simp
    | some old => simp
  | merge => exact hupdate t
  | replace =>
    constructor
    · rintro ⟨t', ht', hdone⟩
      cases ht'
      exact hdone
    · exact fun hheld => ⟨t, rfl, hheld⟩
  | delete =>
    have hdone (t' : SRPTable M) (h : t.removeTalkerWithStreamId c.streamId c.module c.vlanId =
        some (true, t')) : t'.talker c.vlanId c.streamId = none := by
      rw [SRPTable.talker_removeTalker h, if_pos ⟨rfl, rfl⟩]
    constructor
    · rintro ⟨t', ht', -⟩
      obtain ⟨⟨removed, t₁⟩, hr, heq⟩ := Option.map_eq_some_iff.mp ht'
      obtain rfl : removed = true := by simpa using congrArg Prod.fst heq
      obtain ⟨hsome, hmodule⟩ := SRPTable.removeTalker_iff.mp ⟨t₁, hr⟩
      exact ⟨hsome.symm, hmodule⟩
    · rintro ⟨hsome, hmodule⟩
      obtain ⟨t', ht'⟩ := SRPTable.removeTalker_iff.mpr ⟨hsome.symm, hmodule⟩
      exact ⟨t', Option.map_eq_some_iff.mpr ⟨_, ht', rfl⟩, hdone t' ht'⟩
  | remove =>
    constructor
    · rintro ⟨t', ht', -⟩
      obtain ⟨⟨removed, t₁⟩, hr, -⟩ := Option.map_eq_some_iff.mp ht'
      exact (SRPTable.removeTalker_iff.mp ⟨t₁, hr⟩).2
    · intro hmodule
      obtain ⟨t', ht'⟩ := SRPTable.removeTalker_iff.mpr
        ⟨(rfl : (t.talker c.vlanId c.streamId).isSome = _), hmodule⟩
      refine ⟨t', Option.map_eq_some_iff.mpr ⟨_, ht', rfl⟩, ?_⟩
      change t'.talker c.vlanId c.streamId = none
      rw [SRPTable.talker_removeTalker ht', if_pos ⟨rfl, rfl⟩]

theorem edit_listener_iff (c : ListenerConfig M) :
    (∃ t', (listener c).edit clock operation (true, t) = some (true, t') ∧
      (listener c).Done operation t') ↔ (listener c).Ready clock operation t := by
  have hupdate (u : SRPTable M) :
      (∃ t', (DataConfiguratorSRP.updateListener clock u c).map (true, ·) = some (true, t') ∧
        (t'.listener c.vlanId c.streamId c.module).isSome) ↔
      (u.talker c.vlanId c.streamId).isSome := by
    rw [exists_map_status, ← exists_updateListener_iff]
    exact exists_congr fun t' => and_iff_left_of_imp listener_of_updateListener
  have hremoved : (t.removeListenerWithStreamId c.streamId c.module c.vlanId).2.listener c.vlanId
      c.streamId c.module = none := by
    rw [SRPTable.listener_removeListener, if_pos ⟨rfl, rfl, rfl⟩]
  cases operation with
  | none => exact ⟨fun _ => trivial, fun _ => ⟨t, rfl, trivial⟩⟩
  | create =>
    unfold edit DataConfiguratorSRP.editListener Ready
    dsimp only
    -- the check is on all listeners of the stream, and the query ages the table
    by_cases hempty : (t.getListenersForStreamId clock.agingTime clock.now c.streamId
        c.vlanId).1.length ≤ 0
    · have hnil := List.length_eq_zero_iff.mp (Nat.le_zero.mp hempty)
      rw [if_pos hempty, hnil]
      simp
    · have hne := fun hnil => hempty (Nat.le_zero.mpr (List.length_eq_zero_iff.mpr hnil))
      rw [if_neg hempty, and_iff_left hne]
      refine (hupdate _).trans ?_
      rw [getListeners_talker]
  | merge => exact hupdate t
  | replace =>
    constructor
    · rintro ⟨t', ht', hdone⟩
      cases ht'
      exact hdone
    · exact fun hheld => ⟨t, rfl, hheld⟩
  | delete =>
    unfold edit DataConfiguratorSRP.editListener Ready
    dsimp only
    rw [← SRPTable.removeListener_fst]
    constructor
    · rintro ⟨t', ht', -⟩
      simpa using congrArg Prod.fst (Option.some.inj ht')
    · intro hfound
      refine ⟨_, ?_, hremoved⟩
      rw [hfound, Bool.and_true]
  | remove => exact ⟨fun _ => trivial, fun _ => ⟨_, rfl, hremoved⟩⟩

/-- One entry is edited and the operation is done exactly when it finds what it needs. -/
theorem edit_iff (e : SrpEntry M) :
    (∃ t', e.edit clock operation (true, t) = some (true, t') ∧ e.Done operation t') ↔
      e.Ready clock operation t := by
  cases e with
  | talker c => exact edit_talker_iff c
  | listener c => exact edit_listener_iff c

/-- After an error the status stays false. -/
theorem edit_false {r : Bool × SRPTable M} (h : e.edit clock operation (false, t) = some r) :
    r.1 = false := by
  cases e with
  | talker c =>
    unfold edit DataConfiguratorSRP.editTalker at h
    cases operation with
    | create =>
      dsimp only at h
      split_ifs at h
      · cases h
        rfl
      · obtain ⟨t', -, rfl⟩ := Option.map_eq_some_iff.mp h
        rfl
    | delete =>
      obtain ⟨t', -, rfl⟩ := Option.map_eq_some_iff.mp h
      rfl
    | merge | remove =>
      obtain ⟨t', -, rfl⟩ := Option.map_eq_some_iff.mp h
      rfl
    | none | replace =>
      cases h
      rfl
  | listener c =>
    unfold edit DataConfiguratorSRP.editListener at h
    cases operation with
    | create =>
      dsimp only at h
      split_ifs at h
      · cases h
        rfl
      · obtain ⟨t', -, rfl⟩ := Option.map_eq_some_iff.mp h
        rfl
    | merge =>
      obtain ⟨t', -, rfl⟩ := Option.map_eq_some_iff.mp h
      rfl
    | delete | remove | none | replace =>
      cases h
      rfl

end SrpEntry

/-! ## The loops -/

/-- Every entry is edited without an error in its turn. -/
def RunsThrough (clock : TableClock) (operation : EditOperation) :
    List (SrpEntry M) → SRPTable M → SRPTable M → Prop
  | [], t, t' => t' = t
  | e :: es, t, t' => ∃ t₁, e.edit clock operation (true, t) = some (true, t₁) ∧
      RunsThrough clock operation es t₁ t'

theorem AppliesAll.runsThrough (h : AppliesAll clock operation es t t') :
    RunsThrough clock operation es t t' := by
  induction es generalizing t with
  | nil => exact h
  | cons e es ih =>
    obtain ⟨t₁, he, -, hes⟩ := h
    exact ⟨t₁, he, ih hes⟩

/-- All entries are ready exactly when the whole configuration can be applied. -/
theorem exists_appliesAll_iff :
    (∃ t', AppliesAll clock operation es t t') ↔ AllReady clock operation es t := by
  induction es generalizing t with
  | nil => exact ⟨fun _ => trivial, fun _ => ⟨t, rfl⟩⟩
  | cons e es ih =>
    constructor
    · rintro ⟨t', t₁, he, hdone, hes⟩
      refine ⟨e.edit_iff.mp ⟨t₁, he, hdone⟩, fun t₂ ht₂ => ?_⟩
      obtain rfl : t₁ = t₂ := by simpa using he.symm.trans ht₂
      exact ih.mp ⟨t', hes⟩
    · rintro ⟨hready, hrest⟩
      obtain ⟨t₁, he, hdone⟩ := e.edit_iff.mpr hready
      obtain ⟨t', ht'⟩ := ih.mpr (hrest t₁ he)
      exact ⟨t', t₁, he, hdone, ht'⟩

theorem runsThrough_append {es' : List (SrpEntry M)} :
    RunsThrough clock operation (es ++ es') t t' ↔
      ∃ t₁, RunsThrough clock operation es t t₁ ∧ RunsThrough clock operation es' t₁ t' := by
  induction es generalizing t with
  | nil => exact ⟨fun h => ⟨t, rfl, h⟩, fun ⟨_, heq, h⟩ => heq ▸ h⟩
  | cons e es ih =>
    constructor
    · rintro ⟨t₁, he, hes⟩
      obtain ⟨t₂, h₂, h₂'⟩ := ih.mp hes
      exact ⟨t₂, ⟨t₁, he, h₂⟩, h₂'⟩
    · rintro ⟨t₂, ⟨t₁, he, h₂⟩, h₂'⟩
      exact ⟨t₁, he, ih.mpr ⟨t₂, h₂, h₂'⟩⟩

namespace DataConfiguratorSRP

theorem editEntries_false {r : Bool × SRPTable M}
    (h : editEntries errorOption (SrpEntry.edit clock operation) es (false, t) = some r) :
    r.1 = false := by
  induction es generalizing t with
  | nil =>
    cases h
    rfl
  | cons e es ih =>
    rw [editEntries, List.foldlM_cons] at h
    obtain ⟨⟨status, t₁⟩, he, h⟩ := Option.bind_eq_some_iff.mp h
    have hstatus : status = false := by
      split_ifs at he
      · cases he
        rfl
      · exact SrpEntry.edit_false he
    rw [hstatus] at h
    exact ih h

/-- A loop ends without an error exactly when every pass does. -/
theorem editEntries_iff :
    editEntries errorOption (SrpEntry.edit clock operation) es (true, t) = some (true, t') ↔
      RunsThrough clock operation es t t' := by
  induction es generalizing t with
  | nil =>
    constructor
    · intro h
      cases h
      rfl
    · rintro rfl
      rfl
  | cons e es ih =>
    rw [editEntries, List.foldlM_cons, RunsThrough]
    simp only [Bool.not_true, Bool.false_and, Bool.false_eq_true, if_false]
    constructor
    · intro h
      obtain ⟨⟨status, t₁⟩, he, h⟩ := Option.bind_eq_some_iff.mp h
      cases status with
      | true => exact ⟨t₁, he, ih.mp h⟩
      | false => cases editEntries_false h
    · rintro ⟨t₁, he, hes⟩
      rw [he]
      exact ih.mpr hes

omit [DecidableEq M] in
theorem validateConfig_eq_true (config : ConfigSRP M) (t : SRPTable M) :
    validateConfig clock operation config t = true := by
  unfold validateConfig
  apply if_neg
  rintro ⟨hcreate, hdelete⟩
  rw [hcreate] at hdelete
  cases hdelete

theorem editConfig_eq (config : ConfigSRP M) (t : SRPTable M) :
    editConfig clock operation errorOption config t =
      editEntries errorOption (SrpEntry.edit clock operation) config.entries (true, t) := by
  unfold editConfig
  rw [validateConfig_eq_true, if_neg (by simp), ConfigSRP.entries]
  simp only [editEntries, List.foldlM_append, List.foldlM_map]
  rfl

end DataConfiguratorSRP

/-! ## The store -/

omit [DecidableEq M] in
theorem tryConfigurators_eq {classes : List ConfiguratorClass} (hnodup : classes.Nodup)
    (responsible : ConfiguratorClass) (edit : SRPTable M → Option (Bool × SRPTable M))
    (t : SRPTable M) :
    tryConfigurators classes responsible edit t =
      if responsible ∈ classes then edit t else some (false, t) := by
  have hloop : ∀ (classes : List ConfiguratorClass) (r : Bool × SRPTable M), classes.Nodup →
      classes.foldlM (fun r c => (if c = responsible then edit r.2 else some (false, r.2)).map
        fun edited => (r.1 || edited.1, edited.2)) r =
      if responsible ∈ classes then (edit r.2).map fun edited => (r.1 || edited.1, edited.2)
      else some r := by
    intro classes
    induction classes with
    | nil =>
      intro r _
      rfl
    | cons c classes ih =>
      intro r hnodup
      obtain ⟨hnot, hnodup⟩ := List.nodup_cons.mp hnodup
      rw [List.foldlM_cons]
      by_cases hc : c = responsible
      · rw [if_pos hc, if_pos (hc ▸ List.mem_cons_self)]
        cases edit r.2 with
        | none => rfl
        | some edited => exact (ih _ hnodup).trans (if_neg (hc ▸ hnot))
      · rw [if_neg hc, Option.map_some]
        refine (ih _ hnodup).trans ?_
        simp only [List.mem_cons, Ne.symm hc, false_or, Bool.or_false]
  rw [tryConfigurators, hloop classes _ hnodup]
  split_ifs
  · simp
  · rfl

namespace RunningConfigurators

theorem editConfigurations_false {configurations : List (SrpConfig M)} {r : Bool × SRPTable M}
    (h : store.editConfigurations clock operation errorOption configurations (false, t) =
      some r) : r.1 = false := by
  induction configurations generalizing t with
  | nil =>
    rw [editConfigurations] at h
    cases h
    rfl
  | cons config configurations ih =>
    rw [editConfigurations] at h
    obtain ⟨edited, -, h⟩ := Option.bind_eq_some_iff.mp h
    dsimp only at h
    split_ifs at h
    · cases h
      rfl
    · exact ih h

omit [DecidableEq M] in
mutual
theorem validateConfig_eq_true (hsrp : .srp ∈ store.classes) (t : SRPTable M) :
    ∀ config : SrpConfig M, store.validateConfig clock config t = true
  | .srp config => by
    rw [validateConfig, List.any_eq_true]
    exact ⟨_, hsrp, by simp [DataConfiguratorSRP.validateConfig_eq_true]⟩
  | .multipart configurations => by
    rw [validateConfig, List.any_eq_true]
    exact ⟨_, store.multipart, by simp [validateConfigurations_eq_true hsrp t configurations]⟩

theorem validateConfigurations_eq_true (hsrp : .srp ∈ store.classes) (t : SRPTable M) :
    ∀ configurations : List (SrpConfig M),
      store.validateConfigurations clock configurations t = true
  | [] => by rw [validateConfigurations]
  | config :: configurations => by
    rw [validateConfigurations, validateConfig_eq_true hsrp t config,
      validateConfigurations_eq_true hsrp t configurations, Bool.and_self]
end

mutual
/-- An edit with an SRP configurator in the store, which succeeds when every entry does. -/
theorem editConfig_iff (hsrp : .srp ∈ store.classes) : ∀ (config : SrpConfig M) (t t' : SRPTable M),
    store.editConfig clock operation errorOption config t = some (true, t') ↔
      RunsThrough clock operation config.entries t t'
  | .srp config, t, t' => by
    rw [editConfig, tryConfigurators_eq store.nodup, if_pos hsrp, DataConfiguratorSRP.editConfig_eq,
      SrpConfig.entries]
    exact DataConfiguratorSRP.editEntries_iff
  | .multipart configurations, t, t' => by
    rw [editConfig, tryConfigurators_eq store.nodup, if_pos store.multipart,
      validateConfigurations_eq_true hsrp, if_neg (by simp), SrpConfig.entries]
    exact editConfigurations_iff hsrp configurations t t'

theorem editConfigurations_iff (hsrp : .srp ∈ store.classes) :
    ∀ (configurations : List (SrpConfig M)) (t t' : SRPTable M),
      store.editConfigurations clock operation errorOption configurations (true, t) =
        some (true, t') ↔ RunsThrough clock operation (entriesOf configurations) t t'
  | [], t, t' => by
    rw [editConfigurations, entriesOf]
    constructor
    · intro h
      cases h
      rfl
    · rintro rfl
      rfl
  | config :: configurations, t, t' => by
    rw [editConfigurations, entriesOf, runsThrough_append]
    simp only [Bool.true_and, Option.bind_eq_some_iff]
    constructor
    · rintro ⟨⟨status, t₁⟩, hedit, h⟩
      cases status with
      | true => exact ⟨t₁, (editConfig_iff hsrp config t t₁).mp hedit,
          (editConfigurations_iff hsrp configurations t₁ t').mp h⟩
      | false =>
        -- an error is never forgotten
        dsimp only at h
        split_ifs at h
        · cases h
        · cases editConfigurations_false h
    · rintro ⟨t₁, h₁, h₂⟩
      exact ⟨(true, t₁), (editConfig_iff hsrp config t t₁).mpr h₁,
        (editConfigurations_iff hsrp configurations t₁ t').mpr h₂⟩
end

mutual
/-- Without one nothing happens, and what is accepted has no entries. -/
theorem editConfig_of_not_mem (hsrp : .srp ∉ store.classes) :
    ∀ (config : SrpConfig M) (t : SRPTable M), ∃ b,
      store.editConfig clock operation errorOption config t = some (b, t) ∧
        (store.validateConfig clock config t = true → b = true ∧ config.entries = [])
  | .srp config, t => by
    refine ⟨false, ?_, fun h => ?_⟩
    · rw [editConfig, tryConfigurators_eq store.nodup, if_neg hsrp]
    · rw [validateConfig, List.any_eq_true] at h
      obtain ⟨c, hc, h⟩ := h
      rw [Bool.and_eq_true, decide_eq_true_eq] at h
      exact absurd (h.1 ▸ hc) hsrp
  | .multipart configurations, t => by
    obtain ⟨b, hb, hvalid⟩ := editConfigurations_of_not_mem hsrp configurations true t
    have haccepted (h : store.validateConfig clock (.multipart configurations) t = true) :
        store.validateConfigurations clock configurations t = true := by
      rw [validateConfig, List.any_eq_true] at h
      obtain ⟨c, -, h⟩ := h
      exact (Bool.and_eq_true _ _ ▸ h).2
    rw [editConfig, tryConfigurators_eq store.nodup, if_pos store.multipart, SrpConfig.entries]
    by_cases hrollback : errorOption = .rollbackOnError ∧
        (!store.validateConfigurations clock configurations t) = true
    · refine ⟨false, by rw [if_pos hrollback], fun h => ?_⟩
      have hnot := hrollback.2
      rw [haccepted h] at hnot
      cases hnot
    · rw [if_neg hrollback]
      exact ⟨b, hb, fun h => hvalid rfl (haccepted h)⟩

theorem editConfigurations_of_not_mem (hsrp : .srp ∉ store.classes) :
    ∀ (configurations : List (SrpConfig M)) (status : Bool) (t : SRPTable M), ∃ b,
      store.editConfigurations clock operation errorOption configurations (status, t) =
        some (b, t) ∧
        (status = true → store.validateConfigurations clock configurations t = true →
          b = true ∧ entriesOf configurations = [])
  | [], status, t => ⟨status, by rw [editConfigurations], fun h _ => ⟨h, by rw [entriesOf]⟩⟩
  | config :: configurations, status, t => by
    obtain ⟨b₁, h₁, hvalid₁⟩ := editConfig_of_not_mem hsrp config t
    obtain ⟨b₂, h₂, hvalid₂⟩ := editConfigurations_of_not_mem hsrp configurations (status && b₁) t
    rw [editConfigurations, h₁, Option.bind_some, validateConfigurations, entriesOf]
    dsimp only
    split_ifs with hstop
    · refine ⟨false, rfl, fun hstatus hvalid => ?_⟩
      rw [Bool.and_eq_true] at hvalid
      rw [hstatus, (hvalid₁ hvalid.1).1] at hstop
      simp at hstop
    · refine ⟨b₂, h₂, fun hstatus hvalid => ?_⟩
      rw [Bool.and_eq_true] at hvalid
      obtain ⟨hb, hempty⟩ := hvalid₁ hvalid.1
      obtain ⟨hb₂, hempty₂⟩ := hvalid₂ (by rw [hstatus, hb]; rfl) hvalid.2
      exact ⟨hb₂, by rw [hempty, hempty₂]; rfl⟩
end

end RunningConfigurators

/-- Validation agrees with the edit if there is no SRP configurator. If there is one it accepts
everything, and agrees exactly when every entry finds in its turn what the edit needs. -/
theorem agreesWithEdit_iff (store : RunningConfigurators) (clock : TableClock)
    (operation : EditOperation) (config : SrpConfig M) (t : SRPTable M) :
    AgreesWithEdit store clock operation config t ↔
      (.srp ∈ store.classes → AllReady clock operation config.entries t) := by
  by_cases hsrp : .srp ∈ store.classes
  · have hvalid : store.validateConfig clock config t = true :=
      RunningConfigurators.validateConfig_eq_true hsrp t config
    constructor
    · intro h _
      obtain ⟨t', -, happlies⟩ := h.accepted hvalid .stopOnError
      exact exists_appliesAll_iff.mp ⟨t', happlies⟩
    · intro h
      obtain ⟨t', happlies⟩ := exists_appliesAll_iff.mpr (h hsrp)
      refine ⟨fun _ errorOption => ⟨t', ?_, happlies⟩, fun hnot => ?_⟩
      · exact (RunningConfigurators.editConfig_iff hsrp config t t').mpr happlies.runsThrough
      · rw [hvalid] at hnot
        cases hnot
  · have hedit (errorOption : ErrorOption) : ∃ b,
        store.editConfig clock operation errorOption config t = some (b, t) ∧
          (store.validateConfig clock config t = true → b = true ∧ config.entries = []) :=
      RunningConfigurators.editConfig_of_not_mem hsrp config t
    refine iff_of_true ⟨fun hvalid errorOption => ?_, fun _ errorOption _ => ?_⟩
      fun h => absurd h hsrp
    · obtain ⟨b, hb, hempty⟩ := hedit errorOption
      obtain ⟨rfl, hentries⟩ := hempty hvalid
      refine ⟨t, hb, ?_⟩
      rw [hentries]
      rfl
    · obtain ⟨b, hb, -⟩ := hedit errorOption
      exact ⟨b, hb⟩

/-- The configurators of a TSN switch. -/
def tsnSwitch : RunningConfigurators where
  classes := [.flowTable, .ieee8021Qbv, .srp, .multipart]
  nodup := by decide
  multipart := by decide

/-- A deletion of a stream that is not there is accepted. -/
theorem not_agreesWithEdit : ¬∀ (store : RunningConfigurators) (clock : TableClock)
    (operation : EditOperation) (config : SrpConfig ℕ) (t : SRPTable ℕ),
    AgreesWithEdit store clock operation config t := by
  intro h
  have hsrp : .srp ∈ tsnSwitch.classes := by decide
  have hvalid : tsnSwitch.validateConfig ⟨7, 0⟩
      (.srp ⟨[⟨1, 0, 5, .A, 100, 1, 2, 6⟩], []⟩ : SrpConfig ℕ) {} = true :=
    RunningConfigurators.validateConfig_eq_true hsrp {} _
  obtain ⟨t', -, t₁, ht₁, -⟩ := (h _ _ .delete _ {}).accepted hvalid .rollbackOnError
  cases ht₁

end TsnReconfig.NetConf
