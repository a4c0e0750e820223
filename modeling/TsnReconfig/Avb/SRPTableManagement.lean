import TsnReconfig.Avb.SRProtocol

/-!
# The SRP tables of the controller

`SRPTableManagement`, with a table for every switch. Its modules are the ports of the switches.
-/

namespace TsnReconfig.Avb

open Lib OpenFlow

/-- The port of a `PortModule`. A switch has one module for each port. -/
abbrev Port := UInt16

/-- `SRPForwardingInfo_t`. -/
structure SRPForwardingInfo where
  inPort : Port
  dest : MACAddress
  vlanID : UInt16
  pcp : UInt8
  srClass : SRClass
  streamID : UInt64
  outports : List Port
  deriving DecidableEq

def prioAndRankSRClassA : UInt8 := 0xD0
def prioAndRankSRClassB : UInt8 := 0xB0

/-- The class that `registerTalker` reads from a talker advertise. -/
def TalkerAdvertise.srClass (m : TalkerAdvertise) : SRClass :=
  if m.priorityAndRank = prioAndRankSRClassA then .A
  else if m.priorityAndRank = prioAndRankSRClassB then .B
  else .A

/-- The first three bits. -/
def TalkerAdvertise.pcp (m : TalkerAdvertise) : UInt8 := (m.priorityAndRank &&& 0xE0) >>> 5

/-- `SRPTableManagement`: the tables of the switches, and their ageing time. -/
structure SRPTableManagement (S : Type*) where
  agingTime : SimTime
  srpTables : Table S (SRPTable Port) := ∅

namespace SRPTableManagement
variable {S : Type*} [DecidableEq S] (manager : SRPTableManagement S)

/-- The table of a switch, an empty one if there is none. -/
def srpTable (swinfo : S) : SRPTable Port := (manager.srpTables.find swinfo).getD {}

def setTable (swinfo : S) (t : SRPTable Port) : SRPTableManagement S :=
  { manager with srpTables := manager.srpTables.set swinfo t }

def tableExistsForSwitch (swinfo : S) : Bool := (manager.srpTables.find swinfo).isSome

/-- `registerTalker` throws for a talker that is known at another port. -/
def registerTalker (now : SimTime) (swinfo : S) (arrivalPort : Port) (m : TalkerAdvertise) :
    Option (SRPTableManagement S) :=
  let (module, t) := (manager.srpTable swinfo).getTalkerForStreamId manager.agingTime now
    m.streamID m.vlanIdentifier
  if module.any (· ≠ arrivalPort) then none
  else
    (t.updateTalkerWithStreamId now m.streamID arrivalPort m.destinationAddress m.srClass
      (.ofNat m.maxFrameSize.toNat) m.maxIntervalFrames m.vlanIdentifier m.pcp false).map fun r =>
    manager.setTable swinfo r.2

/-- `registerListener`, with whether the switch has a table. -/
def registerListener (now : SimTime) (swinfo : S) (arrivalPort : Port) (m : ListenerReady) :
    Option (Bool × SRPTableManagement S) :=
  if manager.tableExistsForSwitch swinfo then
    -- a known listener is at the module of the same port
    let t := ((manager.srpTable swinfo).getListenersForStreamId manager.agingTime now
      m.streamID m.vlanIdentifier).2
    (t.updateListenerWithStreamId manager.agingTime now m.streamID arrivalPort m.vlanIdentifier
      false).map fun r => (true, manager.setTable swinfo r.2)
  else some (false, manager)

/-- `getForwardingInfoForStreamID`. -/
def getForwardingInfoForStreamID (now : SimTime) (swinfo : S) (streamID : UInt64)
    (vlanID : UInt16) : Option (SRPForwardingInfo × SRPTableManagement S) :=
  if manager.tableExistsForSwitch swinfo then
    let (talker, t) := (manager.srpTable swinfo).getTalkerEntryForStreamId manager.agingTime now
      streamID vlanID
    talker.map fun talker =>
      let (listeners, t) := t.getListenersForStreamId manager.agingTime now streamID vlanID
      let outports := listeners.foldl
        (fun outports port => if port ∈ outports then outports else outports ++ [port]) []
      (⟨talker.module, talker.address, vlanID, talker.pcp, talker.srClass, streamID, outports⟩,
        manager.setTable swinfo t)
  else none

/-! ## What the calls do to the tables -/

variable {manager} {manager' : SRPTableManagement S} {now : SimTime} {swinfo other : S}
  {arrivalPort : Port} {streamID : UInt64} {vlanID v : UInt16} {sid : UInt64} {p : Port}

@[simp] theorem agingTime_setTable {t : SRPTable Port} :
    (manager.setTable swinfo t).agingTime = manager.agingTime := rfl

@[simp] theorem srpTable_setTable {t : SRPTable Port} :
    (manager.setTable swinfo t).srpTable swinfo = t := by
  rw [srpTable, setTable, Table.find_set_self]
  rfl

theorem srpTable_setTable_of_ne {t : SRPTable Port} (h : other ≠ swinfo) :
    (manager.setTable swinfo t).srpTable other = manager.srpTable other := by
  rw [srpTable, setTable, Table.find_set_of_ne h]
  rfl

/-- A talker that is registered has its new port, address and priority. Listeners may have aged. -/
theorem registerTalker_spec {m : TalkerAdvertise}
    (h : manager.registerTalker now swinfo arrivalPort m = some manager') :
    manager'.agingTime = manager.agingTime ∧
      (∀ other ≠ swinfo, manager'.srpTable other = manager.srpTable other) ∧
      (∀ v sid p, (manager'.srpTable swinfo).listener v sid p =
        ((manager.srpTable swinfo).removeAgedEntriesIfNeeded manager.agingTime now).listener
          v sid p) ∧
      ∃ e : TalkerEntry Port,
        e.module = arrivalPort ∧ e.address = m.destinationAddress ∧ e.pcp = m.pcp ∧
        ∀ v sid, (manager'.srpTable swinfo).talker v sid =
          if v = m.vlanIdentifier ∧ sid = m.streamID then some e
          else (manager.srpTable swinfo).talker v sid := by
  unfold registerTalker at h
  dsimp only at h
  split_ifs at h
  obtain ⟨⟨updated, t⟩, hupdate, rfl⟩ := Option.map_eq_some_iff.mp h
  have hsame := SRPTable.sameEntries_touchTalkers
    ((manager.srpTable swinfo).removeAgedEntriesIfNeeded manager.agingTime now) m.vlanIdentifier
  obtain ⟨framesize, intervalFrames, htalker, -⟩ := SRPTable.talker_updateTalker hupdate
  obtain ⟨hlisteners, -⟩ := SRPTable.updateTalker_listenerTables hupdate
  refine ⟨rfl, fun other hother => srpTable_setTable_of_ne hother, fun v sid p => ?_,
    ⟨m.srClass, m.destinationAddress, arrivalPort, framesize, intervalFrames, m.pcp, now, false⟩,
    rfl, rfl, rfl, fun v sid => ?_⟩
  · rw [srpTable_setTable, SRPTable.listener, hlisteners]
    exact hsame.listener v sid p
  · rw [srpTable_setTable, htalker]
    split_ifs
    · rfl
    · exact (hsame.talker v sid).trans SRPTable.talker_removeAgedEntriesIfNeeded

/-- The loop over the listeners adds every port once. -/
theorem nodup_outports {listeners : List Port} {outports : List Port} (h : outports.Nodup) :
    (listeners.foldl (fun outports port => if port ∈ outports then outports else outports ++ [port])
      outports).Nodup ∧
    ∀ p, p ∈ listeners.foldl
      (fun outports port => if port ∈ outports then outports else outports ++ [port]) outports ↔
        p ∈ outports ∨ p ∈ listeners := by
  induction listeners generalizing outports with
  | nil => exact ⟨h, fun p => by simp⟩
  | cons port listeners ih =>
    rw [List.foldl_cons]
    by_cases hport : port ∈ outports
    · rw [if_pos hport]
      obtain ⟨hnodup, hmem⟩ := ih h
      refine ⟨hnodup, fun p => ?_⟩
      rw [hmem, List.mem_cons]
      constructor
      · exact Or.imp_right Or.inr
      · rintro (hp | rfl | hp)
        · exact .inl hp
        · exact .inl hport
        · exact .inr hp
    · rw [if_neg hport]
      obtain ⟨hnodup, hmem⟩ := ih (h.append (List.nodup_singleton port)
        (List.disjoint_singleton.mpr hport))
      refine ⟨hnodup, fun p => ?_⟩
      rw [hmem, List.mem_append, List.mem_singleton, List.mem_cons, or_assoc]

/-- No listener of a stream has expired, if a sweep is due. -/
structure KeptBySweeps (agingTime now : SimTime) (v : UInt16) (sid : UInt64) (t : SRPTable Port) :
    Prop where
  nonneg : 0 ≤ agingTime
  kept : agingTime ≠ 0 ∧ t.nextAging ≠ 0 ∧ t.nextAging ≤ now →
    ∀ p e, t.listener v sid p = some e → e.expired agingTime now = false

section
variable {agingTime : SimTime} {t t' : SRPTable Port}

theorem KeptBySweeps.listener (h : KeptBySweeps agingTime now v sid t) (p : Port) :
    (t.removeAgedEntriesIfNeeded agingTime now).listener v sid p = t.listener v sid p := by
  rw [SRPTable.listener_removeAgedEntriesIfNeeded]
  by_cases hdue : agingTime ≠ 0 ∧ t.nextAging ≠ 0 ∧ t.nextAging ≤ now
  · rw [if_pos hdue]
    cases he : t.listener v sid p with
    | none => rfl
    | some e => rw [Option.filter_some, h.kept hdue p e he, Bool.not_false, if_pos rfl]
  · rw [if_neg hdue]

theorem KeptBySweeps.sweep (h : KeptBySweeps agingTime now v sid t) :
    KeptBySweeps agingTime now v sid (t.removeAgedEntriesIfNeeded agingTime now) := by
  refine ⟨h.nonneg, fun hdue' p e he => ?_⟩
  rw [h.listener] at he
  by_cases hdue : t.nextAging ≠ 0 ∧ t.nextAging ≤ now
  · exact h.kept ⟨hdue'.1, hdue⟩ p e he
  · rw [SRPTable.removeAgedEntriesIfNeeded, if_neg hdue] at hdue'
    exact absurd hdue'.2 hdue

theorem KeptBySweeps.same (h : KeptBySweeps agingTime now v sid t) (hsame : t.SameEntries t') :
    KeptBySweeps agingTime now v sid t' := by
  refine ⟨h.nonneg, fun hdue p e he => ?_⟩
  rw [hsame.nextAging] at hdue
  rw [hsame.listener] at he
  exact h.kept hdue p e he

/-- The new listener of another stream does not make a sweep due at once. -/
theorem KeptBySweeps.updateListener (h : KeptBySweeps agingTime now v sid t) {updated : Bool}
    (hupdate : t.updateListenerWithStreamId agingTime now streamID arrivalPort vlanID false =
      some (updated, t')) (hother : ¬(v = vlanID ∧ sid = streamID)) :
    KeptBySweeps agingTime now v sid t' := by
  refine ⟨h.nonneg, fun hdue p e he => ?_⟩
  rw [SRPTable.listener_updateListener hupdate, if_neg fun hkey => hother ⟨hkey.1, hkey.2.1⟩] at he
  obtain ⟨-, -, rfl⟩ := SRPTable.updateListener_eq hupdate
  obtain ⟨hagingTime, hne, hle⟩ := hdue
  dsimp only at hne hle
  by_cases hzero : t.nextAging = 0
  · rw [if_pos hzero] at hle
    have hpos : 0 < agingTime := lt_of_le_of_ne h.nonneg hagingTime.symm
    exact absurd hle (not_le.mpr (Int.lt_add_of_pos_right now hpos))
  · rw [if_neg hzero] at hne hle
    exact h.kept ⟨hagingTime, hne, hle⟩ p e he

end

/-- The forwarding information is that of the talker and the listeners in the table. -/
structure ForwardingInfoOf (t : SRPTable Port) (streamID : UInt64) (vlanID : UInt16)
    (fwd : SRPForwardingInfo) : Prop where
  talker : ∃ e, t.talker vlanID streamID = some e ∧ fwd.inPort = e.module ∧
    fwd.dest = e.address ∧ fwd.pcp = e.pcp
  vlan : fwd.vlanID = vlanID
  nodup : fwd.outports.Nodup
  outports : ∀ p, p ∈ fwd.outports ↔ (t.listener vlanID streamID p).isSome

section
variable {t : SRPTable Port} {agingTime : SimTime}

theorem getListeners_same : (t.removeAgedEntriesIfNeeded agingTime now).SameEntries
    (t.getListenersForStreamId agingTime now streamID vlanID).2 :=
  SRPTable.sameEntries_touchListeners _ vlanID

theorem getTalkerEntry_same : (t.removeAgedEntriesIfNeeded agingTime now).SameEntries
    (t.getTalkerEntryForStreamId agingTime now streamID vlanID).2 :=
  SRPTable.sameEntries_touchTalkers _ vlanID

theorem mem_getListeners : p ∈ (t.getListenersForStreamId agingTime now streamID vlanID).1 ↔
    ((t.getListenersForStreamId agingTime now streamID vlanID).2.listener vlanID streamID
      p).isSome := by
  rw [getListeners_same.listener]
  change p ∈ List.map _ _ ↔ _
  rw [Option.isSome_iff_exists]
  constructor
  · intro hp
    obtain ⟨⟨p, e⟩, he, rfl⟩ := List.mem_map.mp hp
    exact ⟨e, Table.mem_entries.mp he⟩
  · rintro ⟨e, he⟩
    exact List.mem_map.mpr ⟨(p, e), Table.mem_entries.mpr he, rfl⟩

/-- After a query, no talker is gone, and no listener that is kept by sweeps. -/
structure Leaves (agingTime now : SimTime) (t t' : SRPTable Port) : Prop where
  talker : ∀ v sid, t'.talker v sid = t.talker v sid
  listener : ∀ v sid, KeptBySweeps agingTime now v sid t →
    KeptBySweeps agingTime now v sid t' ∧ ∀ p, t'.listener v sid p = t.listener v sid p

theorem leaves_of_same {t' : SRPTable Port}
    (h : (t.removeAgedEntriesIfNeeded agingTime now).SameEntries t') : Leaves agingTime now t t' where
  talker v sid := (h.talker v sid).trans SRPTable.talker_removeAgedEntriesIfNeeded
  listener v sid hkept := ⟨hkept.sweep.same h, fun p => (h.listener v sid p).trans (hkept.listener p)⟩

theorem leaves_getTalkerEntry (t : SRPTable Port) (agingTime now : SimTime) (streamID : UInt64)
    (vlanID : UInt16) :
    Leaves agingTime now t (t.getTalkerEntryForStreamId agingTime now streamID vlanID).2 :=
  leaves_of_same getTalkerEntry_same

theorem leaves_getListeners (t : SRPTable Port) (agingTime now : SimTime) (streamID : UInt64)
    (vlanID : UInt16) :
    Leaves agingTime now t (t.getListenersForStreamId agingTime now streamID vlanID).2 :=
  leaves_of_same getListeners_same

theorem Leaves.trans {t₁ t₂ : SRPTable Port} (h : Leaves agingTime now t t₁)
    (h' : Leaves agingTime now t₁ t₂) : Leaves agingTime now t t₂ where
  talker v sid := (h'.talker v sid).trans (h.talker v sid)
  listener v sid hkept := by
    obtain ⟨hkept₁, h₁⟩ := h.listener v sid hkept
    obtain ⟨hkept₂, h₂⟩ := h'.listener v sid hkept₁
    exact ⟨hkept₂, fun p => (h₂ p).trans (h₁ p)⟩

end

theorem getForwardingInfo_spec {fwd : SRPForwardingInfo}
    (h : manager.getForwardingInfoForStreamID now swinfo streamID vlanID = some (fwd, manager')) :
    ∃ t', manager' = manager.setTable swinfo t' ∧
      Leaves manager.agingTime now (manager.srpTable swinfo) t' ∧
      ForwardingInfoOf t' streamID vlanID fwd := by
  unfold getForwardingInfoForStreamID at h
  split_ifs at h
  obtain ⟨e, he, heq⟩ := Option.map_eq_some_iff.mp h
  cases heq
  have hleaves := (leaves_getTalkerEntry (manager.srpTable swinfo) manager.agingTime now streamID
    vlanID).trans (leaves_getListeners _ manager.agingTime now streamID vlanID)
  refine ⟨_, rfl, hleaves, ⟨e, ?_, rfl, rfl, rfl⟩, rfl, (nodup_outports List.nodup_nil).1,
    fun p => ((nodup_outports List.nodup_nil).2 p).trans ?_⟩
  · exact (hleaves.talker _ _).trans
      (SRPTable.talker_removeAgedEntriesIfNeeded.symm.trans he)
  · exact (or_iff_right List.not_mem_nil).trans mem_getListeners

theorem registerListener_spec {m : ListenerReady} {updated : Bool}
    (h : manager.registerListener now swinfo arrivalPort m = some (updated, manager')) :
    if updated then ∃ t', manager' = manager.setTable swinfo t' ∧
      (∀ v sid, t'.talker v sid = (manager.srpTable swinfo).talker v sid) ∧
      ∀ v sid, ¬(v = m.vlanIdentifier ∧ sid = m.streamID) →
        KeptBySweeps manager.agingTime now v sid (manager.srpTable swinfo) →
          KeptBySweeps manager.agingTime now v sid t' ∧
            ∀ p, t'.listener v sid p = (manager.srpTable swinfo).listener v sid p
    else manager' = manager := by
  unfold registerListener at h
  split_ifs at h
  · obtain ⟨⟨updated, t'⟩, hupdate, heq⟩ := Option.map_eq_some_iff.mp h
    cases heq
    have hleaves := leaves_getListeners (manager.srpTable swinfo) manager.agingTime now
      m.streamID m.vlanIdentifier
    rw [if_pos rfl]
    refine ⟨t', rfl, fun v sid => ?_, fun v sid hother hkept => ?_⟩
    · rw [SRPTable.talker_updateListener hupdate, hleaves.talker]
    · obtain ⟨hkept, hlistener⟩ := hleaves.listener v sid hkept
      refine ⟨hkept.updateListener hupdate hother, fun p => ?_⟩
      rw [SRPTable.listener_updateListener hupdate, if_neg fun hkey => hother ⟨hkey.1, hkey.2.1⟩,
        hlistener]
  · cases h
    rfl

end SRPTableManagement

end TsnReconfig.Avb
