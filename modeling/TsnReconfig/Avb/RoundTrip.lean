import TsnReconfig.Avb.TableXml
import TsnReconfig.OpenFlow.RoundTrip

/-!
# Export and import of SRP tables

Whether the table that is read from the XML of a table has the same talkers and listeners.
-/

namespace TsnReconfig.Avb

open Lib OpenFlow

/-- What a talker reserves, and where. -/
def TalkerEntry.reservation {M : Type*} (e : TalkerEntry M) :
    MACAddress × SRClass × UInt64 × UInt16 × M :=
  (e.address, e.srClass, e.framesize, e.intervalFrames, e.module)

/-- A talker that is read as it was written. -/
structure TalkerEntry.Restorable {M : Type*} (streamId : UInt64) (e : TalkerEntry M) : Prop where
  streamId : ReadsBack streamId
  address : e.address ≠ 0
  framesize : ReadsBack e.framesize
  framesize_ne : e.framesize ≠ 0
  intervalFrames_ne : e.intervalFrames ≠ 0

namespace SRPTable
variable {M : Type*} [DecidableEq M] {getFullPath : M → String}
  {getModuleByPath : String → Option M} {agingTime now : SimTime} {t : SRPTable M}
  {s s' : Bool × SRPTable M}

/-! ## The import as two loops -/

/-- The talkers in the order of the iteration. The loop over those of a VLAN ends at the first
one without an address. -/
def exportedTalkers (t : SRPTable M) : List (UInt16 × UInt64 × TalkerEntry M) :=
  t.talkerTables.entries.flatMap fun table =>
    (table.2.entries.takeWhile (·.2.address ≠ 0)).map fun e => (table.1, e.1, e.2)

/-- What the import does with an exported talker. -/
def insertTalker (now : SimTime) (s : Bool × SRPTable M) (x : UInt16 × UInt64 × TalkerEntry M) :
    Option (Bool × SRPTable M) :=
  (s.2.updateTalkerWithStreamId now (readWithAtoi x.2.1) x.2.2.module x.2.2.address x.2.2.srClass
    (readWithAtoi x.2.2.framesize) x.2.2.intervalFrames x.1 x.2.2.pcp true).map fun r => (true, r.2)

/-- What the import does with an exported listener. -/
def insertListener (agingTime now : SimTime) (s : Bool × SRPTable M) (key : UInt16 × UInt64 × M) :
    Option (Bool × SRPTable M) :=
  (s.2.updateListenerWithStreamId agingTime now (readWithAtoi key.2.1) key.2.2 key.1 true).map
    fun r => (true, r.2)

theorem parse_str (c : SRClass) : SRClass.parse c.str = some c := by
  cases c <;> rfl

theorem importTalkerEntry_exportToXML (hpath : ∀ m, getModuleByPath (getFullPath m) = some m)
    (vid : UInt16) (streamId : UInt64) (e : TalkerEntry M) :
    importTalkerEntry getModuleByPath "" now vid s (e.exportToXML getFullPath streamId) =
      if e.address = 0 then some (s, true)
      else (insertTalker now s (vid, streamId, e)).map (·, false) := by
  unfold importTalkerEntry
  have hstreamId : (e.exportToXML getFullPath streamId).getAttribute "stream_id" =
    some (toString (streamId.toNat : ℤ)) := rfl
  have hsrClass : (e.exportToXML getFullPath streamId).getAttribute "srClass" =
    some e.srClass.str := rfl
  have haddress : (e.exportToXML getFullPath streamId).getAttribute "address" =
    some (MACAddress.str e.address) := rfl
  have hmodule : (e.exportToXML getFullPath streamId).getAttribute "module" =
    some (getFullPath e.module) := rfl
  have hframesize : (e.exportToXML getFullPath streamId).getAttribute "framesize" =
    some (toString (e.framesize.toNat : ℤ)) := rfl
  have hintervalFrames : (e.exportToXML getFullPath streamId).getAttribute "intervalFrames" =
    some (toString (e.intervalFrames.toNat : ℤ)) := rfl
  have hpcp : (e.exportToXML getFullPath streamId).getAttribute "pcp" =
    some (toString (e.pcp.toNat : ℤ)) := rfl
  rw [hstreamId, hsrClass]
  dsimp only
  rw [parse_str, haddress]
  dsimp only
  rw [MACAddress.tryParse_str, Option.bind_some, hmodule, Option.bind_some, String.empty_append,
    hpath, hframesize, hintervalFrames, hpcp]
  dsimp only
  rw [uint16_ofInt_atoi, uint8_ofInt_atoi]
  split_ifs
  · rfl
  · rw [insertTalker, Option.map_map]
    rfl

theorem importTalkerEntries_export (hpath : ∀ m, getModuleByPath (getFullPath m) = some m)
    (vid : UInt16) (entries : List (UInt64 × TalkerEntry M)) :
    importTalkerEntries getModuleByPath "" now vid
        (entries.map fun e => e.2.exportToXML getFullPath e.1) s =
      ((entries.takeWhile (·.2.address ≠ 0)).map fun e => (vid, e.1, e.2)).foldlM
        (insertTalker now) s := by
  induction entries generalizing s with
  | nil => rfl
  | cons e entries ih =>
    rw [List.map_cons, importTalkerEntries, importTalkerEntry_exportToXML hpath]
    by_cases haddress : e.2.address = 0
    · rw [if_pos haddress, List.takeWhile_cons_of_neg (by simpa using haddress)]
      rfl
    · rw [if_neg haddress, List.takeWhile_cons_of_pos (by simpa using haddress), List.map_cons,
        List.foldlM_cons]
      cases insertTalker now s (vid, e.1, e.2) with
      | none => rfl
      | some s' => exact ih

theorem getChildrenByTagName_map {α : Type*} {f : α → XMLElement} {tagName tagName' : String}
    {attributes : List (String × String)} (l : List α)
    (hf : ∀ a, (f a).tagName = tagName') :
    (XMLElement.mk tagName attributes (l.map f)).getChildrenByTagName tagName' = l.map f := by
  refine List.filter_eq_self.mpr fun xml hxml => ?_
  obtain ⟨a, -, rfl⟩ := List.mem_map.mp hxml
  exact decide_eq_true (hf a)

theorem importTalkerTable_export (hpath : ∀ m, getModuleByPath (getFullPath m) = some m)
    (vid : UInt16) (table : Table UInt64 (TalkerEntry M)) :
    importTalkerTable getModuleByPath "" now s (exportTalkerTable getFullPath vid table) =
      ((table.entries.takeWhile (·.2.address ≠ 0)).map fun e => (vid, e.1, e.2)).foldlM
        (insertTalker now) s := by
  have hvid : (exportTalkerTable getFullPath vid table).getAttribute "vlan_id" =
    some (toString (vid.toNat : ℤ)) := rfl
  have hentries : (exportTalkerTable getFullPath vid table).getChildrenByTagName "talkerEntry" =
      table.entries.map fun e => e.2.exportToXML getFullPath e.1 :=
    getChildrenByTagName_map _ fun _ => rfl
  unfold importTalkerTable
  rw [hvid, hentries]
  dsimp only
  rw [uint16_ofInt_atoi]
  exact importTalkerEntries_export hpath vid table.entries

theorem importListenerTable_export (hpath : ∀ m, getModuleByPath (getFullPath m) = some m)
    (vid : UInt16) (table : Table UInt64 (Table M ListenerEntry)) :
    importListenerTable getModuleByPath "" agingTime now s
        (exportListenerTable getFullPath vid table) =
      (table.entries.flatMap fun list => list.2.entries.map fun e => (vid, list.1, e.1)).foldlM
        (insertListener agingTime now) s := by
  have hvid : (exportListenerTable getFullPath vid table).getAttribute "vlan_id" =
    some (toString (vid.toNat : ℤ)) := rfl
  have hlists : (exportListenerTable getFullPath vid table).getChildrenByTagName "listeners" =
      table.entries.map fun list => exportListeners getFullPath list.1 list.2 :=
    getChildrenByTagName_map _ fun _ => rfl
  unfold importListenerTable
  rw [hvid, hlists]
  dsimp only
  rw [uint16_ofInt_atoi, foldlM_flatMap, List.foldlM_map]
  congr 1
  funext s list
  have hstreamId : (exportListeners getFullPath list.1 list.2).getAttribute "stream_id" =
    some (toString (list.1.toNat : ℤ)) := rfl
  have hentries : (exportListeners getFullPath list.1 list.2).getChildrenByTagName
      "listenerEntry" =
      list.2.entries.map fun e => .mk "listenerEntry" [("module", getFullPath e.1)] [] :=
    getChildrenByTagName_map _ fun _ => rfl
  unfold importListeners
  rw [hstreamId, hentries]
  dsimp only
  rw [List.foldlM_map, List.foldlM_map]
  congr 1
  funext s e
  have hmodule : (XMLElement.mk "listenerEntry" [("module", getFullPath e.1)] []).getAttribute
    "module" = some (getFullPath e.1) := rfl
  unfold importListenerEntry
  rw [hmodule, Option.bind_some, String.empty_append, hpath]
  rfl

/-- The import of what was exported inserts the talkers and then the listeners. -/
theorem importFromXML_exportToXML (hpath : ∀ m, getModuleByPath (getFullPath m) = some m)
    (t₀ : SRPTable M) :
    importFromXML getModuleByPath agingTime now t₀ (t.exportToXML getFullPath) =
      (t.exportedTalkers.foldlM (insertTalker now) (false, t₀)).bind fun s =>
        (listenerKeys t.listenerTables).foldlM (insertListener agingTime now) s := by
  have htalkers : (t.exportToXML getFullPath).getChildrenByTagName "talkerTable" =
      t.talkerTables.entries.map fun table => exportTalkerTable getFullPath table.1 table.2 := by
    change List.filter _ (_ ++ _) = _
    rw [List.filter_append, List.filter_eq_self.mpr, List.filter_eq_nil_iff.mpr, List.append_nil]
    · intro xml hxml
      obtain ⟨table, -, rfl⟩ := List.mem_map.mp hxml
      exact of_decide_eq_false rfl
    · intro xml hxml
      obtain ⟨table, -, rfl⟩ := List.mem_map.mp hxml
      rfl
  have hlisteners : (t.exportToXML getFullPath).getChildrenByTagName "listenerTable" =
      t.listenerTables.entries.map fun table =>
        exportListenerTable getFullPath table.1 table.2 := by
    change List.filter _ (_ ++ _) = _
    rw [List.filter_append, List.filter_eq_nil_iff.mpr, List.filter_eq_self.mpr, List.nil_append]
    · intro xml hxml
      obtain ⟨table, -, rfl⟩ := List.mem_map.mp hxml
      rfl
    · intro xml hxml
      obtain ⟨table, -, rfl⟩ := List.mem_map.mp hxml
      exact of_decide_eq_false rfl
  have hmodulePath : (t.exportToXML getFullPath).getAttribute "modulePrefix" = none := rfl
  unfold importFromXML
  rw [hmodulePath, Option.elim_none]
  dsimp only
  rw [htalkers, hlisteners, List.foldlM_map, exportedTalkers, foldlM_flatMap]
  simp only [importTalkerTable_export hpath]
  congr 1
  funext s
  rw [List.foldlM_map, listenerKeys, foldlM_flatMap]
  simp only [importListenerTable_export hpath]

/-! ## The exported entries -/

omit [DecidableEq M] in
theorem of_mem_exportedTalkers {v : UInt16} {sid : UInt64} {e : TalkerEntry M}
    (h : (v, sid, e) ∈ t.exportedTalkers) : t.talker v sid = some e ∧ e.address ≠ 0 := by
  obtain ⟨table, htable, h⟩ := List.mem_flatMap.mp h
  obtain ⟨e', he, heq⟩ := List.mem_map.mp h
  cases heq
  refine ⟨?_, by simpa using List.mem_takeWhile_imp he⟩
  rw [talker, Table.find_get, Table.mem_entries.mp htable, Option.bind_some]
  exact Table.mem_entries.mp ((List.takeWhile_sublist _).subset he)

omit [DecidableEq M] in
/-- If all addresses are specified, then all talkers are read. -/
theorem mem_exportedTalkers {v : UInt16} {sid : UInt64} {e : TalkerEntry M}
    (h : ∀ v sid e, t.talker v sid = some e → e.address ≠ 0) (he : t.talker v sid = some e) :
    (v, sid, e) ∈ t.exportedTalkers := by
  rw [talker, Table.find_get] at he
  obtain ⟨table, htable, he⟩ := Option.bind_eq_some_iff.mp he
  refine List.mem_flatMap.mpr ⟨(v, table), Table.mem_entries.mpr htable,
    List.mem_map.mpr ⟨(sid, e), ?_, rfl⟩⟩
  rw [List.takeWhile_eq_self_iff.mpr]
  · exact Table.mem_entries.mpr he
  · intro e' he'
    have htalker : t.talker v e'.1 = some e'.2 := by
      rw [talker, Table.find_get, htable, Option.bind_some]
      exact Table.mem_entries.mp he'
    exact decide_eq_true (h v e'.1 e'.2 htalker)

omit [DecidableEq M] in
theorem exportedTalkers_nodup (t : SRPTable M) :
    (t.exportedTalkers.map fun x => (x.1, x.2.1)).Nodup := by
  rw [exportedTalkers, List.map_flatMap]
  refine nodup_flatMap_of_key (·.1) t.talkerTables.nodup (fun table _ => ?_) fun table _ k hk => ?_
  · rw [List.map_map]
    have hmap : ((fun x : UInt16 × UInt64 × TalkerEntry M => (x.1, x.2.1)) ∘
        fun e : UInt64 × TalkerEntry M => (table.1, e.1, e.2)) =
          (fun sid => (table.1, sid)) ∘ Prod.fst := rfl
    rw [hmap, ← List.map_map]
    refine List.Nodup.map (fun sid sid' h => (Prod.mk.inj h).2) ?_
    exact table.2.nodup.sublist ((List.takeWhile_sublist _).map _)
  · rw [List.map_map] at hk
    obtain ⟨e, -, rfl⟩ := List.mem_map.mp hk
    rfl

/-! ## The talkers and listeners that are inserted -/

/-- The talker that is read for an exported one. -/
def imported (now : SimTime) (e : TalkerEntry M) : TalkerEntry M :=
  { e with framesize := readWithAtoi e.framesize, insertionTime := now, isStatic := true }

theorem insertTalker_spec {x : UInt16 × UInt64 × TalkerEntry M}
    (h : insertTalker now s x = some s') :
    s'.2.listenerTables = s.2.listenerTables ∧ ∃ new, new.address = x.2.2.address ∧
      (∀ v sid, s'.2.talker v sid =
        if v = x.1 ∧ sid = readWithAtoi x.2.1 then some new else s.2.talker v sid) ∧
      (s.2.talker x.1 (readWithAtoi x.2.1) = none →
        readWithAtoi x.2.2.framesize ≠ 0 ∧ x.2.2.intervalFrames ≠ 0 ∧ new = imported now x.2.2) := by
  obtain ⟨⟨updated, t'⟩, hr, rfl⟩ := Option.map_eq_some_iff.mp h
  obtain ⟨framesize, intervalFrames, hnew, -, hnone⟩ := talker_updateTalker hr
  refine ⟨(updateTalker_listenerTables hr).1, ⟨x.2.2.srClass, x.2.2.address, x.2.2.module,
    framesize, intervalFrames, x.2.2.pcp, now, true⟩, rfl, hnew, fun h => ?_⟩
  obtain ⟨hframesize, hintervalFrames, rfl, rfl⟩ := hnone h
  exact ⟨hframesize, hintervalFrames, rfl⟩

theorem insertTalker_isSome (now : SimTime) {x : UInt16 × UInt64 × TalkerEntry M}
    (hnone : s.2.talker x.1 (readWithAtoi x.2.1) = none)
    (hframesize : readWithAtoi x.2.2.framesize ≠ 0) (hintervalFrames : x.2.2.intervalFrames ≠ 0) :
    ∃ s', insertTalker now s x = some s' := by
  have hfind : (s.2.talkerTables.get x.1).find (readWithAtoi x.2.1) = none := hnone
  unfold insertTalker updateTalkerWithStreamId
  dsimp only
  rw [hfind]
  dsimp only
  rw [if_neg (not_or.mpr ⟨hframesize, hintervalFrames⟩)]
  exact ⟨_, rfl⟩

section
variable {l : List (UInt16 × UInt64 × TalkerEntry M)}

/-- Talkers with stream ids of their own are inserted one after the other. -/
theorem insertTalkers_spec (hids : ∀ x ∈ l, readWithAtoi x.2.1 = x.2.1)
    (hnodup : (l.map fun x => (x.1, x.2.1)).Nodup)
    (hnone : ∀ x ∈ l, s.2.talker x.1 x.2.1 = none) (h : l.foldlM (insertTalker now) s = some s') :
    (∀ v sid, (v, sid) ∉ (l.map fun x => (x.1, x.2.1)) →
      s'.2.talker v sid = s.2.talker v sid) ∧
    ∀ x ∈ l, readWithAtoi x.2.2.framesize ≠ 0 ∧ x.2.2.intervalFrames ≠ 0 ∧
      s'.2.talker x.1 x.2.1 = some (imported now x.2.2) := by
  induction l generalizing s with
  | nil =>
    obtain rfl : s = s' := by simpa using h
    exact ⟨fun _ _ _ => rfl, fun _ hx => absurd hx List.not_mem_nil⟩
  | cons x l ih =>
    rw [List.foldlM_cons] at h
    obtain ⟨s₁, hs₁, h⟩ := Option.bind_eq_some_iff.mp h
    obtain ⟨hnot, hnodup⟩ := List.nodup_cons.mp hnodup
    obtain ⟨-, new, -, htalker, hnew⟩ := insertTalker_spec hs₁
    rw [hids x List.mem_cons_self] at htalker hnew
    obtain ⟨hframesize, hintervalFrames, rfl⟩ := hnew (hnone x List.mem_cons_self)
    have hother : ∀ y ∈ l, s₁.2.talker y.1 y.2.1 = none := by
      intro y hy
      rw [htalker, if_neg, hnone y (List.mem_cons_of_mem _ hy)]
      rintro ⟨hv, hsid⟩
      exact hnot (List.mem_map.mpr ⟨y, hy, by rw [hv, hsid]⟩)
    obtain ⟨hkept, hinserted⟩ :=
      ih (fun y hy => hids y (List.mem_cons_of_mem _ hy)) hnodup hother h
    refine ⟨fun v sid hkey => ?_, fun y hy => ?_⟩
    · rw [List.map_cons, List.mem_cons, not_or] at hkey
      rw [hkept v sid hkey.2, htalker, if_neg]
      rintro ⟨rfl, rfl⟩
      exact hkey.1 rfl
    · rcases List.mem_cons.mp hy with rfl | hy
      · refine ⟨hframesize, hintervalFrames, ?_⟩
        rw [hkept _ _ hnot, htalker, if_pos ⟨rfl, rfl⟩]
      · exact hinserted y hy

theorem insertTalkers_isSome (now : SimTime) (hids : ∀ x ∈ l, readWithAtoi x.2.1 = x.2.1)
    (hnodup : (l.map fun x => (x.1, x.2.1)).Nodup)
    (hnone : ∀ x ∈ l, s.2.talker x.1 x.2.1 = none)
    (hsizes : ∀ x ∈ l, readWithAtoi x.2.2.framesize ≠ 0 ∧ x.2.2.intervalFrames ≠ 0) :
    ∃ s', l.foldlM (insertTalker now) s = some s' := by
  induction l generalizing s with
  | nil => exact ⟨s, rfl⟩
  | cons x l ih =>
    obtain ⟨hnot, hnodup⟩ := List.nodup_cons.mp hnodup
    have hx := hids x List.mem_cons_self
    obtain ⟨hframesize, hintervalFrames⟩ := hsizes x List.mem_cons_self
    obtain ⟨s₁, hs₁⟩ := insertTalker_isSome now
      (hx.symm ▸ hnone x List.mem_cons_self) hframesize hintervalFrames
    obtain ⟨-, new, -, htalker, -⟩ := insertTalker_spec hs₁
    rw [hx] at htalker
    have hother : ∀ y ∈ l, s₁.2.talker y.1 y.2.1 = none := by
      intro y hy
      rw [htalker, if_neg, hnone y (List.mem_cons_of_mem _ hy)]
      rintro ⟨hv, hsid⟩
      exact hnot (List.mem_map.mpr ⟨y, hy, by rw [hv, hsid]⟩)
    obtain ⟨s', hs'⟩ := ih (fun y hy => hids y (List.mem_cons_of_mem _ hy)) hnodup hother
      fun y hy => hsizes y (List.mem_cons_of_mem _ hy)
    refine ⟨s', ?_⟩
    rw [List.foldlM_cons, hs₁]
    exact hs'

end

theorem insertListener_spec {key : UInt16 × UInt64 × M}
    (h : insertListener agingTime now s key = some s') :
    (s.2.talker key.1 (readWithAtoi key.2.1)).isSome ∧
    (∀ v sid, s'.2.talker v sid = s.2.talker v sid) ∧
    ∀ v sid m, (s'.2.listener v sid m).isSome ↔
      (v, sid, m) = (key.1, readWithAtoi key.2.1, key.2.2) ∨ (s.2.listener v sid m).isSome := by
  obtain ⟨⟨updated, t'⟩, hr, rfl⟩ := Option.map_eq_some_iff.mp h
  refine ⟨(updateListener_eq hr).1, fun v sid => talker_updateListener hr, fun v sid m => ?_⟩
  dsimp only
  rw [listener_updateListener hr, Prod.mk.injEq, Prod.mk.injEq]
  split_ifs with hkey
  · simp [hkey]
  · simp [hkey]

section
variable {l : List (UInt16 × UInt64 × M)}

theorem insertListeners_spec (h : l.foldlM (insertListener agingTime now) s = some s') :
    (∀ key ∈ l, (s.2.talker key.1 (readWithAtoi key.2.1)).isSome) ∧
    (∀ v sid, s'.2.talker v sid = s.2.talker v sid) ∧
    ∀ v sid m, (s'.2.listener v sid m).isSome ↔
      (∃ key ∈ l, (v, sid, m) = (key.1, readWithAtoi key.2.1, key.2.2)) ∨
        (s.2.listener v sid m).isSome := by
  induction l generalizing s with
  | nil =>
    obtain rfl : s = s' := by simpa using h
    simp
  | cons key l ih =>
    rw [List.foldlM_cons] at h
    obtain ⟨s₁, hs₁, h⟩ := Option.bind_eq_some_iff.mp h
    obtain ⟨hknown, htalker, hlistener⟩ := insertListener_spec hs₁
    obtain ⟨hknown', htalker', hlistener'⟩ := ih h
    refine ⟨fun key' hkey' => ?_, fun v sid => (htalker' v sid).trans (htalker v sid),
      fun v sid m => ?_⟩
    · rcases List.mem_cons.mp hkey' with rfl | hkey'
      · exact hknown
      · rw [← htalker]
        exact hknown' key' hkey'
    · rw [hlistener', hlistener]
      simp only [List.mem_cons, exists_eq_or_imp]
      rw [or_assoc, or_left_comm]

theorem insertListeners_isSome (agingTime now : SimTime)
    (h : ∀ key ∈ l, (s.2.talker key.1 (readWithAtoi key.2.1)).isSome) :
    ∃ s', l.foldlM (insertListener agingTime now) s = some s' := by
  induction l generalizing s with
  | nil => exact ⟨s, rfl⟩
  | cons key l ih =>
    obtain ⟨s₁, hs₁⟩ : ∃ s₁, insertListener agingTime now s key = some s₁ := by
      obtain ⟨e, he⟩ := Option.isSome_iff_exists.mp (h key List.mem_cons_self)
      have hfind : (s.2.talkerTables.get key.1).find (readWithAtoi key.2.1) = some e := he
      unfold insertListener updateListenerWithStreamId
      rw [hfind]
      exact ⟨_, rfl⟩
    obtain ⟨-, htalker, -⟩ := insertListener_spec hs₁
    obtain ⟨s', hs'⟩ := ih (s := s₁) fun key' hkey' => by
      rw [htalker]
      exact h key' (List.mem_cons_of_mem _ hkey')
    refine ⟨s', ?_⟩
    rw [List.foldlM_cons, hs₁]
    exact hs'

end

/-! ## The round trip -/

/-- The second table has the same talkers and listeners. -/
structure SameReservations (t t' : SRPTable M) : Prop where
  talker : ∀ v sid, (t'.talker v sid).map (·.reservation) = (t.talker v sid).map (·.reservation)
  listener : ∀ v sid m, (t'.listener v sid m).isSome = (t.listener v sid m).isSome

/-- An empty table has the same reservations after the import of what a table exports. -/
def RoundTrips (getFullPath : M → String) (getModuleByPath : String → Option M)
    (agingTime now : SimTime) (t : SRPTable M) : Prop :=
  ∃ s, importFromXML getModuleByPath agingTime now {} (t.exportToXML getFullPath) = some s ∧
    t.SameReservations s.2

/-- All talkers are read as they were written, and every listener has one. -/
structure Restorable (t : SRPTable M) : Prop where
  talker : ∀ v sid e, t.talker v sid = some e → e.Restorable sid
  listener : ∀ v sid m, (t.listener v sid m).isSome → (t.talker v sid).isSome

/-- Every talker that is read has an address, and a stream id that was read. -/
theorem exportedTalkers_origin
    (h : t.exportedTalkers.foldlM (insertTalker now) (false, {}) = some s) :
    s.2.listenerTables = ∅ ∧ ∀ v sid e, s.2.talker v sid = some e →
      e.address ≠ 0 ∧ ∃ sid', (t.talker v sid').isSome ∧ sid = readWithAtoi sid' := by
  refine foldlM_invariant (P := fun s => s.2.listenerTables = ∅ ∧ ∀ v sid e,
    s.2.talker v sid = some e →
      e.address ≠ 0 ∧ ∃ sid', (t.talker v sid').isSome ∧ sid = readWithAtoi sid')
    (fun s s' x hx hs hinsert => ?_) ⟨rfl, fun v sid e he => by cases he⟩ h
  obtain ⟨hempty, hold⟩ := hs
  obtain ⟨htables, new, haddress, hnew, -⟩ := insertTalker_spec hinsert
  obtain ⟨hx, hspecified⟩ := of_mem_exportedTalkers hx
  refine ⟨htables.trans hempty, fun v sid e he => ?_⟩
  rw [hnew] at he
  split_ifs at he with hkey
  · cases he
    obtain ⟨rfl, rfl⟩ := hkey
    refine ⟨haddress ▸ hspecified, x.2.1, ?_, rfl⟩
    rw [hx]
    rfl
  · exact hold v sid e he

theorem listener_of_empty (h : t.listenerTables = ∅) (v : UInt16) (sid : UInt64) (m : M) :
    t.listener v sid m = none := by
  rw [listener, h]
  rfl

/-- If the table has a stream id only if it was read, then its stream ids are read right. -/
theorem readsBack_of_origin {p : UInt64 → Prop}
    (h : ∀ sid, p sid → ∃ sid', p sid' ∧ sid = readWithAtoi sid') {sid : UInt64} (hsid : p sid) :
    ReadsBack sid := by
  obtain ⟨sid', hsid', rfl⟩ := h sid hsid
  obtain ⟨sid'', -, rfl⟩ := h sid' hsid'
  exact readsBack_readWithAtoi sid''

omit [DecidableEq M] in
theorem readWithAtoi_streamId (hids : ∀ v sid, (t.talker v sid).isSome → ReadsBack sid) :
    ∀ x ∈ t.exportedTalkers, readWithAtoi x.2.1 = x.2.1 := by
  intro x hx
  refine (readWithAtoi_eq_self_iff _).mpr (hids x.1 x.2.1 ?_)
  rw [(of_mem_exportedTalkers hx).1]
  rfl

theorem restorable_of_roundTrips (hpath : ∀ m, getModuleByPath (getFullPath m) = some m)
    (h : RoundTrips getFullPath getModuleByPath agingTime now t) : t.Restorable := by
  obtain ⟨s, hs, hsame⟩ := h
  rw [importFromXML_exportToXML hpath] at hs
  obtain ⟨s₁, htalkers, hlisteners⟩ := Option.bind_eq_some_iff.mp hs
  obtain ⟨hempty, horigin⟩ := exportedTalkers_origin htalkers
  obtain ⟨hknown, htalker, hlistener⟩ := insertListeners_spec hlisteners
  have hsome : ∀ v sid, (s₁.2.talker v sid).isSome = (t.talker v sid).isSome := by
    intro v sid
    rw [← htalker, ← Option.isSome_map (f := TalkerEntry.reservation), hsame.talker,
      Option.isSome_map]
  -- an id that is not read back would be stored under another number
  have hids : ∀ v sid, (t.talker v sid).isSome → ReadsBack sid := by
    intro v sid hsid
    refine readsBack_of_origin (p := fun sid => (t.talker v sid).isSome) (fun sid hsid => ?_) hsid
    obtain ⟨e, he⟩ := Option.isSome_iff_exists.mp (hsome v sid ▸ hsid)
    exact (horigin v sid e he).2
  -- a talker with the address 0 is not read
  have haddress : ∀ v sid e, t.talker v sid = some e → e.address ≠ 0 := by
    intro v sid e he
    have hreservation := hsame.talker v sid
    rw [htalker, he, Option.map_some] at hreservation
    obtain ⟨e', he', heq⟩ := Option.map_eq_some_iff.mp hreservation
    rw [← (Prod.mk.inj heq).1]
    exact (horigin v sid e' he').1
  obtain ⟨-, hinserted⟩ := insertTalkers_spec (readWithAtoi_streamId hids)
    (exportedTalkers_nodup t) (fun _ _ => rfl) htalkers
  refine ⟨fun v sid e he => ?_, fun v sid m hm => ?_⟩
  · obtain ⟨hframesize, hintervalFrames, hcopy⟩ :=
      hinserted (v, sid, e) (mem_exportedTalkers haddress he)
    have hreservation := hsame.talker v sid
    rw [htalker, hcopy, he] at hreservation
    have heq : readWithAtoi e.framesize = e.framesize :=
      congrArg (·.2.2.1) (Option.some.inj hreservation)
    refine ⟨hids v sid (he ▸ rfl), haddress v sid e he, ?_, heq ▸ hframesize, hintervalFrames⟩
    exact (readWithAtoi_eq_self_iff _).mp heq
  · have hread : ReadsBack sid := by
      refine readsBack_of_origin (p := fun sid => (t.listener v sid m).isSome) (fun sid hm => ?_) hm
      rw [← hsame.listener, hlistener, listener_of_empty hempty] at hm
      obtain ⟨⟨v', sid', m'⟩, hkey, heq⟩ := hm.resolve_right (by simp)
      cases heq
      exact ⟨sid', mem_listenerKeys.mp hkey, rfl⟩
    have htalker := hknown (v, sid, m) (mem_listenerKeys.mpr hm)
    rw [(readWithAtoi_eq_self_iff sid).mpr hread, hsome] at htalker
    exact htalker

theorem roundTrips_of_restorable (hpath : ∀ m, getModuleByPath (getFullPath m) = some m)
    (h : t.Restorable) : RoundTrips getFullPath getModuleByPath agingTime now t := by
  have hids := readWithAtoi_streamId fun v sid hsome => by
    obtain ⟨e, he⟩ := Option.isSome_iff_exists.mp hsome
    exact (h.talker v sid e he).streamId
  have haddress : ∀ v sid e, t.talker v sid = some e → e.address ≠ 0 :=
    fun v sid e he => (h.talker v sid e he).address
  have hread : ∀ v sid e, t.talker v sid = some e → readWithAtoi e.framesize = e.framesize :=
    fun v sid e he => (readWithAtoi_eq_self_iff _).mpr (h.talker v sid e he).framesize
  have hsizes : ∀ x ∈ t.exportedTalkers,
      readWithAtoi x.2.2.framesize ≠ 0 ∧ x.2.2.intervalFrames ≠ 0 := by
    intro x hx
    have he := (of_mem_exportedTalkers hx).1
    rw [hread _ _ _ he]
    exact ⟨(h.talker _ _ _ he).framesize_ne, (h.talker _ _ _ he).intervalFrames_ne⟩
  obtain ⟨s₁, htalkers⟩ := insertTalkers_isSome (s := (false, {})) now hids
    (exportedTalkers_nodup t) (fun _ _ => rfl) hsizes
  obtain ⟨hempty, -⟩ := exportedTalkers_origin htalkers
  obtain ⟨hkept, hinserted⟩ := insertTalkers_spec hids (exportedTalkers_nodup t)
    (fun _ _ => rfl) htalkers
  -- after the first pass the talkers are those of the table
  have hcopy : ∀ v sid, s₁.2.talker v sid = (t.talker v sid).map (imported now) := by
    intro v sid
    cases he : t.talker v sid with
    | some e => exact (hinserted _ (mem_exportedTalkers haddress he)).2.2
    | none =>
      rw [hkept]
      · rfl
      · intro hmem
        obtain ⟨⟨v', sid', e⟩, hx, heq⟩ := List.mem_map.mp hmem
        cases heq
        cases he.symm.trans (of_mem_exportedTalkers hx).1
  have hfixed : ∀ v sid m, (t.listener v sid m).isSome → readWithAtoi sid = sid := by
    intro v sid m hm
    obtain ⟨e, he⟩ := Option.isSome_iff_exists.mp (h.listener v sid m hm)
    exact (readWithAtoi_eq_self_iff _).mpr (h.talker v sid e he).streamId
  -- so that every listener finds its talker in the second pass
  have hknown : ∀ key ∈ listenerKeys t.listenerTables,
      (s₁.2.talker key.1 (readWithAtoi key.2.1)).isSome := by
    intro key hkey
    have hm := mem_listenerKeys.mp hkey
    rw [hfixed _ _ _ hm, hcopy, Option.isSome_map]
    exact h.listener _ _ _ hm
  obtain ⟨s, hlisteners⟩ := insertListeners_isSome agingTime now hknown
  obtain ⟨-, htalker, hlistener⟩ := insertListeners_spec hlisteners
  refine ⟨s, ?_, fun v sid => ?_, fun v sid m => ?_⟩
  · rw [importFromXML_exportToXML hpath, htalkers]
    exact hlisteners
  · rw [htalker, hcopy, Option.map_map]
    refine Option.map_congr fun e he => ?_
    change (imported now e).reservation = e.reservation
    unfold TalkerEntry.reservation imported
    dsimp only
    rw [hread v sid e he]
  · rw [Bool.eq_iff_iff, hlistener, listener_of_empty hempty]
    constructor
    · intro hm
      obtain ⟨⟨v', sid', m'⟩, hkey, heq⟩ := hm.resolve_right (by simp)
      have hm' := mem_listenerKeys.mp hkey
      dsimp only at heq
      rw [hfixed _ _ _ hm'] at heq
      cases heq
      exact hm'
    · intro hm
      refine Or.inl ⟨(v, sid, m), mem_listenerKeys.mpr hm, ?_⟩
      rw [hfixed v sid m hm]

/-- What a table exports is read as the same reservations if and only if it is restorable. -/
theorem sameReservations_iff_restorable (hpath : ∀ m, getModuleByPath (getFullPath m) = some m)
    (agingTime now : SimTime) (t : SRPTable M) :
    RoundTrips getFullPath getModuleByPath agingTime now t ↔ t.Restorable :=
  ⟨restorable_of_roundTrips hpath, roundTrips_of_restorable hpath⟩

/-- The path of the only port. -/
def portPath (_ : Unit) : String := "network.switch.phy[0]"

def portByPath (path : String) : Option Unit :=
  if path = "network.switch.phy[0]" then some () else none

/-- A stream from a port to the same port. -/
def oneStream (streamId : UInt64) : SRPTable Unit where
  talkerTables := .set ∅ 2 (.set ∅ streamId ⟨.A, 5, (), 100, 1, 6, 0, false⟩)
  listenerTables := .set ∅ 2 (.set ∅ streamId (.set ∅ () ⟨0, false⟩))

theorem portByPath_portPath (m : Unit) : portByPath (portPath m) = some m := rfl

theorem talker_oneStream (streamId : UInt64) (v : UInt16) (sid : UInt64) :
    (oneStream streamId).talker v sid =
      if v = 2 ∧ sid = streamId then some ⟨.A, 5, (), 100, 1, 6, 0, false⟩ else none := by
  rw [talker, oneStream, Table.get_set]
  split_ifs with hv hkey hkey
  · rw [Table.find_set, if_pos hkey.2]
  · rw [Table.find_set, if_neg fun h => hkey ⟨hv, h⟩]
    rfl
  · exact absurd hkey.1 hv
  · rfl

theorem roundTrips_oneStream : RoundTrips portPath portByPath 7 0 (oneStream 5) := by
  refine (sameReservations_iff_restorable portByPath_portPath 7 0 (oneStream 5)).mpr
    ⟨fun v sid e he => ?_, fun v sid m hm => ?_⟩
  · rw [talker_oneStream] at he
    split_ifs at he with hkey
    obtain ⟨rfl, rfl⟩ := hkey
    cases he
    exact ⟨by decide, by decide, by decide, by decide, by decide⟩
  · rw [talker_oneStream]
    by_cases hkey : v = 2 ∧ sid = 5
    · rw [if_pos hkey]
      rfl
    · have hnone : (oneStream 5).listener v sid m = none := by
        rw [listener, oneStream, Table.get_set]
        split_ifs with hv
        · rw [Table.get_set, if_neg fun h => hkey ⟨hv, h⟩]
          rfl
        · rfl
      rw [hnone] at hm
      cases hm

/-- The stream id 4294967297 is read as 1. -/
theorem not_roundTrips : ¬∀ t : SRPTable Unit, RoundTrips portPath portByPath 7 0 t := by
  intro h
  obtain ⟨s, hs, hsame⟩ := h (oneStream 4294967297)
  have hread : ((importFromXML portByPath 7 0 {}
      ((oneStream 4294967297).exportToXML portPath)).all fun s =>
        (s.2.talker 2 4294967297).isNone) = true := by
    decide +kernel
  rw [hs] at hread
  have htalker := hsame.talker 2 4294967297
  rw [Option.isNone_iff_eq_none.mp hread] at htalker
  cases htalker

end SRPTable

end TsnReconfig.Avb
