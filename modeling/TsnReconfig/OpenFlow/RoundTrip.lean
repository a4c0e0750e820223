import TsnReconfig.Lib.Lists
import TsnReconfig.OpenFlow.HeldRules
import TsnReconfig.OpenFlow.Priority
import TsnReconfig.OpenFlow.TableXml

/-!
# Export and import of flow tables

Whether the table that is read from the XML of a table filled by `FLOW_MOD` messages is the same.
-/

namespace TsnReconfig.OpenFlow

open Lib

/-! ## The copy of an entry -/

theorem lookup_attributeIf (condition : Bool) (name value key : String) :
    (attributeIf condition name value).lookup key =
      if condition && key == name then some value else none := by
  unfold attributeIf
  cases condition
  · rfl
  · cases h : key == name <;> simp [List.lookup_cons, h]

/-- What a cookie is read as. -/
def importedCookie (cookie : UInt64) : UInt64 :=
  .ofInt ((min longMax (cookie.toNat : ℤ)).bmod 4294967296)

/-- A cookie is read as it was written if it fits into an `int`, and if it is the greatest one. -/
theorem importedCookie_eq_iff (cookie : UInt64) :
    importedCookie cookie = cookie ↔
      cookie.toNat < 2147483648 ∨ cookie.toNat = 18446744073709551615 := by
  rw [importedCookie, ← readWithAtoi_eq]
  exact readWithAtoi_eq_self_iff cookie

theorem uint16_ofInt_atoi (x : UInt16) : UInt16.ofInt (atoi (toString (x.toNat : ℤ))) = x := by
  have hlt := x.toNat_lt
  rw [atoi_toString_of_lt (by omega) (by omega), ← UInt16.toNat_inj, UInt16.ofInt, UInt16.toNat_ofNat']
  omega

theorem uint8_ofInt_atoi (x : UInt8) : UInt8.ofInt (atoi (toString (x.toNat : ℤ))) = x := by
  have hlt := x.toNat_lt
  rw [atoi_toString_of_lt (by omega) (by omega), ← UInt8.toNat_inj, UInt8.ofInt, UInt8.toNat_ofNat']
  omega

theorem uint32_ofInt_bmod (x : UInt32) : UInt32.ofInt ((x.toNat : ℤ).bmod 4294967296) = x := by
  have hlt := x.toNat_lt
  rw [← UInt32.toNat_inj, UInt32.ofInt, UInt32.toNat_ofNat', Int.bmod_def]
  split_ifs <;> omega

namespace OxmBasicMatch

/-- A match as it is read from what was written: what is wildcarded stays as it was. -/
def restored (memory m : OxmBasicMatch) : OxmBasicMatch :=
  let w := m.wildcards
  { memory.uninitialized with
    ofbInPort := if wildcarded w ofpfwInPort then memory.ofbInPort else m.ofbInPort
    ofbEthSrc := if wildcarded w ofpfwDlSrc then 0 else m.ofbEthSrc
    ofbEthDst := if wildcarded w ofpfwDlDst then 0 else m.ofbEthDst
    ofbVlanVid := if wildcarded w ofpfwDlVlan then memory.ofbVlanVid else m.ofbVlanVid
    ofbVlanPcp := if wildcarded w ofpfwDlVlanPcp then memory.ofbVlanPcp else m.ofbVlanPcp
    ofbEthType := if wildcarded w ofpfwDlType then memory.ofbEthType else m.ofbEthType
    ofbIpProto := if wildcarded w ofpfwNwProto then memory.ofbIpProto else m.ofbIpProto
    ofbIpv4Src := if wildcarded w ofpfwNwSrcAll then 0 else m.ofbIpv4Src
    ofbIpv4Dst := if wildcarded w ofpfwNwDstAll then 0 else m.ofbIpv4Dst
    ofbTpSrc := if wildcarded w ofpfwTpSrc then memory.ofbTpSrc else m.ofbTpSrc
    ofbTpDst := if wildcarded w ofpfwTpDst then memory.ofbTpDst else m.ofbTpDst
    wildcards := w }

/-- A number is read back from its attribute, unless it is a wildcard. -/
theorem elim_numberIf {α : Type*} (w : Bool) {text : String} {x : α} (y : α) (read : String → α)
    (h : read text = x) :
    (if (!w) = true then some text else none).elim y read = if w then y else x := by
  cases w
  · rw [if_pos Bool.not_false, if_neg Bool.false_ne_true, Option.elim_some, h]
  · rfl

/-- An address is, unless it is a wildcard or zero. -/
theorem elim_addressIf {α : Type*} [OfNat α 0] [DecidableEq α] (w : Bool) (x : α)
    {str : α → String} {parse : String → Option α} (h : ∀ x, parse (str x) = some x) :
    (if (decide (x ≠ 0) && !w) = true then some (str x) else none).elim (some 0) parse =
      some (if w then 0 else x) := by
  cases w
  · by_cases hx : x = 0
    · simp [hx]
    · rw [if_pos (by simpa using hx), if_neg Bool.false_ne_true, Option.elim_some, h]
  · simp

theorem importFromXML_exportToXML (memory m : OxmBasicMatch) :
    memory.uninitialized.importFromXML m.exportToXML = some (restored memory m) := by
  have hnumber (w : Bool) (x y : UInt16) :=
    elim_numberIf w y (fun v => UInt16.ofInt (atoi v)) (uint16_ofInt_atoi x)
  have hsmall (w : Bool) (x y : UInt8) :=
    elim_numberIf w y (fun v => UInt8.ofInt (atoi v)) (uint8_ofInt_atoi x)
  have hmac (w : Bool) (x : MACAddress) := elim_addressIf w x MACAddress.tryParse_str
  have hip (w : Bool) (x : IPv4Address) := elim_addressIf w x IPv4Address.parseIPAddress_str
  have hwildcards : UInt32.ofInt (atoi (toString (m.wildcards.toNat : ℤ))) = m.wildcards := by
    have hlt := m.wildcards.toNat_lt
    have hlong : longMax = 9223372036854775807 := rfl
    rw [atoi_toString (by omega) (by omega), uint32_ofInt_bmod]
  have hsrc : memory.uninitialized.ofbEthSrc = 0 ∧ memory.uninitialized.ofbEthDst = 0 ∧
      memory.uninitialized.ofbIpv4Src = 0 ∧ memory.uninitialized.ofbIpv4Dst = 0 :=
    ⟨rfl, rfl, rfl, rfl⟩
  simp only [importFromXML, exportToXML, XMLElement.getAttribute, List.lookup_append,
    lookup_attributeIf, List.lookup_cons, List.lookup_nil, String.reduceBEq, Bool.and_true,
    Bool.and_false, Bool.false_eq_true, if_false, Option.none_or, Option.or_none, hsrc, hmac, hip,
    hnumber, hsmall, beq_self_eq_true, Option.elim_some, hwildcards]
  rfl

end OxmBasicMatch
namespace FlowTableEntry

/-- The copy of an entry in an object that `new` returns. -/
def restored (e : FlowTableEntry) (now : SimTime) (memory : FlowTableEntry) : FlowTableEntry :=
  { e with
    addr := memory.addr
    creationTime := now
    lastMatched := now
    cookie := importedCookie e.cookie
    oxmMatch := .restored memory.oxmMatch e.oxmMatch }

/-- The numbers of an entry that a `FLOW_MOD` message brings. -/
structure Narrow (e : FlowTableEntry) : Prop where
  hardTimeout : 0 ≤ e.hardTimeout ∧ e.hardTimeout < 65536
  idleTimeout : 0 ≤ e.idleTimeout ∧ e.idleTimeout < 65536
  priority : 0 ≤ e.priority ∧ e.priority < 65536
  flags : e.flags.toNat < 65536

variable {e memory : FlowTableEntry} {now : SimTime}

theorem importAction (port : UInt32) :
    ((exportAction port).getAttribute "port").map (fun v => UInt32.ofInt (atoi v)) = some port := by
  have hlt := port.toNat_lt
  have hle : -2147483648 ≤ (port.toNat : ℤ).bmod 4294967296 ∧
      (port.toNat : ℤ).bmod 4294967296 < 2147483648 := by
    rw [Int.bmod_def]
    split_ifs <;> omega
  rw [exportAction, XMLElement.getAttribute, List.lookup_cons_self, Option.map_some,
    atoi_toString_of_lt hle.1 hle.2, uint32_ofInt_bmod]

theorem ofXML_exportToXML (h : e.Narrow) (hne : e.instructions ≠ []) :
    ofXML now memory e.exportToXML = some (e.restored now memory) := by
  have hflags : UInt32.ofInt (atoi (toString (e.flags.toNat : ℤ))) = e.flags := by
    have hlt := h.flags
    rw [atoi_toString_of_lt (by omega) (by omega), ← UInt32.toNat_inj, UInt32.ofInt,
      UInt32.toNat_ofNat']
    omega
  have hcookie : UInt64.ofInt (atoi (toString (e.cookie.toNat : ℤ))) = importedCookie e.cookie := by
    rw [atoi, strtol_ofNat, importedCookie]
  have hnumber : ∀ x : ℤ, 0 ≤ x ∧ x < 65536 → atoi (toString x) = x :=
    fun x hx => atoi_toString_of_lt (by omega) (by omega)
  have hattributes : e.exportToXML.getAttribute "hardTimeout" = some (toString e.hardTimeout) ∧
      e.exportToXML.getAttribute "idleTimeout" = some (toString e.idleTimeout) ∧
      e.exportToXML.getAttribute "cookie" = some (toString (e.cookie.toNat : ℤ)) ∧
      e.exportToXML.getAttribute "priority" = some (toString e.priority) ∧
      e.exportToXML.getAttribute "flags" = some (toString (e.flags.toNat : ℤ)) :=
    ⟨rfl, rfl, rfl, rfl, rfl⟩
  have hactions : ((XMLElement.mk "instructions" []
      (e.instructions.map exportAction)).getChildrenByTagName "action_output").mapM
        (fun xml => (xml.getAttribute "port").map fun v => UInt32.ofInt (atoi v)) =
          some e.instructions := by
    rw [XMLElement.getChildrenByTagName, List.filter_eq_self.mpr fun xml hxml => ?_]
    · rw [List.mapM_map]
      have hports := mapM_eq_some_map (g := id) (l := e.instructions) fun port _ => importAction port
      rwa [List.map_id] at hports
    · obtain ⟨port, -, rfl⟩ := List.mem_map.mp hxml
      rfl
  have hmatch : e.exportToXML.getFirstChildWithTag "match" = some e.oxmMatch.exportToXML := rfl
  have hinstructions : e.exportToXML.getFirstChildWithTag "instructions" =
      some (.mk "instructions" [] (e.instructions.map exportAction)) := by
    rw [exportToXML, if_neg (by simpa using hne)]
    rfl
  simp only [ofXML, hmatch, hinstructions, Option.elim_some, hattributes,
    OxmBasicMatch.importFromXML_exportToXML, hnumber _ h.hardTimeout, hnumber _ h.idleTimeout,
    hnumber _ h.priority, hcookie, hflags]
  rw [Option.bind_eq_bind, Option.bind_some, Option.bind_eq_bind, Option.bind_some, hactions]
  rfl

theorem ofXML_exportToXML_nil (h : e.instructions = []) :
    ofXML now memory e.exportToXML = none := by
  have hinstructions : e.exportToXML.getFirstChildWithTag "instructions" = none := by
    rw [exportToXML, if_pos (by simp [h])]
    rfl
  unfold ofXML
  rw [hinstructions]
  cases (e.exportToXML.getFirstChildWithTag "match").elim
    (some memory.oxmMatch.uninitialized) memory.oxmMatch.uninitialized.importFromXML <;> rfl

end FlowTableEntry

/-! ## The entries of the table -/

/-- New entries come from `FLOW_MOD` messages. -/
def FilledByFlowMods (_ : TimedTable) : SimTime × TableCall → Prop
  | (_, .addEntry _) => False
  | _ => True

theorem narrow_ofFlowMod (now : SimTime) (addr : ℕ) (flowMod : FlowMod) :
    (FlowTableEntry.ofFlowMod now addr flowMod).Narrow := by
  have hhard := flowMod.hardTimeout.toNat_lt
  have hidle := flowMod.idleTimeout.toNat_lt
  have hpriority := flowMod.priority.toNat_lt
  have hflags := flowMod.flags.toNat_lt
  refine ⟨?_, ?_, ?_, ?_⟩
  · simp only [FlowTableEntry.ofFlowMod]
    omega
  · simp only [FlowTableEntry.ofFlowMod]
    omega
  · simp only [FlowTableEntry.ofFlowMod]
    omega
  · simpa [FlowTableEntry.ofFlowMod] using hflags

theorem FlowTableEntry.Narrow.of_eq {e e' : FlowTableEntry} (h : e.Narrow)
    (hhard : e'.hardTimeout = e.hardTimeout) (hidle : e'.idleTimeout = e.idleTimeout)
    (hpriority : e'.priority = e.priority) (hflags : e'.flags = e.flags) : e'.Narrow :=
  ⟨hhard ▸ h.hardTimeout, hidle ▸ h.idleTimeout, hpriority ▸ h.priority, hflags ▸ h.flags⟩

theorem narrow_of_reachable {s : TimedTable} (h : calledTable.ReachableUnder FilledByFlowMods s) :
    ∀ e ∈ s.table.entries, e.Narrow := by
  apply h.invariant (P := fun s => ∀ e ∈ s.table.entries, e.Narrow)
  · rintro s ⟨n, i, hs⟩ e he
    rw [hs, FlowTable.initTable_entries] at he
    cases he
  · rintro s ⟨now, call⟩ s' _ hnarrow hok hs e he
    simp only [calledTable] at hs
    split_ifs at hs
    obtain ⟨t, ht, rfl⟩ := Option.map_eq_some_iff.mp hs
    cases call with
    | addEntry entry => cases hok
    | handleFlowMod addr flowMod =>
      cases ht
      unfold FlowTable.handleFlowMod at he
      split at he
      · rcases FlowTable.mem_addEntry he with he | rfl
        · exact hnarrow e he
        · exact (narrow_ofFlowMod now addr flowMod).of_eq rfl rfl rfl rfl
      · exact hnarrow e (List.mem_of_mem_filter he)
      · exact hnarrow e (List.mem_of_mem_filter he)
      · exact hnarrow e (List.mem_of_mem_filter he)
      · exact hnarrow e he
    | deleteMatchingEntries m =>
      cases ht
      exact hnarrow e (List.mem_of_mem_filter he)
    | lookup m =>
      cases ht
      obtain ⟨e₀, he₀, rfl | rfl⟩ := FlowTable.exists_of_mem_lookup he
      · exact hnarrow e he₀
      · exact (hnarrow e₀ he₀).of_eq rfl rfl rfl rfl
    | aging =>
      simp only [TableCall.run] at ht
      split_ifs at ht
      cases ht
      exact hnarrow e (FlowTable.mem_removeAgedEntries.mp he).1

namespace FlowTable

variable {t t' t₀ : FlowTable} {now : SimTime} {heap : Heap} {e : FlowTableEntry}
  {m : OxmBasicMatch} {entries : List FlowTableEntry}

/-- Entries added one after the other. -/
def addEntries (t : FlowTable) (now : SimTime) (entries : List FlowTableEntry) : FlowTable :=
  entries.foldl (fun t e => (t.addEntry now e).2) t

@[simp] theorem removeAgedEntries_maxEntries (t : FlowTable) (now : SimTime) :
    (t.removeAgedEntries now).maxEntries = t.maxEntries := by
  simp only [removeAgedEntries]
  split_ifs <;> rfl

@[simp] theorem removeAgedEntriesIfNeeded_maxEntries (t : FlowTable) (now : SimTime) :
    (t.removeAgedEntriesIfNeeded now).maxEntries = t.maxEntries := by
  unfold removeAgedEntriesIfNeeded
  split_ifs
  · rfl
  · exact removeAgedEntries_maxEntries t now
  · rfl

@[simp] theorem addEntry_maxEntries (t : FlowTable) (now : SimTime) (entry : FlowTableEntry) :
    (t.addEntry now entry).2.maxEntries = t.maxEntries := by
  have hfull : (t.isFull now).2.maxEntries = t.maxEntries := by
    unfold isFull
    split_ifs
    · exact removeAgedEntriesIfNeeded_maxEntries t now
    · rfl
  simp only [addEntry]
  split_ifs
  · exact hfull
  · exact hfull
  · exact (removeAgedEntries_maxEntries _ now).trans hfull

/-- Nothing is removed while no entry has expired. -/
theorem removeAgedEntries_entries_of_live (h : t.Live now) :
    (t.removeAgedEntries now).entries = t.entries := by
  have hkept : (t.entries.filter fun e => decide (now < e.getTimeOut)) = t.entries := by
    rw [List.filter_eq_self]
    exact fun e he => decide_eq_true (h e he)
  simp only [removeAgedEntries, hkept, lt_irrefl, if_false]
  split_ifs <;> rfl

theorem isFull_of_live (h : t.Live now) :
    (t.isFull now).2.entries = t.entries ∧
      ((t.isFull now).1 ↔ t.maxEntries ≠ 0 ∧ t.maxEntries ≤ t.entries.length) := by
  have hentries : (t.removeAgedEntriesIfNeeded now).entries = t.entries := by
    unfold removeAgedEntriesIfNeeded
    split_ifs
    · rfl
    · exact removeAgedEntries_entries_of_live h
    · rfl
  unfold isFull
  split_ifs with hmax
  · simp [hentries, hmax]
  · simpa using fun h => absurd h hmax

/-- With room for it, an entry at a new address is added. -/
theorem addEntry_perm (hnow : now < maxTime) (h : t.Live now)
    (hroom : t.maxEntries = 0 ∨ t.entries.length < t.maxEntries)
    (hnew : e.creationTime = now ∧ e.lastMatched = now) (haddr : ∀ e' ∈ t.entries, e'.addr ≠ e.addr) :
    (t.addEntry now e).2.entries.Perm (t.entries ++ [e]) := by
  obtain ⟨hentries, hfull⟩ := isFull_of_live h
  have hnotFull : ¬(t.isFull now).1 := by
    rw [hfull]
    omega
  have hnone : ¬((t.isFull now).2.entries.any (·.addr == e.addr)) := by
    rw [hentries, List.any_eq_true]
    rintro ⟨e', he', heq⟩
    exact haddr e' he' (by simpa using heq)
  have hsame : ({ e with creationTime := now, lastMatched := now } : FlowTableEntry) = e := by
    obtain ⟨hc, hl⟩ := hnew
    cases e
    exact congr_arg₂ (fun c l => FlowTableEntry.mk _ c l _ _ _ _ _ _ _) hc.symm hl.symm
  simp only [addEntry]
  rw [if_neg hnotFull, if_neg hnone, hsame]
  refine (List.perm_insertionSort ..).trans ?_
  rw [removeAgedEntries_entries_of_live, hentries]
  intro e' he'
  rcases List.mem_append.mp he' with he' | he'
  · rw [hentries] at he'
    exact h e' he'
  · obtain rfl := List.mem_singleton.mp he'
    exact lt_getTimeOut_of_new hnew.1 hnew.2 hnow

theorem addEntries_perm (hnow : now < maxTime) (h : t.Live now) (entries : List FlowTableEntry)
    (hroom : t.maxEntries = 0 ∨ t.entries.length + entries.length ≤ t.maxEntries)
    (hnew : ∀ e ∈ entries, e.creationTime = now ∧ e.lastMatched = now)
    (haddr : (t.entries ++ entries).Pairwise fun a b => a.addr ≠ b.addr) :
    (t.addEntries now entries).entries.Perm (t.entries ++ entries) := by
  induction entries generalizing t with
  | nil => simp [addEntries]
  | cons e entries ih =>
    have he := hnew e (List.mem_cons_self ..)
    have hperm := addEntry_perm hnow h (e := e) (by rw [List.length_cons] at hroom; omega) he
      fun e' he' => (List.pairwise_append.mp haddr).2.2 e' he' e (List.mem_cons_self ..)
    have hlist : t.entries ++ e :: entries = (t.entries ++ [e]) ++ entries := by simp
    rw [hlist] at haddr ⊢
    have hrest : ((t.addEntry now e).2.addEntries now entries).entries.Perm
        ((t.addEntry now e).2.entries ++ entries) := by
      apply ih
      · intro e' he'
        rcases List.mem_append.mp (hperm.mem_iff.mp he') with he' | he'
        · exact h e' he'
        · obtain rfl := List.mem_singleton.mp he'
          exact lt_getTimeOut_of_new he.1 he.2 hnow
      · rw [addEntry_maxEntries, hperm.length_eq, List.length_append, List.length_singleton]
        rw [List.length_cons] at hroom
        omega
      · exact fun e' he' => hnew e' (List.mem_cons_of_mem _ he')
      · exact (List.Perm.pairwise_iff (fun h => h.symm) (hperm.append_right _)).mpr haddr
    exact hrest.trans (hperm.append_right _)

/-- A table does not grow beyond its maximum. -/
theorem length_addEntry_le (hmax : t.maxEntries ≠ 0) (h : t.entries.length ≤ t.maxEntries)
    (now : SimTime) (e : FlowTableEntry) :
    (t.addEntry now e).2.entries.length ≤ t.maxEntries := by
  have haged : ∀ t : FlowTable, (t.removeAgedEntries now).entries.length ≤ t.entries.length := by
    intro t
    have hfilter := List.length_filter_le (fun e => decide (now < e.getTimeOut)) t.entries
    simp only [removeAgedEntries]
    split_ifs <;> simpa [sortEntries] using hfilter
  have hneeded : (t.removeAgedEntriesIfNeeded now).entries.length ≤ t.entries.length := by
    unfold removeAgedEntriesIfNeeded
    split_ifs
    · exact le_refl _
    · exact haged t
    · exact le_refl _
  have hfull : (t.isFull now) = (decide (t.maxEntries ≤
      (t.removeAgedEntriesIfNeeded now).entries.length), t.removeAgedEntriesIfNeeded now) := by
    unfold isFull
    rw [if_pos hmax]
    simp
  simp only [addEntry, hfull]
  split_ifs with hle hany
  · exact hneeded.trans h
  · exact hneeded.trans h
  · have hlength := haged
      { t.removeAgedEntriesIfNeeded now with
        entries := (t.removeAgedEntriesIfNeeded now).entries ++
          [{ e with creationTime := now, lastMatched := now }] }
    rw [decide_eq_true_iff, not_le] at hle
    simp only [sortEntries, List.length_insertionSort, List.length_append,
      List.length_singleton] at hlength ⊢
    omega

theorem length_addEntries_le (hmax : t.maxEntries ≠ 0) (h : t.entries.length ≤ t.maxEntries) :
    (t.addEntries now entries).entries.length ≤ t.maxEntries := by
  induction entries generalizing t with
  | nil => exact h
  | cons e entries ih =>
    have hle := length_addEntry_le hmax h now e
    rw [← addEntry_maxEntries t now e] at hmax hle ⊢
    exact ih hmax hle

/-- At the end of the time every entry expires. -/
theorem addEntries_of_maxTime (hnow : maxTime ≤ now) (h : t.entries = []) :
    (t.addEntries now entries).entries = [] := by
  induction entries generalizing t with
  | nil => exact h
  | cons e entries ih =>
    apply ih
    rw [List.eq_nil_iff_forall_not_mem]
    intro e' he'
    have hexpired : ∀ e : FlowTableEntry, ¬now < e.getTimeOut := by
      intro e
      have hle : e.getTimeOut ≤ maxTime := by
        simp only [FlowTableEntry.getTimeOut]
        split_ifs <;> simp
      exact not_lt.mpr (hle.trans hnow)
    simp only [addEntry] at he'
    split_ifs at he'
    · have hmem := isFull_entries_subset he'
      rw [h] at hmem
      cases hmem
    · have hmem := isFull_entries_subset he'
      rw [h] at hmem
      cases hmem
    · exact hexpired e' (mem_removeAgedEntries.mp (mem_sortEntries.mp he')).2

/-! ## The imported table -/

/-- The copies of the entries in the order of their export. -/
def restoredEntries (now : SimTime) (heap : Heap) (i : ℕ) (entries : List FlowTableEntry) :
    List FlowTableEntry :=
  (entries.zipIdx i).map fun x => x.1.restored now (heap.object x.2)

theorem importEntries_eq (hnarrow : ∀ e ∈ entries, e.Narrow) (i : ℕ) (t : FlowTable) :
    importEntries now heap i (entries.map (·.exportToXML)) t =
      if ∀ e ∈ entries, e.instructions ≠ [] then
        some (t.addEntries now (restoredEntries now heap i entries))
      else none := by
  induction entries generalizing i t with
  | nil => simp [importEntries, restoredEntries, addEntries]
  | cons e entries ih =>
    have ih := ih (fun e he => hnarrow e (List.mem_cons_of_mem _ he))
    rw [List.map_cons, importEntries]
    by_cases hne : e.instructions = []
    · rw [FlowTableEntry.ofXML_exportToXML_nil hne, if_neg fun h => h e (List.mem_cons_self ..) hne]
      rfl
    · rw [FlowTableEntry.ofXML_exportToXML (hnarrow e (List.mem_cons_self ..)) hne,
        Option.bind_eq_bind, Option.bind_some, ih]
      simp only [List.forall_mem_cons, hne, not_false_eq_true, ne_eq, true_and]
      rfl

theorem importFromXML_exportToXML (hnarrow : ∀ e ∈ t.entries, e.Narrow) (t₀ : FlowTable)
    (tableIndex : Int32) (now : SimTime) (heap : Heap) :
    t₀.importFromXML tableIndex now heap (t.exportToXML tableIndex) =
      if ∀ e ∈ t.entries, e.instructions ≠ [] then
        some (t₀.addEntries now (restoredEntries now heap 0 t.entries))
      else none := by
  have hindex : (t.exportToXML tableIndex).getAttribute "index" =
      some (toString tableIndex.toInt) := rfl
  have hatoi : atoi (toString tableIndex.toInt) = tableIndex.toInt :=
    atoi_toString_of_lt tableIndex.le_toInt tableIndex.toInt_lt
  have hflows : (t.exportToXML tableIndex).getChildrenByTagName "flowEntry" =
      t.entries.map (·.exportToXML) := by
    rw [exportToXML, XMLElement.getChildrenByTagName, List.filter_eq_self]
    intro xml hxml
    obtain ⟨e, -, rfl⟩ := List.mem_map.mp hxml
    rfl
  rw [importFromXML, hindex]
  simp only [hatoi, ne_eq, not_true_eq_false, if_false, hflows]
  exact importEntries_eq hnarrow 0 t₀

theorem mem_restoredEntries {i : ℕ} :
    e ∈ restoredEntries now heap i entries ↔
      ∃ (j : ℕ) (e₀ : FlowTableEntry), entries[j]? = some e₀ ∧
        e = e₀.restored now (heap.object (i + j)) := by
  rw [restoredEntries, List.mem_map]
  constructor
  · rintro ⟨⟨e₀, k⟩, hmem, rfl⟩
    rw [List.mk_mem_zipIdx_iff_le_and_getElem?_sub] at hmem
    refine ⟨k - i, e₀, hmem.2, ?_⟩
    rw [Nat.add_sub_cancel' hmem.1]
  · rintro ⟨j, e₀, hj, rfl⟩
    refine ⟨⟨e₀, i + j⟩, ?_, rfl⟩
    rw [List.mk_mem_zipIdx_iff_le_and_getElem?_sub]
    exact ⟨Nat.le_add_right .., by rwa [Nat.add_sub_cancel_left]⟩

theorem length_restoredEntries (i : ℕ) :
    (restoredEntries now heap i entries).length = entries.length := by
  simp [restoredEntries]

theorem restoredEntries_pairwise (i : ℕ) :
    (restoredEntries now heap i entries).Pairwise fun a b => a.addr ≠ b.addr := by
  induction entries generalizing i with
  | nil => exact List.Pairwise.nil
  | cons e entries ih =>
    refine List.Pairwise.cons (fun e' he' => ?_) (ih (i + 1))
    obtain ⟨j, e₀, -, rfl⟩ := mem_restoredEntries.mp he'
    intro haddr
    have hindex : i = i + 1 + j := heap.distinct _ _ haddr
    omega

/-! ## The round trip -/

/-- The imported table is the same: what it finds for a packet, and the copy of each entry. -/
structure SameTable (t t' : FlowTable) (now : SimTime) (heap : Heap) : Prop where
  lookups : ∀ m, (t'.lookup now m).1.map (·.instructions) = (t.lookup now m).1.map (·.instructions)
  copies : ∀ i e, t.entries[i]? = some e → ∃ e' ∈ t'.entries, e'.addr = (heap.object i).addr ∧
    e'.priority = e.priority ∧ e'.flags = e.flags ∧ e'.cookie = e.cookie ∧
    e'.idleTimeout = e.idleTimeout ∧ e'.hardTimeout = e.hardTimeout
  length : t'.entries.length = t.entries.length

/-- The import of the exported table into another one succeeds, and makes it the same. -/
def RoundTrips (t t₀ : FlowTable) (tableIndex : Int32) (now : SimTime) (heap : Heap) : Prop :=
  ∃ t', t₀.importFromXML tableIndex now heap (t.exportToXML tableIndex) = some t' ∧
    SameTable t t' now heap

/-- What the copy of an entry matches: a source port that is wildcarded is not written, but
compared if the destination port is not wildcarded. -/
def CopyMatches (heap : Heap) (i : ℕ) (e : FlowTableEntry) (m : OxmBasicMatch) : Prop :=
  ({ e with
    oxmMatch := { e.oxmMatch with
      ofbTpSrc :=
        if wildcarded e.oxmMatch.wildcards ofpfwTpSrc then (heap.object i).oxmMatch.ofbTpSrc
        else e.oxmMatch.ofbTpSrc } } : FlowTableEntry).tryMatch m

/-- Of the entries whose copies match, the one whose copy is at the highest address. -/
structure HighestCopy (t : FlowTable) (heap : Heap) (m : OxmBasicMatch) (i : ℕ)
    (e : FlowTableEntry) : Prop where
  entry : t.entries[i]? = some e
  matching : CopyMatches heap i e m
  highest : ∀ j e', t.entries[j]? = some e' → CopyMatches heap j e' m → j ≠ i →
    (heap.object j).addr < (heap.object i).addr

/-- The tables that survive the export and the import into an empty table. -/
structure Copyable (t t₀ : FlowTable) (now : SimTime) (heap : Heap) : Prop where
  instructions : ∀ e ∈ t.entries, e.instructions ≠ []
  cookies : ∀ e ∈ t.entries,
    e.cookie.toNat < 2147483648 ∨ e.cookie.toNat = 18446744073709551615
  room : t₀.maxEntries = 0 ∨ t.entries.length ≤ t₀.maxEntries
  time : t.entries ≠ [] → now < maxTime
  order : ∀ m instructions, (∃ e, t.Highest now m e ∧ e.instructions = instructions) ↔
    ∃ i e, t.HighestCopy heap m i e ∧ e.instructions = instructions

theorem tryMatch_restored (i : ℕ) (e : FlowTableEntry) (m : OxmBasicMatch) :
    (e.restored now (heap.object i)).tryMatch m ↔ CopyMatches heap i e m := by
  have hguard : ∀ {α : Type} [BEq α] (w : Bool) (a b c : α),
      (w || (if w then a else b) == c) = (w || b == c) := by
    intro α _ w a b c
    cases w <;> rfl
  have hmac : ∀ (w : Bool) (a b c : MACAddress),
      (w || (if w then a else b).compareTo c == 0) = (w || b.compareTo c == 0) := by
    intro w a b c
    cases w <;> rfl
  unfold CopyMatches FlowTableEntry.tryMatch FlowTableEntry.tryMatchWith FlowTableEntry.restored
    OxmBasicMatch.restored
  simp only [hguard, hmac]

/-- What a lookup finds. -/
theorem lookup_instructions_iff (hsorted : t.Sorted) (haging : t.Aging now)
    (instructions : List UInt32) :
    (t.lookup now m).1.map (·.instructions) = some instructions ↔
      ∃ e, t.Highest now m e ∧ e.instructions = instructions := by
  rw [Option.map_eq_some_iff]
  constructor
  · rintro ⟨e, hl, rfl⟩
    obtain ⟨e₀, hfind, rfl⟩ := lookup_eq_some (Prod.ext hl rfl)
    exact ⟨e₀, (find?_eq_some_iff_highest hsorted haging).mp hfind, rfl⟩
  · rintro ⟨e, he, rfl⟩
    exact ⟨_, lookup_of_find? ((find?_eq_some_iff_highest hsorted haging).mpr he), rfl⟩

/-- All copies are in the imported table if they find room. -/
theorem addEntries_restoredEntries (heap : Heap) (hempty : t₀.entries = [])
    (hroom : t₀.maxEntries = 0 ∨ t.entries.length ≤ t₀.maxEntries)
    (htime : t.entries ≠ [] → now < maxTime) :
    (t₀.addEntries now (restoredEntries now heap 0 t.entries)).entries.Perm
      (restoredEntries now heap 0 t.entries) := by
  by_cases hnone : t.entries = []
  · rw [hnone, show restoredEntries now heap 0 [] = [] from rfl, addEntries, List.foldl_nil, hempty]
  · have hperm := addEntries_perm (t := t₀) (htime hnone) (by simp [Live, hempty])
      (restoredEntries now heap 0 t.entries)
      (by simpa [hempty, length_restoredEntries] using hroom)
      (fun e he => by
        obtain ⟨j, e₀, -, rfl⟩ := mem_restoredEntries.mp he
        exact ⟨rfl, rfl⟩)
      (by simpa [hempty] using restoredEntries_pairwise 0)
    simpa [hempty] using hperm

/-- An import that leaves as many entries as there were has found room for all of them. -/
theorem room_of_length (hempty : t₀.entries = [])
    (hlength : (t₀.addEntries now (restoredEntries now heap 0 t.entries)).entries.length =
      t.entries.length) :
    (t₀.maxEntries = 0 ∨ t.entries.length ≤ t₀.maxEntries) ∧
      (t.entries ≠ [] → now < maxTime) := by
  constructor
  · by_cases hmax : t₀.maxEntries = 0
    · exact .inl hmax
    · right
      rw [← hlength]
      exact length_addEntries_le hmax (by simp [hempty])
  · intro hne
    by_contra hnow
    rw [addEntries_of_maxTime (not_lt.mp hnow) hempty] at hlength
    exact hne (List.length_eq_zero_iff.mp hlength.symm)

theorem Sorted.addEntries (h : t.Sorted) (now : SimTime) (entries : List FlowTableEntry) :
    (t.addEntries now entries).Sorted := by
  induction entries generalizing t with
  | nil => exact h
  | cons e entries ih => exact ih (h.addEntry now e)

theorem Aging.addEntries (h : t.Aging now) (entries : List FlowTableEntry) :
    (t.addEntries now entries).Aging now := by
  induction entries generalizing t with
  | nil => exact h
  | cons e entries ih => exact ih (h.addEntry e)

section
variable (hperm : t'.entries.Perm (restoredEntries now heap 0 t.entries))
  (htime : t.entries ≠ [] → now < maxTime)
include hperm

theorem mem_imported :
    e ∈ t'.entries ↔ ∃ (j : ℕ) (e₀ : FlowTableEntry), t.entries[j]? = some e₀ ∧
      e = e₀.restored now (heap.object j) := by
  rw [hperm.mem_iff, mem_restoredEntries]
  simp only [Nat.zero_add]

include htime

/-- The matching entry of the imported table at the highest address is a copy. -/
theorem highest_imported_iff :
    t'.Highest now m e ↔ ∃ i e₀, t.HighestCopy heap m i e₀ ∧
      e = e₀.restored now (heap.object i) := by
  have hpresent : ∀ e ∈ t'.entries, t'.Present now e := by
    intro e he
    obtain ⟨j, e₀, hj, rfl⟩ := (mem_imported hperm).mp he
    have hnow := htime (List.ne_nil_of_mem (List.mem_of_getElem? hj))
    exact ⟨he, .inr (lt_getTimeOut_of_new rfl rfl hnow)⟩
  constructor
  · intro h
    obtain ⟨i, e₀, hi, rfl⟩ := (mem_imported hperm).mp h.present.1
    refine ⟨i, e₀, ⟨hi, (tryMatch_restored i e₀ m).mp h.matching, fun j e' hj hm hne => ?_⟩, rfl⟩
    have hmem := (mem_imported hperm).mpr ⟨j, e', hj, rfl⟩
    apply h.highest _ (hpresent _ hmem) ((tryMatch_restored j e' m).mpr hm)
    intro heq
    have haddr := congrArg FlowTableEntry.addr heq
    exact hne (heap.distinct j i haddr)
  · rintro ⟨i, e₀, h, rfl⟩
    have hmem := (mem_imported hperm).mpr ⟨i, e₀, h.entry, rfl⟩
    refine ⟨hpresent _ hmem, (tryMatch_restored i e₀ m).mpr h.matching, fun e' he' hm hne => ?_⟩
    obtain ⟨j, e₁, hj, rfl⟩ := (mem_imported hperm).mp he'.1
    apply h.highest j e₁ hj ((tryMatch_restored j e₁ m).mp hm)
    rintro rfl
    obtain rfl : e₀ = e₁ := Option.some.inj (h.entry.symm.trans hj)
    exact hne rfl

end

/-- The table survives exactly under the conditions above. -/
theorem roundTrips_iff {s : TimedTable} (h : calledTable.ReachableUnder FilledByFlowMods s)
    (hnow : s.time ≤ now) (hempty : t₀.entries = []) (tableIndex : Int32) (heap : Heap) :
    RoundTrips s.table t₀ tableIndex now heap ↔ Copyable s.table t₀ now heap := by
  obtain ⟨hsorted, haging⟩ := aging_of_reachable h.reachable
  have haging := haging.mono hnow
  have hsorted₀ : t₀.Sorted := by simp [Sorted, hempty]
  have haging₀ : t₀.Aging now := by simp [Aging, hempty]
  have himport := importFromXML_exportToXML (narrow_of_reachable h) t₀ tableIndex now heap
  generalize hresult : t₀.addEntries now (restoredEntries now heap 0 s.table.entries) = t'
    at himport
  have hsorted' : t'.Sorted := hresult ▸ hsorted₀.addEntries now _
  have haging' : t'.Aging now := hresult ▸ haging₀.addEntries _
  -- two tables answer alike when the entries of highest priority agree
  have hlookups : t'.entries.Perm (restoredEntries now heap 0 s.table.entries) →
      (s.table.entries ≠ [] → now < maxTime) →
      ((∀ m, (t'.lookup now m).1.map (·.instructions) =
        (s.table.lookup now m).1.map (·.instructions)) ↔
      ∀ m instructions, (∃ e, s.table.Highest now m e ∧ e.instructions = instructions) ↔
        ∃ i e, s.table.HighestCopy heap m i e ∧ e.instructions = instructions) := by
    intro hperm htime
    apply forall_congr'
    intro m
    rw [Option.ext_iff]
    apply forall_congr'
    intro instructions
    rw [lookup_instructions_iff hsorted' haging', lookup_instructions_iff hsorted haging, iff_comm]
    have hcopies : (∃ e, t'.Highest now m e ∧ e.instructions = instructions) ↔
        ∃ i e, s.table.HighestCopy heap m i e ∧ e.instructions = instructions := by
      constructor
      · rintro ⟨e, he, rfl⟩
        obtain ⟨i, e₀, hcopy, rfl⟩ := (highest_imported_iff hperm htime).mp he
        exact ⟨i, e₀, hcopy, rfl⟩
      · rintro ⟨i, e, hcopy, rfl⟩
        exact ⟨_, (highest_imported_iff hperm htime).mpr ⟨i, e, hcopy, rfl⟩, rfl⟩
    rw [hcopies, iff_comm]
    exact iff_comm
  constructor
  · rintro ⟨t'', hsome, hsame⟩
    rw [himport] at hsome
    split_ifs at hsome with hinstructions
    cases hsome
    have hlength := hsame.length
    rw [← hresult] at hlength
    obtain ⟨hroom, htime⟩ := room_of_length hempty hlength
    have hperm := addEntries_restoredEntries heap hempty hroom htime
    rw [hresult] at hperm
    refine ⟨hinstructions, fun e he => ?_, hroom, htime, (hlookups hperm htime).mp hsame.lookups⟩
    obtain ⟨i, hi⟩ := List.mem_iff_getElem?.mp he
    obtain ⟨e', he', haddr, -, -, hcookie, -⟩ := hsame.copies i e hi
    obtain ⟨j, e₀, hj, rfl⟩ := (mem_imported hperm).mp he'
    obtain rfl : j = i := heap.distinct j i haddr
    obtain rfl : e₀ = e := Option.some.inj (hj.symm.trans hi)
    exact (importedCookie_eq_iff e₀.cookie).mp hcookie
  · intro hcopyable
    have hperm := addEntries_restoredEntries heap hempty hcopyable.room hcopyable.time
    rw [hresult] at hperm
    refine ⟨t', by rw [himport, if_pos hcopyable.instructions], ?_⟩
    refine ⟨(hlookups hperm hcopyable.time).mpr hcopyable.order, fun i e hi => ?_, ?_⟩
    · have hcookie := (importedCookie_eq_iff e.cookie).mpr
        (hcopyable.cookies e (List.mem_of_getElem? hi))
      exact ⟨_, (mem_imported hperm).mpr ⟨i, e, hi, rfl⟩, rfl, rfl, rfl, hcookie, rfl, rfl⟩
    · rw [hperm.length_eq, length_restoredEntries]

/-- Objects that `new` returns at ascending addresses. -/
def ascendingHeap : Heap where
  object i := ⟨i, 0, 0, 0, 0, 0, 0, 0, .zero, []⟩
  distinct _ _ h := h

/-- A rule for in-port 1 with some actions. -/
def portRule (actions : List UInt32) : FlowMod :=
  ⟨7, 0, .add, 0, 0, 3, 0, { OxmBasicMatch.zero with ofbInPort := 1, wildcards := ~~~ofpfwInPort },
    actions⟩

/-- The table with the rule, as `FLOW_MOD` messages make it. -/
def portTable (actions : List UInt32) : List (SimTime × TableCall) :=
  [(0, .handleFlowMod 1 (portRule actions))]

theorem reachableUnder_portTable (actions : List UInt32) :
    ∃ s, calledTable.runFrom ⟨initTable 0 0 0, 0⟩ (portTable actions) = some s ∧
      calledTable.ReachableUnder FilledByFlowMods s ∧ s.time = 0 ∧
      s.table.entries = [.ofFlowMod 0 1 (portRule actions)] := by
  obtain ⟨s, hs, htime, hentries⟩ : ∃ s, calledTable.step ⟨initTable 0 0 0, 0⟩
        (0, .handleFlowMod 1 (portRule actions)) = some s ∧ s.time = 0 ∧
      s.table.entries = [.ofFlowMod 0 1 (portRule actions)] := ⟨_, rfl, rfl, rfl⟩
  have hok : FilledByFlowMods ⟨initTable 0 0 0, 0⟩ (0, .handleFlowMod 1 (portRule actions)) :=
    trivial
  exact ⟨s, by rw [portTable, System.runFrom, hs]; rfl, .step (.init ⟨0, 0, rfl⟩) hok hs, htime,
    hentries⟩

theorem roundTrips_iff_portTable :
    ∃ s, calledTable.runFrom ⟨initTable 0 0 0, 0⟩ (portTable [2]) = some s ∧
      (RoundTrips s.table (initTable 0 0 0) 0 5 ascendingHeap ↔
        Copyable s.table (initTable 0 0 0) 5 ascendingHeap) := by
  obtain ⟨s, hrun, hreachable, htime, -⟩ := reachableUnder_portTable [2]
  exact ⟨s, hrun, roundTrips_iff hreachable (by rw [htime]; decide) (initTable_entries 0 0 0) 0
    ascendingHeap⟩

/-- The import of a rule without actions dereferences a null pointer. -/
theorem portTable_not_roundTrips :
    ¬∀ (s : TimedTable) (t₀ : FlowTable) now tableIndex heap,
      calledTable.ReachableUnder FilledByFlowMods s → s.time ≤ now → t₀.entries = [] →
      RoundTrips s.table t₀ tableIndex now heap := by
  intro h
  obtain ⟨s, -, hreachable, htime, hentries⟩ := reachableUnder_portTable []
  obtain ⟨t', hsome, -⟩ := h s (initTable 0 0 0) 5 0 ascendingHeap hreachable
    (by rw [htime]; decide) (initTable_entries 0 0 0)
  rw [importFromXML_exportToXML (narrow_of_reachable hreachable), if_neg] at hsome
  · cases hsome
  · rw [hentries]
    exact fun hne => hne _ (List.mem_singleton.mpr rfl) rfl

end FlowTable

end TsnReconfig.OpenFlow
