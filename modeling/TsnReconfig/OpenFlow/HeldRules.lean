import Mathlib.Order.MinMax
import TsnReconfig.OpenFlow.FlowTable

/-!
# The rules a flow table holds

While no entry of the table has expired, a rule that is held stays, and a rule that is added
to a table with room for it is held.
-/

namespace TsnReconfig.OpenFlow.FlowTable

variable {t : FlowTable} {now : SimTime} {addr : ℕ} {m x : FlowMod}

/-- There is an entry with the match and the actions of the flow rule. -/
def Holds (t : FlowTable) (m : FlowMod) : Prop :=
  ∃ e ∈ t.entries, e.oxmMatch = m.oxmMatch ∧ e.instructions = m.actions

/-- No entry has expired. -/
def Live (t : FlowTable) (now : SimTime) : Prop := ∀ e ∈ t.entries, now < e.getTimeOut

theorem Holds.addEntry (h : t.Holds x) (hlive : t.Live now) (entry : FlowTableEntry) :
    (t.addEntry now entry).2.Holds x := by
  obtain ⟨e, he, hx⟩ := h
  exact ⟨e, mem_addEntry_of_mem he (hlive e he), hx⟩

theorem Holds.handleFlowMod (h : t.Holds x) (hlive : t.Live now) (hadd : m.command = .add) :
    (t.handleFlowMod now addr m).Holds x := by
  simp only [FlowTable.handleFlowMod, hadd]
  exact h.addEntry hlive _

theorem Holds.handleAging (h : t.Holds x) (hlive : t.Live now) :
    (t.handleAging now).Holds x := by
  obtain ⟨e, he, hx⟩ := h
  exact ⟨e, mem_removeAgedEntries.mpr ⟨he, hlive e he⟩, hx⟩

theorem Holds.lookup (h : t.Holds x) (hlive : t.Live now) (om : OxmBasicMatch) :
    (t.lookup now om).2.Holds x := by
  obtain ⟨e, he, hx⟩ := h
  have he' := mem_removeAgedEntriesIfNeeded he (hlive e he)
  simp only [FlowTable.lookup]
  split
  · refine ⟨_, List.mem_map_of_mem he', ?_⟩
    split_ifs <;> exact hx
  · exact ⟨e, he', hx⟩

/-- An entry expires at its idle timeout after the last match, or at its hard timeout after it was
created, if they are set. -/
theorem lt_getTimeOut_iff {e : FlowTableEntry} : now < e.getTimeOut ↔ now < maxTime ∧
    (0 < e.idleTimeout → now < e.lastMatched + e.idleTimeout * ticksPerSecond) ∧
    (0 < e.hardTimeout → now < e.creationTime + e.hardTimeout * ticksPerSecond) := by
  unfold FlowTableEntry.getTimeOut
  by_cases hidle : e.idleTimeout > 0
  · by_cases hhard : e.hardTimeout > 0
    · simp only [hidle, hhard, if_true, lt_min_iff, true_imp_iff, and_assoc]
    · simp only [hidle, hhard, if_true, if_false, lt_min_iff, true_imp_iff, false_imp_iff, and_true]
  · by_cases hhard : e.hardTimeout > 0
    · simp only [hidle, hhard, if_true, if_false, lt_min_iff, true_imp_iff, false_imp_iff, true_and]
    · simp only [hidle, hhard, if_false, false_imp_iff, and_true]

/-- A new entry does not expire at once. -/
theorem lt_getTimeOut_of_new {e : FlowTableEntry} (hcreated : e.creationTime = now)
    (hmatched : e.lastMatched = now) (hnow : now < maxTime) : now < e.getTimeOut := by
  have hticks : (0 : Int) < ticksPerSecond := by decide
  have hlater : ∀ n : Int, 0 < n → now < now + n * ticksPerSecond := by
    intro n hn
    exact Int.lt_add_of_pos_right now (Int.mul_pos hn hticks)
  refine lt_getTimeOut_iff.mpr ⟨hnow, fun hidle => ?_, fun hhard => ?_⟩
  · rw [hmatched]
    exact hlater _ hidle
  · rw [hcreated]
    exact hlater _ hhard

/-- What `addEntry` does: the table is full, or it has an entry at the address, or the new entry is
in the table with the old ones that have not expired. -/
inductive AddEntryCases (t : FlowTable) (now : SimTime) (entry : FlowTableEntry)
    (r : Bool × FlowTable) : Prop
  | full (hfull : (t.isFull now).1 = true) (hr : r = (false, (t.isFull now).2))
  | known (hfull : (t.isFull now).1 = false)
      (haddr : ∃ e ∈ (t.isFull now).2.entries, e.addr = entry.addr)
      (hr : r = (false, (t.isFull now).2))
  | added (hfull : (t.isFull now).1 = false)
      (haddr : ∀ e ∈ (t.isFull now).2.entries, e.addr ≠ entry.addr) (hr : r.1 = true)
      (hmem : ∀ e, e ∈ r.2.entries ↔ (e ∈ (t.isFull now).2.entries ∨
        e = { entry with creationTime := now, lastMatched := now }) ∧ now < e.getTimeOut)

theorem addEntry_cases (t : FlowTable) (now : SimTime) (entry : FlowTableEntry) :
    AddEntryCases t now entry (t.addEntry now entry) := by
  cases hfull : (t.isFull now).1 with
  | true =>
    refine .full hfull ?_
    simp only [addEntry, hfull, if_true]
  | false =>
    cases hknown : (t.isFull now).2.entries.any (·.addr == entry.addr) with
    | true =>
      obtain ⟨e, he, haddr⟩ := List.any_eq_true.mp hknown
      refine .known hfull ⟨e, he, beq_iff_eq.mp haddr⟩ ?_
      simp only [addEntry, hfull, hknown, Bool.false_eq_true, if_false, if_true]
    | false =>
      refine .added hfull (fun e he haddr => ?_) ?_ fun e => ?_
      · exact List.any_eq_false.mp hknown e he (beq_iff_eq.mpr haddr)
      · simp only [addEntry, hfull, hknown, Bool.false_eq_true, if_false]
      · simp only [addEntry, hfull, hknown, Bool.false_eq_true, if_false, mem_sortEntries,
          mem_removeAgedEntries, List.mem_append, List.mem_singleton]

/-- A rule that finds room and a fresh address is held afterwards. -/
theorem holds_handleFlowMod_self (hadd : m.command = .add) (hnow : now < maxTime)
    (hroom : (t.isFull now).1 = false) (haddr : ∀ e ∈ t.entries, e.addr ≠ addr) :
    (t.handleFlowMod now addr m).Holds m := by
  simp only [FlowTable.handleFlowMod, hadd]
  cases addEntry_cases t now (.ofFlowMod now addr m) with
  | full hfull hr =>
    rw [hroom] at hfull
    cases hfull
  | known hfull hknown hr =>
    obtain ⟨e, he, heq⟩ := hknown
    exact absurd heq (haddr e (isFull_entries_subset he))
  | added hfull hfresh hr hmem =>
    exact ⟨_, (hmem _).mpr ⟨.inr rfl, lt_getTimeOut_of_new rfl rfl hnow⟩, rfl, rfl⟩

end TsnReconfig.OpenFlow.FlowTable
