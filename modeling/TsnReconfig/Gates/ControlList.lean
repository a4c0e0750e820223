import Mathlib.Algebra.Order.Floor.Semiring
import Mathlib.Algebra.Order.Field.Basic
import Mathlib.Data.Rat.Floor
import TsnReconfig.Gates.Timer
import TsnReconfig.Lib.Schedule

/-!
# Control lists

The rows of a gate control list, and which of them is in force at a tick of the period. Floating
point times are rational numbers, in the resolution of the simulation.
-/

namespace TsnReconfig.Gates

open Lib

/-- `IEEE8021QbvGate::State`. -/
inductive GateState
  | opened
  | closed
  deriving DecidableEq, Repr

/-- The letters for the states in a control list. -/
def GateState.ofString : String → Option GateState
  | "o" => some .opened
  | "C" => some .closed
  | _ => none

/-- A row of a control list: the states of the gates and the time from which they hold. -/
structure Row where
  gates : List GateState
  start : ℚ
  deriving DecidableEq

/-- The tick of the period at which a row starts: its time, rounded up. -/
def Row.startTick (tick : ℕ) (row : Row) : ℕ :=
  ⌈row.start / tick⌉₊

/-- The row that is in force at a tick of the period: the one with the greatest start tick not
after it, or the last one if there is none. -/
def rowInForce (tick : ℕ) (rows : List Row) (c : ℕ) : Option Row :=
  inForce (Row.startTick tick) rows c

/-- The place of the first row that does not start before a time in the period, or of the first
row of all. -/
def firstElement (rows : List Row) (currentTimeInPeriod : ℚ) : ℕ :=
  let i := rows.findIdx (currentTimeInPeriod ≤ ·.start)
  if i < rows.length then i else 0

section
variable {tick c : ℕ} {rows : List Row} {row : Row}

theorem startTick_le (htick : 0 < tick) (h : row.start ≤ c * tick) : row.startTick tick ≤ c := by
  have hpos : (0 : ℚ) < tick := by exact_mod_cast htick
  exact Nat.ceil_le.mpr ((div_le_iff₀ hpos).mpr h)

theorem lt_startTick (htick : 0 < tick) (h : c * tick < row.start) : c < row.startTick tick := by
  have hpos : (0 : ℚ) < tick := by exact_mod_cast htick
  exact Nat.lt_ceil.mpr ((lt_div_iff₀ hpos).mpr h)

theorem startTick_eq (htick : 0 < tick) (h : row.start = c * tick) : row.startTick tick = c := by
  have hpos : (tick : ℚ) ≠ 0 := by exact_mod_cast htick.ne'
  rw [Row.startTick, h, mul_div_cancel_right₀ _ hpos, Nat.ceil_natCast]

theorem startTick_mono {row' : Row} (h : row.start ≤ row'.start) :
    row.startTick tick ≤ row'.startTick tick :=
  Nat.ceil_mono (div_le_div_of_nonneg_right h (Nat.cast_nonneg tick))

/-- The first row after the current time starts now, later, or in the next cycle. -/
theorem firstElement_cases (htick : 0 < tick) (hne : rows ≠ []) :
    ∃ hj : firstElement rows (c * tick) < rows.length,
      rows[firstElement rows (c * tick)].start = c * tick ∨
      rows[firstElement rows (c * tick)].start ≠ c * tick ∧
        ((∀ x ∈ rows.take (firstElement rows (c * tick)), x.startTick tick ≤ c) ∧
          c < rows[firstElement rows (c * tick)].startTick tick ∨
        firstElement rows (c * tick) = 0 ∧ ∀ x ∈ rows, x.startTick tick ≤ c) := by
  by_cases hi : rows.findIdx ((c * tick : ℚ) ≤ ·.start) < rows.length
  · have hj : firstElement rows (c * tick) = rows.findIdx ((c * tick : ℚ) ≤ ·.start) := if_pos hi
    simp only [hj]
    refine ⟨hi, ?_⟩
    have hle : (c * tick : ℚ) ≤ rows[rows.findIdx ((c * tick : ℚ) ≤ ·.start)].start := by
      simpa using List.findIdx_getElem (w := hi)
    rcases hle.eq_or_lt with heq | hlt
    · exact .inl heq.symm
    · refine .inr ⟨hlt.ne', .inl ⟨fun x hx => ?_, lt_startTick htick hlt⟩⟩
      obtain ⟨m, hm, rfl⟩ := List.mem_take_iff_getElem.mp hx
      have hbefore := List.not_of_lt_findIdx (lt_of_lt_of_le hm (Nat.min_le_left _ _))
      exact startTick_le htick (not_le.mp (by simpa using hbefore)).le
  · have hj : firstElement rows (c * tick) = 0 := if_neg hi
    have hpast : ∀ x ∈ rows, x.start < c * tick := by
      intro x hx
      have hlength := le_antisymm List.findIdx_le_length (not_lt.mp hi)
      simpa using List.findIdx_eq_length.mp hlength x hx
    have hpos : 0 < rows.length := List.length_pos_iff.mpr hne
    simp only [hj]
    exact ⟨hpos, .inr ⟨(hpast _ (List.getElem_mem hpos)).ne, .inr ⟨trivial, fun x hx =>
      startTick_le htick (hpast x hx).le⟩⟩⟩

/-- Until the next row starts, the one before it is in force. -/
theorem rowInForce_wait {period : Period} {k j : ℕ}
    (hsorted : rows.Pairwise (·.start ≤ ·.start)) (hj : j < rows.length)
    (hc : period.getTicks k = c) (ha : rows[j].startTick tick < period.cycleTicks)
    (hnext : (∀ x ∈ rows.take j, x.startTick tick ≤ c) ∧ c < rows[j].startTick tick ∨
      j = 0 ∧ (∀ x ∈ rows, x.startTick tick ≤ c) ∧ rows[j].startTick tick < c) :
    ∀ k', k ≤ k' → k' < k + period.wait c (rows[j].startTick tick) →
      rowInForce tick rows (period.getTicks k') = before rows j := by
  intro k' hk hlt
  obtain ⟨d, rfl⟩ := Nat.exists_eq_add_of_le hk
  have hcl : c < period.cycleTicks := hc ▸ Period.getTicks_lt ha k
  have hsorted' : rows.Pairwise fun x y => x.startTick tick ≤ y.startTick tick :=
    hsorted.imp fun h => startTick_mono h
  rw [Period.getTicks_add, hc]
  unfold Period.wait at hlt
  rcases hnext with ⟨hle, hstart⟩ | ⟨rfl, hle, hstart⟩
  · rw [if_pos hstart.le] at hlt
    rw [Nat.mod_eq_of_lt (by omega)]
    exact inForce_of_lt hsorted' hj hle (Nat.le_add_right c d) (by omega)
  · rw [if_neg (not_le.mpr hstart)] at hlt
    by_cases hcycle : c + d < period.cycleTicks
    · -- the rest of this cycle
      rw [Nat.mod_eq_of_lt hcycle]
      exact inForce_of_le fun x hx => (hle x hx).trans (Nat.le_add_right c d)
    · -- the beginning of the next one
      rw [Nat.mod_eq_sub_mod (not_lt.mp hcycle), Nat.mod_eq_of_lt (by omega)]
      exact inForce_of_lt (c := 0) hsorted' hj (by simp) (Nat.zero_le _) (by omega)

end

end TsnReconfig.Gates
