import Mathlib.Algebra.Order.Ring.Rat
import Mathlib.Tactic.Linarith
import Mathlib.Tactic.Ring

/-!
# Buckets

A bucket is filled at a rate up to a level, and amounts are taken from it while its level is not
negative. What is taken in a window is at most what is filled in, and a full bucket, and the last
amount. Each fill may round up by one.
-/

namespace TsnReconfig.Lib

/-- A bucket that was filled up to a time, with the amounts that were taken and their times, and
the times at which it was filled. -/
structure Bucket where
  level : ℚ
  clock : ℚ
  taken : List (ℚ × ℚ)
  fills : List ℚ

namespace Bucket
variable {b : Bucket} {rate cap : ℚ}

/-- What was taken since a time. -/
def takenSince (b : Bucket) (t : ℚ) : ℚ :=
  ((b.taken.filter fun x => t ≤ x.1).map (·.2)).sum

/-- The amounts that were taken in a window. -/
def takenIn (b : Bucket) (t T : ℚ) : List ℚ :=
  (b.taken.filter fun x => t ≤ x.1 ∧ x.1 ≤ t + T).map (·.2)

def fillsSince (b : Bucket) (t : ℚ) : ℕ := b.fills.countP fun f => t ≤ f

def fillsIn (b : Bucket) (t T : ℚ) : ℕ := b.fills.countP fun f => t ≤ f ∧ f ≤ t + T

/-- The level is accounted for since every time, and what is taken in every window is bounded. -/
structure Accounted (rate cap : ℚ) (b : Bucket) : Prop where
  level_le : b.level ≤ cap
  past : ∀ x ∈ b.taken, x.1 ≤ b.clock
  since : ∀ t ≤ b.clock,
    b.level + b.takenSince t ≤ cap + rate * (b.clock - t) + b.fillsSince t
  window : ∀ t T D, 0 ≤ T → 0 ≤ D → (∀ amount ∈ b.takenIn t T, amount ≤ D) →
    (b.takenIn t T).sum ≤ rate * T + cap + D + b.fillsIn t T

theorem takenSince_of_lt (h : ∀ x ∈ b.taken, x.1 ≤ b.clock) {t : ℚ} (ht : b.clock < t) :
    b.takenSince t = 0 := by
  have hnone : b.taken.filter (fun x => t ≤ x.1) = [] := by
    rw [List.filter_eq_nil_iff]
    intro x hx
    have hle := h x hx
    simp only [decide_eq_true_eq, not_le]
    linarith
  rw [takenSince, hnone]
  rfl

/-- An empty bucket. -/
theorem accounted_empty {clock : ℚ} (hrate : 0 ≤ rate) (hcap : 0 ≤ cap) :
    Accounted rate cap ⟨0, clock, [], []⟩ where
  level_le := hcap
  past x hx := absurd hx List.not_mem_nil
  since t ht := by
    have h := mul_nonneg hrate (sub_nonneg.mpr ht)
    simp only [takenSince, fillsSince, List.filter_nil, List.map_nil, List.sum_nil,
      List.countP_nil, Nat.cast_zero]
    linarith
  window t T D hT hD _ := by
    have h := mul_nonneg hrate hT
    simp only [takenIn, fillsIn, List.filter_nil, List.map_nil, List.sum_nil, List.countP_nil,
      Nat.cast_zero]
    linarith

/-- The bucket is filled up to a later time. -/
theorem Accounted.fill (h : b.Accounted rate cap) (hrate : 0 ≤ rate) {now level : ℚ}
    (hnow : b.clock < now) (hlevel : level ≤ b.level + rate * (now - b.clock) + 1)
    (hcap : level ≤ cap) : Accounted rate cap ⟨level, now, b.taken, now :: b.fills⟩ where
  level_le := hcap
  past x hx := (h.past x hx).trans hnow.le
  since t ht := by
    have hcount : ((now :: b.fills).countP fun f => t ≤ f) = b.fillsSince t + 1 :=
      List.countP_cons_of_pos (decide_eq_true ht)
    change level + b.takenSince t ≤ cap + rate * (now - t) + ((now :: b.fills).countP _ : ℕ)
    rw [hcount]
    push_cast
    rcases le_or_gt t b.clock with hclock | hclock
    · have hsince := h.since t hclock
      have hsplit : rate * (now - t) = rate * (now - b.clock) + rate * (b.clock - t) := by ring
      linarith
    · rw [takenSince_of_lt h.past hclock]
      have hpos := mul_nonneg hrate (sub_nonneg.mpr ht)
      have hcount : (0 : ℚ) ≤ b.fillsSince t := Nat.cast_nonneg _
      linarith
  window t T D hT hD hmax := by
    have hcount : b.fillsIn t T ≤ (now :: b.fills).countP fun f => t ≤ f ∧ f ≤ t + T :=
      (List.sublist_cons_self ..).countP_le
    have hcast : (b.fillsIn t T : ℚ) ≤
        ((now :: b.fills).countP (fun f => t ≤ f ∧ f ≤ t + T) : ℕ) := Nat.cast_le.mpr hcount
    exact (h.window t T D hT hD hmax).trans (add_le_add_right hcast _)

/-- An amount is taken at the time up to which the bucket was filled. Filling starts again after
`d`, and what it would have brought until then is taken off the amount. -/
theorem Accounted.take (h : b.Accounted rate cap) (hrate : 0 ≤ rate) (amount level d : ℚ)
    (hlevel : 0 ≤ b.level) (hamount : level ≤ b.level - amount + rate * d) (hle : level ≤ b.level)
    (hd : 0 ≤ d) (hfills : ∀ f ∈ b.fills, f ≤ b.clock) :
    Accounted rate cap ⟨level, b.clock + d, (b.clock, amount) :: b.taken, b.fills⟩ where
  level_le := hle.trans h.level_le
  past x hx := by
    rcases List.mem_cons.mp hx with rfl | hx
    · exact le_add_of_nonneg_right hd
    · exact (h.past x hx).trans (le_add_of_nonneg_right hd)
  since t ht := by
    change level + ((((b.clock, amount) :: b.taken).filter fun x => t ≤ x.1).map (·.2)).sum ≤
      cap + rate * (b.clock + d - t) + b.fillsSince t
    by_cases hclock : t ≤ b.clock
    · rw [List.filter_cons_of_pos (by simpa using hclock), List.map_cons, List.sum_cons]
      have hsince := h.since t hclock
      unfold takenSince at hsince
      have hsplit : rate * (b.clock + d - t) = rate * (b.clock - t) + rate * d := by ring
      linarith
    · rw [List.filter_cons_of_neg (by simpa using hclock)]
      have hzero := takenSince_of_lt h.past (not_le.mp hclock)
      unfold takenSince at hzero
      rw [hzero]
      have hpos := mul_nonneg hrate (sub_nonneg.mpr ht)
      have hcap := h.level_le
      have hcount : (0 : ℚ) ≤ b.fillsSince t := Nat.cast_nonneg _
      linarith
  window t T D hT hD hmax := by
    change (takenIn ⟨_, _, (b.clock, amount) :: b.taken, _⟩ t T).sum ≤
      rate * T + cap + D + b.fillsIn t T
    by_cases hin : t ≤ b.clock ∧ b.clock ≤ t + T
    · -- all that was taken since `t`, and all fills since `t`, are in the window
      have htaken : b.taken.filter (fun x => t ≤ x.1 ∧ x.1 ≤ t + T) =
          b.taken.filter fun x => t ≤ x.1 := by
        refine List.filter_congr fun x hx => ?_
        have hle := (h.past x hx).trans hin.2
        simp [hle]
      have hfills' : b.fillsIn t T = b.fillsSince t := by
        refine List.countP_congr fun f hf => ?_
        have hle := (hfills f hf).trans hin.2
        simp [hle]
      have hnew : takenIn ⟨level, b.clock + d, (b.clock, amount) :: b.taken, b.fills⟩ t T =
          amount :: (b.taken.filter fun x => t ≤ x.1).map (·.2) := by
        unfold takenIn
        dsimp only
        rw [List.filter_cons_of_pos (by simpa using hin), List.map_cons, htaken]
      rw [hnew] at hmax ⊢
      rw [List.sum_cons, hfills']
      have hlast := hmax amount (List.mem_cons_self ..)
      have hsince := h.since t hin.1
      unfold takenSince at hsince
      have hwindow : rate * (b.clock - t) ≤ rate * T :=
        mul_le_mul_of_nonneg_left (by linarith [hin.2]) hrate
      linarith
    · have hold : takenIn ⟨level, b.clock + d, (b.clock, amount) :: b.taken, b.fills⟩ t T =
          b.takenIn t T := by
        unfold takenIn
        dsimp only
        rw [List.filter_cons_of_neg (by simpa using hin)]
      rw [hold] at hmax ⊢
      exact h.window t T D hT hD hmax

end Bucket

end TsnReconfig.Lib
