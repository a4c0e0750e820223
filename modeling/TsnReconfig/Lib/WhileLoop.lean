import Mathlib.Order.WellFounded

/-!
# Loops without a bound

A loop goes on as long as there is a next state, here for a number of passes at most. It ends if
some number is enough, and then every greater one gives the same state.
-/

namespace TsnReconfig.Lib

variable {σ : Type*}

/-- The state at the end, `none` if the passes are not enough. -/
def whileLoop (next : σ → Option σ) : ℕ → σ → Option σ
  | 0, _ => none
  | fuel + 1, s =>
    match next s with
    | none => some s
    | some s' => whileLoop next fuel s'

variable {next : σ → Option σ} {P : σ → Prop} {s s' t : σ} {n m : ℕ}

theorem whileLoop_of_none (h : next s = none) : whileLoop next (n + 1) s = some s := by
  rw [whileLoop, h]

theorem whileLoop_of_some (h : next s = some s') :
    whileLoop next (n + 1) s = whileLoop next n s' := by
  rw [whileLoop, h]

theorem whileLoop_mono (h : whileLoop next n s = some t) (hle : n ≤ m) :
    whileLoop next m s = some t := by
  induction n generalizing s m with
  | zero => cases h
  | succ n ih =>
    obtain ⟨m, rfl⟩ := Nat.exists_eq_add_of_lt hle
    rw [whileLoop] at h ⊢
    cases hs : next s with
    | none =>
      rw [hs] at h
      exact h
    | some s' =>
      rw [hs] at h
      exact ih h (Nat.le_add_right n m)

/-- What every pass keeps holds at the end, where there is no next state. -/
theorem whileLoop_invariant (hstep : ∀ s s', P s → next s = some s' → P s') (hs : P s)
    (h : whileLoop next n s = some t) : P t ∧ next t = none := by
  induction n generalizing s with
  | zero => cases h
  | succ n ih =>
    rw [whileLoop] at h
    cases hnext : next s with
    | none =>
      rw [hnext] at h
      cases h
      exact ⟨hs, hnext⟩
    | some s' =>
      rw [hnext] at h
      exact ih (hstep s s' hs hnext) h

/-- A loop ends if every pass goes down. -/
theorem whileLoop_terminates {r : σ → σ → Prop} (hwf : WellFounded r)
    (hstep : ∀ s s', P s → next s = some s' → P s' ∧ r s' s) (hs : P s) :
    ∃ n t, whileLoop next n s = some t := by
  induction s using hwf.induction with
  | _ s ih =>
    cases hnext : next s with
    | none => exact ⟨1, s, whileLoop_of_none hnext⟩
    | some s' =>
      obtain ⟨hs', hr⟩ := hstep s s' hs hnext
      obtain ⟨n, t, h⟩ := ih s' hr hs'
      exact ⟨n + 1, t, (whileLoop_of_some hnext).trans h⟩

end TsnReconfig.Lib
