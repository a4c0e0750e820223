import Mathlib.Logic.Relation
import Mathlib.Tactic.SplitIfs

/-!
# Guarded transition systems

A system is a set of initial states and an executable step function: `step s e` is
`some s'` when event `e` can happen in state `s`. `ReachableUnder ok` are the states of
the runs whose every step meets `ok`, a condition on the state before the step and its
event; `Reachable` are those of all runs.
-/

namespace TsnReconfig.Lib

structure System (S E : Type*) where
  init : S → Prop
  step : S → E → Option S

namespace System

variable {S E : Type*} (sys : System S E)

/-- The states of the runs whose every step meets `ok`. -/
inductive ReachableUnder (ok : S → E → Prop) : S → Prop
  | init {s : S} (h : sys.init s) : ReachableUnder ok s
  | step {s s' : S} {e : E} (h : ReachableUnder ok s) (hok : ok s e)
      (hs : sys.step s e = some s') : ReachableUnder ok s'

/-- The states of all runs. -/
def Reachable : S → Prop := sys.ReachableUnder fun _ _ => True

/-- The system with its runs from a given state. -/
def startingAt (s : S) : System S E := { sys with init := (· = s) }

/-- The run of a list of events, `none` if one of them cannot happen. -/
def runFrom (s : S) : List E → Option S
  | [] => some s
  | e :: es => (sys.step s e).bind fun s' => runFrom s' es

/-- The run of a list of events, `none` if one of them cannot happen or does not meet `ok`. -/
def runUnder (ok : S → E → Prop) [∀ s e, Decidable (ok s e)] (s : S) : List E → Option S
  | [] => some s
  | e :: es => if ok s e then (sys.step s e).bind fun s' => runUnder ok s' es else none

variable {sys} {ok : S → E → Prop} {s s' : S}

/-- A condition that holds at first and survives every admitted step holds throughout.
The step may use that the state before it is reachable. -/
theorem ReachableUnder.invariant {P : S → Prop} (h : sys.ReachableUnder ok s)
    (hinit : ∀ s, sys.init s → P s)
    (hstep : ∀ s e s', sys.ReachableUnder ok s → P s → ok s e → sys.step s e = some s' → P s') :
    P s := by
  induction h with
  | init h => exact hinit _ h
  | step hr hok hs ih => exact hstep _ _ _ hr ih hok hs

theorem Reachable.invariant {P : S → Prop} (h : sys.Reachable s)
    (hinit : ∀ s, sys.init s → P s)
    (hstep : ∀ s e s', P s → sys.step s e = some s' → P s') : P s :=
  ReachableUnder.invariant h hinit fun _ _ _ _ hP _ hs => hstep _ _ _ hP hs

/-- A run goes on from a state that is reached. -/
theorem ReachableUnder.after (h : (sys.startingAt s).ReachableUnder ok s')
    (hs : sys.ReachableUnder ok s) : sys.ReachableUnder ok s' := by
  induction h with
  | init h => exact h ▸ hs
  | step _ hok hstep ih => exact .step ih hok hstep

theorem ReachableUnder.mono {ok' : S → E → Prop} (h : sys.ReachableUnder ok s)
    (himp : ∀ s e, ok s e → ok' s e) : sys.ReachableUnder ok' s := by
  induction h with
  | init h => exact .init h
  | step _ hok hs ih => exact .step ih (himp _ _ hok) hs

theorem ReachableUnder.reachable (h : sys.ReachableUnder ok s) : sys.Reachable s :=
  h.mono fun _ _ _ => trivial

theorem Reachable.run {es : List E} (h : sys.Reachable s) (hr : sys.runFrom s es = some s') :
    sys.Reachable s' := by
  induction es generalizing s with
  | nil =>
    obtain rfl : s = s' := by simpa [runFrom] using hr
    exact h
  | cons e es ih =>
    obtain ⟨s₁, hs, hr⟩ := Option.bind_eq_some_iff.mp hr
    exact ih (.step h trivial hs) hr

theorem ReachableUnder.run [∀ s e, Decidable (ok s e)] {es : List E}
    (h : sys.ReachableUnder ok s) (hr : sys.runUnder ok s es = some s') :
    sys.ReachableUnder ok s' := by
  induction es generalizing s with
  | nil =>
    obtain rfl : s = s' := by simpa [runUnder] using hr
    exact h
  | cons e es ih =>
    unfold runUnder at hr
    split_ifs at hr with hok
    obtain ⟨s₁, hs, hr⟩ := Option.bind_eq_some_iff.mp hr
    exact ih (.step h hok hs) hr

theorem reachable_of_runFrom {es : List E} (hs : sys.init s) (hr : sys.runFrom s es = some s') :
    sys.Reachable s' :=
  Reachable.run (.init hs) hr

/-- Every run of a system is a run of another one, without the events that this one does not
know, if each step of the first is a step of the second or none at all. -/
theorem runFrom_simulates {S' : Type*} {sys' : System S' E} {R : S → S' → Prop} {ok : E → Prop}
    {visible : E → Bool}
    (hvisible : ∀ s t e s', R s t → ok e → visible e → sys.step s e = some s' →
      ∃ t', sys'.step t e = some t' ∧ R s' t')
    (hinternal : ∀ s t e s', R s t → ok e → ¬visible e → sys.step s e = some s' → R s' t)
    {t : S'} {es : List E} (hok : ∀ e ∈ es, ok e) (hR : R s t)
    (hr : sys.runFrom s es = some s') :
    ∃ t', sys'.runFrom t (es.filter visible) = some t' ∧ R s' t' := by
  induction es generalizing s t with
  | nil =>
    obtain rfl : s = s' := by simpa [runFrom] using hr
    exact ⟨t, rfl, hR⟩
  | cons e es ih =>
    obtain ⟨s₁, hs, hr⟩ := Option.bind_eq_some_iff.mp hr
    have hrest : ∀ e ∈ es, ok e := fun e he => hok e (List.mem_cons_of_mem _ he)
    have he := hok e (List.mem_cons_self ..)
    by_cases hv : visible e
    · obtain ⟨t₁, ht, hR₁⟩ := hvisible s t e s₁ hR he hv hs
      obtain ⟨t', hrun, hR'⟩ := ih hrest hR₁ hr
      refine ⟨t', ?_, hR'⟩
      rw [List.filter_cons_of_pos hv, runFrom, ht]
      exact hrun
    · rw [List.filter_cons_of_neg hv]
      exact ih hrest (hinternal s t e s₁ hR he hv hs) hr

end System

end TsnReconfig.Lib
