import Mathlib.Tactic.SplitIfs

/-!
# Functions that change a state and throw

What a function has changed before it throws stays changed. It may do neither, return or throw, if
it does not end or writes where it must not.
-/

namespace TsnReconfig.Lib

/-- A function of the state. Its run is `none` if it neither returns nor throws. -/
structure Throwing (σ ε α : Type) where
  run : σ → Option (Except ε α × σ)

namespace Throwing
variable {σ ε α β : Type}

def bind (x : Throwing σ ε α) (f : α → Throwing σ ε β) : Throwing σ ε β where
  run s :=
    match x.run s with
    | some (.ok a, s') => (f a).run s'
    | some (.error e, s') => some (.error e, s')
    | none => none

instance : Monad (Throwing σ ε) where
  pure a := ⟨fun s => some (.ok a, s)⟩
  bind := bind

instance : MonadStateOf σ (Throwing σ ε) where
  get := ⟨fun s => some (.ok s, s)⟩
  set s := ⟨fun _ => some (.ok ⟨⟩, s)⟩
  modifyGet f := ⟨fun s => some (.ok (f s).1, (f s).2)⟩

def raise (e : ε) : Throwing σ ε α := ⟨fun s => some (.error e, s)⟩

/-- It never returns or throws. -/
def stuck : Throwing σ ε α := ⟨fun _ => none⟩

variable {x : Throwing σ ε α} {f : α → Throwing σ ε β} {a : α} {e : ε} {s s' : σ}

theorem run_bind : (x >>= f).run s =
    match x.run s with
    | some (.ok a, s') => (f a).run s'
    | some (.error e, s') => some (.error e, s')
    | none => none := rfl

theorem bind_of_ok (h : x.run s = some (.ok a, s')) : (x >>= f).run s = (f a).run s' := by
  rw [run_bind, h]

theorem bind_of_error (h : x.run s = some (.error e, s')) :
    (x >>= f).run s = some (.error e, s') := by
  rw [run_bind, h]

theorem bind_of_none (h : x.run s = none) : (x >>= f).run s = none := by
  rw [run_bind, h]

@[simp] theorem run_pure : (pure a : Throwing σ ε α).run s = some (.ok a, s) := rfl

@[simp] theorem run_raise : (raise e : Throwing σ ε α).run s = some (.error e, s) := rfl

@[simp] theorem run_modify {g : σ → σ} :
    (modify g : Throwing σ ε PUnit).run s = some (.ok ⟨⟩, g s) := rfl

@[simp] theorem run_get_bind {f : σ → Throwing σ ε β} :
    ((get : Throwing σ ε σ) >>= f).run s = (f s).run s := rfl

@[simp] theorem run_modify_bind {f : PUnit → Throwing σ ε β} {g : σ → σ} :
    ((modify g : Throwing σ ε PUnit) >>= f).run s = (f ⟨⟩).run (g s) := rfl

/-! ## More passes -/

/-- The second function does what the first one does, if this ends. -/
def Le (x y : Throwing σ ε α) : Prop := ∀ s p, x.run s = some p → y.run s = some p

theorem Le.refl (x : Throwing σ ε α) : Le x x := fun _ _ h => h

theorem Le.stuck (x : Throwing σ ε α) : Le stuck x := by
  intro s p h
  cases h

theorem Le.bind {x y : Throwing σ ε α} {f g : α → Throwing σ ε β} (h : Le x y)
    (hfg : ∀ a, Le (f a) (g a)) : Le (x >>= f) (y >>= g) := by
  intro s p hp
  rw [run_bind] at hp
  cases hx : x.run s with
  | none =>
    rw [hx] at hp
    cases hp
  | some q =>
    obtain ⟨result, s'⟩ := q
    rw [hx] at hp
    rw [run_bind, h s _ hx]
    cases result with
    | error e => exact hp
    | ok a => exact hfg a s' p hp

theorem Le.ite {c : Prop} [Decidable c] {x y x' y' : Throwing σ ε α} (h : Le x x')
    (h' : Le y y') : Le (if c then x else y) (if c then x' else y') := by
  split_ifs
  · exact h
  · exact h'

end Throwing

end TsnReconfig.Lib
