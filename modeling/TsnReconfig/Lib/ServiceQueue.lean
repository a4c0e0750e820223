import Mathlib.Data.List.Basic

/-!
# A queue in front of a handler

A module that processes its messages one by one, with one of them scheduled while the others
wait.
-/

namespace TsnReconfig.Lib
variable {M : Type*}

/-- While the module is not busy nothing is scheduled and nothing waits. -/
structure ServiceQueue (M : Type*) where
  busy : Bool
  event : Option M
  msgList : List M
  idle : busy = false → event = none ∧ msgList = []

namespace ServiceQueue

def empty : ServiceQueue M := ⟨false, none, [], fun _ => ⟨rfl, rfl⟩⟩

/-- A message is scheduled, or waits while the module is busy. -/
def arrive (q : ServiceQueue M) (m : M) : ServiceQueue M :=
  if q.busy then ⟨true, q.event, q.msgList ++ [m], fun h => (Bool.noConfusion h)⟩
  else ⟨true, some m, q.msgList, fun h => (Bool.noConfusion h)⟩

/-- The scheduled message is processed, and the next one is scheduled. -/
def finish (q : ServiceQueue M) : Option (M × ServiceQueue M) :=
  match q.event, q.msgList with
  | none, _ => none
  | some m, [] => some (m, ⟨false, none, [], fun _ => ⟨rfl, rfl⟩⟩)
  | some m, next :: rest => some (m, ⟨true, some next, rest, fun h => (Bool.noConfusion h)⟩)

/-- The messages that are not processed yet, in order. -/
def contents (q : ServiceQueue M) : List M := q.event.toList ++ q.msgList

@[simp] theorem contents_empty : (empty : ServiceQueue M).contents = [] := rfl

@[simp] theorem contents_arrive (q : ServiceQueue M) (m : M) :
    (q.arrive m).contents = q.contents ++ [m] := by
  unfold arrive
  split_ifs with h
  · exact (List.append_assoc _ _ _).symm
  · obtain ⟨hevent, hlist⟩ := q.idle (by simpa using h)
    simp [contents, hevent, hlist]

theorem contents_of_finish {q q' : ServiceQueue M} {m : M} (h : q.finish = some (m, q')) :
    q.contents = m :: q'.contents := by
  unfold finish at h
  cases hevent : q.event with
  | none => simp [hevent] at h
  | some m' =>
    cases hlist : q.msgList with
    | nil =>
      simp only [hevent, hlist, Option.some.injEq, Prod.mk.injEq] at h
      obtain ⟨rfl, rfl⟩ := h
      simp [contents, hevent, hlist]
    | cons next rest =>
      simp only [hevent, hlist, Option.some.injEq, Prod.mk.injEq] at h
      obtain ⟨rfl, rfl⟩ := h
      simp [contents, hevent, hlist]

end ServiceQueue

end TsnReconfig.Lib
