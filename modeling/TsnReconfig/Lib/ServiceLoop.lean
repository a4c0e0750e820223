import Mathlib.Algebra.Order.Group.Multiset
import Mathlib.Order.Defs.LinearOrder
import TsnReconfig.Lib.System

/-!
# Servers with a queue

A server that takes its time for every message: a message is scheduled for the time at which it is
processed, or waits in the queue until a message before it has been processed. The kernel delivers
what is scheduled in the order of the times, and in any order where these are equal.
-/

namespace TsnReconfig.Lib

/-- What a server does with a message that arrives. -/
inductive Admission (T : Type*)
  | scheduled (time : T)
  | waiting
  | handled
  | ignored
  deriving DecidableEq, Repr

/-- A server: `arrive` takes a message, `finish` follows the processing of one and gives the next
message with its time, `change` is a change of its parameters. It handles the messages that are
`fast` at once. Its handlers are `none` where they fail. -/
structure ServiceLoop (σ M T C : Type*) [LinearOrder T] where
  arrive : σ → T → M → Option (σ × Admission T)
  finish : σ → T → Option (σ × Option (T × M))
  change : σ → C → σ
  queue : σ → List M
  busy : σ → Bool
  parallel : σ → Bool
  fast : M → Bool
  /-- A message is scheduled if the server is free or takes several messages at once. -/
  arrive_scheduled {s s' : σ} {t t' : T} {m : M} (h : arrive s t m = some (s', .scheduled t')) :
    (parallel s ∨ busy s = false) ∧ queue s' = queue s ∧ busy s' ∧ fast m = false
  arrive_waiting {s s' : σ} {t : T} {m : M} (h : arrive s t m = some (s', .waiting)) :
    busy s ∧ queue s' = queue s ++ [m] ∧ busy s' ∧ fast m = false
  arrive_handled {s s' : σ} {t : T} {m : M} (h : arrive s t m = some (s', .handled)) :
    queue s' = queue s ∧ busy s' = busy s ∧ fast m
  arrive_ignored {s s' : σ} {t : T} {m : M} (h : arrive s t m = some (s', .ignored)) :
    queue s' = queue s ∧ busy s' = busy s
  /-- The next message is the first one of the queue, and without one the server is free. -/
  finish_none {s s' : σ} {t : T} (h : finish s t = some (s', none)) :
    queue s = [] ∧ queue s' = [] ∧ busy s' = false
  finish_some {s s' : σ} {t t' : T} {m : M} (h : finish s t = some (s', some (t', m))) :
    queue s = m :: queue s' ∧ busy s' = busy s
  queue_change (s : σ) (c : C) : queue (change s c) = queue s
  busy_change (s : σ) (c : C) : busy (change s c) = busy s

/-- A server with what is scheduled for it and the messages that it took and processed so far. -/
structure ServiceRun (σ M T : Type*) where
  server : σ
  now : T
  scheduled : List (T × M) := []
  arrived : List M := []
  processed : List M := []
  deriving DecidableEq, Repr

/-- `finish i` is the time of the message at place `i` of what is scheduled. -/
inductive ServiceEvent (M C : Type*)
  | arrive (m : M)
  | finish (i : ℕ)
  | change (c : C)
  deriving DecidableEq, Repr

namespace ServiceLoop
variable {σ M T C : Type*} [LinearOrder T] (L : ServiceLoop σ M T C)

/-- The bookkeeping for a message that arrives. -/
def take (s : ServiceRun σ M T) (m : M) (server : σ) : Admission T → ServiceRun σ M T
  | .scheduled t =>
    { s with server, scheduled := s.scheduled ++ [(t, m)], arrived := s.arrived ++ [m] }
  | .waiting => { s with server, arrived := s.arrived ++ [m] }
  | .handled => { s with server, arrived := s.arrived ++ [m], processed := s.processed ++ [m] }
  | .ignored => { s with server }

/-- The bookkeeping for the message at place `i`, which has been processed. -/
def release (s : ServiceRun σ M T) (i : ℕ) (m : M) (server : σ) (next : Option (T × M)) :
    ServiceRun σ M T :=
  { s with
    server
    scheduled := s.scheduled.eraseIdx i ++ next.toList
    processed := s.processed ++ [m] }

/-- An event at time `t`. -/
def react (s : ServiceRun σ M T) (t : T) : ServiceEvent M C → Option (ServiceRun σ M T)
  | .arrive m =>
    (L.arrive s.server t m).map fun r => take { s with now := t } m r.1 r.2
  | .finish i =>
    s.scheduled[i]?.bind fun x =>
      if x.1 = t then
        (L.finish s.server t).map fun r => release { s with now := t } i x.2 r.1 r.2
      else none
  | .change c => some { s with server := L.change s.server c, now := t }

/-- No event comes before the time of another one. -/
def step (s : ServiceRun σ M T) (e : T × ServiceEvent M C) : Option (ServiceRun σ M T) :=
  if s.now ≤ e.1 ∧ ∀ x ∈ s.scheduled, e.1 ≤ x.1 then L.react s e.1 e.2 else none

/-- The runs of a server from its given first states. -/
def system (start : σ → Prop) : System (ServiceRun σ M T) (T × ServiceEvent M C) where
  init s := ∃ server now, start server ∧ s = { server, now }
  step := L.step

/-- No message is lost or processed twice, a message waits only while the server is busy, and the
server is busy only while a message is scheduled. -/
structure Conserved (s : ServiceRun σ M T) : Prop where
  arrived : s.arrived.Perm (s.processed ++ (s.scheduled.map (·.2) ++ L.queue s.server))
  armed : L.queue s.server ≠ [] → L.busy s.server
  scheduled : L.busy s.server → s.scheduled ≠ []

/-- The messages that are not handled at once are processed in the order of their arrival, one at
a time. -/
structure InOrder (s : ServiceRun σ M T) : Prop where
  arrived : s.arrived.filter (!L.fast ·) =
    s.processed.filter (!L.fast ·) ++ (s.scheduled.map (·.2) ++ L.queue s.server)
  single : s.scheduled.length ≤ 1
  busy : s.scheduled ≠ [] → L.busy s.server

/-- Every message that the server is to take counts as one that arrived and is conserved, and in
the runs that stay in serial mode the messages are processed in their order. -/
structure LosesNothing (start : σ → Prop) (taken : σ → M → Prop) : Prop where
  taken : ∀ s, (L.system start).Reachable s → ∀ m, taken s.server m →
    ∀ t s', L.step s (t, .arrive m) = some s' → s'.arrived = s.arrived ++ [m]
  conserved : ∀ s, (L.system start).Reachable s → L.Conserved s
  inOrder : ∀ s, (L.system start).ReachableUnder (fun s _ => L.parallel s.server = false) s →
    L.InOrder s

section
variable {L} {s s' : ServiceRun σ M T} {e : T × ServiceEvent M C}

theorem react_of_step (hs : L.step s e = some s') : L.react s e.1 e.2 = some s' := by
  unfold step at hs
  split_ifs at hs
  exact hs

theorem Conserved.arrive {m : M} {server : σ} {admission : Admission T} {t : T}
    (h : L.Conserved s) (harrive : L.arrive s.server t m = some (server, admission)) :
    L.Conserved (take { s with now := t } m server admission) := by
  have harrived := Multiset.coe_eq_coe.mpr h.arrived
  simp only [← Multiset.coe_add] at harrived
  cases admission with
  | scheduled t' =>
    obtain ⟨-, hqueue, hbusy, -⟩ := L.arrive_scheduled harrive
    refine ⟨?_, fun _ => hbusy, fun _ => by simp [take]⟩
    simp only [take, hqueue, List.map_append, ← Multiset.coe_eq_coe, ← Multiset.coe_add, harrived]
    simp only [List.map_singleton]
    ac_rfl
  | waiting =>
    obtain ⟨hbusy, hqueue, hbusy', -⟩ := L.arrive_waiting harrive
    refine ⟨?_, fun _ => hbusy', fun _ => h.scheduled hbusy⟩
    simp only [take, hqueue, ← Multiset.coe_eq_coe, ← Multiset.coe_add, harrived]
    ac_rfl
  | handled =>
    obtain ⟨hqueue, hbusy, -⟩ := L.arrive_handled harrive
    refine ⟨?_, ?_, ?_⟩
    · simp only [take, hqueue, ← Multiset.coe_eq_coe, ← Multiset.coe_add, harrived]
      ac_rfl
    · simpa only [take, hqueue, hbusy] using h.armed
    · simpa only [take, hbusy] using h.scheduled
  | ignored =>
    obtain ⟨hqueue, hbusy⟩ := L.arrive_ignored harrive
    refine ⟨?_, ?_, ?_⟩
    · simpa only [take, hqueue] using h.arrived
    · simpa only [take, hqueue, hbusy] using h.armed
    · simpa only [take, hbusy] using h.scheduled

theorem Conserved.finish {i : ℕ} {x : T × M} {server : σ} {next : Option (T × M)} {t : T}
    (h : L.Conserved s) (hx : s.scheduled[i]? = some x)
    (hfinish : L.finish s.server t = some (server, next)) :
    L.Conserved (release { s with now := t } i x.2 server next) := by
  obtain ⟨hi, rfl⟩ := List.getElem?_eq_some_iff.mp hx
  have hscheduled : ([s.scheduled[i].2] ++ (s.scheduled.eraseIdx i).map (·.2)).Perm
      (s.scheduled.map (·.2)) := (List.getElem_cons_eraseIdx_perm hi).map Prod.snd
  have harrived := Multiset.coe_eq_coe.mpr h.arrived
  simp only [← Multiset.coe_add, ← Multiset.coe_eq_coe.mpr hscheduled] at harrived
  cases next with
  | none =>
    obtain ⟨hqueue, hqueue', hbusy⟩ := L.finish_none hfinish
    refine ⟨?_, fun hne => absurd hqueue' hne, fun hb => absurd hb (by simp [release, hbusy])⟩
    simp only [release, hqueue', ← Multiset.coe_eq_coe, ← Multiset.coe_add, harrived, hqueue,
      Option.toList_none, List.append_nil]
    ac_rfl
  | some x' =>
    obtain ⟨hqueue, hbusy⟩ := L.finish_some hfinish
    have hbusy₀ := h.armed (by rw [hqueue]; exact List.cons_ne_nil _ _)
    refine ⟨?_, fun _ => hbusy.trans hbusy₀, fun _ => by simp [release]⟩
    have hqueue : L.queue s.server = [x'.2] ++ L.queue server := hqueue
    simp only [release, ← Multiset.coe_eq_coe, ← Multiset.coe_add, harrived, hqueue,
      Option.toList_some, List.map_append, List.map_singleton]
    ac_rfl

theorem Conserved.step (h : L.Conserved s) (hs : L.step s e = some s') : L.Conserved s' := by
  obtain ⟨t, e⟩ := e
  have hs := react_of_step hs
  cases e with
  | arrive m =>
    obtain ⟨⟨server, admission⟩, harrive, rfl⟩ := Option.map_eq_some_iff.mp hs
    exact h.arrive harrive
  | finish i =>
    obtain ⟨x, hx, hs⟩ := Option.bind_eq_some_iff.mp hs
    split_ifs at hs
    obtain ⟨⟨server, next⟩, hfinish, rfl⟩ := Option.map_eq_some_iff.mp hs
    exact h.finish hx hfinish
  | change c =>
    cases hs
    refine ⟨?_, ?_, ?_⟩
    · simpa only [L.queue_change] using h.arrived
    · simpa only [L.queue_change, L.busy_change] using h.armed
    · simpa only [L.busy_change] using h.scheduled

theorem InOrder.arrive {m : M} {server : σ} {admission : Admission T} {t : T}
    (h : L.InOrder s) (hc : L.Conserved s) (hserial : L.parallel s.server = false)
    (harrive : L.arrive s.server t m = some (server, admission)) :
    L.InOrder (take { s with now := t } m server admission) := by
  cases admission with
  | scheduled t' =>
    obtain ⟨hfree, hqueue, hbusy, hfast⟩ := L.arrive_scheduled harrive
    -- in serial mode a message is only scheduled when there is no other one
    have hfree : L.busy s.server = false := by simpa [hserial] using hfree
    have hscheduled : s.scheduled = [] := by
      by_contra hne
      exact absurd (h.busy hne) (by simp [hfree])
    have hempty : L.queue s.server = [] := by
      by_contra hne
      exact absurd (hc.armed hne) (by simp [hfree])
    have harrived := h.arrived
    rw [hscheduled, hempty] at harrived
    refine ⟨?_, by simp [take, hscheduled], fun _ => hbusy⟩
    simp only [take, hqueue, hempty, hscheduled, List.filter_append, harrived]
    simp [hfast]
  | waiting =>
    obtain ⟨hbusy, hqueue, hbusy', hfast⟩ := L.arrive_waiting harrive
    refine ⟨?_, h.single, fun _ => hbusy'⟩
    simp only [take, hqueue, List.filter_append, h.arrived]
    simp [hfast]
  | handled =>
    obtain ⟨hqueue, hbusy, hfast⟩ := L.arrive_handled harrive
    refine ⟨?_, h.single, ?_⟩
    · simp only [take, hqueue, List.filter_append, h.arrived]
      simp [hfast]
    · simpa only [take, hbusy] using h.busy
  | ignored =>
    obtain ⟨hqueue, hbusy⟩ := L.arrive_ignored harrive
    refine ⟨?_, h.single, ?_⟩
    · simpa only [take, hqueue] using h.arrived
    · simpa only [take, hbusy] using h.busy

theorem InOrder.slow (h : L.InOrder s) {x : T × M} (hx : x ∈ s.scheduled) :
    L.fast x.2 = false := by
  have hmem : x.2 ∈ s.arrived.filter (!L.fast ·) := by
    rw [h.arrived]
    exact List.mem_append_right _ (List.mem_append_left _ (List.mem_map_of_mem hx))
  simpa using (List.mem_filter.mp hmem).2

theorem InOrder.finish {i : ℕ} {x : T × M} {server : σ} {next : Option (T × M)} {t : T}
    (h : L.InOrder s) (hx : s.scheduled[i]? = some x)
    (hfinish : L.finish s.server t = some (server, next)) :
    L.InOrder (release { s with now := t } i x.2 server next) := by
  have hslow := h.slow (List.mem_of_getElem? hx)
  obtain ⟨hi, rfl⟩ := List.getElem?_eq_some_iff.mp hx
  have hsingle := h.single
  -- the message that is processed is the only one that is scheduled
  obtain ⟨y, hy⟩ := List.length_eq_one_iff.mp (by omega : s.scheduled.length = 1)
  obtain rfl : i = 0 := by omega
  have harrived := h.arrived
  simp only [hy, List.getElem_cons_zero, List.map_singleton] at harrived hslow ⊢
  cases next with
  | none =>
    obtain ⟨hqueue, hqueue', hbusy⟩ := L.finish_none hfinish
    refine ⟨?_, by simp [release], fun hne => absurd (by simp [release]) hne⟩
    simp only [release, hqueue', List.filter_append, harrived, hqueue]
    simp [hslow]
  | some x' =>
    obtain ⟨hqueue, hbusy⟩ := L.finish_some hfinish
    have hbusy₀ := h.busy (by rw [hy]; exact List.cons_ne_nil _ _)
    refine ⟨?_, by simp [release], fun _ => hbusy.trans hbusy₀⟩
    simp only [release, List.filter_append, harrived, hqueue]
    simp [hslow]

theorem InOrder.step (h : L.InOrder s) (hc : L.Conserved s)
    (hserial : L.parallel s.server = false) (hs : L.step s e = some s') : L.InOrder s' := by
  obtain ⟨t, e⟩ := e
  have hs := react_of_step hs
  cases e with
  | arrive m =>
    obtain ⟨⟨server, admission⟩, harrive, rfl⟩ := Option.map_eq_some_iff.mp hs
    exact h.arrive hc hserial harrive
  | finish i =>
    obtain ⟨x, hx, hs⟩ := Option.bind_eq_some_iff.mp hs
    split_ifs at hs
    obtain ⟨⟨server, next⟩, hfinish, rfl⟩ := Option.map_eq_some_iff.mp hs
    exact h.finish hx hfinish
  | change c =>
    cases hs
    refine ⟨?_, h.single, ?_⟩
    · simpa only [L.queue_change] using h.arrived
    · simpa only [L.busy_change] using h.busy

/-- If no message is handled at once, the order of the processing is that of the arrival. -/
theorem InOrder.forall_prior (h : L.InOrder s) (hslow : ∀ m, L.fast m = false) :
    s.processed <+: s.arrived := by
  have harrived := h.arrived
  simp only [hslow, Bool.not_false, List.filter_true] at harrived
  exact ⟨_, harrived.symm⟩

theorem take_of_step {t : T} {m : M} (hs : L.step s (t, .arrive m) = some s') :
    ∃ server admission, L.arrive s.server t m = some (server, admission) ∧
      s' = take { s with now := t } m server admission := by
  obtain ⟨⟨server, admission⟩, harrive, heq⟩ := Option.map_eq_some_iff.mp (react_of_step hs)
  exact ⟨server, admission, harrive, heq.symm⟩

/-- A message that is not ignored is one that arrived. -/
theorem arrived_of_step {t : T} {m : M} (hs : L.step s (t, .arrive m) = some s')
    (htaken : ∀ server, L.arrive s.server t m ≠ some (server, .ignored)) :
    s'.arrived = s.arrived ++ [m] := by
  obtain ⟨server, admission, harrive, rfl⟩ := take_of_step hs
  cases admission with
  | ignored => exact absurd harrive (htaken server)
  | scheduled _ | waiting | handled => rfl

/-! ## Runs -/

variable {start : σ → Prop}

theorem conserved_of_reachable
    (hstart : ∀ server, start server → L.queue server = [] ∧ L.busy server = false)
    (h : (L.system start).Reachable s) : L.Conserved s := by
  refine h.invariant ?_ fun s e s' hc hs => hc.step hs
  rintro s ⟨server, now, hserver, rfl⟩
  obtain ⟨hqueue, hbusy⟩ := hstart server hserver
  exact ⟨by simp [hqueue], by simp [hqueue], by simp [hbusy]⟩

/-- In a run that stays in serial mode the messages are processed in their order. -/
theorem inOrder_of_reachable
    (hstart : ∀ server, start server → L.queue server = [] ∧ L.busy server = false)
    (h : (L.system start).ReachableUnder (fun s _ => L.parallel s.server = false) s) :
    L.InOrder s := by
  refine h.invariant ?_ fun s e s' hr ho hserial hs =>
    ho.step (conserved_of_reachable hstart hr.reachable) hserial hs
  rintro s ⟨server, now, hserver, rfl⟩
  obtain ⟨hqueue, hbusy⟩ := hstart server hserver
  exact ⟨by simp [hqueue], by simp, by simp⟩

theorem losesNothing {taken : σ → M → Prop}
    (hstart : ∀ server, start server → L.queue server = [] ∧ L.busy server = false)
    (htaken : ∀ s s' t m, taken s m → L.arrive s t m ≠ some (s', .ignored)) :
    L.LosesNothing start taken where
  taken s _ m hm t _ hs := arrived_of_step hs fun server => htaken s.server server t m hm
  conserved _ h := conserved_of_reachable hstart h
  inOrder _ h := inOrder_of_reachable hstart h

end

end ServiceLoop

end TsnReconfig.Lib
