import Mathlib.Order.Bounds.Basic
import Mathlib.Data.Set.Finite.Range
import Mathlib.Data.Set.Finite.Lattice
import Mathlib.Order.Lattice.Nat
import Mathlib.Algebra.Order.BigOperators.Group.List
import Mathlib.Tactic.Ring
import TsnReconfig.Learning.Delivery

/-!
# No frame circulates

A copy for a station that its switch knows goes straight to it, and one for a station that its switch
does not know gets farther away from its source. So each copy has a weight that covers all that can
come of it.
-/

namespace TsnReconfig.Learning

open Lib

variable {V : Type*} {w : Wiring V}

def LearningEvent.IsMove : LearningEvent V → Bool
  | .move _ _ => true
  | _ => false

def LearningEvent.IsSend : LearningEvent V → Bool
  | .send _ => true
  | _ => false

namespace LearningNetwork
variable {n n' : LearningNetwork V} {expired : Rule V → Bool} {t t' : V → V → Option V} {v x s d p sw inport : V}
  {frame : Frame V} {c : Copy V} {N D : ℕ}

/-- The switch knows the destination of the frame. -/
def KnowsDst (t : V → V → Option V) (v : V) (frame : Frame V) : Prop :=
  (frame.dst.bind (t v)).isSome

/-- A copy that is or may be flooded moves away from its source. -/
def Outward (w : Wiring V) (t : V → V → Option V) (c : Copy V) : Prop :=
  match c.place with
  | .onLink u v => w.isSwitch v = true →
    Closer w.graph c.frame.src u v ∨ KnowsDst t v c.frame
  | .packetIn sw inport => Closer w.graph c.frame.src inport sw ∨ KnowsDst t sw c.frame
  | .packetOut sw inport none => Closer w.graph c.frame.src inport sw
  | .packetOut _ _ (some _) => True

theorem Extends.knowsDst (h : Extends t t') (hk : KnowsDst t v frame) : KnowsDst t' v frame := by
  obtain ⟨p, hp⟩ := Option.isSome_iff_exists.mp hk
  obtain ⟨d, hd, hlookup⟩ := Option.bind_eq_some_iff.mp hp
  exact Option.isSome_iff_exists.mpr ⟨p, Option.bind_eq_some_iff.mpr ⟨d, hd, h _ _ _ hlookup⟩⟩

theorem Extends.outward (h : Extends t t') (hc : Outward w t c) : Outward w t' c := by
  obtain ⟨place, frame⟩ := c
  cases place with
  | onLink u v => exact fun hv => (hc hv).imp_right h.knowsDst
  | packetIn sw inport => exact hc.imp_right h.knowsDst
  | packetOut sw inport outport => cases outport <;> exact hc

/-- The next switch on the way to a station knows it, too. -/
theorem Inv.knowsDst_next (h : n.Inv w) (hd : frame.dst = some d)
    (hlookup : n.lookupTable sw d = some p) (hp : w.isSwitch p = true) :
    KnowsDst n.lookupTable p frame := by
  obtain ⟨hstation, -, hnext⟩ := h.learned sw d p hlookup
  rcases hnext with rfl | hknown
  · rw [hstation] at hp
    cases hp
  · unfold KnowsDst
    rw [hd]
    exact hknown

/-! ## Weights -/

/-- The weight of a frame at a switch that floods it, for distances up to `N` and up to `D` ports. -/
noncomputable def floodWeight (w : Wiring V) (N D : ℕ) (v : V) (frame : Frame V) : ℕ :=
  (4 * N + 3 * D) * (D + 1) ^ (N - w.graph.dist frame.src v)

/-- The weight of a frame at a switch. -/
noncomputable def spread (w : Wiring V) (t : V → V → Option V) (N D : ℕ) (v : V)
    (frame : Frame V) : ℕ :=
  match frame.dst with
  | none => floodWeight w N D v frame
  | some d => if (t v d).isSome then 4 * w.graph.dist d v else floodWeight w N D v frame

/-- The steps that are left for a copy and for all that come of it, at most. -/
noncomputable def weight (w : Wiring V) (t : V → V → Option V) (N D : ℕ) (c : Copy V) : ℕ :=
  match c.place with
  | .onLink _ v => if w.isSwitch v then spread w t N D v c.frame + 3 else 1
  | .packetIn sw _ => spread w t N D sw c.frame + 2
  | .packetOut sw _ none => floodWeight w N D sw c.frame + 1
  | .packetOut sw _ (some _) =>
    match c.frame.dst with
    | none => 1
    | some d => 4 * w.graph.dist d sw + 1

/-- Distances and numbers of ports are bounded. -/
structure Bounded (w : Wiring V) (N D : ℕ) : Prop where
  dist : ∀ u v, w.graph.dist u v ≤ N
  ports : ∀ v, (w.ports v).length ≤ D

theorem le_floodWeight : 4 * N + 3 * D ≤ floodWeight w N D v frame :=
  Nat.le_mul_of_pos_right _ (Nat.pow_pos (Nat.succ_pos D))

theorem dist_le_floodWeight (hb : Bounded w N D) (d : V) :
    4 * w.graph.dist d v ≤ floodWeight w N D v frame := by
  have hle : 4 * N + 3 * D ≤ floodWeight w N D v frame := le_floodWeight
  have hdist := hb.dist d v
  omega

theorem spread_eq (hd : frame.dst = some d) (hlookup : t v d = some p) :
    spread w t N D v frame = 4 * w.graph.dist d v := by
  unfold spread
  rw [hd]
  dsimp only
  rw [if_pos (by rw [hlookup]; rfl)]

theorem dist_le_spread (hb : Bounded w N D) (hd : frame.dst = some d) :
    4 * w.graph.dist d v ≤ spread w t N D v frame := by
  unfold spread
  rw [hd]
  dsimp only
  split_ifs
  · exact le_rfl
  · exact dist_le_floodWeight hb d

theorem spread_le (hb : Bounded w N D) :
    spread w t N D v frame ≤ floodWeight w N D v frame := by
  unfold spread
  cases frame.dst with
  | none => exact le_rfl
  | some d =>
    dsimp only
    split_ifs
    · exact dist_le_floodWeight hb d
    · exact le_rfl

theorem spread_of_not_knowsDst (h : ¬KnowsDst t v frame) :
    spread w t N D v frame = floodWeight w N D v frame := by
  unfold KnowsDst at h
  unfold spread
  cases hdst : frame.dst with
  | none => rfl
  | some d =>
    rw [hdst] at h
    exact if_neg h

/-- A table that grows makes no copy heavier. -/
theorem spread_mono (hb : Bounded w N D) (h : Extends t t') :
    spread w t' N D v frame ≤ spread w t N D v frame := by
  by_cases hk : KnowsDst t v frame
  · obtain ⟨p, hp⟩ := Option.isSome_iff_exists.mp hk
    obtain ⟨d, hd, hlookup⟩ := Option.bind_eq_some_iff.mp hp
    rw [spread_eq hd hlookup, spread_eq hd (h _ _ _ hlookup)]
  · rw [spread_of_not_knowsDst hk]
    exact spread_le hb

theorem weight_mono (hb : Bounded w N D) (h : Extends t t') (c : Copy V) :
    weight w t' N D c ≤ weight w t N D c := by
  unfold weight
  cases c.place with
  | onLink u v =>
    dsimp only
    split_ifs
    · exact Nat.add_le_add_right (spread_mono hb h) _
    · exact le_rfl
  | packetIn sw inport => exact Nat.add_le_add_right (spread_mono hb h) _
  | packetOut sw inport outport => cases outport <;> exact le_rfl

/-- A copy on the way from a switch to a station that it knows. -/
theorem Inv.weight_next (h : n.Inv w) {u : V} (hd : frame.dst = some d)
    (hlookup : n.lookupTable sw d = some p) :
    weight w n.lookupTable N D ⟨.onLink u p, frame⟩ + 1 ≤ 4 * w.graph.dist d sw := by
  have hdist := (h.learned sw d p hlookup).2.1.2
  unfold weight
  dsimp only
  split_ifs with hp
  · obtain ⟨q, hq⟩ := Option.isSome_iff_exists.mp (h.knowsDst_next hd hlookup hp)
    rw [hd] at hq
    rw [spread_eq hd hq]
    omega
  · omega

/-- A switch floods copies that are lighter by the number of ports. -/
theorem floodWeight_next (hb : Bounded w N D) (hcloser : Closer w.graph frame.src sw x) :
    floodWeight w N D sw frame = (D + 1) * floodWeight w N D x frame := by
  have hexp : N - w.graph.dist frame.src sw = N - w.graph.dist frame.src x + 1 := by
    have hdist := hb.dist frame.src x
    have heq := hcloser.2
    omega
  unfold floodWeight
  rw [hexp, Nat.pow_succ]
  ring

theorem weight_onLink_le (hb : Bounded w N D) :
    weight w t N D ⟨.onLink sw x, frame⟩ ≤ floodWeight w N D x frame + 3 := by
  unfold weight
  dsimp only
  split_ifs
  · exact Nat.add_le_add_right (spread_le hb) _
  · omega

/-- All copies that a switch floods are lighter than the one it has got. -/
theorem sum_weight_flood (hb : Bounded w N D) {xs : List V} (hlength : xs.length ≤ D)
    (hcloser : ∀ x ∈ xs, Closer w.graph frame.src sw x) :
    ((xs.map fun x => (⟨.onLink sw x, frame⟩ : Copy V)).map (weight w t N D)).sum ≤
      floodWeight w N D sw frame := by
  cases xs with
  | nil => exact Nat.zero_le _
  | cons x xs =>
    have hx := floodWeight_next hb (hcloser x List.mem_cons_self)
    have hall : ∀ y ∈ ((x :: xs).map fun x => (⟨.onLink sw x, frame⟩ : Copy V)).map
        (weight w t N D), y ≤ floodWeight w N D x frame + 3 := by
      intro y hy
      rw [List.map_map] at hy
      obtain ⟨x', hx', rfl⟩ := List.mem_map.mp hy
      have hx'' := floodWeight_next hb (hcloser x' hx')
      rw [hx] at hx''
      have heq := Nat.eq_of_mul_eq_mul_left (Nat.succ_pos D) hx''
      rw [heq]
      exact weight_onLink_le hb
    have hmany : 4 * N + 3 * D ≤ floodWeight w N D x frame := le_floodWeight
    have hsum := List.sum_le_card_nsmul _ _ hall
    rw [List.length_map, List.length_map, smul_eq_mul] at hsum
    calc _ ≤ (x :: xs).length * (floodWeight w N D x frame + 3) := hsum
      _ ≤ D * (floodWeight w N D x frame + 3) := Nat.mul_le_mul_right _ hlength
      _ ≤ (D + 1) * floodWeight w N D x frame := by
        rw [Nat.mul_add, Nat.add_mul]
        omega
      _ = floodWeight w N D sw frame := hx.symm

/-! ## Steps -/

/-- What all copies weigh. -/
noncomputable def totalWeight (w : Wiring V) (N D : ℕ) (n : LearningNetwork V) : ℕ :=
  (n.copies.map (weight w n.lookupTable N D)).sum

theorem totalWeight_addCopies (n : LearningNetwork V) (copies : List (Copy V)) :
    totalWeight w N D { n with copies := n.copies ++ copies } =
      totalWeight w N D n + (copies.map (weight w n.lookupTable N D)).sum := by
  unfold totalWeight
  rw [List.map_append, List.sum_append]

theorem totalWeight_mono (hb : Bounded w N D) (h : Extends n.lookupTable t) :
    totalWeight w N D { n with lookupTable := t } ≤ totalWeight w N D n :=
  List.sum_le_sum fun c _ => weight_mono hb h c

theorem totalWeight_eraseCopy {k : ℕ} (hc : n.copies[k]? = some c) :
    totalWeight w N D n = totalWeight w N D { n with copies := n.copies.eraseIdx k } +
      weight w n.lookupTable N D c := by
  obtain ⟨l₁, l₂, hcopies, herase⟩ := exists_eraseIdx hc
  unfold totalWeight
  dsimp only
  rw [herase, hcopies, List.map_append, List.map_append, List.sum_append, List.sum_append,
    List.map_cons, List.sum_cons]
  omega

/-- A copy that is moved leaves lighter ones behind. -/
structure Lightens (w : Wiring V) (N D : ℕ) (n : LearningNetwork V) (c : Copy V)
    (n' : LearningNetwork V) : Prop where
  weight : totalWeight w N D n' + 1 ≤ totalWeight w N D n + weight w n.lookupTable N D c
  outward : ∀ c ∈ n'.copies, Outward w n'.lookupTable c

variable [DecidableEq V]

theorem lightens_processFrame (h : n.Inv w) (hout : ∀ c ∈ n.copies, Outward w n.lookupTable c)
    {u : V} (hc : Outward w n.lookupTable ⟨.onLink u v, frame⟩) :
    Lightens w N D n ⟨.onLink u v, frame⟩ (n.processFrame w expired u v frame) := by
  unfold processFrame
  by_cases hv : w.isSwitch v
  · have hold : weight w n.lookupTable N D ⟨.onLink u v, frame⟩ =
        spread w n.lookupTable N D v frame + 3 := by
      unfold weight
      exact if_pos hv
    have hadd := fun copies : List (Copy V) => totalWeight_addCopies (w := w) (N := N) (D := D)
      { n with
        flowTable := Function.update n.flowTable v (lookup expired u frame (n.flowTable v)).2 }
      copies
    rw [if_pos hv]
    dsimp only
    cases hr : (lookup expired u frame (n.flowTable v)).1 with
    | none =>
      refine ⟨?_, fun c hc' => ?_⟩
      · refine (Nat.add_le_add_right (hadd _).le _).trans ?_
        rw [hold]
        change totalWeight w N D n + (spread w n.lookupTable N D v frame + 2 + 0) + 1 ≤ _
        omega
      · rcases List.mem_append.mp hc' with hc' | hc'
        · exact hout c hc'
        · rw [List.mem_singleton.mp hc']
          exact hc hv
    | some r =>
      obtain ⟨-, d, hd, hlookup⟩ := h.rule_spec hr
      refine ⟨?_, fun c hc' => ?_⟩
      · have hnext := h.weight_next (N := N) (D := D) (u := v) hd hlookup
        refine (Nat.add_le_add_right (hadd _).le _).trans ?_
        rw [hold, spread_eq hd hlookup]
        change totalWeight w N D n +
          (weight w n.lookupTable N D ⟨.onLink v r.outport, frame⟩ + 0) + 1 ≤ _
        omega
      · rcases List.mem_append.mp hc' with hc' | hc'
        · exact hout c hc'
        · rw [List.mem_singleton.mp hc']
          exact fun hp => .inr (h.knowsDst_next hd hlookup hp)
  · rw [if_neg hv]
    refine ⟨?_, hout⟩
    have hold : weight w n.lookupTable N D ⟨.onLink u v, frame⟩ = 1 := by
      unfold weight
      exact if_neg hv
    rw [hold]
    exact le_rfl

theorem lightens_doSwitching (hb : Bounded w N D)
    (hout : ∀ c ∈ n.copies, Outward w n.lookupTable c)
    (hc : Outward w n.lookupTable ⟨.packetIn sw inport, frame⟩) :
    Lightens w N D n ⟨.packetIn sw inport, frame⟩ (n.doSwitching sw inport frame) := by
  have hextends := n.learn_extends sw frame.src inport
  have hmono := totalWeight_mono hb hextends
  have hout' : ∀ c ∈ n.copies, Outward w (n.learn sw frame.src inport) c :=
    fun c hc => hextends.outward (hout c hc)
  have hadd := fun copies : List (Copy V) => totalWeight_addCopies (w := w) (N := N) (D := D)
    { n with lookupTable := n.learn sw frame.src inport } copies
  have hold : weight w n.lookupTable N D ⟨.packetIn sw inport, frame⟩ =
      spread w n.lookupTable N D sw frame + 2 := rfl
  unfold doSwitching
  dsimp only
  cases hlookup : frame.dst.bind (n.learn sw frame.src inport sw) with
  | none =>
    have hunknown : ¬KnowsDst n.lookupTable sw frame := by
      intro hk
      have hk' := hextends.knowsDst hk
      unfold KnowsDst at hk'
      rw [hlookup] at hk'
      cases hk'
    refine ⟨?_, fun c hc' => ?_⟩
    · refine (Nat.add_le_add_right (hadd _).le _).trans ?_
      rw [hold, spread_of_not_knowsDst hunknown]
      change _ + (floodWeight w N D sw frame + 1 + 0) + 1 ≤ _
      omega
    · rcases List.mem_append.mp hc' with hc' | hc'
      · exact hout' c hc'
      · rw [List.mem_singleton.mp hc']
        exact hc.resolve_right hunknown
  | some outport =>
    obtain ⟨d, hd, -⟩ := Option.bind_eq_some_iff.mp hlookup
    refine ⟨?_, fun c hc' => ?_⟩
    · have hle := dist_le_spread (t := n.lookupTable) (v := sw) hb hd
      have hnew : weight w (n.learn sw frame.src inport) N D
          ⟨.packetOut sw inport (some outport), frame⟩ = 4 * w.graph.dist d sw + 1 := by
        unfold weight
        dsimp only
        rw [hd]
      refine (Nat.add_le_add_right (hadd [⟨.packetOut sw inport (some outport), frame⟩]).le
        _).trans ?_
      rw [hold, List.map_singleton, List.sum_singleton, hnew]
      omega
    · rcases List.mem_append.mp hc' with hc' | hc'
      · exact hout' c hc'
      · rw [List.mem_singleton.mp hc']
        trivial

theorem lightens_executePacketOutAction (h : n.Inv w) (hw : w.TreeNetwork) (hb : Bounded w N D)
    {outport : Option V} (hout : ∀ c ∈ n.copies, Outward w n.lookupTable c)
    (hok : CopyOk w n.lookupTable ⟨.packetOut sw inport outport, frame⟩)
    (hc : Outward w n.lookupTable ⟨.packetOut sw inport outport, frame⟩) :
    Lightens w N D n ⟨.packetOut sw inport outport, frame⟩
      (n.executePacketOutAction w sw inport outport frame) := by
  unfold executePacketOutAction
  cases outport with
  | none =>
    have hcloser : ∀ x ∈ (w.ports sw).filter (· ≠ inport), Closer w.graph frame.src sw x := by
      intro x hx
      obtain ⟨hport, hne⟩ := List.mem_filter.mp hx
      refine (closer_or_closer hw.isTree frame.src (hw.mem_ports.mp hport)).resolve_right ?_
      intro hback
      exact of_decide_eq_true hne (hback.unique hw.isTree hc)
    have hlength : ((w.ports sw).filter (· ≠ inport)).length ≤ D :=
      (List.length_filter_le _ _).trans (hb.ports sw)
    refine ⟨?_, fun c hc' => ?_⟩
    · have hsum := sum_weight_flood (t := n.lookupTable) hb hlength hcloser
      rw [totalWeight_addCopies]
      change _ ≤ _ + (floodWeight w N D sw frame + 1)
      dsimp only at hsum ⊢
      omega
    · rcases List.mem_append.mp hc' with hc' | hc'
      · exact hout c hc'
      · obtain ⟨x, hx, rfl⟩ := List.mem_map.mp hc'
        exact fun _ => .inl (hcloser x hx)
  | some p =>
    obtain ⟨-, -, -, -, hknown⟩ := hok
    obtain ⟨d, hd, hlookup⟩ := hknown p rfl
    change frame.dst = some d at hd
    refine ⟨?_, fun c hc' => ?_⟩
    · have hnext := h.weight_next (N := N) (D := D) (u := sw) hd hlookup
      have hold : weight w n.lookupTable N D ⟨.packetOut sw inport (some p), frame⟩ =
          4 * w.graph.dist d sw + 1 := by
        unfold weight
        dsimp only
        rw [hd]
      rw [totalWeight_addCopies, hold, List.map_singleton, List.map_singleton, List.sum_singleton]
      omega
    · rcases List.mem_append.mp hc' with hc' | hc'
      · exact hout c hc'
      · rw [List.mem_singleton.mp hc']
        exact fun hp => .inr (h.knowsDst_next hd hlookup hp)

theorem lightens_process (h : n.Inv w) (hw : w.TreeNetwork) (hb : Bounded w N D)
    (hout : ∀ c ∈ n.copies, Outward w n.lookupTable c) (hok : CopyOk w n.lookupTable c)
    (hc : Outward w n.lookupTable c) : Lightens w N D n c (n.process w expired c) := by
  obtain ⟨place, frame⟩ := c
  cases place with
  | onLink u v => exact lightens_processFrame h hout hc
  | packetIn sw inport => exact lightens_doSwitching hb hout hc
  | packetOut sw inport outport => exact lightens_executePacketOutAction h hw hb hout hok hc

/-! ## Runs -/

theorem outward_step {e : LearningEvent V} (h : n.Inv w) (hw : w.TreeNetwork) (hb : Bounded w N D)
    (hout : ∀ c ∈ n.copies, Outward w n.lookupTable c) (hs : n.step w e = some n') :
    ∀ c ∈ n'.copies, Outward w n'.lookupTable c := by
  cases e with
  | send frame =>
    rw [step] at hs
    split_ifs at hs
    cases hs
    intro c hc
    rcases List.mem_append.mp hc with hc | hc
    · exact hout c hc
    · obtain ⟨x, hx, rfl⟩ := List.mem_map.mp hc
      refine fun _ => .inl ?_
      refine (closer_or_closer hw.isTree frame.src (hw.mem_ports.mp hx)).resolve_right ?_
      intro hcloser
      have hdist := hcloser.2
      rw [SimpleGraph.dist_self] at hdist
      omega
  | move k expired =>
    obtain ⟨c, hc, rfl⟩ := Option.map_eq_some_iff.mp hs
    have hmem := List.mem_of_getElem? hc
    exact (lightens_process (h.eraseCopy k) hw hb
      (fun c hc => hout c (List.mem_of_mem_eraseIdx hc)) (h.copies c hmem) (hout c hmem)).outward
  | flowMod k =>
    obtain ⟨m, -, rfl⟩ := Option.map_eq_some_iff.mp hs
    exact hout

/-- Moves make the copies lighter, and nothing but a send makes them heavier. -/
theorem totalWeight_step {e : LearningEvent V} (h : n.Inv w) (hw : w.TreeNetwork)
    (hb : Bounded w N D) (hout : ∀ c ∈ n.copies, Outward w n.lookupTable c)
    (he : e.IsSend = false) (hs : n.step w e = some n') :
    totalWeight w N D n' + (if e.IsMove then 1 else 0) ≤ totalWeight w N D n := by
  cases e with
  | send frame => cases he
  | move k expired =>
    obtain ⟨c, hc, rfl⟩ := Option.map_eq_some_iff.mp hs
    have hmem := List.mem_of_getElem? hc
    rw [totalWeight_eraseCopy hc]
    exact (lightens_process (h.eraseCopy k) hw hb
      (fun c hc => hout c (List.mem_of_mem_eraseIdx hc)) (h.copies c hmem) (hout c hmem)).weight
  | flowMod k =>
    obtain ⟨m, -, rfl⟩ := Option.map_eq_some_iff.mp hs
    exact le_rfl

theorem outward_of_reachable (hw : w.TreeNetwork) (hb : Bounded w N D)
    (h : (system w).Reachable n) : ∀ c ∈ n.copies, Outward w n.lookupTable c := by
  have hboth := h.invariant
    (P := fun n => n.Inv w ∧ ∀ c ∈ n.copies, Outward w n.lookupTable c) (fun _ hinit => ?_)
    fun _ _ _ hinv hs => ⟨hinv.1.step hw hs, outward_step hinv.1 hw hb hinv.2 hs⟩
  · exact hboth.2
  · refine ⟨inv_of_reachable hw (.init hinit), ?_⟩
    rw [hinit]
    intro c hc
    cases hc

theorem countP_isMove_le (hw : w.TreeNetwork) (hb : Bounded w N D) {es : List (LearningEvent V)}
    (h : (system w).Reachable n) (hes : ∀ e ∈ es, e.IsSend = false)
    (hr : (system w).runFrom n es = some n') :
    es.countP (·.IsMove) + totalWeight w N D n' ≤ totalWeight w N D n := by
  induction es generalizing n with
  | nil =>
    obtain rfl : n = n' := Option.some.inj hr
    rw [List.countP_nil, Nat.zero_add]
  | cons e es ih =>
    obtain ⟨n₁, hs, hr⟩ := Option.bind_eq_some_iff.mp hr
    have hstep := totalWeight_step (inv_of_reachable hw h) hw hb (outward_of_reachable hw hb h)
      (hes e List.mem_cons_self) hs
    have hrest := ih (.step h trivial hs) (fun e he => hes e (List.mem_cons_of_mem _ he)) hr
    rw [List.countP_cons]
    omega

omit [DecidableEq V] in
theorem exists_bounded [Finite V] (w : Wiring V) : ∃ N D, Bounded w N D := by
  obtain ⟨N, hN⟩ := (Set.finite_range fun x : V × V => w.graph.dist x.1 x.2).bddAbove
  obtain ⟨D, hD⟩ := (Set.finite_range fun v => (w.ports v).length).bddAbove
  exact ⟨N, D, fun u v => hN ⟨(u, v), rfl⟩, fun v => hD ⟨v, rfl⟩⟩

/-- Copies are moved a limited number of times when no more frames are sent, in whatever order; so
no frame circulates. -/
theorem moves_bounded [Finite V] (hw : w.TreeNetwork) (h : (system w).Reachable n) :
    ∃ bound, ∀ es n', (∀ e ∈ es, e.IsSend = false) → (system w).runFrom n es = some n' →
      es.countP (·.IsMove) ≤ bound := by
  obtain ⟨N, D, hb⟩ := exists_bounded w
  refine ⟨totalWeight w N D n, fun es n' hes hr => ?_⟩
  have hle := countP_isMove_le hw hb h hes hr
  omega

theorem moves_bounded_pingPong :
    ∃ n, (system Wiring.line).runFrom {} (pingPong.take 11) = some n ∧ n.copies.length = 1 ∧
      ∃ bound, ∀ es n', (∀ e ∈ es, e.IsSend = false) →
        (system Wiring.line).runFrom n es = some n' → es.countP (·.IsMove) ≤ bound := by
  obtain ⟨n, hn, hcopies⟩ : ∃ n, (system Wiring.line).runFrom {} (pingPong.take 11) = some n ∧
      n.copies.length = 1 := ⟨_, rfl, rfl⟩
  exact ⟨n, hn, hcopies, moves_bounded Wiring.treeNetwork_line
    (reachable_line hn)⟩

end LearningNetwork

end TsnReconfig.Learning
