import Mathlib.Algebra.BigOperators.Group.List.Basic
import Mathlib.Data.List.Pairwise
import TsnReconfig.LLDP.MibGraph

/-!
# The edges of the discovered topology

What an entry does to the edges, and what holds of them in every run: the entries of a vertex are
different links, and a link of two vertices is stored at both with the same time.
-/

namespace TsnReconfig.LLDP
open Lib OpenFlow

namespace LLDPMib

variable {a b c : LLDPMib}

theorem same_iff : a.same b = true ↔ a.ends = b.ends ∨ a.ends = b.ends.swap := by
  obtain ⟨sp, dp, s, d, x⟩ := a
  obtain ⟨sp', dp', s', d', x'⟩ := b
  simp only [same, ends, Prod.swap_prod_mk, Prod.mk.injEq, decide_eq_true_eq]
  constructor
  · rintro (⟨rfl, rfl, rfl, rfl⟩ | ⟨rfl, rfl, rfl, rfl⟩)
    · exact .inl ⟨⟨rfl, rfl⟩, rfl, rfl⟩
    · exact .inr ⟨⟨rfl, rfl⟩, rfl, rfl⟩
  · rintro (⟨⟨rfl, rfl⟩, rfl, rfl⟩ | ⟨⟨rfl, rfl⟩, rfl, rfl⟩)
    · exact .inl ⟨rfl, rfl, rfl, rfl⟩
    · exact .inr ⟨rfl, rfl, rfl, rfl⟩

@[simp] theorem ends_reverse : a.reverse.ends = a.ends.swap := rfl

@[simp] theorem reverse_reverse : a.reverse.reverse = a := rfl

@[simp] theorem srcID_reverse : a.reverse.srcID = a.dstID := rfl

@[simp] theorem dstID_reverse : a.reverse.dstID = a.srcID := rfl

@[simp] theorem srcPort_reverse : a.reverse.srcPort = a.dstPort := rfl

@[simp] theorem dstPort_reverse : a.reverse.dstPort = a.srcPort := rfl

@[simp] theorem expiresAt_reverse : a.reverse.expiresAt = a.expiresAt := rfl

@[simp] theorem same_reverse : a.same b.reverse = a.same b := by
  rw [Bool.eq_iff_iff, same_iff, same_iff, ends_reverse, Prod.swap_swap, or_comm]

@[simp] theorem reverse_same : a.reverse.same b = a.same b := by
  rw [Bool.eq_iff_iff, same_iff, same_iff, ends_reverse, Prod.swap_inj, or_comm]
  exact or_congr_right Prod.swap_eq_iff_eq_swap

theorem same_comm : a.same b = b.same a := by
  rw [Bool.eq_iff_iff, same_iff, same_iff]
  exact or_congr eq_comm ⟨fun h => by rw [h, Prod.swap_swap], fun h => by rw [h, Prod.swap_swap]⟩

/-- An entry is its ends and its time. -/
theorem ext_ends (h : a.ends = b.ends) (hexp : a.expiresAt = b.expiresAt) : a = b := by
  obtain ⟨sp, dp, s, d, x⟩ := a
  obtain ⟨sp', dp', s', d', x'⟩ := b
  simp only [ends, Prod.mk.injEq] at h
  obtain ⟨⟨rfl, rfl⟩, rfl, rfl⟩ := h
  cases hexp
  rfl

/-- A link from one port of a vertex to another port of it. -/
def IsLoop (a : LLDPMib) : Prop := a.srcID = a.dstID ∧ a.srcPort ≠ a.dstPort

end LLDPMib

namespace LLDPMibGraph

/-- The entries are pairwise different links. -/
def Apart (ms : List LLDPMib) : Prop := ms.Pairwise fun a b => a.same b = false

/-- All stored edges. -/
def edges (g : LLDPMibGraph) : List LLDPMib := g.verticies.entries.flatMap Prod.snd

/-- The edge is stored. -/
def HasEdge (g : LLDPMibGraph) (k : (String × ℤ) × (String × ℤ)) : Prop :=
  ∃ m ∈ g.edges, m.ends = k

/-- What each direction of an entry keeps. -/
structure Stored (g : LLDPMibGraph) : Prop where
  own : ∀ v, ∀ m ∈ g.mibs v, m.srcID = v
  nonempty : ∀ v ms, g.verticies.find v = some ms → ms ≠ []
  apart : ∀ v, Apart (g.mibs v)
  verticiesCounted : g.numOfVerticies = g.verticies.entries.length
  edgesCounted : g.numOfEdges = g.edges.length

/-- What holds of the graph in every run, whatever is entered. -/
structure Inv (g : LLDPMibGraph) : Prop extends g.Stored where
  mirrored : ∀ m ∈ g.edges, m.srcID ≠ m.dstID → m.reverse ∈ g.edges

variable {g : LLDPMibGraph} {mib m : LLDPMib} {ms : List LLDPMib} {v : String} {now : SimTime}

/-! ## One direction -/

theorem same_trans {a b c : LLDPMib} (h : a.same c = true) (h' : b.same c = true) :
    a.same b = true := by
  rw [LLDPMib.same_iff] at *
  rcases h with h | h <;> rcases h' with h' | h'
  · exact .inl (h.trans h'.symm)
  · exact .inr (by rw [h, h', Prod.swap_swap])
  · exact .inr (by rw [h, h'])
  · exact .inl (h.trans h'.symm)

/-- The entry that `enter` leaves for a link: its own, or the one that is the same with a new
time. -/
def entered (mib : LLDPMib) (ms : List LLDPMib) : LLDPMib :=
  match ms.find? (·.same mib) with
  | none => mib
  | some m => { m with expiresAt := mib.expiresAt }

theorem entered_same : (entered mib ms).same mib = true := by
  unfold entered
  cases h : ms.find? (·.same mib) with
  | none => exact LLDPMib.same_iff.mpr (.inl rfl)
  | some m =>
    have hsame := List.find?_some h
    rw [LLDPMib.same_iff] at hsame ⊢
    exact hsame

theorem expiresAt_entered : (entered mib ms).expiresAt = mib.expiresAt := by
  unfold entered
  cases ms.find? (·.same mib) with
  | none => rfl
  | some m => rfl

/-- The entry that is the same is given the time, and no other one is touched. -/
theorem mem_setExpiresAt (h : Apart ms) (hany : ms.any (·.same mib) = true) :
    m ∈ setExpiresAt mib ms ↔ (m ∈ ms ∧ m.same mib = false) ∨ m = entered mib ms := by
  induction ms with
  | nil => simp at hany
  | cons a ms ih =>
    obtain ⟨ha, hms⟩ := List.pairwise_cons.mp h
    unfold setExpiresAt
    by_cases hsame : a.same mib = true
    · -- no later entry is the same
      have hlater : ∀ x ∈ ms, x.same mib = false := by
        intro x hx
        rw [← Bool.not_eq_true]
        intro hx'
        have hax := same_trans hsame hx'
        rw [ha x hx] at hax
        cases hax
      have hentered : entered mib (a :: ms) = { a with expiresAt := mib.expiresAt } := by
        simp only [entered, List.find?_cons, hsame]
      rw [if_pos hsame, hentered, List.mem_cons, List.mem_cons, or_comm]
      refine or_congr_left ⟨fun hm => ⟨.inr hm, hlater m hm⟩, fun ⟨hm, hnot⟩ => ?_⟩
      rcases hm with rfl | hm
      · rw [hsame] at hnot
        cases hnot
      · exact hm
    · have hentered : entered mib (a :: ms) = entered mib ms := by
        simp only [entered, List.find?_cons, hsame]
      rw [List.any_cons, Bool.or_eq_true, or_iff_right hsame] at hany
      rw [if_neg hsame, hentered, List.mem_cons, List.mem_cons, ih hms hany, ← or_assoc]
      refine or_congr_left ⟨?_, ?_⟩
      · rintro (rfl | ⟨hm, hnot⟩)
        · exact ⟨.inl rfl, Bool.not_eq_true _ ▸ hsame⟩
        · exact ⟨.inr hm, hnot⟩
      · rintro ⟨rfl | hm, hnot⟩
        · exact .inl rfl
        · exact .inr ⟨hm, hnot⟩

theorem map_ends_setExpiresAt : (setExpiresAt mib ms).map LLDPMib.ends = ms.map LLDPMib.ends := by
  induction ms with
  | nil => rfl
  | cons a ms ih =>
    unfold setExpiresAt
    split_ifs
    · rfl
    · rw [List.map_cons, ih, List.map_cons]

/-- The entries of the vertex after `enter`. -/
def enteredMibs (mib : LLDPMib) (ms : List LLDPMib) : List LLDPMib :=
  if ms.any (·.same mib) then setExpiresAt mib ms else ms ++ [mib]

theorem verticies_enter :
    (g.enter mib).verticies = g.verticies.set mib.srcID (enteredMibs mib (g.mibs mib.srcID)) := by
  unfold enter mibs enteredMibs
  cases g.verticies.find mib.srcID with
  | none => rfl
  | some ms =>
    dsimp only [Option.getD_some]
    split_ifs
    · rfl
    · rfl

theorem mibs_enter : (g.enter mib).mibs v =
    if v = mib.srcID then enteredMibs mib (g.mibs v) else g.mibs v := by
  rw [mibs, verticies_enter, Table.find_set]
  split_ifs with hv
  · rw [hv, Option.getD_some]
  · rfl

theorem mem_enteredMibs (h : Apart ms) :
    m ∈ enteredMibs mib ms ↔ (m ∈ ms ∧ m.same mib = false) ∨ m = entered mib ms := by
  unfold enteredMibs
  split_ifs with hany
  · exact mem_setExpiresAt h hany
  · have hnone : ∀ x ∈ ms, x.same mib = false := by
      simpa using hany
    have hentered : entered mib ms = mib := by
      rw [entered, List.find?_eq_none.mpr]
      simpa using hnone
    rw [List.mem_append, List.mem_singleton, hentered]
    exact or_congr_left ⟨fun hm => ⟨hm, hnone m hm⟩, And.left⟩

theorem Apart.enteredMibs (h : Apart ms) : Apart (enteredMibs mib ms) := by
  unfold LLDPMibGraph.enteredMibs
  split_ifs with hany
  · have hmap : ∀ l : List LLDPMib, Apart l ↔
        (l.map LLDPMib.ends).Pairwise fun k k' => ¬(k = k' ∨ k = k'.swap) := by
      intro l
      rw [Apart, List.pairwise_map]
      exact ⟨fun hl => hl.imp fun hab => by rw [← LLDPMib.same_iff, hab]; simp,
        fun hl => hl.imp fun hab => by rw [← Bool.not_eq_true, LLDPMib.same_iff]; exact hab⟩
    rw [hmap, map_ends_setExpiresAt, ← hmap]
    exact h
  · rw [Apart, List.pairwise_append]
    refine ⟨h, List.pairwise_singleton _ _, fun a ha b hb => ?_⟩
    obtain rfl := List.mem_singleton.mp hb
    have hnone : ∀ x ∈ ms, x.same b = false := by
      simpa using hany
    exact hnone a ha

theorem enteredMibs_ne_nil : enteredMibs mib ms ≠ [] := by
  unfold enteredMibs
  split_ifs with hany
  · intro hnil
    have hlength : ((setExpiresAt mib ms).map LLDPMib.ends).length = (ms.map LLDPMib.ends).length :=
      congrArg List.length map_ends_setExpiresAt
    rw [hnil] at hlength
    have hms : ms = [] := by simpa using hlength.symm
    rw [hms] at hany
    cases hany
  · simp

/-! ## All entries -/

theorem mem_edges : m ∈ g.edges ↔ ∃ v, m ∈ g.mibs v := by
  unfold edges mibs
  rw [List.mem_flatMap]
  constructor
  · rintro ⟨e, he, hm⟩
    exact ⟨e.1, by rw [Table.mem_entries.mp he]; exact hm⟩
  · rintro ⟨v, hm⟩
    cases hv : g.verticies.find v with
    | none =>
      rw [hv] at hm
      cases hm
    | some ms =>
      rw [hv] at hm
      exact ⟨(v, ms), Table.mem_entries.mpr hv, hm⟩

theorem length_edges : g.edges.length = (g.verticies.entries.map fun e => e.2.length).sum :=
  List.length_flatMap

theorem Apart.eq_of_same {a b : LLDPMib} (h : Apart ms) (ha : a ∈ ms) (hb : b ∈ ms)
    (hsame : a.same b = true) : a = b := by
  by_contra hne
  have hsymm : Std.Symm fun a b : LLDPMib => a.same b = false :=
    ⟨fun a b hab => by rw [LLDPMib.same_comm]; exact hab⟩
  rw [List.Pairwise.forall h ha hb hne] at hsame
  cases hsame

theorem Stored.mem_mibs (h : g.Stored) : m ∈ g.mibs v ↔ m ∈ g.edges ∧ m.srcID = v := by
  constructor
  · exact fun hm => ⟨mem_edges.mpr ⟨v, hm⟩, h.own v m hm⟩
  · rintro ⟨hm, rfl⟩
    obtain ⟨v, hm⟩ := mem_edges.mp hm
    rw [h.own v m hm]
    exact hm

theorem srcID_entered (h : ∀ m ∈ ms, m.srcID = mib.srcID) :
    (entered mib ms).srcID = mib.srcID := by
  unfold entered
  cases hfind : ms.find? (·.same mib) with
  | none => rfl
  | some m => exact h m (List.mem_of_find?_eq_some hfind)

theorem length_enteredMibs :
    (enteredMibs mib ms).length = ms.length + if ms.any (·.same mib) then 0 else 1 := by
  unfold enteredMibs
  split_ifs
  · rw [← List.length_map LLDPMib.ends, map_ends_setExpiresAt, List.length_map, add_zero]
  · rw [List.length_append, List.length_singleton]

theorem numOfVerticies_enter : (g.enter mib).numOfVerticies =
    g.numOfVerticies + if g.verticies.find mib.srcID = none then 1 else 0 := by
  unfold enter
  cases g.verticies.find mib.srcID with
  | none => rfl
  | some ms =>
    rw [if_neg (Option.some_ne_none ms), add_zero]
    dsimp only
    split_ifs
    · rfl
    · rfl

theorem numOfEdges_enter : (g.enter mib).numOfEdges =
    g.numOfEdges + if (g.mibs mib.srcID).any (·.same mib) then 0 else 1 := by
  unfold enter mibs
  cases g.verticies.find mib.srcID with
  | none => rfl
  | some ms =>
    rw [Option.getD_some]
    dsimp only
    split_ifs
    · rw [add_zero]
    · rfl

theorem Stored.enter (h : g.Stored) : (g.enter mib).Stored where
  own v m hm := by
    rw [mibs_enter] at hm
    split_ifs at hm with hv
    · subst hv
      rcases (mem_enteredMibs (h.apart _)).mp hm with hm | rfl
      · exact h.own _ m hm.1
      · exact srcID_entered (h.own _)
    · exact h.own v m hm
  nonempty v ms hms := by
    rw [verticies_enter, Table.find_set] at hms
    split_ifs at hms
    · cases hms
      exact enteredMibs_ne_nil
    · exact h.nonempty v ms hms
  apart v := by
    rw [mibs_enter]
    split_ifs
    · exact (h.apart v).enteredMibs
    · exact h.apart v
  verticiesCounted := by
    have hlength := Table.length_set (t := g.verticies) (k := mib.srcID)
      (a := enteredMibs mib (g.mibs mib.srcID))
    rw [numOfVerticies_enter, verticies_enter, h.verticiesCounted]
    cases hfind : g.verticies.find mib.srcID with
    | none =>
      rw [hfind, Option.elim_none] at hlength
      rw [if_pos rfl]
      omega
    | some ms =>
      rw [hfind, Option.elim_some] at hlength
      rw [if_neg (by simp)]
      omega
  edgesCounted := by
    have hsum := Table.sum_set (t := g.verticies) (k := mib.srcID)
      (a := enteredMibs mib (g.mibs mib.srcID)) (f := List.length)
    have hmibs : (g.verticies.find mib.srcID).elim 0 List.length = (g.mibs mib.srcID).length := by
      rw [mibs]
      cases g.verticies.find mib.srcID with
      | none => rfl
      | some ms => rfl
    rw [hmibs, length_enteredMibs] at hsum
    rw [numOfEdges_enter, h.edgesCounted, length_edges, length_edges, verticies_enter]
    split_ifs at hsum ⊢ with hany
    · omega
    · omega

theorem Stored.mem_edges_enter (h : g.Stored) : m ∈ (g.enter mib).edges ↔
    (m ∈ g.edges ∧ (m.srcID = mib.srcID → m.same mib = false)) ∨
      m = entered mib (g.mibs mib.srcID) := by
  have hmem : m ∈ (g.enter mib).edges ↔ m ∈ (g.enter mib).mibs m.srcID := by
    rw [h.enter.mem_mibs]
    exact (and_iff_left rfl).symm
  rw [hmem, mibs_enter]
  split_ifs with hv
  · rw [mem_enteredMibs (h.apart _), h.mem_mibs, hv, and_iff_left rfl]
    exact or_congr_left (and_congr_right fun _ => ⟨fun hnot _ => hnot, fun himp => himp rfl⟩)
  · rw [h.mem_mibs, and_iff_left rfl]
    constructor
    · exact fun hm => .inl ⟨hm, fun hsrc => (hv hsrc).elim⟩
    · rintro (hm | rfl)
      · exact hm.1
      · exact (hv (srcID_entered (h.own _))).elim

theorem entered_eq (h : ∀ m ∈ ms, m.srcID = mib.srcID) (hloop : ¬mib.IsLoop) :
    entered mib ms = mib := by
  refine LLDPMib.ext_ends ?_ expiresAt_entered
  have hsame : (entered mib ms).same mib = true := entered_same
  rcases LLDPMib.same_iff.mp hsame with hends | hends
  · exact hends
  · -- then the ids of the link are equal, and so its ports are
    have hsrc : (entered mib ms).srcID = mib.dstID := congrArg (·.1.1) hends
    rw [srcID_entered h] at hsrc
    have hport : mib.srcPort = mib.dstPort := by
      by_contra hne
      exact hloop ⟨hsrc, hne⟩
    rw [hends, LLDPMib.ends, hsrc, hport]
    rfl

/-- An entry that is there again is the one that was there, with the new time. -/
theorem entered_of_mem {a : LLDPMib} (h : Apart ms) (ha : a ∈ ms) (hsame : a.same mib = true)
    (hexp : a.expiresAt = mib.expiresAt) : entered mib ms = a := by
  unfold entered
  cases hfind : ms.find? (·.same mib) with
  | none => exact (List.find?_eq_none.mp hfind a ha hsame).elim
  | some x =>
    have hx := List.find?_some hfind
    rw [h.eq_of_same (List.mem_of_find?_eq_some hfind) ha (same_trans hx hsame), ← hexp]

theorem srcID_of_same (h : m.same mib = true) : m.srcID = mib.srcID ∨ m.srcID = mib.dstID :=
  (LLDPMib.same_iff.mp h).imp (fun hends => congrArg (·.1.1) hends) fun hends =>
    congrArg (·.1.1) hends

/-- Both directions of an entry: the link is stored from both ends, with the new time, unless both
are at one vertex. -/
theorem Stored.mem_edges_enter_reverse (h : g.Stored) :
    m ∈ ((g.enter mib).enter mib.reverse).edges ↔
      (m ∈ g.edges ∧ m.same mib = false) ∨ m = entered mib (g.mibs mib.srcID) ∨
        (mib.srcID ≠ mib.dstID ∧ m = mib.reverse) := by
  have hsame (hsrc : m.srcID = mib.srcID → m.same mib = false)
      (hdst : m.srcID = mib.dstID → m.same mib = false) : m.same mib = false := by
    rw [← Bool.not_eq_true]
    intro hm
    have hnot := (srcID_of_same hm).elim hsrc hdst
    rw [hm] at hnot
    cases hnot
  rw [h.enter.mem_edges_enter, h.mem_edges_enter, LLDPMib.same_reverse, LLDPMib.srcID_reverse]
  by_cases hids : mib.srcID = mib.dstID
  · -- the second direction finds the entry of the first
    have hmem : entered mib (g.mibs mib.srcID) ∈ (g.enter mib).mibs mib.dstID :=
      h.enter.mem_mibs.mpr
        ⟨h.mem_edges_enter.mpr (.inr rfl), (srcID_entered (h.own _)).trans hids⟩
    have hagain : entered mib.reverse ((g.enter mib).mibs mib.dstID) =
        entered mib (g.mibs mib.srcID) := by
      refine entered_of_mem (h.enter.apart _) hmem ?_ expiresAt_entered
      rw [LLDPMib.same_reverse]
      exact entered_same
    rw [hagain]
    constructor
    · rintro (⟨⟨hm, hsrc⟩ | hm, hdst⟩ | hm)
      · exact .inl ⟨hm, hsame hsrc hdst⟩
      · exact .inr (.inl hm)
      · exact .inr (.inl hm)
    · rintro (⟨hm, hnot⟩ | hm | ⟨hne, -⟩)
      · exact .inl ⟨.inl ⟨hm, fun _ => hnot⟩, fun _ => hnot⟩
      · exact .inr hm
      · exact (hne hids).elim
  · have hfirst : entered mib (g.mibs mib.srcID) = mib :=
      entered_eq (h.own _) fun hloop => hids hloop.1
    have hsecond : entered mib.reverse ((g.enter mib).mibs mib.dstID) = mib.reverse :=
      entered_eq (h.enter.own _) fun hloop => hids hloop.1.symm
    rw [hfirst, hsecond]
    constructor
    · rintro (⟨⟨hm, hsrc⟩ | hm, hdst⟩ | hm)
      · exact .inl ⟨hm, hsame hsrc hdst⟩
      · exact .inr (.inl hm)
      · exact .inr (.inr ⟨hids, hm⟩)
    · rintro (⟨hm, hnot⟩ | rfl | ⟨-, hm⟩)
      · exact .inl ⟨.inl ⟨hm, fun _ => hnot⟩, fun _ => hnot⟩
      · exact .inl ⟨.inr rfl, fun hdst => (hids hdst).elim⟩
      · exact .inr hm

theorem Inv.enter_reverse (h : g.Inv) : ((g.enter mib).enter mib.reverse).Inv where
  toStored := h.enter.enter
  mirrored m hm hids := by
    rw [h.mem_edges_enter_reverse] at hm ⊢
    rw [LLDPMib.reverse_same]
    rcases hm with ⟨hm, hnot⟩ | rfl | ⟨hne, rfl⟩
    · exact .inl ⟨h.mirrored m hm hids, hnot⟩
    · by_cases hne : mib.srcID = mib.dstID
      · -- an entry of a vertex with itself has both its ids
        have hsame : (entered mib (g.mibs mib.srcID)).same mib = true := entered_same
        rcases LLDPMib.same_iff.mp hsame with hends | hends
        · exact (hids ((congrArg (·.1.1) hends).trans
            (hne.trans (congrArg (·.2.1) hends).symm))).elim
        · exact (hids ((congrArg (·.1.1) hends).trans
            (hne.symm.trans (congrArg (·.2.1) hends).symm))).elim
      · rw [entered_eq (h.own _) fun hloop => hne hloop.1]
        exact .inr (.inr ⟨hne, rfl⟩)
    · rw [LLDPMib.reverse_reverse, entered_eq (h.own _) fun hloop => hne hloop.1]
      exact .inr (.inl rfl)

/-! ## Sweeps -/

theorem mibs_removeExpiredEntries :
    (g.removeExpiredEntries now).mibs v = unexpired now (g.mibs v) := by
  change ((g.keptVerticies now).find v).getD [] = _
  rw [keptVerticies, Table.find_filterMap, mibs]
  cases g.verticies.find v with
  | none => rfl
  | some ms =>
    rw [Option.bind_some, Option.getD_some]
    split_ifs with hnil
    · exact hnil.symm
    · rfl

theorem mem_edges_removeExpiredEntries :
    m ∈ (g.removeExpiredEntries now).edges ↔ m ∈ g.edges ∧ ¬m.expiresAt < now := by
  simp only [mem_edges, mibs_removeExpiredEntries, unexpired, List.mem_filter, exists_and_right,
    decide_eq_true_eq]

theorem length_edges_removeExpiredEntries :
    (g.removeExpiredEntries now).edges.length + g.numOfExpired now = g.edges.length := by
  have hkept : (g.removeExpiredEntries now).edges.length =
      (g.verticies.entries.map fun e => (unexpired now e.2).length).sum := by
    rw [length_edges]
    refine Table.sum_filterMap (f := fun ms => (unexpired now ms).length) fun _ ms => ?_
    split_ifs with hnil
    · rw [hnil, Option.elim_none, List.length_nil]
    · rfl
  rw [hkept, numOfExpired, length_edges, ← List.sum_map_add]
  congr 1
  refine List.map_congr_left fun e _ => ?_
  rw [unexpired, ← List.countP_eq_length_filter, add_comm,
    List.length_eq_countP_add_countP fun m => decide (m.expiresAt < now)]
  congr 1
  exact List.countP_congr fun m _ => by simp

theorem Stored.removeExpiredEntries (h : g.Stored) : (g.removeExpiredEntries now).Stored where
  own v m hm := by
    rw [mibs_removeExpiredEntries] at hm
    exact h.own v m (List.mem_of_mem_filter hm)
  nonempty v ms hms := by
    change (g.keptVerticies now).find v = some ms at hms
    rw [keptVerticies, Table.find_filterMap] at hms
    obtain ⟨ms', -, hms'⟩ := Option.bind_eq_some_iff.mp hms
    split_ifs at hms' with hnil
    cases hms'
    exact hnil
  apart v := by
    rw [mibs_removeExpiredEntries]
    exact (h.apart v).filter _
  verticiesCounted := by
    have hle : (g.keptVerticies now).entries.length ≤ g.verticies.entries.length :=
      List.length_filterMap_le _ _
    change g.numOfVerticies - _ = ((g.keptVerticies now).entries.length : ℤ)
    rw [h.verticiesCounted]
    omega
  edgesCounted := by
    have hlength : (g.removeExpiredEntries now).edges.length + g.numOfExpired now =
        g.edges.length := length_edges_removeExpiredEntries
    change g.numOfEdges - g.numOfExpired now = _
    rw [h.edgesCounted]
    omega

theorem Inv.removeExpiredEntries (h : g.Inv) : (g.removeExpiredEntries now).Inv where
  toStored := h.toStored.removeExpiredEntries
  mirrored m hm hids := by
    rw [mem_edges_removeExpiredEntries] at hm ⊢
    exact ⟨h.mirrored m hm.1 hids, hm.2⟩

/-! ## Versions -/

/-- The version only grows, and it stays only if the edges do. -/
structure Versioned (g g' : LLDPMibGraph) : Prop where
  le : g.version ≤ g'.version
  hasEdge : g'.version = g.version → ∀ k, g'.HasEdge k ↔ g.HasEdge k

theorem Versioned.refl : g.Versioned g := ⟨le_rfl, fun _ _ => .rfl⟩

theorem Versioned.trans {g₁ g₂ g₃ : LLDPMibGraph} (h : g₁.Versioned g₂) (h' : g₂.Versioned g₃) :
    g₁.Versioned g₃ where
  le := h.le.trans h'.le
  hasEdge heq k := by
    have hle := h.le
    have hle' := h'.le
    exact (h'.hasEdge (by omega) k).trans (h.hasEdge (by omega) k)

theorem hasEdge_iff {k : (String × ℤ) × (String × ℤ)} :
    g.HasEdge k ↔ ∃ v, k ∈ (g.mibs v).map LLDPMib.ends := by
  simp only [HasEdge, mem_edges, List.mem_map]
  exact ⟨fun ⟨m, ⟨v, hm⟩, hk⟩ => ⟨v, m, hm, hk⟩, fun ⟨v, m, hm, hk⟩ => ⟨m, ⟨v, hm⟩, hk⟩⟩

theorem version_enter : (g.enter mib).version =
    g.version + if (g.mibs mib.srcID).any (·.same mib) then 0 else 1 := by
  unfold enter mibs
  cases g.verticies.find mib.srcID with
  | none => rfl
  | some ms =>
    rw [Option.getD_some]
    dsimp only
    split_ifs
    · rw [add_zero]
    · rfl

theorem versioned_enter : g.Versioned (g.enter mib) := by
  have hversion : (g.enter mib).version =
      g.version + if (g.mibs mib.srcID).any (·.same mib) then 0 else 1 := version_enter
  split_ifs at hversion with hany
  · refine ⟨by omega, fun _ k => ?_⟩
    have hmibs : ∀ v, ((g.enter mib).mibs v).map LLDPMib.ends = (g.mibs v).map LLDPMib.ends := by
      intro v
      rw [mibs_enter]
      split_ifs with hv
      · rw [enteredMibs, hv, if_pos hany, map_ends_setExpiresAt]
      · rfl
    simp only [hasEdge_iff, hmibs]
  · exact ⟨by omega, fun heq => by omega⟩

theorem versioned_addEntry {src dst : String} {srcPort dstPort : ℤ} {timeOut : SimTime} :
    g.Versioned (g.addEntry now src srcPort dst dstPort timeOut).2 := by
  unfold addEntry
  split_ifs
  · exact .refl
  · exact versioned_enter.trans versioned_enter

theorem versioned_removeExpiredEntries : g.Versioned (g.removeExpiredEntries now) := by
  have hversion : (g.removeExpiredEntries now).version = g.version + g.numOfExpired now +
    ((g.verticies.entries.length - (g.keptVerticies now).entries.length : ℕ) : ℤ) := rfl
  refine ⟨by omega, fun heq k => ?_⟩
  have hnone : g.numOfExpired now = 0 := by omega
  have hkept : ∀ m ∈ g.edges, ¬m.expiresAt < now := by
    intro m hm
    obtain ⟨e, he, hm⟩ := List.mem_flatMap.mp hm
    have hcount := List.sum_eq_zero_iff_forall_eq_nat.mp hnone _ (List.mem_map.mpr ⟨e, he, rfl⟩)
    simpa using List.countP_eq_zero.mp hcount m hm
  simp only [HasEdge, mem_edges_removeExpiredEntries]
  exact ⟨fun ⟨m, hm, hk⟩ => ⟨m, hm.1, hk⟩, fun ⟨m, hm, hk⟩ => ⟨m, ⟨hm, hkept m hm⟩, hk⟩⟩

end LLDPMibGraph

/-! ## Runs -/

theorem Discovery.versioned_step {s s' : Discovery} {e : DiscoveryEvent} (hs : s.step e = some s') :
    s.mibGraph.Versioned s'.mibGraph := by
  cases e with
  | advance time =>
    obtain ⟨-, hs⟩ := (Option.ite_none_right_eq_some ..).mp hs
    cases hs
    exact .refl
  | packetIn p timeOut =>
    cases hs
    cases p with
    | lldp chassisID portID swInfo inport => exact LLDPMibGraph.versioned_addEntry
    | frame srcMac swInfo inport => exact LLDPMibGraph.versioned_addEntry
  | removeExpiredEntries =>
    cases hs
    exact LLDPMibGraph.versioned_removeExpiredEntries

end TsnReconfig.LLDP
