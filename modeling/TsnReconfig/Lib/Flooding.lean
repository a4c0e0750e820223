import Mathlib.Data.List.Nodup
import Mathlib.Data.Nat.Init
import TsnReconfig.Lib.System

/-!
# Flooding along a tree

Copies of a frame are in flight to ports of nodes and are delivered in any order. A node that gets a
copy sends others on. If it sends them to its children in a tree, of all nodes or of those with some
property, every one gets one copy.
-/

namespace TsnReconfig.Lib

/-- A copy in flight is the node and the port that it arrives at. -/
structure Flood (V P : Type*) where
  inFlight : List (V × P)
  received : List V := []
  deriving DecidableEq

namespace Flood
variable {V P : Type*}

/-- A copy is delivered. -/
def deliver (sends : V → P → List (V × P)) (s : Flood V P) (k : ℕ) : Option (Flood V P) :=
  (s.inFlight[k]?).map fun a =>
    ⟨s.inFlight.eraseIdx k ++ sends a.1 a.2, s.received ++ [a.1]⟩

/-- The deliveries after the first node has sent its copies. -/
def deliveries (first : List (V × P)) (sends : V → P → List (V × P)) : System (Flood V P) ℕ where
  init s := s = { inFlight := first }
  step := deliver sends

/-- The nodes are those of a tree, each is entered from its parent, and sends to its children. -/
structure AlongTree (node : V → Prop) (root : V) (parent : V → V) (entry : V → P) (rank : V → ℕ)
    (first : List (V × P)) (sends : V → P → List (V × P)) : Prop where
  rank_lt : ∀ v, node v → v ≠ root → node (parent v) ∧ rank (parent v) < rank v
  nodup_first : first.Nodup
  mem_first : ∀ a, a ∈ first ↔ node a.1 ∧ a.1 ≠ root ∧ parent a.1 = root ∧ a.2 = entry a.1
  nodup_sends : ∀ v, node v → v ≠ root → (sends v (entry v)).Nodup
  mem_sends : ∀ v, node v → v ≠ root → ∀ a, a ∈ sends v (entry v) ↔
    node a.1 ∧ a.1 ≠ root ∧ parent a.1 = v ∧ a.2 = entry a.1

section
variable {node : V → Prop} {root : V} {parent : V → V} {entry : V → P} {rank : V → ℕ}
  {first : List (V × P)} {sends : V → P → List (V × P)} {s s' : Flood V P} {k : ℕ}

/-- A copy is in flight for every node that has none, if its parent has one. -/
structure Inv (node : V → Prop) (root : V) (parent : V → V) (entry : V → P) (s : Flood V P) :
    Prop where
  nodup : s.received.Nodup
  received : ∀ v ∈ s.received, node v ∧ v ≠ root ∧ (parent v = root ∨ parent v ∈ s.received)
  nodup_inFlight : s.inFlight.Nodup
  mem_inFlight : ∀ a, a ∈ s.inFlight ↔ node a.1 ∧ a.1 ≠ root ∧ a.1 ∉ s.received ∧
    (parent a.1 = root ∨ parent a.1 ∈ s.received) ∧ a.2 = entry a.1

theorem mem_eraseIdx_of_nodup {α : Type*} {l : List α} {a b : α} (h : l.Nodup)
    (hb : l[k]? = some b) : a ∈ l.eraseIdx k ↔ a ∈ l ∧ a ≠ b := by
  classical
  obtain ⟨hk, rfl⟩ := List.getElem?_eq_some_iff.mp hb
  rw [← h.erase_getElem k hk, h.mem_erase_iff, and_comm]

theorem Inv.deliver (h : Inv node root parent entry s)
    (htree : AlongTree node root parent entry rank first sends)
    (hs : s.deliver sends k = some s') : Inv node root parent entry s' := by
  obtain ⟨⟨v, p⟩, hv, rfl⟩ := Option.map_eq_some_iff.mp hs
  have hmem : (v, p) ∈ s.inFlight := List.mem_of_getElem? hv
  obtain ⟨hnode, hroot, hnew, hparent, hp⟩ := (h.mem_inFlight _).mp hmem
  dsimp only at hnode hroot hnew hparent hp
  subst hp
  have herase : ∀ a, a ∈ s.inFlight.eraseIdx k ↔ a ∈ s.inFlight ∧ a ≠ (v, entry v) :=
    fun a => mem_eraseIdx_of_nodup h.nodup_inFlight hv
  have hself : parent v ≠ v := by
    intro heq
    have hlt := (htree.rank_lt v hnode hroot).2
    rw [heq] at hlt
    omega
  constructor
  · rw [List.nodup_append]
    refine ⟨h.nodup, List.nodup_singleton v, fun a ha b hb hab => ?_⟩
    rw [List.mem_singleton] at hb
    rw [hab, hb] at ha
    exact hnew ha
  · intro w hw
    rw [List.mem_append, List.mem_singleton] at hw
    rcases hw with hw | rfl
    · obtain ⟨hnodew, hrootw, hparentw⟩ := h.received w hw
      exact ⟨hnodew, hrootw, hparentw.imp_right (List.mem_append_left _)⟩
    · exact ⟨hnode, hroot, hparent.imp_right (List.mem_append_left _)⟩
  · refine List.nodup_append.mpr ⟨h.nodup_inFlight.eraseIdx k, htree.nodup_sends v hnode hroot, ?_⟩
    rintro a ha b hb rfl
    -- what was in flight is not for a child of the node
    obtain ⟨-, -, -, hparenta, -⟩ := (h.mem_inFlight a).mp ((herase a).mp ha).1
    rw [((htree.mem_sends v hnode hroot a).mp hb).2.2.1] at hparenta
    exact hparenta.elim hroot hnew
  · intro a
    simp only [List.mem_append, List.mem_singleton, herase, h.mem_inFlight,
      htree.mem_sends v hnode hroot, not_or]
    constructor
    · rintro (⟨⟨hnodea, hroota, hnewa, hparenta, hentry⟩, hne⟩ | ⟨hnodea, hroota, rfl, hentry⟩)
      · exact ⟨hnodea, hroota, ⟨hnewa, fun hav => hne (Prod.ext hav (hav ▸ hentry))⟩,
          hparenta.imp_right .inl, hentry⟩
      · refine ⟨hnodea, hroota, ⟨fun ha => ?_, fun heq => hself ?_⟩, .inr (.inr rfl), hentry⟩
        · exact ((h.received a.1 ha).2.2).elim hroot hnew
        · rw [← heq]
          exact heq.symm
    · rintro ⟨hnodea, hroota, ⟨hnewa, hav⟩, hparenta, hentry⟩
      rcases hparenta with hparenta | hparenta | hparenta
      · exact .inl ⟨⟨hnodea, hroota, hnewa, .inl hparenta, hentry⟩,
          fun heq => hav (congrArg Prod.fst heq)⟩
      · exact .inl ⟨⟨hnodea, hroota, hnewa, .inr hparenta, hentry⟩,
          fun heq => hav (congrArg Prod.fst heq)⟩
      · exact .inr ⟨hnodea, hroota, hparenta, hentry⟩

theorem inv_of_reachable (htree : AlongTree node root parent entry rank first sends)
    (h : (deliveries first sends).Reachable s) : Inv node root parent entry s := by
  refine h.invariant ?_ fun _ _ _ hinv hs => hinv.deliver htree hs
  rintro _ rfl
  refine ⟨.nil, fun v hv => ?_, htree.nodup_first, fun a => ?_⟩
  · cases hv
  · rw [htree.mem_first]
    simp

/-- **Exactly once**: no node gets a second copy, the root gets none, and when no copy is in flight
any more, every other node has got one. -/
theorem once_of_reachable (htree : AlongTree node root parent entry rank first sends)
    (h : (deliveries first sends).Reachable s) : s.received.Nodup ∧
      (∀ v ∈ s.received, node v ∧ v ≠ root) ∧
      (s.inFlight = [] → ∀ v, node v → v ≠ root → v ∈ s.received) := by
  have hinv := inv_of_reachable htree h
  refine ⟨hinv.nodup, fun v hv => ⟨(hinv.received v hv).1, (hinv.received v hv).2.1⟩, ?_⟩
  intro hempty v
  induction hn : rank v using Nat.strong_induction_on generalizing v with
  | _ n ih =>
    intro hnode hroot
    obtain ⟨hnodep, hlt⟩ := htree.rank_lt v hnode hroot
    have hparent : parent v = root ∨ parent v ∈ s.received :=
      or_iff_not_imp_left.mpr fun hne => ih _ (hn ▸ hlt) (parent v) rfl hnodep hne
    by_contra hnot
    have hflight := (hinv.mem_inFlight (v, entry v)).mpr ⟨hnode, hroot, hnot, hparent, rfl⟩
    rw [hempty] at hflight
    cases hflight

end

end Flood

end TsnReconfig.Lib
