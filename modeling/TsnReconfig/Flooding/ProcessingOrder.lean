import Mathlib.Order.Lattice.Nat
import Mathlib.Logic.Relation
import TsnReconfig.Flooding.StaticSpanningTree

/-!
# The order in which the nodes are processed

A walk descends where it goes to a node that is not greater. A node is processed in the pass whose
number is the least number of descents of a walk to it from the start, so that this number and the
index give the order, and the tree neighbour of a node is its first neighbour in this order.
-/

namespace TsnReconfig.Flooding
open Lib

/-- The same link, of the remote node. -/
def LinkOut.back (l : LinkOut) (i : ℕ) : LinkOut := ⟨false, l.remoteGate, i, l.localGate⟩

namespace Topology
variable (T : Topology)

/-- A link of the data plane leads from one node to the other. -/
def Adj (i x : ℕ) : Prop := ∃ l ∈ T.dataLinks i, l.remoteNode = x

/-- Links of the data plane are bidirectional, and each has ports of its own. -/
structure Valid : Prop where
  remote_lt : ∀ i, ∀ l ∈ T.dataLinks i, l.remoteNode < T.numNodes
  back_mem : ∀ i, ∀ l ∈ T.dataLinks i, l.back i ∈ T.dataLinks l.remoteNode
  nodup : ∀ i, ((T.dataLinks i).map (·.localGate)).Nodup
  localGate_lt : ∀ i, ∀ l ∈ T.dataLinks i, l.localGate < T.gateSize i
  gateSize_le : ∀ i, T.gateSize i ≤ 4294967296

/-- There are nodes, and links of the data plane join any two of them. -/
structure Connected : Prop extends T.Valid where
  nonempty : 0 < T.numNodes
  connected : ∀ i x, i < T.numNodes → x < T.numNodes → Relation.ReflTransGen T.Adj i x

/-- There is a walk from the start to the node with so many descents. -/
inductive Descents (start : ℕ) : ℕ → ℕ → Prop
  | start : Descents start start 0
  | step {x y d : ℕ} (h : Descents start x d) (hadj : T.Adj x y) :
    Descents start y (if x < y then d else d + 1)

/-- The least number of descents. -/
noncomputable def descents (start x : ℕ) : ℕ := sInf { d | T.Descents start x d }

/-- The place of a node in the order. -/
noncomputable def rank (start x : ℕ) : ℕ := T.descents start x * T.numNodes + x

variable {T} {start i x y d t : ℕ} {l : LinkOut}

theorem mem_dataLinks : l ∈ T.dataLinks i ↔ l ∈ T.linksOut i ∧ l.gateCPlane = false := by
  rw [dataLinks, List.mem_filter, Bool.not_eq_true']

theorem lt_of_mem_dataLinks (h : l ∈ T.dataLinks i) : i < T.numNodes := by
  have hmem := (mem_dataLinks.mp h).1
  by_contra hle
  rw [linksOut, List.getElem?_eq_none (Nat.le_of_not_lt hle)] at hmem
  cases hmem

theorem Adj.lt (h : T.Adj i x) : i < T.numNodes := by
  obtain ⟨l, hl, -⟩ := h
  exact lt_of_mem_dataLinks hl

theorem Valid.eq_of_localGate {l' : LinkOut} (h : T.Valid) (hl : l ∈ T.dataLinks i)
    (hl' : l' ∈ T.dataLinks i) (heq : l.localGate = l'.localGate) : l = l' :=
  List.inj_on_of_nodup_map (h.nodup i) hl hl' heq

theorem Valid.adj_symm (h : T.Valid) (hadj : T.Adj i x) : T.Adj x i := by
  obtain ⟨l, hl, rfl⟩ := hadj
  exact ⟨_, h.back_mem i l hl, rfl⟩

theorem Connected.exists_descents (h : T.Connected) (hstart : start < T.numNodes)
    (hx : x < T.numNodes) : ∃ d, T.Descents start x d := by
  have hwalk := h.connected start x hstart hx
  induction hwalk with
  | refl => exact ⟨0, .start⟩
  | tail _ hadj ih =>
    obtain ⟨d, hd⟩ := ih hadj.lt
    exact ⟨_, hd.step hadj⟩

theorem Connected.descents_spec (h : T.Connected) (hstart : start < T.numNodes)
    (hx : x < T.numNodes) : T.Descents start x (T.descents start x) :=
  Nat.sInf_mem (s := { d | T.Descents start x d }) (h.exists_descents hstart hx)

theorem descents_le (h : T.Descents start x d) : T.descents start x ≤ d := Nat.sInf_le h

/-- What the proofs use of the order. -/
structure Ranking (T : Topology) (start : ℕ) (rank : ℕ → ℕ) : Prop where
  rank_start : rank start = start
  mod : ∀ x, x < T.numNodes → rank x % T.numNodes = x
  next : ∀ x y t, T.Adj y x → x < T.numNodes → t % T.numNodes = x → rank y < t → rank x ≤ t
  before : ∀ x, x < T.numNodes → x ≠ start → ∃ y, T.Adj x y ∧ rank y < rank x

theorem Connected.ranking (h : T.Connected) (hstart : start < T.numNodes) :
    T.Ranking start (T.rank start) where
  rank_start := by
    have hzero : T.descents start start = 0 := Nat.le_zero.mp (descents_le .start)
    rw [rank, hzero, Nat.zero_mul, Nat.zero_add]
  mod x hx := by
    rw [rank, Nat.mul_comm, Nat.mul_add_mod, Nat.mod_eq_of_lt hx]
  next x y t hadj hx ht hlt := by
    have hy := hadj.lt
    have hdescents := descents_le ((h.descents_spec hstart hy).step hadj)
    have hdiv := Nat.div_add_mod t T.numNodes
    rw [ht, Nat.mul_comm] at hdiv
    rw [rank] at hlt ⊢
    -- the walk to `y` gets there in the same pass or an earlier one
    have hle : T.descents start y ≤ t / T.numNodes := by
      by_contra hnot
      have hmul := Nat.mul_le_mul_right T.numNodes (Nat.succ_le_of_lt (Nat.lt_of_not_le hnot))
      rw [Nat.succ_mul] at hmul
      omega
    have hx' : T.descents start x ≤ t / T.numNodes := by
      split_ifs at hdescents with hxy
      · omega
      · rcases Nat.lt_or_eq_of_le hle with hless | heq
        · omega
        · rw [heq] at hlt
          omega
    have hmul := Nat.mul_le_mul_right T.numNodes hx'
    omega
  before x hx hne := by
    have hspec := h.descents_spec hstart hx
    obtain ⟨d, hd⟩ : ∃ d, d = T.descents start x := ⟨_, rfl⟩
    rw [← hd] at hspec
    cases hspec with
    | start => exact (hne rfl).elim
    | @step y _ d' hy hadj =>
      refine ⟨y, h.adj_symm hadj, ?_⟩
      have hle := descents_le hy
      have hylt := hadj.lt
      rw [rank, rank, ← hd]
      have hmul := Nat.mul_le_mul_right T.numNodes hle
      split_ifs at hd ⊢ with hyx
      · omega
      · rw [Nat.succ_mul]
        omega

end Topology

end TsnReconfig.Flooding
