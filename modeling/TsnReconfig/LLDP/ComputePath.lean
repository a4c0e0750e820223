import TsnReconfig.LLDP.CachedRoutes
import TsnReconfig.LLDP.DijkstraSearch

/-!
# `LLDPForwarding::computePath`

It answers every query whose destination is near by routes through vertices with names, or cannot be
reached and is not behind an edge of a vertex with itself. Behind such an edge the reading off goes
round for ever, and a vertex without a name is taken for the end of a route.
-/

namespace TsnReconfig.LLDP
open Lib OpenFlow Search

namespace Dijkstra

/-- The condition on the graph for a search. -/
def Ok (g : LLDPMibGraph) (src dst : String) : Prop :=
  (g.Near src dst ∧ ∀ segs, g.Shortest src segs dst → ∀ seg ∈ segs, seg.chassisId ≠ "") ∨
    (¬g.Connected src dst ∧
      ∀ seg, g.Connected seg.chassisId dst → ¬g.Edge seg seg.chassisId)

variable {g : LLDPMibGraph} {src : String} {tie : ℕ → ℕ}

theorem search_mono {n m : ℕ} {prev : String → LLDPPathSegment} (h : search tie n g src = some prev)
    (hle : n ≤ m) : search tie m g src = some prev := by
  obtain ⟨t, ht, rfl⟩ := search_eq_some.mp h
  exact search_eq_some.mpr ⟨t, whileLoop_mono ht hle, rfl⟩

theorem sound (tie : ℕ → ℕ) : RouteCache.Sound (search tie) Ok where
  mono := search_mono
  ends {g src dst} hinv hsrc hok := by
    rcases hok with ⟨hnear, hnamed⟩ | ⟨hnot, hself⟩
    · obtain ⟨n, prev, hsearch, hfinds⟩ := search_finds tie hinv hsrc hnear
      obtain ⟨m, segs, hback, hshortest⟩ := hfinds.backTrack hnamed
      exact ⟨max n m, prev, (src, segs), search_mono hsearch (Nat.le_max_left n m),
        whileLoop_mono hback (Nat.le_max_right n m), .inl ⟨rfl, hshortest⟩⟩
    · obtain ⟨n, prev, hsearch, m, b, hback, hne⟩ :=
        search_ends tie hinv hsrc hnot hself
      exact ⟨max n m, prev, b, search_mono hsearch (Nat.le_max_left n m),
        whileLoop_mono hback (Nat.le_max_right n m), .inr ⟨hne, hnot⟩⟩

end Dijkstra

end TsnReconfig.LLDP
