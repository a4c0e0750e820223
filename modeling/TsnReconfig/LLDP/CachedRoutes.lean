import TsnReconfig.LLDP.Discovery
import TsnReconfig.LLDP.Searching

/-!
# Cached routes

The cache is emptied when the version of the graph has changed, and as long as it has not, the edges
are the same: what was a shortest route when it was searched still is one. So every answer is right
if the search is, for any of the two.
-/

namespace TsnReconfig.LLDP
open Lib OpenFlow

/-- What is expected of an answer: a shortest route if there is any, and nothing only if there is
none or none is needed. -/
structure Answers (g : LLDPMibGraph) (src dst : String) (route : List LLDPPathSegment) : Prop where
  shortest : g.Connected src dst → g.Shortest src route dst
  nil_iff : route = [] ↔ src = dst ∨ ¬g.Connected src dst

section
variable {g g' : LLDPMibGraph} {src dst : String} {route : List LLDPPathSegment}

theorem Answers.of_shortest (h : g.Shortest src route dst) : Answers g src dst route where
  shortest _ := h
  nil_iff := by
    have hconnected : g.Connected src dst := ⟨route, h.1⟩
    rw [or_iff_left (not_not.mpr hconnected)]
    constructor
    · rintro rfl
      cases h.1
      rfl
    · rintro rfl
      exact h.eq_nil

theorem Answers.of_not_connected (h : ¬g.Connected src dst) : Answers g src dst [] where
  shortest hconnected := (h hconnected).elim
  nil_iff := iff_of_true rfl (.inr h)

/-- A route needs both ends in the graph, unless they are the same. -/
theorem Answers.of_not_isVertex (hinv : g.Inv) (h : ¬g.IsVertex src ∨ ¬g.IsVertex dst) :
    Answers g src dst [] := by
  by_cases hconnected : g.Connected src dst
  · refine .of_shortest ⟨?_, fun _ _ => Nat.zero_le _⟩
    obtain ⟨segs, hroute⟩ := hconnected
    cases hroute with
    | nil => exact .nil src
    | cons hE hrest =>
      have hsrc := LLDPMibGraph.isVertex_of_edge hE
      have hdst := hinv.isVertex_of_connected (Connected.trans (Connected.edge hE) ⟨_, hrest⟩) hsrc
      exact (h.elim (· hsrc) (· hdst)).elim
  · exact .of_not_connected hconnected

theorem LLDPMibGraph.Inv.edge_iff (h : g.Inv) {seg : LLDPPathSegment} {v : String} :
    g.Edge seg v ↔ ∃ port, g.HasEdge ((seg.chassisId, seg.outport), (v, port)) := by
  constructor
  · rintro ⟨m, hm, hport, rfl⟩
    obtain ⟨hm, hsrc⟩ := h.mem_mibs.mp hm
    exact ⟨m.dstPort, m, hm, by rw [LLDPMib.ends, hsrc, hport]⟩
  · rintro ⟨port, m, hm, hends⟩
    have hsrc : m.srcID = seg.chassisId := congrArg (·.1.1) hends
    exact ⟨m, h.mem_mibs.mpr ⟨hm, hsrc⟩, congrArg (·.1.2) hends, congrArg (·.2.1) hends⟩

theorem Answers.congr (h : Answers g src dst route) (hE : ∀ seg v, g'.Edge seg v ↔ g.Edge seg v) :
    Answers g' src dst route := by
  have heq : g'.Edge = g.Edge := by
    funext seg v
    exact propext (hE seg v)
  obtain ⟨hshortest, hnil⟩ := h
  refine ⟨?_, ?_⟩
  · unfold LLDPMibGraph.Connected LLDPMibGraph.Shortest
    rw [heq]
    exact hshortest
  · unfold LLDPMibGraph.Connected
    rw [heq]
    exact hnil

end

/-! ## One query -/

namespace RouteCache

/-- The routes of the version of the graph are right. -/
structure Valid (g : LLDPMibGraph) (c : RouteCache) : Prop where
  version_le : c.version ≤ g.version
  answers : g.version = c.version → ∀ src dst route, c.routes.find (src, dst) = some route →
    Answers g src dst route

variable {g g' : LLDPMibGraph} {c : RouteCache} {src dst : String}

/-- Whatever happens to the graph, the cache remains valid. -/
theorem Valid.versioned (h : c.Valid g) (hg : g.Versioned g') (hinv : g.Inv) (hinv' : g'.Inv) :
    c.Valid g' := by
  have hle := h.version_le
  have hle' := hg.le
  refine ⟨by omega, fun heq src dst route hfind => ?_⟩
  refine (h.answers (by omega) src dst route hfind).congr fun seg v => ?_
  rw [hinv'.edge_iff, hinv.edge_iff]
  exact exists_congr fun port => hg.hasEdge (by omega) _

/-- The route is in the cache. -/
def Hits (g : LLDPMibGraph) (c : RouteCache) (src dst : String) : Prop :=
  g.version = c.version ∧ (c.routes.find (src, dst)).isSome = true

/-- A search that, given enough passes, leads to the right answer under a condition. -/
structure Sound (search : ℕ → LLDPMibGraph → String → Option (String → LLDPPathSegment))
    (ok : LLDPMibGraph → String → String → Prop) : Prop where
  mono : ∀ {n m g src prev}, search n g src = some prev → n ≤ m → search m g src = some prev
  ends : ∀ {g src dst}, g.Inv → g.IsVertex src → ok g src dst → ∃ n prev b,
    search n g src = some prev ∧ Search.backTrack prev n dst = some b ∧
      ((b.1 = src ∧ g.Shortest src b.2 dst) ∨ (b.1 ≠ src ∧ ¬g.Connected src dst))

variable {search : ℕ → LLDPMibGraph → String → Option (String → LLDPPathSegment)}
  {ok : LLDPMibGraph → String → String → Prop}

/-- More passes give the same. -/
theorem compute_mono (hsound : Sound search ok) {n m : ℕ} {r : List LLDPPathSegment × RouteCache}
    (h : RouteCache.route.compute search n g src dst c = some r) (hle : n ≤ m) :
    RouteCache.route.compute search m g src dst c = some r := by
  unfold route.compute at h ⊢
  split_ifs at h ⊢
  · exact h
  · obtain ⟨prev, hprev, h⟩ := Option.bind_eq_some_iff.mp h
    obtain ⟨b, hb, rfl⟩ := Option.map_eq_some_iff.mp h
    have hb' : Search.backTrack prev m dst = some b := whileLoop_mono hb hle
    rw [hsound.mono hprev hle, Option.bind_some, hb', Option.map_some]

theorem route_mono (hsound : Sound search ok) {n m : ℕ} {r : List LLDPPathSegment × RouteCache}
    (h : c.route search n g src dst = some r) (hle : n ≤ m) :
    c.route search m g src dst = some r := by
  unfold route at h ⊢
  split_ifs at h ⊢
  · cases hfind : c.routes.find (src, dst) with
    | some segs =>
      rw [hfind] at h
      exact h
    | none =>
      rw [hfind] at h
      exact compute_mono hsound h hle
  · exact compute_mono hsound h hle

theorem compute_correct (hsound : Sound search ok) (hinv : g.Inv) (hc : c.Valid g)
    (hversion : g.version = c.version)
    (hok : ¬g.IsVertex src ∨ ¬g.IsVertex dst ∨ ok g src dst) :
    ∃ n segs c', (∀ fuel, n ≤ fuel →
        RouteCache.route.compute search fuel g src dst c = some (segs, c')) ∧
      Answers g src dst segs ∧ c'.Valid g := by
  have hnone : ∀ v, ¬g.IsVertex v ↔ g.verticies.find v = none := by
    intro v
    unfold LLDPMibGraph.IsVertex
    rw [Bool.not_eq_true, Option.isSome_eq_false_iff, Option.isNone_iff_eq_none]
  by_cases hvertices : g.verticies.find src = none ∨ g.verticies.find dst = none
  · refine ⟨0, [], c, fun fuel _ => if_pos hvertices, .of_not_isVertex hinv ?_, hc⟩
    rw [hnone, hnone]
    exact hvertices
  · have hends := hvertices
    rw [not_or, ← hnone, ← hnone, not_not, not_not] at hends
    -- both are vertices, so the search ends
    have hok' : ok g src dst :=
      (hok.resolve_left (not_not.mpr hends.1)).resolve_left (not_not.mpr hends.2)
    obtain ⟨n, prev, b, hsearch, hback, hb⟩ := hsound.ends hinv hends.1 hok'
    have hrun : ∀ fuel, n ≤ fuel → route.compute search fuel g src dst c =
        some (if src ≠ b.1 then ([], c)
          else (b.2, { c with routes := c.routes.set (src, dst) b.2 })) := by
      intro fuel hfuel
      have hback' : Search.backTrack prev fuel dst = some b := whileLoop_mono hback hfuel
      rw [route.compute, if_neg hvertices, hsound.mono hsearch hfuel, Option.bind_some, hback',
        Option.map_some]
    rcases hb with ⟨heq, hshortest⟩ | ⟨hne, hnot⟩
    · refine ⟨n, b.2, { c with routes := c.routes.set (src, dst) b.2 }, fun fuel hfuel => ?_,
        .of_shortest hshortest, ?_⟩
      · rw [hrun fuel hfuel, if_neg fun hne => hne heq.symm]
      · refine ⟨hc.version_le, fun _ src' dst' segs hfind => ?_⟩
        rw [Table.find_set] at hfind
        split_ifs at hfind with hkey
        · cases hkey
          cases hfind
          exact .of_shortest hshortest
        · exact hc.answers hversion src' dst' segs hfind
    · refine ⟨n, [], c, fun fuel hfuel => ?_, .of_not_connected hnot, hc⟩
      rw [hrun fuel hfuel, if_pos fun heq => hne heq.symm]

/-- The answer of the cache, or of the search, is right. -/
theorem route_correct (hsound : Sound search ok) (hinv : g.Inv) (hc : c.Valid g)
    (hok : c.Hits g src dst ∨ ¬g.IsVertex src ∨ ¬g.IsVertex dst ∨ ok g src dst) :
    ∃ n segs c', (∀ fuel, n ≤ fuel → c.route search fuel g src dst = some (segs, c')) ∧
      Answers g src dst segs ∧ c'.Valid g := by
  unfold route
  by_cases hversion : g.version = c.version
  · simp only [if_pos hversion]
    cases hfind : c.routes.find (src, dst) with
    | some segs => exact ⟨0, segs, c, fun _ _ => rfl, hc.answers hversion src dst segs hfind, hc⟩
    | none =>
      refine compute_correct hsound hinv hc hversion (hok.resolve_left fun hhits => ?_)
      rw [Hits, hfind] at hhits
      cases hhits.2
  · simp only [if_neg hversion]
    have hempty : Valid g { version := g.version } := ⟨le_rfl, fun _ _ _ _ hfind => by cases hfind⟩
    exact compute_correct hsound hinv hempty rfl (hok.resolve_left fun hhits => hversion hhits.1)

end RouteCache

/-! ## Runs -/

/-- The discovery with the cache of one application. -/
structure Routing where
  discovery : Discovery
  cache : RouteCache
  deriving DecidableEq

/-- The choices of a query are those of its search. -/
inductive RoutingEvent (ι : Type)
  | discovery (e : DiscoveryEvent)
  | query (choices : ι) (fuel : ℕ) (src dst : String)

section
variable {ι : Type} (search : ι → ℕ → LLDPMibGraph → String → Option (String → LLDPPathSegment))

/-- A query whose passes are not enough is no step. -/
def Routing.step (s : Routing) : RoutingEvent ι → Option Routing
  | .discovery e => (s.discovery.step e).map ({ s with discovery := · })
  | .query choices fuel src dst =>
    (s.cache.answer (search choices) fuel s.discovery.now s.discovery.mibGraph src dst).map fun r =>
      ⟨{ s.discovery with mibGraph := r.2.1 }, r.2.2⟩

def routing : System Routing (RoutingEvent ι) where
  init s := s.discovery.mibGraph = {} ∧ s.cache = {}
  step := Routing.step search

end

namespace Routing

/-- The condition on a query: the route is in the cache, or one of its ends is not in the graph, or
the graph meets the condition of the search. -/
def QueryOk (ok : LLDPMibGraph → String → String → Prop) (s : Routing) (src dst : String) : Prop :=
  let g := s.discovery.mibGraph.removeExpiredEntries s.discovery.now
  s.cache.Hits g src dst ∨ ¬g.IsVertex src ∨ ¬g.IsVertex dst ∨ ok g src dst

/-- Every query meets its condition. -/
def StepOk {ι : Type} (ok : LLDPMibGraph → String → String → Prop) (s : Routing) :
    RoutingEvent ι → Prop
  | .query _ _ src dst => s.QueryOk ok src dst
  | .discovery _ => True

variable {ι : Type} {search : ι → ℕ → LLDPMibGraph → String → Option (String → LLDPPathSegment)}
  {ok : LLDPMibGraph → String → String → Prop} {s s' : Routing}

/-- What every step keeps. -/
structure Inv (s : Routing) : Prop where
  graph : s.discovery.mibGraph.Inv
  cache : s.cache.Valid s.discovery.mibGraph

theorem Inv.answer_correct (h : s.Inv) (choices : ι) {src dst : String}
    (hsound : RouteCache.Sound (search choices) ok) (hok : s.QueryOk ok src dst) :
    ∃ n segs c', (∀ fuel, n ≤ fuel →
        s.cache.answer (search choices) fuel s.discovery.now s.discovery.mibGraph src dst =
          some (segs, s.discovery.mibGraph.removeExpiredEntries s.discovery.now, c')) ∧
      Answers (s.discovery.mibGraph.removeExpiredEntries s.discovery.now) src dst segs ∧
      c'.Valid (s.discovery.mibGraph.removeExpiredEntries s.discovery.now) := by
  have hinv : (s.discovery.mibGraph.removeExpiredEntries s.discovery.now).Inv :=
    h.graph.removeExpiredEntries
  have hcache := h.cache.versioned LLDPMibGraph.versioned_removeExpiredEntries h.graph hinv
  obtain ⟨n, segs, c', hrun, hanswers, hvalid⟩ :=
    RouteCache.route_correct hsound hinv hcache hok
  exact ⟨n, segs, c', fun fuel hfuel => by rw [RouteCache.answer, hrun fuel hfuel]; rfl, hanswers,
    hvalid⟩

theorem Inv.step {e : RoutingEvent ι} (h : s.Inv)
    (hsound : ∀ choices, RouteCache.Sound (search choices) ok) (hok : s.StepOk ok e)
    (hs : Routing.step search s e = some s') : s'.Inv := by
  cases e with
  | discovery e =>
    obtain ⟨d, hd, rfl⟩ := Option.map_eq_some_iff.mp hs
    have hinv := Discovery.inv_step h.graph hd
    exact ⟨hinv, h.cache.versioned (Discovery.versioned_step hd) h.graph hinv⟩
  | query choices fuel src dst =>
    obtain ⟨r, hr, rfl⟩ := Option.map_eq_some_iff.mp hs
    obtain ⟨n, segs, c', hrun, -, hvalid⟩ := h.answer_correct choices (hsound choices) hok
    -- more passes would have given the same
    obtain ⟨r', hr', rfl⟩ := Option.map_eq_some_iff.mp hr
    have hmore := hrun (max n fuel) (Nat.le_max_left n fuel)
    rw [RouteCache.answer,
      RouteCache.route_mono (hsound choices) hr' (Nat.le_max_right n fuel)] at hmore
    obtain rfl : r'.2 = c' := congrArg (·.2.2) (Option.some.inj hmore)
    exact ⟨h.graph.removeExpiredEntries, hvalid⟩

theorem inv_of_reachable (hsound : ∀ choices, RouteCache.Sound (search choices) ok)
    (h : (routing search).ReachableUnder (StepOk ok) s) : s.Inv := by
  refine h.invariant ?_ fun s e s' _ hinv hok hs => hinv.step hsound hok hs
  rintro s ⟨hgraph, hcache⟩
  refine ⟨?_, ?_⟩
  · rw [hgraph]
    exact LLDPMibGraph.inv_empty
  · rw [hcache]
    refine ⟨?_, fun _ _ _ _ hfind => by cases hfind⟩
    rw [hgraph]
    decide

end Routing

/-! ## Two switches and a host -/

end TsnReconfig.LLDP
