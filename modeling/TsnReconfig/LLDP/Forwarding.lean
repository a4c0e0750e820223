import Mathlib.Logic.Function.Basic
import TsnReconfig.Lib.WhileLoop
import TsnReconfig.LLDP.MibGraph

/-!
# Routes through the discovered topology

`LLDPForwarding::computePath` and `LLDPBalancedMinHop::computeBalancedMinHopPath`, which differ in
their search only: after a sweep the route is taken from the cache or searched, from the source to
all vertices, and read off backwards. Which of the entries with the smallest distance
`priority_queue` has on top, and the random choices, are parameters, one number for each pass.
-/

namespace TsnReconfig.LLDP
open Lib OpenFlow

structure LLDPPathSegment where
  chassisId : String := ""
  outport : ℤ := -1
  deriving DecidableEq, Repr

/-- The maps and the queue of a search. A vertex that is not in `dist` is read as 0. -/
structure Search where
  dist : String → Int32
  prev : String → LLDPPathSegment
  q : List (String × Int32)
  pops : ℕ := 0

namespace Search

/-- All vertices are extracted, and the start vertex is set. -/
def start (g : LLDPMibGraph) (src : String) : Search where
  dist v := if v ≠ src ∧ (g.verticies.find v).isSome then Int32.maxValue else 0
  prev _ := {}
  q := ((g.verticies.entries.map Prod.fst).filter (· ≠ src)).map (·, Int32.maxValue) ++ [(src, 0)]

section
variable (s : Search)

/-- `q.top()`: an entry with the smallest distance. -/
def top (tie : ℕ → ℕ) : Option (String × Int32) :=
  let smallest := s.q.filter fun e => s.q.all fun e' => e.2 ≤ e'.2
  smallest[tie s.pops % smallest.length]?

def pop (e : String × Int32) : Search := { s with q := s.q.erase e, pops := s.pops + 1 }

/-- A vertex gets a distance and the segment that leads to it. -/
def reach (v : String) (seg : LLDPPathSegment) (alt : Int32) : Search :=
  { s with
    dist := Function.update s.dist v alt
    prev := Function.update s.prev v seg
    q := s.q ++ [(v, alt)] }

end

/-- The segment that leads to the target goes in front. -/
def backStep (prev : String → LLDPPathSegment) (b : String × List LLDPPathSegment) :
    Option (String × List LLDPPathSegment) :=
  if (prev b.1).chassisId ≠ "" then some ((prev b.1).chassisId, prev b.1 :: b.2) else none

/-- The loop that inserts the segments, from the last one. -/
def backTrack (prev : String → LLDPPathSegment) (fuel : ℕ) (dst : String) :
    Option (String × List LLDPPathSegment) :=
  whileLoop (backStep prev) fuel (dst, [])

end Search

/-! ## The search of `LLDPForwarding` -/

structure Dijkstra extends Search where
  visited : List String

namespace Dijkstra

def relax (visited : List String) (u : String) (s : Search) (m : LLDPMib) : Search :=
  if m.dstID ∈ visited then s
  else
    let alt := s.dist u + 1
    if alt < s.dist m.dstID then s.reach m.dstID ⟨u, m.srcPort⟩ alt else s

/-- A pass of the loop, `none` when the queue is empty. -/
def next (g : LLDPMibGraph) (tie : ℕ → ℕ) (s : Dijkstra) : Option Dijkstra :=
  (s.top tie).map fun e =>
    if e.1 ∈ s.visited then ⟨s.pop e, s.visited⟩
    else ⟨(g.mibs e.1).foldl (relax s.visited e.1) (s.pop e), s.visited ++ [e.1]⟩

def search (tie : ℕ → ℕ) (fuel : ℕ) (g : LLDPMibGraph) (src : String) :
    Option (String → LLDPPathSegment) :=
  (whileLoop (next g tie) fuel ⟨.start g src, []⟩).map (·.prev)

end Dijkstra

/-! ## The search of `LLDPBalancedMinHop` -/

/-- The loop over the neighbours, with the ties since the last improvement. -/
structure Balancing extends Search where
  tempPath : List (String × LLDPPathSegment)
  alt : Int32

namespace Balancing

def relax (u : String) (b : Balancing) (m : LLDPMib) : Balancing :=
  let alt := b.dist u + 1
  let seg : LLDPPathSegment := ⟨u, m.srcPort⟩
  if alt < b.dist m.dstID then ⟨b.reach m.dstID seg alt, [], alt⟩
  else if alt = b.dist m.dstID then ⟨b.toSearch, b.tempPath ++ [(m.dstID, seg)], alt⟩
  else ⟨b.toSearch, b.tempPath, alt⟩

/-- A random tie, or nothing. -/
def choose (b : Balancing) (rand : ℕ) : Search :=
  match b.tempPath[rand % (b.tempPath.length + 1)]? with
  | none => b.toSearch
  | some p => b.reach p.1 p.2 b.alt

/-- A pass of the loop, `none` when the queue is empty. -/
def next (g : LLDPMibGraph) (tie rand : ℕ → ℕ) (s : Search) : Option Search :=
  (s.top tie).map fun e =>
    ((g.mibs e.1).foldl (relax e.1) ⟨s.pop e, [], 0⟩).choose (rand s.pops)

def search (tie rand : ℕ → ℕ) (fuel : ℕ) (g : LLDPMibGraph) (src : String) :
    Option (String → LLDPPathSegment) :=
  (whileLoop (next g tie rand) fuel (.start g src)).map (·.prev)

end Balancing

/-! ## Cached routes -/

structure RouteCache where
  version : ℤ := -1
  routes : Table (String × String) (List LLDPPathSegment) := ∅
  deriving DecidableEq

namespace RouteCache

/-- The cache, or the search. -/
def route (search : ℕ → LLDPMibGraph → String → Option (String → LLDPPathSegment)) (fuel : ℕ)
    (g : LLDPMibGraph) (c : RouteCache) (src dst : String) :
    Option (List LLDPPathSegment × RouteCache) :=
  if g.version = c.version then
    match c.routes.find (src, dst) with
    | some route => some (route, c)
    | none => compute c
  else compute { version := g.version }
where
  compute (c : RouteCache) : Option (List LLDPPathSegment × RouteCache) :=
    if g.verticies.find src = none ∨ g.verticies.find dst = none then some ([], c)
    else
      (search fuel g src).bind fun prev =>
        (Search.backTrack prev fuel dst).map fun b =>
          if src ≠ b.1 then ([], c)
          else (b.2, { c with routes := c.routes.set (src, dst) b.2 })

/-- What both functions do. -/
def answer (search : ℕ → LLDPMibGraph → String → Option (String → LLDPPathSegment)) (fuel : ℕ)
    (now : SimTime) (g : LLDPMibGraph) (c : RouteCache) (src dst : String) :
    Option (List LLDPPathSegment × LLDPMibGraph × RouteCache) :=
  let g := g.removeExpiredEntries now
  (c.route search fuel g src dst).map fun r => (r.1, g, r.2)

end RouteCache

end TsnReconfig.LLDP
