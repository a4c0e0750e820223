import Mathlib.Logic.Function.Basic
import TsnReconfig.Lib.Flooding
import TsnReconfig.Lib.WhileLoop
import TsnReconfig.Switch.SwitchAgent

/-!
# The static spanning tree

`StaticSpanningTree` goes over the nodes of the topology, in passes, and blocks ports of the relays,
so that frames can be flooded. A link knows its remote node by its index, which the loop over all
nodes finds by the module id.
-/

namespace TsnReconfig.Flooding
open Lib OpenFlow Switch

/-- `cTopology::LinkOut`, with what the names and the indices of its two gates tell. -/
structure LinkOut where
  gateCPlane : Bool
  localGate : ℕ
  remoteNode : ℕ
  remoteGate : ℕ
  deriving DecidableEq, Repr

/-- A node has `gateSize` ports in the data plane. -/
structure TopologyNode where
  linksOut : List LinkOut
  gateSize : ℕ
  deriving DecidableEq, Repr

structure Topology where
  nodes : List TopologyNode
  deriving DecidableEq, Repr

namespace Topology
variable (T : Topology)

def numNodes : ℕ := T.nodes.length

def linksOut (i : ℕ) : List LinkOut := (T.nodes[i]?.map (·.linksOut)).getD []

def gateSize (i : ℕ) : ℕ := (T.nodes[i]?.map (·.gateSize)).getD 0

/-- The links that are not ignored. -/
def dataLinks (i : ℕ) : List LinkOut := (T.linksOut i).filter (!·.gateCPlane)

end Topology

structure NodeInfo where
  isInTree : Bool := false
  isProcessed : Bool := false
  ports : List ℕ := []
  treeNeighbors : ℕ → Bool := fun _ => false

namespace StaticSpanningTree

/-- The body of the loop over the links of node `i`. -/
def visitLink (i : ℕ) (nodeInfo : ℕ → NodeInfo) (l : LinkOut) : ℕ → NodeInfo :=
  if l.gateCPlane then nodeInfo
  else
    let x := l.remoteNode
    if !(nodeInfo x).isInTree then
      Function.update nodeInfo x { nodeInfo x with
        isInTree := true
        treeNeighbors := Function.update (nodeInfo x).treeNeighbors i true }
    else if (nodeInfo i).treeNeighbors x then nodeInfo
    else Function.update nodeInfo i { nodeInfo i with
      ports := (nodeInfo i).ports ++ [l.localGate] }

def processNode (T : Topology) (nodeInfo : ℕ → NodeInfo) (i : ℕ) : ℕ → NodeInfo :=
  (T.linksOut i).foldl (visitLink i)
    (Function.update nodeInfo i { nodeInfo i with isProcessed := true })

/-- The body of the loop over the nodes, with its counter. -/
def visitNode (T : Topology) (s : (ℕ → NodeInfo) × ℕ) (i : ℕ) : (ℕ → NodeInfo) × ℕ :=
  let counter := if (s.1 i).isProcessed then s.2 + 1 else s.2
  if (s.1 i).isInTree && !(s.1 i).isProcessed then (processNode T s.1 i, counter)
  else (s.1, counter)

/-- A pass over all nodes, unless the counter has got to their number. -/
def pass (T : Topology) (s : (ℕ → NodeInfo) × ℕ) : Option ((ℕ → NodeInfo) × ℕ) :=
  if s.2 ≠ T.numNodes then some ((List.range T.numNodes).foldl (visitNode T) (s.1, 0)) else none

/-- The node to start from: a random one if there is none with the given index. -/
def start (T : Topology) (startNode rand : ℕ) : ℕ :=
  if startNode < T.numNodes then startNode else rand % T.numNodes

/-- The stage of `initialize` until the ports are disabled, `none` if the passes are not enough. -/
def initializeStage (T : Topology) (startNode rand fuel : ℕ) : Option (ℕ → NodeInfo) :=
  (whileLoop (pass T) fuel
    (Function.update (fun _ => {}) (start T startNode rand) { isInTree := true }, 0)).map (·.1)

end StaticSpanningTree

/-- `disablePorts`, of the relay of the agent. -/
def disablePorts (s : SwitchAgent) (ports : List ℕ) : SwitchAgent :=
  { s with blockedPorts := ports.foldl (fun portVector i => portVector.set i true) s.blockedPorts }

/-! ## Flooded frames -/

/-- The port to which an output sends a frame. -/
def dataPlaneOut : AgentOutput → Option ℕ
  | .send _ port => some port
  | _ => none

/-- The copies that are in flight after a node has flooded a frame. -/
def flood (T : Topology) (agents : ℕ → SwitchAgent) (f : Frame) (v inport : ℕ) : List (ℕ × ℕ) :=
  let out := ((agents v).executePacketOutAction ofppFlood f (UInt32.ofNat inport)).getD []
  (out.filterMap dataPlaneOut).flatMap fun port =>
    ((T.dataLinks v).filter (·.localGate = port)).map fun l => (l.remoteNode, l.remoteGate)

/-- A frame of which a node has flooded the first copies is flooded hop by hop. -/
def flooding (T : Topology) (agents : ℕ → SwitchAgent) (f : Frame) (origin inport : ℕ) :
    System (Flood ℕ ℕ) ℕ :=
  Flood.deliveries (flood T agents f origin inport) (flood T agents f)

end TsnReconfig.Flooding
