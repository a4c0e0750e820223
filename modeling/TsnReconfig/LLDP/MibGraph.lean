import TsnReconfig.Lib.System
import TsnReconfig.Lib.Table
import TsnReconfig.OpenFlow.FlowTable

/-!
# The discovered topology

`LLDPMibGraph` with its `LLDPMib` entries, which `LLDPAgent` enters for the packet-ins it gets: one
for a link between two switches, and one for the port at which a frame of a host arrives. The port
of a host is -1. A sweep goes on behind an entry or a vertex it has erased.
-/

namespace TsnReconfig.LLDP
open Lib OpenFlow

structure LLDPMib where
  srcPort : ℤ
  dstPort : ℤ
  srcID : String
  dstID : String
  expiresAt : SimTime
  deriving DecidableEq, Repr

namespace LLDPMib

/-- `operator==`: the same link, from whichever end. -/
def same (a b : LLDPMib) : Bool :=
  (b.dstID = a.dstID ∧ b.srcID = a.srcID ∧ b.dstPort = a.dstPort ∧ b.srcPort = a.srcPort) ∨
    (b.dstID = a.srcID ∧ b.srcID = a.dstID ∧ b.dstPort = a.srcPort ∧ b.srcPort = a.dstPort)

/-- The link from its other end. -/
def reverse (a : LLDPMib) : LLDPMib := ⟨a.dstPort, a.srcPort, a.dstID, a.srcID, a.expiresAt⟩

/-- The directed edge, without the time. -/
def ends (a : LLDPMib) : (String × ℤ) × (String × ℤ) := ((a.srcID, a.srcPort), (a.dstID, a.dstPort))

end LLDPMib

structure LLDPMibGraph where
  verticies : Table String (List LLDPMib) := ∅
  numOfVerticies : ℤ := 0
  numOfEdges : ℤ := 0
  version : ℤ := 0
  deriving DecidableEq

namespace LLDPMibGraph

section
variable (g : LLDPMibGraph)

/-- The entries of a vertex. -/
def mibs (v : String) : List LLDPMib := (g.verticies.find v).getD []

/-- The check for the first hop: the port is known to lead to a switch. -/
def leadsToSwitch (dst : String) (dstPort : ℤ) : Bool :=
  (g.mibs dst).any fun m => m.srcPort = dstPort ∧ m.dstPort ≠ -1

/-- `setExpiresAt` for the first entry that is the same. -/
def setExpiresAt (mib : LLDPMib) : List LLDPMib → List LLDPMib
  | [] => []
  | m :: ms =>
    if m.same mib then { m with expiresAt := mib.expiresAt } :: ms else m :: setExpiresAt mib ms

/-- One direction of `addEntry`. -/
def enter (mib : LLDPMib) : LLDPMibGraph :=
  match g.verticies.find mib.srcID with
  | none =>
    { verticies := g.verticies.set mib.srcID [mib]
      numOfVerticies := g.numOfVerticies + 1
      numOfEdges := g.numOfEdges + 1
      version := g.version + 1 }
  | some ms =>
    if ms.any (·.same mib) then
      { g with verticies := g.verticies.set mib.srcID (setExpiresAt mib ms) }
    else
      { g with
        verticies := g.verticies.set mib.srcID (ms ++ [mib])
        numOfEdges := g.numOfEdges + 1
        version := g.version + 1 }

def addEntry (now : SimTime) (src : String) (srcPort : ℤ) (dst : String) (dstPort : ℤ)
    (timeOut : SimTime) : Bool × LLDPMibGraph :=
  if srcPort = -1 ∧ g.leadsToSwitch dst dstPort then (false, g)
  else
    let mib : LLDPMib := ⟨srcPort, dstPort, src, dst, now + timeOut⟩
    (true, (g.enter mib).enter mib.reverse)

/-- What a sweep keeps of the entries of a vertex. -/
def unexpired (now : SimTime) (ms : List LLDPMib) : List LLDPMib :=
  ms.filter fun m => ¬m.expiresAt < now

/-- The vertices with what is kept of their entries, if anything is. -/
def keptVerticies (now : SimTime) : Table String (List LLDPMib) :=
  g.verticies.filterMap fun _ ms => if unexpired now ms = [] then none else some (unexpired now ms)

/-- The entries that a sweep erases. -/
def numOfExpired (now : SimTime) : ℕ :=
  (g.verticies.entries.map fun e => e.2.countP fun m => m.expiresAt < now).sum

/-- `removeExpiredEntries`, with what its two loops count. -/
def removeExpiredEntries (now : SimTime) : LLDPMibGraph :=
  let erased := g.verticies.entries.length - (g.keptVerticies now).entries.length
  { verticies := g.keptVerticies now
    numOfVerticies := g.numOfVerticies - erased
    numOfEdges := g.numOfEdges - g.numOfExpired now
    version := g.version + g.numOfExpired now + erased }

end

/-- What `LLDPAgent::handlePacketIn` finds in a packet-in: an LLDP frame, or another one. -/
inductive PacketIn
  | lldp (chassisID : String) (portID : ℤ) (swInfo : String) (inport : ℕ)
  | frame (srcMac : String) (swInfo : String) (inport : ℕ)
  deriving DecidableEq, Repr

def handlePacketIn (g : LLDPMibGraph) (now timeOut : SimTime) : PacketIn → LLDPMibGraph
  | .lldp chassisID portID swInfo inport =>
    (g.addEntry now chassisID portID swInfo inport timeOut).2
  | .frame srcMac swInfo inport => (g.addEntry now srcMac (-1) swInfo inport timeOut).2

end LLDPMibGraph

/-! ## Runs -/

structure Discovery where
  now : SimTime
  mibGraph : LLDPMibGraph
  deriving DecidableEq

inductive DiscoveryEvent
  | advance (time : SimTime)
  | packetIn (p : LLDPMibGraph.PacketIn) (timeOut : SimTime)
  | removeExpiredEntries
  deriving DecidableEq, Repr

def Discovery.step (s : Discovery) : DiscoveryEvent → Option Discovery
  | .advance time => if s.now ≤ time then some { s with now := time } else none
  | .packetIn p timeOut => some { s with mibGraph := s.mibGraph.handlePacketIn s.now timeOut p }
  | .removeExpiredEntries =>
    some { s with mibGraph := s.mibGraph.removeExpiredEntries s.now }

def discovery : System Discovery DiscoveryEvent where
  init s := s.mibGraph = {}
  step := Discovery.step

end TsnReconfig.LLDP
