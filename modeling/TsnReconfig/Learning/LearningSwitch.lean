import Mathlib.Logic.Function.Basic
import TsnReconfig.Lib.System
import TsnReconfig.Lib.TreeNetwork

/-!
# Learning switches

`LearningSwitch` learns the ports of stations from the packet-ins of all switches, and installs a rule
at a switch when a frame comes for a station whose port there is known. A port is named by the node at
the other end of its link, and an address by its station. Frames and control messages are delivered in
any order, and rules have expired at any lookup.
-/

namespace TsnReconfig.Learning

open Lib

/-- A frame; the address `none` is that of no station, such as the broadcast address. -/
structure Frame (V : Type*) where
  id : ℕ
  src : V
  dst : Option V
  etherType : ℕ
  deriving DecidableEq

/-- What `doSwitching` puts into a flow table. -/
structure Rule (V : Type*) where
  inPort : V
  src : V
  dst : Option V
  etherType : ℕ
  outport : V
  deriving DecidableEq

/-- Where a copy of a frame is: on a link, on the way to the controller with a packet-in, or back
with a packet-out, which may be for flooding. -/
inductive Place (V : Type*)
  | onLink (u v : V)
  | packetIn (sw inport : V)
  | packetOut (sw inport : V) (outport : Option V)
  deriving DecidableEq

structure Copy (V : Type*) where
  place : Place V
  frame : Frame V
  deriving DecidableEq

/-- The network with its controller application. -/
structure LearningNetwork (V : Type*) where
  copies : List (Copy V) := []
  lookupTable : V → V → Option V := fun _ _ => none
  flowTable : V → List (Rule V) := fun _ => []
  flowMods : List (V × Rule V) := []
  sent : List (Frame V) := []
  received : List (V × Frame V) := []

inductive LearningEvent (V : Type*)
  | send (frame : Frame V)
  | move (k : ℕ) (expired : Rule V → Bool)
  | flowMod (k : ℕ)

variable {V : Type*}

def Rule.Matches (r : Rule V) (inport : V) (frame : Frame V) : Prop :=
  r.inPort = inport ∧ r.src = frame.src ∧ r.dst = frame.dst ∧ r.etherType = frame.etherType

instance [DecidableEq V] (r : Rule V) (inport : V) (frame : Frame V) :
    Decidable (r.Matches inport frame) :=
  inferInstanceAs (Decidable (_ ∧ _))

/-- `lookup` erases the rules that have expired, and skips the one after each of them. -/
def lookup [DecidableEq V] (expired : Rule V → Bool) (inport : V) (frame : Frame V) :
    List (Rule V) → Option (Rule V) × List (Rule V)
  | [] => (none, [])
  | rule :: rules =>
    if expired rule then
      match rules with
      | [] => (none, [])
      | skipped :: rules =>
        ((lookup expired inport frame rules).1, skipped :: (lookup expired inport frame rules).2)
    else if rule.Matches inport frame then (some rule, rule :: rules)
    else ((lookup expired inport frame rules).1, rule :: (lookup expired inport frame rules).2)

theorem lookup_spec [DecidableEq V] (expired : Rule V → Bool) (inport : V) (frame : Frame V)
    (rules : List (Rule V)) :
    (∀ r ∈ (lookup expired inport frame rules).2, r ∈ rules) ∧
    ∀ r, (lookup expired inport frame rules).1 = some r → r ∈ rules ∧ r.Matches inport frame := by
  fun_induction lookup expired inport frame rules with
  | case1 => exact ⟨fun r hr => hr, fun r hr => by cases hr⟩
  | case2 rule _ => exact ⟨fun r hr => List.mem_cons_of_mem _ hr, fun r hr => by cases hr⟩
  | case3 rule _ skipped rules ih =>
    refine ⟨fun r hr => ?_, fun r hr => ?_⟩
    · refine List.mem_cons_of_mem _ ?_
      rcases List.mem_cons.mp hr with rfl | hr
      · exact List.mem_cons_self
      · exact List.mem_cons_of_mem _ (ih.1 r hr)
    · obtain ⟨hmem, hmatches⟩ := ih.2 r hr
      exact ⟨List.mem_cons_of_mem _ (List.mem_cons_of_mem _ hmem), hmatches⟩
  | case4 rule rules _ hmatches =>
    refine ⟨fun r hr => hr, fun r hr => ?_⟩
    cases hr
    exact ⟨List.mem_cons_self, hmatches⟩
  | case5 rule rules _ _ ih =>
    refine ⟨fun r hr => ?_, fun r hr => ?_⟩
    · rcases List.mem_cons.mp hr with rfl | hr
      · exact List.mem_cons_self
      · exact List.mem_cons_of_mem _ (ih.1 r hr)
    · obtain ⟨hmem, hmatches⟩ := ih.2 r hr
      exact ⟨List.mem_cons_of_mem _ hmem, hmatches⟩

namespace LearningNetwork
variable [DecidableEq V] (w : Wiring V) (n : LearningNetwork V)

/-- `processFrame` of a switch, and what a station does with a frame. -/
def processFrame (expired : Rule V → Bool) (inport v : V) (frame : Frame V) : LearningNetwork V :=
  if w.isSwitch v then
    let found := lookup expired inport frame (n.flowTable v)
    let place := match found.1 with
      | some rule => .onLink v rule.outport
      | none => .packetIn v inport
    { n with
      flowTable := Function.update n.flowTable v found.2
      copies := n.copies ++ [⟨place, frame⟩] }
  else { n with received := (v, frame) :: n.received }

/-- The first port at which a station is seen is kept. -/
def learn (sw src inport : V) : V → V → Option V :=
  match n.lookupTable sw src with
  | some _ => n.lookupTable
  | none => Function.update n.lookupTable sw (Function.update (n.lookupTable sw) src (some inport))

def doSwitching (sw inport : V) (frame : Frame V) : LearningNetwork V :=
  let n := { n with lookupTable := n.learn sw frame.src inport }
  match frame.dst.bind (n.lookupTable sw) with
  | none => { n with copies := n.copies ++ [⟨.packetOut sw inport none, frame⟩] }
  | some outport =>
    { n with
      flowMods := n.flowMods ++ [(sw, ⟨inport, frame.src, frame.dst, frame.etherType, outport⟩)]
      copies := n.copies ++ [⟨.packetOut sw inport (some outport), frame⟩] }

/-- `executePacketOutAction`. -/
def executePacketOutAction (sw inport : V) (outport : Option V) (frame : Frame V) :
    LearningNetwork V :=
  let outports := match outport with
    | none => (w.ports sw).filter (· ≠ inport)
    | some outport => [outport]
  { n with copies := n.copies ++ outports.map fun v => ⟨.onLink sw v, frame⟩ }

/-- A copy gets to the other end of a link or of a control connection. -/
def process (expired : Rule V → Bool) (c : Copy V) : LearningNetwork V :=
  match c.place with
  | .onLink u v => n.processFrame w expired u v c.frame
  | .packetIn sw inport => n.doSwitching sw inport c.frame
  | .packetOut sw inport outport => n.executePacketOutAction w sw inport outport c.frame

def step (n : LearningNetwork V) : LearningEvent V → Option (LearningNetwork V)
  | .send frame =>
    if w.isSwitch frame.src then none
    else some { n with
      copies := n.copies ++ (w.ports frame.src).map fun v => ⟨.onLink frame.src v, frame⟩
      sent := frame :: n.sent }
  | .move k expired => (n.copies[k]?).map fun c =>
    { n with copies := n.copies.eraseIdx k }.process w expired c
  | .flowMod k => (n.flowMods[k]?).map fun m =>
    { n with
      flowMods := n.flowMods.eraseIdx k
      flowTable := Function.update n.flowTable m.1 (m.2 :: n.flowTable m.1) }

def system : System (LearningNetwork V) (LearningEvent V) where
  init := (· = {})
  step := step w

end LearningNetwork

namespace Wiring

/-- A line of two switches between two stations. -/
def linePorts : Fin 4 → List (Fin 4)
  | 0 => [1]
  | 1 => [0, 2]
  | 2 => [1, 3]
  | 3 => [2]

def line : Wiring (Fin 4) where
  ports := linePorts
  isSwitch v := decide (v = 1 ∨ v = 2)

theorem treeNetwork_line : line.TreeNetwork where
  symm := by decide
  irrefl := by decide
  nodup := by decide
  station := by decide
  isTree := by
    have hrank : ∀ v : Fin 4, v ≠ 0 → (v - 1).val < v.val := by decide
    refine isTree_of_parent hrank fun u v => ?_
    rw [Wiring.graph, SimpleGraph.fromRel_adj]
    revert u v
    decide

end Wiring

/-- A frame and its answer. -/
def ping : Frame (Fin 4) := ⟨1, 0, some 3, 0x800⟩

def pong : Frame (Fin 4) := ⟨2, 3, some 0, 0x800⟩

def pingPong : List (LearningEvent (Fin 4)) :=
  .send ping :: List.replicate 7 (.move 0 fun _ => false) ++
    .send pong :: List.replicate 3 (.move 0 fun _ => false) ++
    .flowMod 0 :: List.replicate 4 (.move 0 fun _ => true)

end TsnReconfig.Learning
