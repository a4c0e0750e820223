import TsnReconfig.LLDP.ComputePath
import TsnReconfig.LLDP.LinkDiscovery

/-!
# Routes over cables

When a round of LLDP frames has been delivered, the topology is that of the cables, and
`computePath` finds the shortest routes over them. Until then its searches end in any case.
-/

namespace TsnReconfig.LLDP
open Lib OpenFlow

/-- A network with its hosts, at ports without a cable. -/
structure Site extends Cabling where
  attached : String → Option (String × ℕ)
  nodes : List String
  noLoop : ∀ a b, peer a = some b → a.1 ≠ b.1
  host : ∀ h b, attached h = some b → attached b.1 = none ∧ ∀ p, peer (h, p) = none
  cabled_mem : ∀ a b, peer a = some b → a.1 ∈ nodes
  attached_mem : ∀ h b, attached h = some b → h ∈ nodes ∧ b.1 ∈ nodes
  named : "" ∉ nodes
  few : nodes.length < 2147483647

namespace Site
variable (c : Site)

/-- The edge from a host to its port. -/
def HostLink (k : (String × ℤ) × (String × ℤ)) : Prop :=
  ∃ h b, c.attached h = some b ∧ k = ((h, -1), (b.1, (b.2 : ℤ)))

/-- The edge is there, in the network. -/
def Real (k : (String × ℤ) × (String × ℤ)) : Prop :=
  c.toCabling.Link k ∨ c.HostLink k ∨ c.HostLink k.swap

/-- The segment is over a cable, or to the host that is the destination. -/
def Edge (dst : String) (s : LLDPPathSegment) (v : String) : Prop :=
  ∃ p : ℕ, s.outport = p ∧ ((∃ q, c.peer (s.chassisId, p) = some (v, q)) ∨
    (v = dst ∧ c.attached dst = some (s.chassisId, p)))

abbrev Shortest (src : String) (segs : List LLDPPathSegment) (dst : String) : Prop :=
  Lib.Shortest LLDPPathSegment.chassisId (c.Edge dst) src segs dst

abbrev Connected (src dst : String) : Prop :=
  Lib.Connected LLDPPathSegment.chassisId (c.Edge dst) src dst

variable {c} {k : (String × ℤ) × (String × ℤ)}

theorem Real.swap (h : c.Real k) : c.Real k.swap := by
  rcases h with h | h | h
  · exact .inl h.swap
  · exact .inr (.inr h)
  · exact .inr (.inl h)

theorem Real.ne (h : c.Real k) : k.1.1 ≠ k.2.1 := by
  have hhost : ∀ k, c.HostLink k → k.1.1 ≠ k.2.1 := by
    rintro _ ⟨h, b, hb, rfl⟩ heq
    have hnone := (c.host h b hb).1
    rw [← show h = b.1 from heq, hb] at hnone
    cases hnone
  rcases h with ⟨a, b, hpeer, rfl⟩ | h | h
  · exact c.noLoop a b hpeer
  · exact hhost k h
  · exact (hhost k.swap h).symm

end Site

def LLDPMessage.packetInSwitch : LLDPMessage → Option String
  | .packetIn _ _ sw _ => some sw
  | _ => none

namespace LLDPNetwork
variable {c : Site} {timeOut : SimTime} {n n' n₀ : LLDPNetwork}

/-- The switches of packet-ins have given their addresses, and frames of hosts that come over a cable
do so when the link is known. -/
def Orderly (c : Site) (n : LLDPNetwork) : LLDPNetworkEvent → Prop
  | .deliver k _ => ∀ sw ∈ (n.messages[k]?).bind LLDPMessage.packetInSwitch, sw ∈ n.switches
  | .hostFrame srcMac sw inport => sw ∈ n.switches ∧
    (c.attached srcMac = some (sw, inport) ∨ n.mibGraph.leadsToSwitch sw inport = true)
  | _ => True

instance (c : Site) (n : LLDPNetwork) (e : LLDPNetworkEvent) : Decidable (n.Orderly c e) :=
  match e with
  | .deliver k _ => inferInstanceAs
    (Decidable (∀ sw ∈ (n.messages[k]?).bind LLDPMessage.packetInSwitch, sw ∈ n.switches))
  | .hostFrame .. => inferInstanceAs (Decidable (_ ∧ _))
  | .advance _ | .featuresReply _ | .triggerLLDP | .expire _ | .query .. =>
    inferInstanceAs (Decidable True)

/-- What the orderly steps keep. -/
structure Placed (c : Site) (n : LLDPNetwork) : Prop where
  inv : n.Inv c.toCabling
  real : ∀ m ∈ n.mibGraph.edges, c.Real m.ends

theorem Placed.packetIn (h : n.Placed c) {p : LLDPMibGraph.PacketIn}
    (hinv : n'.Inv c.toCabling)
    (hp : ¬n.mibGraph.Refuses (p.mib (n.now + timeOut)) → c.Real (p.mib (n.now + timeOut)).ends)
    (hs : n.route (.discovery (.packetIn p timeOut)) = some n') : n'.Placed c := by
  refine ⟨hinv, fun m hm => ?_⟩
  rw [route_packetIn hs] at hm
  by_cases hrefuses : n.mibGraph.Refuses (p.mib (n.now + timeOut))
  · change m ∈ (n.mibGraph.handlePacketIn n.now timeOut p).edges at hm
    rw [LLDPMibGraph.handlePacketIn_eq, if_pos hrefuses] at hm
    exact h.real m hm
  · rcases h.inv.graph.ends_handlePacketIn hm with ⟨m₀, hm₀, hends⟩ | hends | hends
    · rw [hends]
      exact h.real m₀ hm₀
    · rw [hends]
      exact hp hrefuses
    · rw [hends]
      exact (hp hrefuses).swap

theorem Placed.step {e : LLDPNetworkEvent} (h : n.Placed c) (hok : n.Orderly c e)
    (hs : n.step c.toCabling timeOut e = some n') : n'.Placed c := by
  have hinv : n'.Inv c.toCabling := h.inv.step hs
  have hsame : n'.mibGraph = n.mibGraph → n'.Placed c := fun heq =>
    ⟨hinv, heq ▸ h.real⟩
  cases e with
  | advance time =>
    obtain ⟨-, rfl⟩ := route_advance hs
    exact hsame rfl
  | featuresReply sw =>
    rw [LLDPNetwork.step] at hs
    split_ifs at hs
    cases hs
    exact hsame rfl
  | triggerLLDP =>
    cases hs
    exact hsame rfl
  | deliver k full =>
    obtain ⟨m, hm, hs⟩ := Option.bind_eq_some_iff.mp hs
    rcases process_cases hs with heq | ⟨chassisID, portID, sw, inport, rfl, hs'⟩
    · exact hsame (congrArg (·.discovery.mibGraph) heq)
    · have hmok := h.inv.messages _ (List.mem_of_getElem? hm)
      have hsw : sw ∈ n.switches := hok sw (by rw [hm]; rfl)
      have hname : ({ n with messages := n.messages.eraseIdx k } : LLDPNetwork).macAddress sw = sw :=
        if_pos hsw
      rw [hname] at hs'
      have herase : ({ n with messages := n.messages.eraseIdx k } : LLDPNetwork).Placed c :=
        ⟨{ h.inv with
          messages := fun m hm => h.inv.messages m (List.mem_of_mem_eraseIdx hm) }, h.real⟩
      exact herase.packetIn hinv (fun _ => .inl ⟨_, _, hmok, rfl⟩) hs'
  | expire k =>
    cases hs
    exact hsame rfl
  | hostFrame srcMac sw inport =>
    have hname : n.macAddress sw = sw := if_pos hok.1
    rw [LLDPNetwork.step, hname] at hs
    refine h.packetIn hinv (fun hrefuses => ?_) hs
    have hattached := hok.2.resolve_right fun hleads => hrefuses ⟨rfl, hleads⟩
    exact .inr (.inl ⟨_, _, hattached, rfl⟩)
  | query tie fuel src dst =>
    obtain ⟨cache, rfl⟩ := route_query hs
    refine ⟨hinv, fun m hm => ?_⟩
    exact h.real m (LLDPMibGraph.mem_edges_removeExpiredEntries.mp hm).1

section
variable {g : LLDPMibGraph} {src dst v : String} {s : LLDPPathSegment}

end

/-! ## Runs -/

def twoPeers (a : String × ℕ) : Option (String × ℕ) :=
  if a = ("s1", 1) then some ("s2", 2) else if a = ("s2", 2) then some ("s1", 1) else none

theorem twoPeers_eq_some {a b : String × ℕ} (h : twoPeers a = some b) :
    (a = ("s1", 1) ∧ b = ("s2", 2)) ∨ (a = ("s2", 2) ∧ b = ("s1", 1)) := by
  unfold twoPeers at h
  split_ifs at h with hfirst hsecond
  · exact .inl ⟨hfirst, (Option.some.inj h).symm⟩
  · exact .inr ⟨hsecond, (Option.some.inj h).symm⟩

def hostPort (h : String) : Option (String × ℕ) := if h = "h" then some ("s2", 0) else none

theorem hostPort_eq_some {h : String} {b : String × ℕ} (hb : hostPort h = some b) :
    h = "h" ∧ b = ("s2", 0) := by
  unfold hostPort at hb
  split_ifs at hb with hh
  exact ⟨hh, (Option.some.inj hb).symm⟩

def twoSwitches : Site where
  numOfPorts _ := 3
  peer := twoPeers
  symm a b h := by
    rcases twoPeers_eq_some h with ⟨rfl, rfl⟩ | ⟨rfl, rfl⟩ <;> decide
  lt_numOfPorts a b h := by
    rcases twoPeers_eq_some h with ⟨rfl, -⟩ | ⟨rfl, -⟩ <;> decide
  attached := hostPort
  nodes := ["s1", "s2", "h"]
  noLoop a b h := by
    rcases twoPeers_eq_some h with ⟨rfl, rfl⟩ | ⟨rfl, rfl⟩ <;> decide
  host h b hb := by
    obtain ⟨rfl, rfl⟩ := hostPort_eq_some hb
    refine ⟨by decide, fun p => ?_⟩
    rw [twoPeers, if_neg (by simp), if_neg (by simp)]
  cabled_mem a b h := by
    rcases twoPeers_eq_some h with ⟨rfl, -⟩ | ⟨rfl, -⟩ <;> decide
  attached_mem h b hb := by
    obtain ⟨rfl, rfl⟩ := hostPort_eq_some hb
    decide
  named := by decide
  few := by decide

/-- Both switches give their addresses and get the rule for LLDP frames. -/
def connecting : List LLDPNetworkEvent :=
  [.featuresReply "s1", .featuresReply "s2", .deliver 0 false, .deliver 0 false]

/-- All messages of a round are delivered, and a frame of the host comes. -/
def round : List LLDPNetworkEvent :=
  List.replicate 10 (.deliver 0 false) ++ [.hostFrame "h" "s2" 0]

def unconnected : LLDPNetwork := { routing := ⟨⟨0, {}⟩, {}⟩ }

theorem run_twoSwitches : ∃ n₀ n,
    (system twoSwitches.toCabling 10).ReachableUnder (Orderly twoSwitches) n₀ ∧
    ((system twoSwitches.toCabling 10).startingAt
      (n₀.sendLLDP twoSwitches.toCabling)).ReachableUnder (Orderly twoSwitches) n ∧
    n₀.switches = ["s1", "s2"] ∧ n.now = n₀.now ∧ n.messages = [] ∧ n.buffered = [] ∧
    n.mibGraph.edges.map LLDPMib.ends = [(("s1", 1), ("s2", 2)), (("s2", 2), ("s1", 1)),
      (("s2", 0), ("h", -1)), (("h", -1), ("s2", 0))] ∧
    (n.mibGraph.removeExpiredEntries n.now).IsVertex "h" := by
  have hrun : ((system twoSwitches.toCabling 10).runUnder (Orderly twoSwitches) unconnected
      connecting).bind (fun n₀ => (((system twoSwitches.toCabling 10).startingAt
        (n₀.sendLLDP twoSwitches.toCabling)).runUnder (Orderly twoSwitches)
        (n₀.sendLLDP twoSwitches.toCabling) round).map fun n =>
          decide (n₀.switches = ["s1", "s2"] ∧ n.now = n₀.now ∧ n.messages = [] ∧
            n.buffered = [] ∧ n.mibGraph.edges.map LLDPMib.ends =
              [(("s1", 1), ("s2", 2)), (("s2", 2), ("s1", 1)), (("s2", 0), ("h", -1)),
                (("h", -1), ("s2", 0))] ∧
            ((n.mibGraph.removeExpiredEntries n.now).verticies.find "h").isSome = true)) =
      some true := by
    decide +kernel
  obtain ⟨n₀, hn₀, hrun⟩ := Option.bind_eq_some_iff.mp hrun
  obtain ⟨n, hn, heq⟩ := Option.map_eq_some_iff.mp hrun
  have hinit : (system twoSwitches.toCabling 10).ReachableUnder (Orderly twoSwitches)
      unconnected := .init ⟨rfl, rfl, rfl, rfl, rfl, rfl⟩
  have hend := of_decide_eq_true heq
  exact ⟨n₀, n, hinit.run hn₀, System.ReachableUnder.run (.init rfl) hn, hend⟩

/-- Every link between switches with addresses that the agent knows is a cable. -/
theorem links_are_cables {c : Cabling} (h : (system c timeOut).Reachable n)
    {k : (String × ℤ) × (String × ℤ)} (hk : n.mibGraph.HasEdge k)
    (hports : k.1.2 ≠ -1 ∧ k.2.2 ≠ -1) (hnames : k.1.1 ≠ "" ∧ k.2.1 ≠ "") : c.Link k := by
  obtain ⟨m, hm, rfl⟩ := hk
  exact (inv_of_reachable h).sound m hm hports.1 hports.2 hnames.1 hnames.2

theorem links_are_cables_twoSwitches : ∃ n,
    (system twoSwitches.toCabling 10).Reachable n ∧
      n.mibGraph.HasEdge (("s1", 1), ("s2", 2)) ∧
      twoSwitches.toCabling.Link (("s1", 1), ("s2", 2)) := by
  obtain ⟨n₀, n, h, hr, -, -, -, -, hedges, -⟩ := run_twoSwitches
  have hreach := (hr.after (.step (e := .triggerLLDP) h trivial rfl)).reachable
  have hk : n.mibGraph.HasEdge (("s1", 1), ("s2", 2)) :=
    List.mem_map.mp (hedges ▸ List.mem_cons_self)
  exact ⟨n, hreach, hk, links_are_cables hreach hk (by decide) (by decide)⟩

/-- The frame that a round sends over a cable is under way or kept by the other switch, or the link
is known, until a timeout after the round has begun. -/
theorem cables_become_known {c : Cabling} (h : (system c timeOut).Reachable n₀) {u v : String}
    {p q : ℕ} (hpeer : c.peer (u, p) = some (v, q)) (hu : u ∈ n₀.switches) (hv : v ∈ n₀.switches)
    (hr : ((system c timeOut).startingAt (n₀.sendLLDP c)).Reachable n)
    (hnow : n.now ≤ n₀.now + timeOut) :
    n.UnderWay u p v q ∨ n.KnownUntil (n₀.now + timeOut) u p v q := by
  have htraced := traced_of_reachable (inv_of_reachable h) hu hv hpeer hr
  exact htraced.frame.imp_right fun hknown => hknown.resolve_left (not_lt.mpr hnow)

theorem cables_become_known_twoSwitches : ∃ n₀ n : LLDPNetwork,
    ((system twoSwitches.toCabling 10).startingAt
      (n₀.sendLLDP twoSwitches.toCabling)).Reachable n ∧ n.messages = [] ∧ n.buffered = [] ∧
    (n.UnderWay "s1" 1 "s2" 2 ∨ n.KnownUntil (n₀.now + 10) "s1" 1 "s2" 2) := by
  obtain ⟨n₀, n, h, hr, hswitches, hnow, hmessages, hbuffered, -, -⟩ := run_twoSwitches
  refine ⟨n₀, n, hr.reachable, hmessages, hbuffered, ?_⟩
  refine cables_become_known h.reachable rfl ?_ ?_ hr.reachable ?_
  · rw [hswitches]
    decide
  · rw [hswitches]
    decide
  · rw [hnow]
    exact Int.le_add_of_nonneg_right (by decide)

end LLDPNetwork

end TsnReconfig.LLDP
