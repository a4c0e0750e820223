import TsnReconfig.LLDP.CachedRoutes
import TsnReconfig.Lib.Lists

/-!
# The discovery of links

`LLDPAgent` sends an LLDP frame out of every port of every switch that it knows, and enters the links
over which these frames come back. A frame that finds no rule at the other switch may be kept there,
and then the rule is sent again. Messages are delivered in any order.
-/

namespace TsnReconfig.LLDP
open Lib OpenFlow

/-- The ports of the switches, and the cables between these ports. -/
structure Cabling where
  numOfPorts : String → ℕ
  peer : String × ℕ → Option (String × ℕ)
  symm : ∀ a b, peer a = some b → peer b = some a
  lt_numOfPorts : ∀ a b, peer a = some b → a.2 < numOfPorts a.1

/-- An LLDP frame has the switch and the port where it was sent, and `headers` is a packet-in without
a frame. -/
inductive LLDPMessage
  | packetOut (chassisID : String) (portID : ℕ)
  | frame (chassisID : String) (portID : ℕ) (sw : String) (inport : ℕ)
  | packetIn (chassisID : String) (portID : ℕ) (sw : String) (inport : ℕ)
  | headers (sw : String)
  | flowMod (sw : String)
  deriving DecidableEq, Repr

/-- The controller with its topology and routes, and what is under way. -/
structure LLDPNetwork where
  routing : Routing
  switches : List String := []
  messages : List LLDPMessage := []
  rules : List String := []
  buffered : List LLDPMessage := []

/-- `full`: the switch sends frames complete, or its buffer is full. -/
inductive LLDPNetworkEvent
  | advance (time : SimTime)
  | featuresReply (sw : String)
  | triggerLLDP
  | deliver (k : ℕ) (full : Bool)
  | expire (k : ℕ)
  | hostFrame (srcMac sw : String) (inport : ℕ)
  | query (tie : ℕ → ℕ) (fuel : ℕ) (src dst : String)

namespace LLDPNetwork
variable (c : Cabling) (timeOut : SimTime) (n : LLDPNetwork)

def addMessages (messages : List LLDPMessage) : LLDPNetwork :=
  { n with messages := n.messages ++ messages }

/-- A step of the controller's topology and routes. -/
def route (e : RoutingEvent (ℕ → ℕ)) : Option LLDPNetwork :=
  (Routing.step Dijkstra.search n.routing e).map fun routing => { n with routing := routing }

/-- `Switch_Info::getMacAddress`, which is empty until the features reply has come. -/
def macAddress (sw : String) : String := if sw ∈ n.switches then sw else ""

/-- `sendLLDP`. -/
def sendLLDP : LLDPNetwork :=
  n.addMessages (n.switches.flatMap fun sw =>
    (List.range (c.numOfPorts sw)).map fun j => .packetOut sw j)

def process (full : Bool) : LLDPMessage → Option LLDPNetwork
  | .packetOut sw j =>
    match c.peer (sw, j) with
    | none => some n
    | some other => some (n.addMessages [.frame sw j other.1 other.2])
  | .frame chassisID portID sw inport =>
    if sw ∈ n.rules ∨ full then some (n.addMessages [.packetIn chassisID portID sw inport])
    else some { n.addMessages [.headers sw] with
      buffered := .frame chassisID portID sw inport :: n.buffered }
  | .packetIn chassisID portID sw inport =>
    n.route (.discovery (.packetIn (.lldp chassisID portID (n.macAddress sw) inport) timeOut))
  | .headers sw => some (n.addMessages [.flowMod sw])
  | .flowMod sw => some { n with rules := sw :: n.rules }

/-- `hostFrame` is a packet-in for a frame of a host, and `query` is one of `computePath`. -/
def step (n : LLDPNetwork) : LLDPNetworkEvent → Option LLDPNetwork
  | .advance time => n.route (.discovery (.advance time))
  | .featuresReply sw =>
    if sw = "" then none
    else some { n.addMessages [.flowMod sw] with switches := n.switches ++ [sw] }
  | .triggerLLDP => some (n.sendLLDP c)
  | .deliver k full => (n.messages[k]?).bind fun m =>
    { n with messages := n.messages.eraseIdx k }.process c timeOut full m
  | .expire k => some { n with rules := n.rules.eraseIdx k }
  | .hostFrame srcMac sw inport =>
    n.route (.discovery (.packetIn (.frame srcMac (n.macAddress sw) inport) timeOut))
  | .query tie fuel src dst => n.route (.query tie fuel src dst)

def system : System LLDPNetwork LLDPNetworkEvent where
  init n := n.routing.discovery.mibGraph = {} ∧ n.routing.cache = {} ∧ n.switches = [] ∧
    n.messages = [] ∧ n.rules = [] ∧ n.buffered = []
  step := step c timeOut

end LLDPNetwork

/-! ## What a packet-in does to the edges -/

namespace LLDPMibGraph
variable {g : LLDPMibGraph} {m : LLDPMib} {now timeOut : SimTime} {p : PacketIn}

theorem ends_entered (mib : LLDPMib) (ms : List LLDPMib) :
    (entered mib ms).ends = mib.ends ∨ ∃ m ∈ ms, (entered mib ms).ends = m.ends := by
  unfold entered
  cases hfind : ms.find? (·.same mib) with
  | none => exact .inl rfl
  | some m => exact .inr ⟨m, List.mem_of_find?_eq_some hfind, rfl⟩

/-- The edges are those that were there and the one of the packet-in, from either end. -/
theorem Stored.ends_handlePacketIn (h : g.Stored)
    (hm : m ∈ (g.handlePacketIn now timeOut p).edges) :
    (∃ m₀ ∈ g.edges, m.ends = m₀.ends) ∨ m.ends = (p.mib (now + timeOut)).ends ∨
      m.ends = (p.mib (now + timeOut)).ends.swap := by
  rw [handlePacketIn_eq] at hm
  split_ifs at hm
  · exact .inl ⟨m, hm, rfl⟩
  · rcases h.mem_edges_enter_reverse.mp hm with hm | rfl | ⟨-, rfl⟩
    · exact .inl ⟨m, hm.1, rfl⟩
    · rcases ends_entered (p.mib (now + timeOut)) (g.mibs (p.mib (now + timeOut)).srcID)
        with hends | ⟨m₀, hm₀, hends⟩
      · exact .inr (.inl hends)
      · exact .inl ⟨m₀, (h.mem_mibs.mp hm₀).1, hends⟩
    · exact .inr (.inr rfl)

/-- What is known stays known, with its time or that of the packet-in. -/
theorem Stored.same_handlePacketIn (h : g.Stored) (now timeOut : SimTime) (p : PacketIn)
    (hm : m ∈ g.edges) :
    ∃ m' ∈ (g.handlePacketIn now timeOut p).edges, m'.same m = true ∧
      (m'.expiresAt = m.expiresAt ∨ m'.expiresAt = now + timeOut) := by
  rw [handlePacketIn_eq]
  have hself : m.same m = true := LLDPMib.same_iff.mpr (.inl rfl)
  split_ifs
  · exact ⟨m, hm, hself, .inl rfl⟩
  · by_cases hsame : m.same (p.mib (now + timeOut)) = true
    · refine ⟨_, h.mem_edges_enter_reverse.mpr (.inr (.inl rfl)), same_trans entered_same hsame,
        .inr ?_⟩
      rw [expiresAt_entered]
      cases p <;> rfl
    · exact ⟨m, h.mem_edges_enter_reverse.mpr (.inl ⟨hm, by simpa using hsame⟩), hself, .inl rfl⟩

/-- A link is never refused. -/
theorem Stored.link_handlePacketIn (h : g.Stored) (now timeOut : SimTime)
    (chassisID swInfo : String) (portID inport : ℕ) :
    ∃ m ∈ (g.handlePacketIn now timeOut (.lldp chassisID portID swInfo inport)).edges,
      m.same ⟨portID, inport, chassisID, swInfo, now + timeOut⟩ = true ∧
        m.expiresAt = now + timeOut := by
  have hport : (portID : ℤ) ≠ -1 := by omega
  rw [handlePacketIn_eq, if_neg fun hrefuses => hport hrefuses.1]
  exact ⟨_, h.mem_edges_enter_reverse.mpr (.inr (.inl rfl)), entered_same, expiresAt_entered⟩

end LLDPMibGraph

/-! ## Links are cables -/

namespace Cabling
variable (c : Cabling)

/-- The ends of a cable, from either end. -/
def Link (k : (String × ℤ) × (String × ℤ)) : Prop :=
  ∃ a b, c.peer a = some b ∧ k = ((a.1, (a.2 : ℤ)), (b.1, (b.2 : ℤ)))

/-- An edge between ports of switches that have given their addresses is a cable. -/
def Sound (k : (String × ℤ) × (String × ℤ)) : Prop :=
  k.1.2 ≠ -1 → k.2.2 ≠ -1 → k.1.1 ≠ "" → k.2.1 ≠ "" → c.Link k

variable {c} {k : (String × ℤ) × (String × ℤ)}

theorem Link.swap (h : c.Link k) : c.Link k.swap := by
  obtain ⟨a, b, hpeer, rfl⟩ := h
  exact ⟨b, a, c.symm a b hpeer, rfl⟩

theorem Sound.swap (h : c.Sound k) : c.Sound k.swap :=
  fun hdst hsrc hdst' hsrc' => (h hsrc hdst hsrc' hdst').swap

end Cabling

/-- An LLDP frame is at the other end of the cable of its port. -/
def LLDPMessage.Ok (c : Cabling) : LLDPMessage → Prop
  | .frame chassisID portID sw inport => c.peer (chassisID, portID) = some (sw, inport)
  | .packetIn chassisID portID sw inport => c.peer (chassisID, portID) = some (sw, inport)
  | _ => True

namespace LLDPNetwork

/-- `mibGraph` of the agent. -/
abbrev mibGraph (n : LLDPNetwork) : LLDPMibGraph := n.routing.discovery.mibGraph

abbrev now (n : LLDPNetwork) : SimTime := n.routing.discovery.now

section
variable {c : Cabling} {timeOut : SimTime} {n n' : LLDPNetwork} {m : LLDPMessage} {full : Bool}

theorem route_query {tie : ℕ → ℕ} {fuel : ℕ} {src dst : String}
    (hs : n.route (.query tie fuel src dst) = some n') : ∃ cache, n' = { n with
      routing := ⟨⟨n.now, n.mibGraph.removeExpiredEntries n.now⟩, cache⟩ } := by
  obtain ⟨r, hr, rfl⟩ := Option.map_eq_some_iff.mp hs
  obtain ⟨a, ha, rfl⟩ := Option.map_eq_some_iff.mp hr
  obtain ⟨b, -, rfl⟩ := Option.map_eq_some_iff.mp ha
  exact ⟨b.2, rfl⟩

theorem route_advance {time : SimTime} (hs : n.route (.discovery (.advance time)) = some n') :
    n.now ≤ time ∧ n' = { n with routing := ⟨⟨time, n.mibGraph⟩, n.routing.cache⟩ } := by
  obtain ⟨r, hr, rfl⟩ := Option.map_eq_some_iff.mp hs
  obtain ⟨d, hd, rfl⟩ := Option.map_eq_some_iff.mp hr
  obtain ⟨hle, hd⟩ := (Option.ite_none_right_eq_some ..).mp hd
  cases hd
  exact ⟨hle, rfl⟩

theorem route_packetIn {p : LLDPMibGraph.PacketIn}
    (hs : n.route (.discovery (.packetIn p timeOut)) = some n') : n' = { n with
      routing := ⟨⟨n.now, n.mibGraph.handlePacketIn n.now timeOut p⟩, n.routing.cache⟩ } :=
  (Option.some.inj hs).symm

/-- A packet-in is entered, or the topology and the routes stay as they are. -/
theorem process_cases (hs : n.process c timeOut full m = some n') : n'.routing = n.routing ∨
    ∃ chassisID portID sw inport, m = .packetIn chassisID portID sw inport ∧
      n.route (.discovery (.packetIn (.lldp chassisID portID (n.macAddress sw) inport) timeOut)) =
        some n' := by
  cases m with
  | packetOut sw j =>
    rw [LLDPNetwork.process] at hs
    cases hother : c.peer (sw, j) with
    | none =>
      rw [hother] at hs
      cases hs
      exact .inl rfl
    | some other =>
      rw [hother] at hs
      cases hs
      exact .inl rfl
  | frame chassisID portID sw inport =>
    rw [LLDPNetwork.process] at hs
    split_ifs at hs
    · cases hs
      exact .inl rfl
    · cases hs
      exact .inl rfl
  | packetIn chassisID portID sw inport => exact .inr ⟨_, _, _, _, rfl, hs⟩
  | headers sw =>
    cases hs
    exact .inl rfl
  | flowMod sw =>
    cases hs
    exact .inl rfl

structure Inv (c : Cabling) (n : LLDPNetwork) : Prop where
  graph : n.mibGraph.Inv
  messages : ∀ m ∈ n.messages, m.Ok c
  sound : ∀ m ∈ n.mibGraph.edges, c.Sound m.ends

theorem Inv.addMessages (h : n.Inv c) {messages : List LLDPMessage}
    (hmessages : ∀ m ∈ messages, m.Ok c) : (n.addMessages messages).Inv c :=
  { h with
    messages := fun m hm => (List.mem_append.mp hm).elim (h.messages m) (hmessages m) }

theorem Inv.addMessage (h : n.Inv c) (hm : m.Ok c) : (n.addMessages [m]).Inv c :=
  h.addMessages fun m' hm' => by
    rw [List.mem_singleton.mp hm']
    exact hm

theorem Inv.packetIn (h : n.Inv c) {p : LLDPMibGraph.PacketIn}
    (hp : c.Sound (p.mib (n.now + timeOut)).ends)
    (hs : n.route (.discovery (.packetIn p timeOut)) = some n') : n'.Inv c := by
  rw [route_packetIn hs]
  refine { graph := h.graph.handlePacketIn p, messages := h.messages, sound := fun m hm => ?_ }
  rcases h.graph.ends_handlePacketIn hm with ⟨m₀, hm₀, hends⟩ | hends | hends
  · rw [hends]
    exact h.sound m₀ hm₀
  · rw [hends]
    exact hp
  · rw [hends]
    exact hp.swap

theorem Inv.process (h : n.Inv c) (hm : m.Ok c) (hs : n.process c timeOut full m = some n') :
    n'.Inv c := by
  cases m with
  | packetOut sw j =>
    rw [LLDPNetwork.process] at hs
    cases hpeer : c.peer (sw, j) with
    | none =>
      rw [hpeer] at hs
      cases hs
      exact h
    | some other =>
      rw [hpeer] at hs
      cases hs
      exact h.addMessage hpeer
  | frame chassisID portID sw inport =>
    rw [LLDPNetwork.process] at hs
    split_ifs at hs
    · cases hs
      exact h.addMessage hm
    · cases hs
      have hadd := h.addMessage (m := .headers sw) trivial
      exact { hadd with }
  | packetIn chassisID portID sw inport =>
    refine h.packetIn (fun _ _ _ hname => ?_) hs
    change n.macAddress sw ≠ "" at hname
    have hsw : n.macAddress sw = sw := by
      unfold macAddress at hname ⊢
      split_ifs at hname ⊢ with hmem
      · rfl
      · exact (hname rfl).elim
    refine ⟨_, _, hm, ?_⟩
    change ((chassisID, (portID : ℤ)), (n.macAddress sw, (inport : ℤ))) = _
    rw [hsw]
  | headers sw =>
    cases hs
    exact h.addMessage trivial
  | flowMod sw =>
    cases hs
    exact { h with }

theorem Inv.step {e : LLDPNetworkEvent} (h : n.Inv c) (hs : n.step c timeOut e = some n') :
    n'.Inv c := by
  cases e with
  | advance time =>
    rw [(route_advance hs).2]
    exact { h with }
  | featuresReply sw =>
    rw [LLDPNetwork.step] at hs
    split_ifs at hs
    cases hs
    have hadd := h.addMessage (m := .flowMod sw) trivial
    exact { hadd with }
  | triggerLLDP =>
    cases hs
    refine h.addMessages fun m hm => ?_
    obtain ⟨sw, -, hm⟩ := List.mem_flatMap.mp hm
    obtain ⟨j, -, rfl⟩ := List.mem_map.mp hm
    trivial
  | deliver k full =>
    obtain ⟨m, hm, hs⟩ := Option.bind_eq_some_iff.mp hs
    have herase : ({ n with messages := n.messages.eraseIdx k } : LLDPNetwork).Inv c :=
      { h with messages := fun m hm => h.messages m (List.mem_of_mem_eraseIdx hm) }
    exact herase.process (h.messages m (List.mem_of_getElem? hm)) hs
  | expire k =>
    cases hs
    exact { h with }
  | hostFrame srcMac sw inport => exact h.packetIn (fun hport => (hport rfl).elim) hs
  | query tie fuel src dst =>
    obtain ⟨cache, rfl⟩ := route_query hs
    refine { graph := h.graph.removeExpiredEntries, messages := h.messages, sound := fun m hm => ?_ }
    exact h.sound m (LLDPMibGraph.mem_edges_removeExpiredEntries.mp hm).1

theorem inv_of_init (h : (system c timeOut).init n) : n.Inv c := by
  obtain ⟨hgraph, -, -, hmessages, -⟩ := h
  refine ⟨?_, fun m hm => ?_, fun m hm => ?_⟩
  · rw [mibGraph, hgraph]
    exact LLDPMibGraph.inv_empty
  · rw [hmessages] at hm
    cases hm
  · rw [mibGraph, hgraph] at hm
    cases hm

theorem inv_of_reachable (h : (system c timeOut).Reachable n) : n.Inv c :=
  h.invariant (fun _ => inv_of_init) fun _ _ _ hinv hs => hinv.step hs

end

/-! ## A round of LLDP frames -/

section
variable {c : Cabling} {timeOut : SimTime} {n n' : LLDPNetwork} {full : Bool} {t : SimTime}
  {u v : String} {p q : ℕ}

/-- The LLDP frame of a port is under way, or kept at the other end. -/
def UnderWay (n : LLDPNetwork) (u : String) (p : ℕ) (v : String) (q : ℕ) : Prop :=
  .packetOut u p ∈ n.messages ∨ .frame u p v q ∈ n.messages ∨ .packetIn u p v q ∈ n.messages ∨
    .frame u p v q ∈ n.buffered

/-- The link is known until a time at least. -/
def KnownUntil (n : LLDPNetwork) (t : SimTime) (u : String) (p : ℕ) (v : String) (q : ℕ) : Prop :=
  ∃ m ∈ n.mibGraph.edges, m.same ⟨p, q, u, v, t⟩ = true ∧ t ≤ m.expiresAt

/-- What has become of the frame that was sent for a link at a time. -/
structure Traced (timeOut : SimTime) (n : LLDPNetwork) (t : SimTime) (u : String) (p : ℕ)
    (v : String) (q : ℕ) : Prop where
  connected : v ∈ n.switches
  since : t ≤ n.now
  frame : n.UnderWay u p v q ∨ t + timeOut < n.now ∨ n.KnownUntil (t + timeOut) u p v q

theorem Traced.congr (h : n.Traced timeOut t u p v q) (hswitches : n'.switches = n.switches)
    (hrouting : n'.routing.discovery = n.routing.discovery)
    (hframe : n.UnderWay u p v q → n'.UnderWay u p v q ∨
      n'.KnownUntil (t + timeOut) u p v q) : n'.Traced timeOut t u p v q := by
  refine ⟨hswitches ▸ h.connected, ?_, ?_⟩
  · rw [now, hrouting]
    exact h.since
  · rcases h.frame with hframe' | hlate | hknown
    · exact (hframe hframe').imp_right .inr
    · rw [now, hrouting]
      exact .inr (.inl hlate)
    · refine .inr (.inr ?_)
      rw [KnownUntil, mibGraph, hrouting]
      exact hknown

theorem UnderWay.addMessages (h : n.UnderWay u p v q) (messages : List LLDPMessage) :
    (n.addMessages messages).UnderWay u p v q :=
  h.imp (List.mem_append_left _) (Or.imp (List.mem_append_left _)
    (Or.imp_left (List.mem_append_left _)))

/-- The frame is in the message that is delivered, or elsewhere. -/
theorem UnderWay.rest {m : LLDPMessage} {messages : List LLDPMessage} (h : n.UnderWay u p v q)
    (hmessages : ∀ m' ∈ n.messages, m' = m ∨ m' ∈ messages) :
    m = .packetOut u p ∨ m = .frame u p v q ∨ m = .packetIn u p v q ∨
      ({ n with messages := messages } : LLDPNetwork).UnderWay u p v q := by
  rcases h with hm | hm | hm | hm
  · exact (hmessages _ hm).elim (fun h => .inl h.symm) fun h => .inr (.inr (.inr (.inl h)))
  · exact (hmessages _ hm).elim (fun h => .inr (.inl h.symm)) fun h =>
      .inr (.inr (.inr (.inr (.inl h))))
  · exact (hmessages _ hm).elim (fun h => .inr (.inr (.inl h.symm))) fun h =>
      .inr (.inr (.inr (.inr (.inr (.inl h)))))
  · exact .inr (.inr (.inr (.inr (.inr (.inr hm)))))

theorem KnownUntil.packetIn (h : n.KnownUntil t u p v q) (hinv : n.mibGraph.Inv)
    {packet : LLDPMibGraph.PacketIn} (ht : t ≤ n.now + timeOut)
    (hs : n.route (.discovery (.packetIn packet timeOut)) = some n') :
    n'.KnownUntil t u p v q := by
  rw [route_packetIn hs]
  obtain ⟨m, hm, hsame, hexp⟩ := h
  obtain ⟨m', hm', hsame', hexp'⟩ := hinv.same_handlePacketIn n.now timeOut packet hm
  refine ⟨m', hm', ?_, ?_⟩
  · exact LLDPMibGraph.same_trans hsame' (LLDPMib.same_comm.trans hsame)
  · rcases hexp' with hexp' | hexp'
    · exact hexp.trans hexp'.ge
    · exact ht.trans hexp'.ge

theorem Traced.packetIn (h : n.Traced timeOut t u p v q) (hinv : n.mibGraph.Inv)
    {packet : LLDPMibGraph.PacketIn}
    (hs : n.route (.discovery (.packetIn packet timeOut)) = some n') :
    n'.Traced timeOut t u p v q := by
  have heq := route_packetIn hs
  refine ⟨?_, ?_, ?_⟩
  · rw [heq]
    exact h.connected
  · rw [heq]
    exact h.since
  · rcases h.frame with hframe | hlate | hknown
    · rw [heq]
      exact .inl hframe
    · rw [heq]
      exact .inr (.inl hlate)
    · exact .inr (.inr (hknown.packetIn hinv (Int.add_le_add_right h.since _) hs))

/-- The frame is delivered. -/
theorem Traced.process {m : LLDPMessage} {messages : List LLDPMessage} (hinv : n.mibGraph.Inv)
    (hpeer : c.peer (u, p) = some (v, q)) (h : n.Traced timeOut t u p v q)
    (hmessages : ∀ m' ∈ n.messages, m' = m ∨ m' ∈ messages)
    (hs : ({ n with messages := messages } : LLDPNetwork).process c timeOut full m = some n') :
    n'.Traced timeOut t u p v q := by
  cases m with
  | packetOut sw j =>
    rw [LLDPNetwork.process] at hs
    cases hother : c.peer (sw, j) with
    | none =>
      rw [hother] at hs
      cases hs
      refine h.congr rfl rfl fun hframe => .inl ?_
      rcases hframe.rest hmessages with heq | heq | heq | hframe
      · cases heq
        rw [hother] at hpeer
        cases hpeer
      · cases heq
      · cases heq
      · exact hframe
    | some other =>
      rw [hother] at hs
      cases hs
      refine h.congr rfl rfl fun hframe => .inl ?_
      rcases hframe.rest hmessages with heq | heq | heq | hframe
      · cases heq
        rw [hother] at hpeer
        cases hpeer
        exact .inr (.inl (List.mem_append_right _ (List.mem_singleton_self _)))
      · cases heq
      · cases heq
      · exact hframe.addMessages _
  | frame chassisID portID sw inport =>
    rw [LLDPNetwork.process] at hs
    split_ifs at hs
    · cases hs
      refine h.congr rfl rfl fun hframe => .inl ?_
      rcases hframe.rest hmessages with heq | heq | heq | hframe
      · cases heq
      · cases heq
        exact .inr (.inr (.inl (List.mem_append_right _ (List.mem_singleton_self _))))
      · cases heq
      · exact hframe.addMessages _
    · cases hs
      refine h.congr rfl rfl fun hframe => .inl ?_
      rcases hframe.rest hmessages with heq | heq | heq | hframe
      · cases heq
      · cases heq
        exact .inr (.inr (.inr List.mem_cons_self))
      · cases heq
      · exact (hframe.addMessages _).imp_right
          (Or.imp_right (Or.imp_right (List.mem_cons_of_mem _)))
  | packetIn chassisID portID sw inport =>
    by_cases heq : LLDPMessage.packetIn chassisID portID sw inport = .packetIn u p v q
    · -- the link is entered
      cases heq
      have hname : ({ n with messages := messages } : LLDPNetwork).macAddress v = v :=
        if_pos h.connected
      rw [LLDPNetwork.process, hname] at hs
      rw [route_packetIn hs]
      obtain ⟨m, hm, hsame, hexp⟩ := hinv.link_handlePacketIn n.now timeOut u v p q
      exact ⟨h.connected, h.since, .inr (.inr ⟨m, hm, hsame,
        hexp ▸ Int.add_le_add_right h.since _⟩)⟩
    · have hframe : ({ n with messages := messages } : LLDPNetwork).Traced timeOut t u p v q := by
        refine h.congr rfl rfl fun hframe => .inl ?_
        rcases hframe.rest hmessages with hm | hm | hm | hframe
        · cases hm
        · cases hm
        · exact (heq hm).elim
        · exact hframe
      exact hframe.packetIn hinv hs
  | headers sw =>
    cases hs
    refine h.congr rfl rfl fun hframe => .inl ?_
    rcases hframe.rest hmessages with heq | heq | heq | hframe
    · cases heq
    · cases heq
    · cases heq
    · exact hframe.addMessages _
  | flowMod sw =>
    cases hs
    refine h.congr rfl rfl fun hframe => .inl ?_
    rcases hframe.rest hmessages with heq | heq | heq | hframe
    · cases heq
    · cases heq
    · cases heq
    · exact hframe

theorem Traced.step {e : LLDPNetworkEvent} (h : n.Traced timeOut t u p v q)
    (hinv : n.mibGraph.Inv) (hpeer : c.peer (u, p) = some (v, q))
    (hs : n.step c timeOut e = some n') : n'.Traced timeOut t u p v q := by
  cases e with
  | advance time =>
    obtain ⟨hle, rfl⟩ := route_advance hs
    refine ⟨h.connected, h.since.trans hle, ?_⟩
    exact h.frame.imp_right (Or.imp_left fun hlate => hlate.trans_le hle)
  | featuresReply sw =>
    rw [LLDPNetwork.step] at hs
    split_ifs at hs
    cases hs
    exact ⟨List.mem_append_left _ h.connected, h.since,
      h.frame.imp_left fun hframe => hframe.addMessages _⟩
  | triggerLLDP =>
    cases hs
    exact h.congr rfl rfl fun hframe => .inl (hframe.addMessages _)
  | deliver k full =>
    obtain ⟨m, hm, hs⟩ := Option.bind_eq_some_iff.mp hs
    exact h.process hinv hpeer (fun m' hm' => eq_or_mem_eraseIdx hm hm') hs
  | expire k =>
    cases hs
    exact h.congr rfl rfl .inl
  | hostFrame srcMac sw inport => exact h.packetIn hinv hs
  | query tie fuel src dst =>
    obtain ⟨cache, rfl⟩ := route_query hs
    refine ⟨h.connected, h.since, h.frame.imp_right fun hknown => ?_⟩
    rcases hknown with hlate | ⟨m, hm, hsame, hexp⟩
    · exact .inl hlate
    · by_cases hexpired : m.expiresAt < n.now
      · exact .inl (hexp.trans_lt hexpired)
      · exact .inr ⟨m, LLDPMibGraph.mem_edges_removeExpiredEntries.mpr ⟨hm, hexpired⟩, hsame, hexp⟩

/-- A round sends a frame over every cable of a switch that is known. -/
theorem traced_sendLLDP (hu : u ∈ n.switches) (hv : v ∈ n.switches)
    (hpeer : c.peer (u, p) = some (v, q)) : (n.sendLLDP c).Traced timeOut n.now u p v q := by
  refine ⟨hv, le_rfl, .inl (.inl (List.mem_append_right _ ?_))⟩
  exact List.mem_flatMap.mpr ⟨u, hu, List.mem_map.mpr
    ⟨p, List.mem_range.mpr (c.lt_numOfPorts _ _ hpeer), rfl⟩⟩

theorem traced_of_reachable {n₀ : LLDPNetwork} {ok : LLDPNetwork → LLDPNetworkEvent → Prop}
    (hinv : n₀.Inv c) (hu : u ∈ n₀.switches) (hv : v ∈ n₀.switches)
    (hpeer : c.peer (u, p) = some (v, q))
    (h : ((system c timeOut).startingAt (n₀.sendLLDP c)).ReachableUnder ok n) :
    n.Traced timeOut n₀.now u p v q := by
  refine (h.invariant (P := fun n => n.Inv c ∧ n.Traced timeOut n₀.now u p v q) ?_
    fun _ _ _ _ hn _ hs => ⟨hn.1.step hs, hn.2.step hn.1.graph hpeer hs⟩).2
  rintro _ rfl
  have hround : n₀.step c timeOut .triggerLLDP = some (n₀.sendLLDP c) := rfl
  exact ⟨hinv.step hround, traced_sendLLDP hu hv hpeer⟩

end

end LLDPNetwork

end TsnReconfig.LLDP
