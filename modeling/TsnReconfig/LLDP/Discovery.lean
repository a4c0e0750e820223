import TsnReconfig.LLDP.Edges

/-!
# What the discovered topology is

Runs of packet-ins and sweeps. A link is stored from both ends unless both are at one vertex, and
no host is recorded at a port of a link unless one was before the link came.
-/

namespace TsnReconfig.LLDP
open Lib OpenFlow

namespace LLDPMibGraph

/-- The entry that a packet-in asks for. -/
def PacketIn.mib (expiresAt : SimTime) : PacketIn → LLDPMib
  | .lldp chassisID portID swInfo inport => ⟨portID, inport, chassisID, swInfo, expiresAt⟩
  | .frame srcMac swInfo inport => ⟨-1, inport, srcMac, swInfo, expiresAt⟩

/-- The entry is of a host behind a link between switches. -/
def Refuses (g : LLDPMibGraph) (mib : LLDPMib) : Prop :=
  mib.srcPort = -1 ∧ g.leadsToSwitch mib.dstID mib.dstPort = true

instance (g : LLDPMibGraph) (mib : LLDPMib) : Decidable (g.Refuses mib) :=
  inferInstanceAs (Decidable (_ ∧ _))

/-- A host is recorded at the port. -/
def hostAt (g : LLDPMibGraph) (v : String) (port : ℤ) : Bool :=
  (g.mibs v).any fun m => m.srcPort = port ∧ m.dstPort = -1

variable {g : LLDPMibGraph} {mib m : LLDPMib} {now timeOut : SimTime} {v : String} {port : ℤ}

theorem addEntry_eq {src dst : String} {srcPort dstPort : ℤ} :
    (g.addEntry now src srcPort dst dstPort timeOut).2 =
      let mib : LLDPMib := ⟨srcPort, dstPort, src, dst, now + timeOut⟩
      if g.Refuses mib then g else (g.enter mib).enter mib.reverse := by
  dsimp only
  by_cases hrefuses : g.Refuses ⟨srcPort, dstPort, src, dst, now + timeOut⟩
  · rw [if_pos hrefuses]
    exact congrArg Prod.snd (if_pos hrefuses)
  · rw [if_neg hrefuses]
    exact congrArg Prod.snd (if_neg hrefuses)

theorem handlePacketIn_eq (p : PacketIn) : g.handlePacketIn now timeOut p =
    if g.Refuses (p.mib (now + timeOut)) then g
    else (g.enter (p.mib (now + timeOut))).enter (p.mib (now + timeOut)).reverse := by
  cases p with
  | lldp chassisID portID swInfo inport => exact addEntry_eq
  | frame srcMac swInfo inport => exact addEntry_eq

theorem PacketIn.dstPort_mib (p : PacketIn) (expiresAt : SimTime) :
    (p.mib expiresAt).dstPort ≠ -1 := by
  cases p with
  | lldp chassisID portID swInfo inport =>
    change (inport : ℤ) ≠ -1
    omega
  | frame srcMac swInfo inport =>
    change (inport : ℤ) ≠ -1
    omega

theorem inv_empty : Inv {} where
  own v m hm := by cases hm
  nonempty v ms hms := by cases hms
  apart v := .nil
  verticiesCounted := rfl
  edgesCounted := rfl
  mirrored m hm := by cases hm

theorem Inv.handlePacketIn (h : g.Inv) (p : PacketIn) : (g.handlePacketIn now timeOut p).Inv := by
  rw [handlePacketIn_eq]
  split_ifs
  · exact h
  · exact h.enter_reverse

theorem Stored.hostAt_iff (h : g.Stored) : g.hostAt v port = true ↔
    ∃ m ∈ g.edges, m.srcID = v ∧ m.srcPort = port ∧ m.dstPort = -1 := by
  simp only [hostAt, List.any_eq_true, h.mem_mibs, decide_eq_true_eq, and_assoc]

theorem Stored.leadsToSwitch_iff (h : g.Stored) : g.leadsToSwitch v port = true ↔
    ∃ m ∈ g.edges, m.srcID = v ∧ m.srcPort = port ∧ m.dstPort ≠ -1 := by
  simp only [leadsToSwitch, List.any_eq_true, h.mem_mibs, decide_eq_true_eq, and_assoc]

/-- A link that is not a loop is stored from both ends. -/
theorem Stored.mem_edges_link (h : g.Stored) (hloop : ¬mib.IsLoop) :
    m ∈ ((g.enter mib).enter mib.reverse).edges ↔
      (m ∈ g.edges ∧ m.same mib = false) ∨ m = mib ∨ m = mib.reverse := by
  rw [h.mem_edges_enter_reverse, entered_eq (h.own _) hloop]
  refine or_congr_right ⟨Or.imp_right And.right, fun hm => ?_⟩
  by_cases hids : mib.srcID = mib.dstID
  · -- both ends are the same port
    have hport : mib.srcPort = mib.dstPort := by
      by_contra hne
      exact hloop ⟨hids, hne⟩
    have hreverse : mib.reverse = mib :=
      LLDPMib.ext_ends (by simp [LLDPMib.ends, hids, hport]) rfl
    rw [hreverse, or_self] at hm
    exact .inl hm
  · exact hm.imp_right fun hm => ⟨hids, hm⟩

end LLDPMibGraph

/-- Both ends are ports of switches. -/
def LLDPMib.IsLink (a : LLDPMib) : Prop := a.srcPort ≠ -1 ∧ a.dstPort ≠ -1

instance (a : LLDPMib) : Decidable a.IsLink := inferInstanceAs (Decidable (_ ∧ _))

instance (a : LLDPMib) : Decidable a.IsLoop := inferInstanceAs (Decidable (_ ∧ _))

namespace Discovery

/-- No host is recorded at a port that is known as an unexpired link. -/
def PortsFree (s : Discovery) : Prop :=
  ∀ m ∈ s.mibGraph.edges, m.IsLink → s.now ≤ m.expiresAt →
    s.mibGraph.hostAt m.srcID m.srcPort = false

structure Consistent (s : Discovery) : Prop where
  mirrored : ∀ m ∈ s.mibGraph.edges, m.reverse ∈ s.mibGraph.edges
  once : (s.mibGraph.edges.map LLDPMib.ends).Nodup
  numOfEdges : s.mibGraph.numOfEdges = s.mibGraph.edges.length
  numOfVerticies : s.mibGraph.numOfVerticies = s.mibGraph.verticies.entries.length
  nonempty : ∀ v ms, s.mibGraph.verticies.find v = some ms → ms ≠ []
  version : ∀ e s', s.step e = some s' →
    ¬(∀ k, s'.mibGraph.HasEdge k ↔ s.mibGraph.HasEdge k) →
      s'.mibGraph.version ≠ s.mibGraph.version
  portsFree : s.PortsFree

/-- A packet-in whose entry goes in enters no loop, and a link that has not expired only between
ports at which no host is recorded. -/
def Regular (s : Discovery) : DiscoveryEvent → Prop
  | .packetIn p timeOut =>
    let mib := p.mib (s.now + timeOut)
    ¬s.mibGraph.Refuses mib → ¬mib.IsLoop ∧
      (mib.IsLink → s.now ≤ mib.expiresAt →
        s.mibGraph.hostAt mib.srcID mib.srcPort = false ∧
        s.mibGraph.hostAt mib.dstID mib.dstPort = false)
  | _ => True

instance (s : Discovery) (e : DiscoveryEvent) : Decidable (s.Regular e) :=
  match e with
  | .packetIn _ _ => inferInstanceAs (Decidable (_ → _ ∧ _))
  | .advance _ => inferInstanceAs (Decidable True)
  | .removeExpiredEntries => inferInstanceAs (Decidable True)

section
variable {s s' : Discovery} {e : DiscoveryEvent}

theorem inv_step (h : s.mibGraph.Inv) (hs : s.step e = some s') : s'.mibGraph.Inv := by
  cases e with
  | advance time =>
    obtain ⟨-, hs⟩ := (Option.ite_none_right_eq_some ..).mp hs
    cases hs
    exact h
  | packetIn p timeOut =>
    cases hs
    exact h.handlePacketIn p
  | removeExpiredEntries =>
    cases hs
    exact h.removeExpiredEntries

theorem inv_of_reachable (h : discovery.Reachable s) : s.mibGraph.Inv := by
  refine h.invariant ?_ fun _ _ _ hinv hs => inv_step hinv hs
  intro s hinit
  rw [hinit]
  exact LLDPMibGraph.inv_empty

/-- What the regular steps keep. -/
structure Kept (s : Discovery) : Prop where
  noLoop : ∀ m ∈ s.mibGraph.edges, ¬m.IsLoop
  portsFree : s.PortsFree

theorem Kept.packetIn {p : LLDPMibGraph.PacketIn} {timeOut : SimTime} (h : s.Kept)
    (hinv : s.mibGraph.Inv) (hregular : s.Regular (.packetIn p timeOut)) :
    Kept { s with mibGraph := s.mibGraph.handlePacketIn s.now timeOut p } := by
  have hinv' : (s.mibGraph.handlePacketIn s.now timeOut p).Inv := hinv.handlePacketIn p
  obtain ⟨now, g⟩ := s
  rw [LLDPMibGraph.handlePacketIn_eq] at hinv' ⊢
  split_ifs at hinv' ⊢ with hrefuses
  · exact h
  obtain ⟨hloop, hfree⟩ := hregular hrefuses
  have hdst := p.dstPort_mib (now + timeOut)
  generalize p.mib (now + timeOut) = mib at *
  have hmem : ∀ m, m ∈ ((g.enter mib).enter mib.reverse).edges ↔
      (m ∈ g.edges ∧ m.same mib = false) ∨ m = mib ∨ m = mib.reverse :=
    fun m => hinv.mem_edges_link hloop
  constructor
  · intro m hm
    rcases (hmem m).mp hm with hm | rfl | rfl
    · exact h.noLoop m hm.1
    · exact hloop
    · exact fun hreverse => hloop ⟨hreverse.1.symm, hreverse.2.symm⟩
  · intro m hm hlink hexp
    rw [← Bool.not_eq_true, hinv'.hostAt_iff]
    rintro ⟨m', hm', hid, hport, hhost⟩
    rcases (hmem m').mp hm' with hm' | rfl | rfl
    · -- the host was recorded before
      have hbefore : ∀ v port, m'.srcID = v → m'.srcPort = port → g.hostAt v port = true :=
        fun v port hv hp => hinv.hostAt_iff.mpr ⟨m', hm'.1, hv, hp, hhost⟩
      rcases (hmem m).mp hm with hm | rfl | rfl
      · have hnot := h.portsFree m hm.1 hlink hexp
        rw [hbefore _ _ hid hport] at hnot
        cases hnot
      · have hnot := (hfree hlink hexp).1
        rw [hbefore _ _ hid hport] at hnot
        cases hnot
      · have hnot := (hfree ⟨hlink.2, hlink.1⟩ hexp).2
        rw [hbefore mib.dstID mib.dstPort hid hport] at hnot
        cases hnot
    · exact hdst hhost
    · -- the host is new, and its port leads to no switch
      rcases (hmem m).mp hm with hm | rfl | rfl
      · exact hrefuses ⟨hhost, hinv.leadsToSwitch_iff.mpr
          ⟨m, hm.1, hid.symm, hport.symm, hlink.2⟩⟩
      · exact hlink.1 hhost
      · exact hlink.2 hhost

theorem Kept.step (h : s.Kept) (hinv : s.mibGraph.Inv) (hregular : s.Regular e)
    (hs : s.step e = some s') : s'.Kept := by
  cases e with
  | advance time =>
    obtain ⟨hle, hs⟩ := (Option.ite_none_right_eq_some ..).mp hs
    cases hs
    exact ⟨h.noLoop, fun m hm hlink hexp => h.portsFree m hm hlink (hle.trans hexp)⟩
  | packetIn p timeOut =>
    cases hs
    exact h.packetIn hinv hregular
  | removeExpiredEntries =>
    cases hs
    refine ⟨fun m hm => ?_, fun m hm hlink hexp => ?_⟩
    · exact h.noLoop m (LLDPMibGraph.mem_edges_removeExpiredEntries.mp hm).1
    · have hm' := LLDPMibGraph.mem_edges_removeExpiredEntries.mp hm
      have hnot := h.portsFree m hm'.1 hlink hexp
      rw [← Bool.not_eq_true, hinv.hostAt_iff] at hnot
      rw [← Bool.not_eq_true, hinv.removeExpiredEntries.hostAt_iff]
      rintro ⟨m', hm', hhost⟩
      exact hnot ⟨m', (LLDPMibGraph.mem_edges_removeExpiredEntries.mp hm').1, hhost⟩

end

end Discovery

end TsnReconfig.LLDP
