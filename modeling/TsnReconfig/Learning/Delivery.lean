import TsnReconfig.Learning.Learned
import TsnReconfig.Lib.Lists

/-!
# Delivery

A frame for a station is on its way there until it has come.
-/

namespace TsnReconfig.Learning

open Lib

variable {V : Type*} {w : Wiring V} {d : V} {c : Copy V}

/-- The copy is going to get closer to a node, or is at a switch that will send it there. -/
def Copy.Towards (w : Wiring V) (c : Copy V) (d : V) : Prop :=
  match c.place with
  | .onLink u v => Closer w.graph d v u
  | .packetIn sw inport => Closer w.graph d sw inport
  | .packetOut sw inport none => Closer w.graph d sw inport
  | .packetOut sw _ (some outport) => Closer w.graph d outport sw

namespace LearningNetwork
variable {n n' : LearningNetwork V} {expired : Rule V → Bool} {frame : Frame V}

/-- A station has got a frame, or a copy is on its way to it. -/
def Arrives (w : Wiring V) (n : LearningNetwork V) (frame : Frame V) (d : V) : Prop :=
  (d, frame) ∈ n.received ∨ ∃ c ∈ n.copies, c.frame = frame ∧ c.Towards w d

variable [DecidableEq V]

theorem received_process {x : V × Frame V} (h : x ∈ n.received) :
    x ∈ (n.process w expired c).received := by
  obtain ⟨place, frame⟩ := c
  cases place with
  | onLink u v =>
    change x ∈ (n.processFrame w expired u v frame).received
    unfold processFrame
    split_ifs
    · exact h
    · exact List.mem_cons_of_mem _ h
  | packetIn sw inport =>
    change x ∈ (n.doSwitching sw inport frame).received
    unfold doSwitching
    dsimp only
    cases frame.dst.bind (n.learn sw frame.src inport sw) <;> exact h
  | packetOut => exact h

theorem copies_process {c' : Copy V} (h : c' ∈ n.copies) : c' ∈ (n.process w expired c).copies := by
  obtain ⟨place, frame⟩ := c
  cases place with
  | onLink u v =>
    change c' ∈ (n.processFrame w expired u v frame).copies
    unfold processFrame
    split_ifs
    · exact List.mem_append_left _ h
    · exact h
  | packetIn sw inport =>
    change c' ∈ (n.doSwitching sw inport frame).copies
    unfold doSwitching
    dsimp only
    cases frame.dst.bind (n.learn sw frame.src inport sw) <;> exact List.mem_append_left _ h
  | packetOut => exact List.mem_append_left _ h

theorem sent_process : (n.process w expired c).sent = n.sent := by
  obtain ⟨place, frame⟩ := c
  cases place with
  | onLink u v =>
    change (n.processFrame w expired u v frame).sent = n.sent
    unfold processFrame
    split_ifs <;> rfl
  | packetIn sw inport =>
    change (n.doSwitching sw inport frame).sent = n.sent
    unfold doSwitching
    dsimp only
    cases frame.dst.bind (n.learn sw frame.src inport sw) <;> rfl
  | packetOut => rfl

/-- A copy on its way to a station comes there, or leaves another one behind that is. -/
theorem Inv.arrives_process (h : n.Inv w) (hw : w.TreeNetwork) (hc : CopyOk w n.lookupTable c)
    (hd : w.isSwitch d = false) (hdst : c.frame.dst = some d) (htowards : c.Towards w d) :
    (n.process w expired c).Arrives w c.frame d := by
  obtain ⟨place, frame⟩ := c
  cases place with
  | onLink u v =>
    change (n.processFrame w expired u v frame).Arrives w frame d
    unfold LearningNetwork.processFrame
    by_cases hv : w.isSwitch v
    · rw [if_pos hv]
      refine .inr ⟨_, List.mem_append_right _ (List.mem_singleton_self _), rfl, ?_⟩
      cases hr : (lookup expired u frame (n.flowTable v)).1 with
      | none => exact htowards
      | some r =>
        obtain ⟨-, d', hd', hlookup⟩ := h.rule_spec hr
        obtain rfl : d' = d := Option.some.inj (hd'.symm.trans hdst)
        exact (h.learned v d' r.outport hlookup).2.1
    · rw [if_neg hv]
      have hv' : w.isSwitch v = false := by simpa using hv
      have hsame : d = v := by
        by_contra hne
        exact (hw.closer_of_station hv' hne htowards.adj.symm).not_symm htowards
      exact .inl (hsame ▸ List.mem_cons_self)
  | packetIn sw inport =>
    have hlearned := h.learn hc
    change (n.doSwitching sw inport frame).Arrives w frame d
    unfold LearningNetwork.doSwitching
    dsimp only
    cases hlookup : frame.dst.bind (n.learn sw frame.src inport sw) with
    | none =>
      exact .inr ⟨_, List.mem_append_right _ (List.mem_singleton_self _), rfl, htowards⟩
    | some outport =>
      obtain ⟨d', hd', hp⟩ := Option.bind_eq_some_iff.mp hlookup
      obtain rfl : d' = d := Option.some.inj (hd'.symm.trans hdst)
      exact .inr ⟨_, List.mem_append_right _ (List.mem_singleton_self _), rfl,
        (hlearned.learned sw d' outport hp).2.1⟩
  | packetOut sw inport outport =>
    obtain ⟨-, hsw, -, -, -⟩ := hc
    change (n.executePacketOutAction w sw inport outport frame).Arrives w frame d
    cases outport with
    | some p =>
      exact .inr ⟨⟨.onLink sw p, frame⟩, List.mem_append_right _ (List.mem_singleton_self _), rfl,
        htowards⟩
    | none =>
      have hne : sw ≠ d := by
        rintro rfl
        rw [hd] at hsw
        cases hsw
      -- the port on the way to the station is not the one where the frame came
      obtain ⟨x, hx⟩ := exists_closer hw.isTree hne
      have hin : x ≠ inport := by
        rintro rfl
        exact hx.not_symm htowards
      refine .inr ⟨⟨.onLink sw x, frame⟩, List.mem_append_right _ (List.mem_map.mpr
        ⟨x, List.mem_filter.mpr ⟨hw.mem_ports.mpr hx.adj.symm, by simpa using hin⟩, rfl⟩), rfl, hx⟩

/-- Every frame for another station arrives. -/
def AllArrive (w : Wiring V) (n : LearningNetwork V) : Prop :=
  ∀ frame ∈ n.sent, ∀ d, frame.dst = some d → w.isSwitch d = false → d ≠ frame.src →
    n.Arrives w frame d

theorem AllArrive.step {e : LearningEvent V} (h : n.AllArrive w) (hinv : n.Inv w)
    (hw : w.TreeNetwork) (hs : n.step w e = some n') : n'.AllArrive w := by
  cases e with
  | send frame =>
    rw [LearningNetwork.step] at hs
    split_ifs at hs with hsw
    cases hs
    have hstation : w.isSwitch frame.src = false := by simpa using hsw
    intro frame' hframe' d hdst hd hne
    rcases List.mem_cons.mp hframe' with rfl | hframe'
    · obtain ⟨x, hx⟩ := hw.station frame'.src hstation
      have hmem : x ∈ w.ports frame'.src := hx ▸ List.mem_singleton_self x
      refine .inr ⟨⟨.onLink frame'.src x, frame'⟩, List.mem_append_right _
        (List.mem_map_of_mem hmem), rfl, ?_⟩
      exact hw.closer_of_station hstation hne (hw.mem_ports.mp hmem).symm
    · rcases h frame' hframe' d hdst hd hne with hgot | ⟨c, hc, hcf, htowards⟩
      · exact .inl hgot
      · exact .inr ⟨c, List.mem_append_left _ hc, hcf, htowards⟩
  | move k expired =>
    obtain ⟨c, hc, rfl⟩ := Option.map_eq_some_iff.mp hs
    intro frame hframe d hdst hd hne
    rw [sent_process] at hframe
    rcases h frame hframe d hdst hd hne with hgot | ⟨c', hc', hcf, htowards⟩
    · exact .inl (received_process hgot)
    · rcases eq_or_mem_eraseIdx hc hc' with rfl | hrest
      · subst hcf
        exact (hinv.eraseCopy k).arrives_process hw (hinv.copies c' (List.mem_of_getElem? hc)) hd
          hdst htowards
      · exact .inr ⟨c', copies_process (n := { n with copies := n.copies.eraseIdx k }) hrest, hcf,
          htowards⟩
  | flowMod k =>
    obtain ⟨m, -, rfl⟩ := Option.map_eq_some_iff.mp hs
    exact h

/-- The ports in the table and in the rules of a switch are on the way to their stations, and the
next switch on this way knows the station, too. -/
theorem learned_ports (hw : w.TreeNetwork) (h : (system w).Reachable n) :
    (∀ v s p, n.lookupTable v s = some p → Closer w.graph s p v ∧
      (p = s ∨ (n.lookupTable p s).isSome)) ∧
    ∀ v, ∀ r ∈ n.flowTable v, ∃ d, r.dst = some d ∧ Closer w.graph d r.outport v := by
  have hinv := inv_of_reachable hw h
  refine ⟨fun v s p hp => (hinv.learned v s p hp).2, fun v r hr => ?_⟩
  obtain ⟨-, d, hd, hlookup⟩ := hinv.rules v r hr
  exact ⟨d, hd, (hinv.learned v d r.outport hlookup).2.1⟩

theorem reachable_line {n : LearningNetwork (Fin 4)} {es : List (LearningEvent (Fin 4))}
    (h : (system Wiring.line).runFrom {} es = some n) : (system Wiring.line).Reachable n := by
  have hinit : (system Wiring.line).init {} := rfl
  exact System.reachable_of_runFrom hinit h

theorem learned_ports_pingPong :
    ∃ n, (system Wiring.line).runFrom {} pingPong = some n ∧ n.lookupTable 1 3 = some 2 ∧
      n.lookupTable 2 3 = some 3 ∧ (n.flowTable 2).length = 1 ∧
      ∀ v s p, n.lookupTable v s = some p → Closer Wiring.line.graph s p v := by
  obtain ⟨n, hn, hfirst, hsecond, hrules⟩ : ∃ n, (system Wiring.line).runFrom {} pingPong = some n ∧
      n.lookupTable 1 3 = some 2 ∧ n.lookupTable 2 3 = some 3 ∧ (n.flowTable 2).length = 1 :=
    ⟨_, rfl, rfl, rfl, rfl⟩
  have h := learned_ports Wiring.treeNetwork_line (reachable_line hn)
  exact ⟨n, hn, hfirst, hsecond, hrules, fun v s p hp => (h.1 v s p hp).1⟩

end LearningNetwork

end TsnReconfig.Learning
