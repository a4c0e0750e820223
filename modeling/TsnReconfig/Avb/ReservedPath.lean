import TsnReconfig.Avb.StreamSetup

/-!
# Reserved paths

A listener at a port was asked for by the node behind it, which had a listener at that time. So as
long as a reservation is young enough, the whole path down to a sink is reserved.
-/

namespace TsnReconfig.Avb

open Lib OpenFlow SRPNodeState

def SRPMessage.isListenerReadyFailed : SRPMessage → Bool
  | .listenerReadyFailed _ => true
  | _ => false

namespace SRPNetwork
variable {V : Type*} {w : Wiring V} {c : V → SRPNode} {n n' : SRPNetwork V} {u v r : V}
  {vid : UInt16} {sid : UInt64} {f : LinkFrame V} {latency time time' : SimTime}

/-- No frame takes longer than the latency, and all listeners are admitted. -/
def AllAdmitted (latency : SimTime) (n : SRPNetwork V) : Prop :=
  ∀ f ∈ n.frames, n.now ≤ f.sentAt + latency ∧ f.message.isListenerReadyFailed = false

/-- A listener of a stream that is not older than a time, unless it may have aged. -/
def Fresh (c : V → SRPNode) (n : SRPNetwork V) (vid : UInt16) (sid : UInt64) (v : V)
    (time : SimTime) : Prop :=
  ((c v).protocol.agingTime ≠ 0 ∧ time + (c v).protocol.agingTime ≤ n.now) ∨
    ∃ m e, (n.node v).table.listener vid sid m = some e ∧ time ≤ e.insertionTime

theorem Fresh.mono (h : Fresh c n vid sid v time) (hle : time' ≤ time) :
    Fresh c n vid sid v time' := by
  rcases h with ⟨hne, haged⟩ | ⟨m, e, he, htime⟩
  · exact .inl ⟨hne, (Int.add_le_add_right hle _).trans haged⟩
  · exact .inr ⟨m, e, he, hle.trans htime⟩

theorem Fresh.passed (h : Fresh c n vid sid v time) (hp : Passed w c n n') (hle : time ≤ n.now) :
    Fresh c n' vid sid v time := by
  rcases h with ⟨hne, haged⟩ | ⟨m, e, he, htime⟩
  · exact .inl ⟨hne, haged.trans hp.later.now⟩
  · rcases hp.kept v vid sid m e he with ⟨hne, haged⟩ | hsame | hnew
    · have haged' : time + (c v).protocol.agingTime ≤ n.now :=
        (Int.add_le_add_right htime _).trans haged
      exact .inl ⟨hne, haged'.trans hp.later.now⟩
    · exact .inr ⟨m, e, hsame, htime⟩
    · exact .inr ⟨m, _, hnew, hle⟩

/-- A `ListenerReady` comes from a node with a listener, and a listener at a port was asked for
by a node that had one. -/
structure AskedFor (w : Wiring V) (c : V → SRPNode) (latency : SimTime) (n : SRPNetwork V) :
    Prop where
  frames : ∀ f ∈ n.frames, ∀ m, f.message = .listenerReady m →
    Fresh c n m.vlanIdentifier m.streamID f.src f.sentAt
  listeners : ∀ v vid sid i e, (n.node v).table.listener vid sid (.phy i) = some e →
    e.insertionTime ≤ n.now ∧ ∃ x, (w.ports v)[i]? = some x ∧
      Fresh c n vid sid x (e.insertionTime - latency)

theorem AskedFor.passed (h : AskedFor w c latency n) (hn : n.Inv w c) (hp : Passed w c n n')
    (hlatency : 0 ≤ latency) (hok : n.AllAdmitted latency) : AskedFor w c latency n' where
  frames f hf m hm := by
    rcases hp.sent f hf with hold | ⟨hsent, hnew⟩
    · exact (h.frames f hold m hm).passed hp (hn.frames f hold).2.1
    · obtain ⟨module, hmodule⟩ := hnew m hm
      exact .inr ⟨module, _, hmodule, hsent.le⟩
  listeners v vid sid i e he := by
    rcases hp.listener v vid sid i e he with hold | ⟨rfl, f, hf, -, hport, hasks⟩
    · obtain ⟨hle, x, hx, hfresh⟩ := h.listeners v vid sid i e hold
      refine ⟨hle.trans hp.later.now, x, hx, hfresh.passed hp ?_⟩
      exact (Int.sub_le_self _ hlatency).trans hle
    · -- the node behind the port had a listener when it sent the frame
      obtain ⟨hintime, hadmitted⟩ := hok f hf
      have hready : f.message = .listenerReady ⟨sid, vid⟩ := by
        refine hasks.resolve_right fun hfailed => ?_
        rw [hfailed] at hadmitted
        cases hadmitted
      have hfresh : Fresh c n' vid sid f.src f.sentAt :=
        (h.frames f hf _ hready).passed hp (hn.frames f hf).2.1
      refine ⟨hp.later.now, f.src, hport, hfresh.mono ?_⟩
      exact Int.sub_right_le_of_le_add hintime

theorem Fresh.advance (h : Fresh c n vid sid v time) {now : SimTime} (hle : n.now ≤ now) :
    Fresh c { n with now := now } vid sid v time :=
  h.imp_left fun haged => ⟨haged.1, haged.2.trans hle⟩

theorem AskedFor.advance (h : AskedFor w c latency n) {now : SimTime} (hle : n.now ≤ now) :
    AskedFor w c latency { n with now := now } where
  frames f hf m hm := (h.frames f hf m hm).advance hle
  listeners v vid sid i e he := by
    obtain ⟨htime, x, hx, hfresh⟩ := h.listeners v vid sid i e he
    exact ⟨htime.trans hle, x, hx, hfresh.advance hle⟩

/-- A stream has listeners from port to port down to a sink. -/
inductive ReachesSink (w : Wiring V) (n : SRPNetwork V) (vid : UInt16) (sid : UInt64) : V → Prop
  | sink {v : V} {k : ℕ} (h : ((n.node v).table.listener vid sid (.sink k)).isSome) :
    ReachesSink w n vid sid v
  | port {v x : V} {i : ℕ} (h : ((n.node v).table.listener vid sid (.phy i)).isSome)
    (hport : (w.ports v)[i]? = some x) (hx : ReachesSink w n vid sid x) : ReachesSink w n vid sid v

/-- Down a path the reservations are older by at most the latency at each link. -/
theorem AskedFor.reachesSink [Fintype V] (h : AskedFor w c latency n) (hn : n.Inv w c)
    (hc : Configured w c) (hlatency : 0 ≤ latency) {k : ℕ} {app : AVBTrafficSourceApp}
    (hr : IsTalker c vid sid r k app) {d : ℕ}
    {m : SRPModule} {e : ListenerEntry} (hd : Fintype.card V ≤ w.graph.dist r v + d)
    (he : (n.node v).table.listener vid sid m = some e)
    (hyoung : ∀ u, (c u).protocol.agingTime = 0 ∨
      n.now + d * latency < e.insertionTime + (c u).protocol.agingTime) :
    n.ReachesSink w vid sid v := by
  have hsome : ((n.node v).table.listener vid sid m).isSome := Option.isSome_iff_exists.mpr ⟨e, he⟩
  induction d generalizing v m e with
  | zero =>
    obtain ⟨p, hp, hlength⟩ := hc.tree.isTree.connected.exists_path_of_dist r v
    have hlt := hp.length_lt
    omega
  | succ d ih =>
    cases m with
    | source j =>
      rw [(hn.node v).source] at hsome
      cases hsome
    | sink j => exact .sink hsome
    | phy i =>
      obtain ⟨x, r', k', app', hx, hr', hcloser⟩ := hn.listeners v vid sid i hsome
      obtain ⟨rfl, rfl⟩ := hc.unique _ _ _ _ _ _ _ _ hr hr'
      obtain ⟨hle, x', hx', hfresh⟩ := h.listeners v vid sid i e he
      obtain rfl : x = x' := Option.some.inj (hx.symm.trans hx')
      refine .port hsome hx ?_
      rcases hfresh with ⟨hne, haged⟩ | ⟨m', e', he', htime⟩
      · have hlt := (hyoung x).resolve_left hne
        have hpos : 0 ≤ (d : SimTime) * latency := mul_nonneg (Int.natCast_nonneg d) hlatency
        push_cast at hlt
        linarith
      · refine ih ?_ he' (fun u => (hyoung u).imp_right fun hlt => ?_)
          (Option.isSome_iff_exists.mpr ⟨e', he'⟩)
        · have hdist := hcloser.2
          omega
        · push_cast at hlt
          linarith

section
variable [DecidableEq V]

theorem askedFor_of_reachable (hc : Configured w c) (hlatency : 0 ≤ latency)
    (h : (system w c).ReachableUnder (fun n _ => n.AllAdmitted latency) n) :
    n.Inv w c ∧ AskedFor w c latency n := by
  refine h.invariant (P := fun n => n.Inv w c ∧ AskedFor w c latency n) (fun n hinit => ?_)
    fun n event n' _ hP hok hstep => ?_
  · obtain rfl : n = {} := hinit
    exact ⟨inv_init, fun _ hf => (nomatch hf), fun _ _ _ _ _ he => nomatch he⟩
  · rcases hP.1.step_cases hc hstep with hpassed | ⟨time, hle, rfl⟩
    · exact ⟨hpassed.inv, hP.2.passed hP.1 hpassed hlatency hok⟩
    · exact ⟨hP.1.advance hle, hP.2.advance hle⟩

/-- In runs without refused listeners, a young reservation goes all the way down to a sink. -/
theorem reserved_down_to_sink [Fintype V] (hc : Configured w c) (hlatency : 0 ≤ latency)
    (h : (system w c).ReachableUnder (fun n _ => n.AllAdmitted latency) n) {k : ℕ}
    {app : AVBTrafficSourceApp} (hr : IsTalker c vid sid r k app) {m : SRPModule}
    {e : ListenerEntry} (he : (n.node v).table.listener vid sid m = some e)
    (hyoung : ∀ u, (c u).protocol.agingTime = 0 ∨
      n.now + Fintype.card V * latency < e.insertionTime + (c u).protocol.agingTime) :
    n.ReachesSink w vid sid v := by
  obtain ⟨hinv, hasked⟩ := askedFor_of_reachable hc hlatency h
  exact hasked.reachesSink hinv hc hlatency hr (Nat.le_add_left _ _) he hyoung

instance (latency : SimTime) (n : SRPNetwork V) : Decidable (n.AllAdmitted latency) :=
  inferInstanceAs (Decidable (∀ f ∈ n.frames, _))

theorem reserved_down_to_sink_line : ∃ n : SRPNetwork LineNode,
    (n.node .talker).isStreaming 0 = true ∧ n.ReachesSink lineWiring 2 1 .talker := by
  have hrun : ((system lineWiring lineNode).runUnder (fun n _ => n.AllAdmitted 1) {}
      lineEvents).any (fun n => n.now = 0 ∧ (n.node .talker).isStreaming 0 = true ∧
        ((n.node .talker).table.listener 2 1 (.phy 0)).any (·.insertionTime = 0) = true) = true := by
    decide +kernel
  obtain ⟨n, hn, hany⟩ := (Option.any_eq_true _ _).mp hrun
  obtain ⟨hnow, hstreaming, hlistener⟩ := of_decide_eq_true hany
  obtain ⟨e, he, htime⟩ := (Option.any_eq_true _ _).mp hlistener
  have hinit : (system lineWiring lineNode).init {} := rfl
  refine ⟨n, hstreaming, reserved_down_to_sink configured_line (by decide : (0 : SimTime) ≤ 1)
    (System.ReachableUnder.run (.init hinit) hn) isTalker_lineNode he fun u => .inr ?_⟩
  rw [hnow, of_decide_eq_true htime]
  change (0 : SimTime) + (4 : ℕ) * 1 < 0 + 7
  decide

end

end SRPNetwork

end TsnReconfig.Avb
