import Mathlib.Logic.Function.Basic
import TsnReconfig.Avb.NodeAdmission
import TsnReconfig.Lib.TreeNetwork

/-!
# Networks with stream reservation

Switches and end stations that send each other the messages of `SRProtocol`, which are delivered in
any order. In a tree network every node gets to know each talker at the port on the way to it.
-/

namespace TsnReconfig.Avb

open Lib OpenFlow SRPNodeState

/-- An SRP frame on a link, with the time at which it was sent. -/
structure LinkFrame (V : Type*) where
  src : V
  dst : V
  sentAt : SimTime
  message : SRPMessage
  deriving DecidableEq

/-- A frame is an advertisement of a stream. -/
def LinkFrame.Advertises {V : Type*} (f : LinkFrame V) (vid : UInt16) (sid : UInt64) : Prop :=
  ∃ m, f.message = .talkerAdvertise m ∧ m.vlanIdentifier = vid ∧ m.streamID = sid

/-- A frame asks for a listener. -/
def LinkFrame.AsksFor {V : Type*} (f : LinkFrame V) (vid : UInt16) (sid : UInt64) : Prop :=
  f.message = .listenerReady ⟨sid, vid⟩ ∨ f.message = .listenerReadyFailed ⟨sid, vid⟩

structure SRPNetwork (V : Type*) where
  now : SimTime := 0
  node : V → SRPNodeState := fun _ => {}
  frames : List (LinkFrame V) := []

/-- What happens in the network. Other modules query the table of a node. -/
inductive SRPEvent (V : Type*)
  | advance (time : SimTime)
  | start (v : V) (k : ℕ)
  | deliver (k : ℕ)
  | selfMessage (v : V) (i : ℕ)
  | query (v : V)

namespace SRPNetwork
variable {V : Type*}

section
variable [DecidableEq V] (w : Wiring V) (c : V → SRPNode) (n : SRPNetwork V)

/-- `SRPRelay::dispatchSRP`; that of `SRPEtherEncap` is the same for the one port of an end
station. -/
def dispatchSRP (v : V) (d : Dispatch) : Option (List (LinkFrame V)) :=
  match d.switchPort with
  | none => some (((w.ports v).zipIdx.filter fun port => some port.2 ≠ d.notSwitchPort).map
      fun port => ⟨v, port.1, n.now, d.message⟩)
  | some i => (w.ports v)[i]?.map fun u => [⟨v, u, n.now, d.message⟩]

/-- A node after an event, with its messages on their links. -/
def settle (v : V) (s : SRPNodeState) : Option (SRPNetwork V) :=
  (s.out.mapM (n.dispatchSRP w v)).map fun frames =>
    { n with
      node := Function.update n.node v { s with out := [] }
      frames := n.frames ++ frames.flatten }

/-- A frame at the other end of its link. -/
def receive (frame : LinkFrame V) : Option SRPNodeState :=
  (n.node frame.dst).handleMessage (c frame.dst) n.now ((w.ports frame.dst).idxOf frame.src)
    frame.message

def step (n : SRPNetwork V) : SRPEvent V → Option (SRPNetwork V)
  | .advance time => if n.now ≤ time then some { n with now := time } else none
  | .start v k => ((n.node v).start (c v) n.now k).bind (n.settle w v)
  | .deliver k => n.frames[k]?.bind fun frame =>
    (n.receive w c frame).bind ({ n with frames := n.frames.eraseIdx k }.settle w frame.dst)
  | .selfMessage v i => ((n.node v).handleSelfMessage (c v) n.now i).bind (n.settle w v)
  | .query v => n.settle w v ((n.node v).removeAgedEntriesIfNeeded (c v) n.now)

def system : System (SRPNetwork V) (SRPEvent V) where
  init n := n = {}
  step := step w c

/-- An event that can come about: the time goes on, a source starts once, a frame or a self-message
is there, and a self-message is due. -/
def Possible : SRPEvent V → Prop
  | .advance time => n.now ≤ time
  | .start v k => k < (c v).sources.length ∧ k ∉ (n.node v).started
  | .deliver k => k < n.frames.length
  | .selfMessage v i => ∃ x, (n.node v).selfMessages[i]? = some x ∧ x.2 ≤ n.now
  | .query _ => True

end

/-- A stream has its source `k` at a node. -/
def IsTalker (c : V → SRPNode) (vid : UInt16) (sid : UInt64) (r : V) (k : ℕ)
    (app : AVBTrafficSourceApp) : Prop :=
  (c r).sources[k]? = some app ∧ app.vlanId = vid ∧ app.streamID = sid

/-- A tree network in which every stream has one source, and the nodes agree on the priorities of
the classes. -/
structure Configured (w : Wiring V) (c : V → SRPNode) : Prop where
  tree : w.TreeNetwork
  unique : ∀ vid sid u v k k' app app', IsTalker c vid sid u k app → IsTalker c vid sid v k' app' →
    u = v ∧ k = k'
  pcpSRClassA : ∀ u v, (c u).protocol.pcpSRClassA = (c v).protocol.pcpSRClassA
  pcpSRClassB : ∀ u v, (c u).protocol.pcpSRClassB = (c v).protocol.pcpSRClassB
  pcp_lt : ∀ v, (c v).protocol.pcpSRClassA < 8 ∧ (c v).protocol.pcpSRClassB < 8
  pcp_ne : ∀ v, (c v).protocol.pcpSRClassA ≠ (c v).protocol.pcpSRClassB

end SRPNetwork

/-! ## The data of a talker -/

/-- The entry of a talker has the data of its source. -/
structure TalkerEntry.Describes (e : TalkerEntry SRPModule) (app : AVBTrafficSourceApp) : Prop where
  srClass : e.srClass = app.srClass
  address : e.address = app.multicastMAC
  framesize : e.framesize = .ofNat app.frameSize
  intervalFrames : e.intervalFrames = app.intervalFrames
  isStatic : e.isStatic = false

theorem AVBTrafficSourceApp.frameSize_lt (app : AVBTrafficSourceApp) : app.frameSize < 65536 := by
  have hle := app.payload_le
  unfold frameSize
  split_ifs
  · omega
  · omega

theorem AVBTrafficSourceApp.frameSize_pos (app : AVBTrafficSourceApp) : 0 < app.frameSize := by
  unfold frameSize
  split_ifs
  · omega
  · omega

/-- The class is read off the priority and rank again. -/
theorem SRProtocol.srClassOf_priorityAndRankOf {M : Type*} (p p' : SRProtocol M)
    (hA : p'.pcpSRClassA = p.pcpSRClassA) (hB : p'.pcpSRClassB = p.pcpSRClassB)
    (hlt : p.pcpSRClassA < 8 ∧ p.pcpSRClassB < 8) (hne : p.pcpSRClassA ≠ p.pcpSRClassB)
    (srClass : SRClass) : p'.srClassOf (p.priorityAndRankOf srClass) = srClass := by
  have hinj : ∀ a b : Fin 8, (0x10 : UInt8) ||| (UInt8.ofNat a <<< 5) =
      (0x10 : UInt8) ||| (UInt8.ofNat b <<< 5) → a = b := by
    decide
  have hranks : p.priortyAndRankSRClassB ≠ p.priortyAndRankSRClassA := by
    intro heq
    have hA' : p.pcpSRClassA = UInt8.ofNat p.pcpSRClassA.toNat := UInt8.ofNat_toNat.symm
    have hB' : p.pcpSRClassB = UInt8.ofNat p.pcpSRClassB.toNat := UInt8.ofNat_toNat.symm
    unfold priortyAndRankSRClassA priortyAndRankSRClassB at heq
    rw [hA', hB'] at heq
    have heq' := hinj ⟨p.pcpSRClassB.toNat, UInt8.lt_iff_toNat_lt.mp hlt.2⟩
      ⟨p.pcpSRClassA.toNat, UInt8.lt_iff_toNat_lt.mp hlt.1⟩ heq
    refine hne (UInt8.toNat_inj.mp ?_)
    exact (Fin.mk.inj heq').symm
  have hA' : p'.priortyAndRankSRClassA = p.priortyAndRankSRClassA := by
    rw [priortyAndRankSRClassA, hA, priortyAndRankSRClassA]
  have hB' : p'.priortyAndRankSRClassB = p.priortyAndRankSRClassB := by
    rw [priortyAndRankSRClassB, hB, priortyAndRankSRClassB]
  unfold srClassOf priorityAndRankOf
  rw [hA', hB']
  cases srClass with
  | A => exact if_pos rfl
  | B => rw [if_neg hranks, if_pos rfl]

namespace SRPNetwork
variable {V : Type*} {w : Wiring V} {c : V → SRPNode} {n n' : SRPNetwork V} {u v r : V}
  {vid : UInt16} {sid : UInt64} {e : TalkerEntry SRPModule} {app : AVBTrafficSourceApp}
  {f : LinkFrame V} {d : Dispatch} {s' : SRPNodeState}

/-- What a node makes of an advertisement describes the source, too. -/
theorem Configured.describes (hc : Configured w c) (he : e.Describes app) (u v : V) (i : ℕ)
    (now : SimTime) : TalkerEntry.Describes {
      srClass := (c v).protocol.srClassOf ((c u).protocol.advertisement vid sid e).priorityAndRank
      address := ((c u).protocol.advertisement vid sid e).destinationAddress
      module := .phy i
      framesize := .ofNat ((c u).protocol.advertisement vid sid e).maxFrameSize.toNat
      intervalFrames := ((c u).protocol.advertisement vid sid e).maxIntervalFrames
      pcp := (((c u).protocol.advertisement vid sid e).priorityAndRank &&& 0xE0) >>> 5
      insertionTime := now
      isStatic := false } app where
  srClass := by
    refine Eq.trans ?_ he.srClass
    exact (c u).protocol.srClassOf_priorityAndRankOf (c v).protocol (hc.pcpSRClassA v u)
      (hc.pcpSRClassB v u) (hc.pcp_lt u) (hc.pcp_ne u) e.srClass
  address := he.address
  framesize := by
    have hlt := app.frameSize_lt
    have hsize : e.framesize.toNat = app.frameSize := by
      rw [he.framesize, UInt64.toNat_ofNat']
      exact Nat.mod_eq_of_lt (hlt.trans (by decide))
    change UInt64.ofNat (UInt16.ofNat e.framesize.toNat).toNat = .ofNat app.frameSize
    rw [hsize, UInt16.toNat_ofNat', Nat.mod_eq_of_lt hlt]
  intervalFrames := he.intervalFrames
  isStatic := rfl

/-! ## Invariants -/

/-- A node has a talker for a stream. -/
def Knows (n : SRPNetwork V) (vid : UInt16) (sid : UInt64) (v : V) : Prop :=
  ((n.node v).table.talker vid sid).isSome

/-- A stream has a source that has started. -/
def Started (c : V → SRPNode) (n : SRPNetwork V) (vid : UInt16) (sid : UInt64) (r : V) (k : ℕ)
    (app : AVBTrafficSourceApp) : Prop :=
  IsTalker c vid sid r k app ∧ k ∈ (n.node r).started

/-- A talker is known at the node of its source, or at the port on the way to it. -/
def TalkerOk (w : Wiring V) (c : V → SRPNode) (n : SRPNetwork V) (v : V) (vid : UInt16)
    (sid : UInt64) (e : TalkerEntry SRPModule) : Prop :=
  ∃ r k app, Started c n vid sid r k app ∧ e.Describes app ∧
    (v = r ∧ e.module = .source k ∨
      ∃ u i, Closer w.graph r u v ∧ (w.ports v)[i]? = some u ∧ e.module = .phy i ∧
        n.Knows vid sid u)

/-- A listener at a port is for a node that is farther away from the talker. -/
def ListenerOk (w : Wiring V) (c : V → SRPNode) (v : V) (vid : UInt16) (sid : UInt64) (i : ℕ) :
    Prop :=
  ∃ u r k app, (w.ports v)[i]? = some u ∧ IsTalker c vid sid r k app ∧ Closer w.graph r v u

/-- Advertisements go away from the talker and listeners towards it. -/
def MessageOk (w : Wiring V) (c : V → SRPNode) (n : SRPNetwork V) (u v : V) : SRPMessage → Prop
  | .talkerAdvertise m => ∃ r k app e, Started c n m.vlanIdentifier m.streamID r k app ∧
      e.Describes app ∧ m = (c u).protocol.advertisement m.vlanIdentifier m.streamID e ∧
      Closer w.graph r u v ∧ n.Knows m.vlanIdentifier m.streamID u
  | .listenerReady m | .listenerReadyFailed m => n.Knows m.vlanIdentifier m.streamID v ∧
      ∃ r k app, IsTalker c m.vlanIdentifier m.streamID r k app ∧ Closer w.graph r v u
  | .listenerAskingFailed _ => True

def FrameOk (w : Wiring V) (c : V → SRPNode) (n : SRPNetwork V) (f : LinkFrame V) : Prop :=
  w.graph.Adj f.src f.dst ∧ f.sentAt ≤ n.now ∧ MessageOk w c n f.src f.dst f.message

structure Inv (w : Wiring V) (c : V → SRPNode) (n : SRPNetwork V) : Prop where
  node : ∀ v, (n.node v).Inv (c v)
  streams : ∀ v, (n.node v).Streams (c v)
  out : ∀ v, (n.node v).out = []
  talkers : ∀ v vid sid e, (n.node v).table.talker vid sid = some e → TalkerOk w c n v vid sid e
  listeners : ∀ v vid sid i, ((n.node v).table.listener vid sid (.phy i)).isSome →
    ListenerOk w c v vid sid i
  frames : ∀ f ∈ n.frames, FrameOk w c n f

/-- The second network is a later one. -/
structure Later (n n' : SRPNetwork V) : Prop where
  now : n.now ≤ n'.now
  knows : ∀ vid sid v, n.Knows vid sid v → n'.Knows vid sid v
  started : ∀ v, (n.node v).started ⊆ (n'.node v).started

theorem Later.trans {n'' : SRPNetwork V} (h : Later n n') (h' : Later n' n'') : Later n n'' where
  now := h.now.trans h'.now
  knows vid sid v hv := h'.knows vid sid v (h.knows vid sid v hv)
  started v := List.Subset.trans (h.started v) (h'.started v)

theorem Later.startedTalker (h : Later n n') {k : ℕ} (hs : Started c n vid sid r k app) :
    Started c n' vid sid r k app :=
  ⟨hs.1, h.started r hs.2⟩

theorem Later.talkerOk (h : Later n n') (ht : TalkerOk w c n v vid sid e) :
    TalkerOk w c n' v vid sid e := by
  obtain ⟨r, k, app, hs, he, hplace⟩ := ht
  refine ⟨r, k, app, h.startedTalker hs, he, hplace.imp_right ?_⟩
  rintro ⟨u, i, hcloser, hport, hmodule, hknows⟩
  exact ⟨u, i, hcloser, hport, hmodule, h.knows _ _ _ hknows⟩

theorem Later.frameOk (h : Later n n') (hf : FrameOk w c n f) : FrameOk w c n' f := by
  obtain ⟨hadj, hsent, hmessage⟩ := hf
  refine ⟨hadj, hsent.trans h.now, ?_⟩
  cases hm : f.message with
  | talkerAdvertise m =>
    rw [hm] at hmessage
    obtain ⟨r, k, app, e, hs, he, hm, hcloser, hknows⟩ := hmessage
    exact ⟨r, k, app, e, h.startedTalker hs, he, hm, hcloser, h.knows _ _ _ hknows⟩
  | listenerReady m =>
    rw [hm] at hmessage
    exact hmessage.imp_left (h.knows _ _ _)
  | listenerReadyFailed m =>
    rw [hm] at hmessage
    exact hmessage.imp_left (h.knows _ _ _)
  | listenerAskingFailed m => trivial

/-! ## What a node sends -/

/-- What leaves a node gets to the other ends of links, and an advertisement to all nodes behind
it. -/
def Dispatched (w : Wiring V) (c : V → SRPNode) (n : SRPNetwork V) (v : V) (d : Dispatch) : Prop :=
  ∃ l, n.dispatchSRP w v d = some l ∧
    (∀ f ∈ l, FrameOk w c n f ∧ f.src = v ∧ f.sentAt = n.now ∧ f.message = d.message) ∧
    ∀ m, d.message = .talkerAdvertise m → ∀ r k app x,
      IsTalker c m.vlanIdentifier m.streamID r k app → Closer w.graph r v x → ∃ f ∈ l, f.dst = x

/-- A message goes to the port of its talker. -/
theorem Inv.dispatched_toTalker (hn : n.Inv w c) {m : ListenerReady} (hto : s'.ToTalker m d)
    (htalker : ∀ vid sid, s'.table.talker vid sid = (n.node v).table.talker vid sid)
    (hnot : ∀ m', d.message ≠ .talkerAdvertise m')
    (hmessage : ∀ u r k app, n.Knows m.vlanIdentifier m.streamID u →
      IsTalker c m.vlanIdentifier m.streamID r k app → Closer w.graph r u v →
      MessageOk w c n v u d.message) : Dispatched w c n v d := by
  obtain ⟨e, i, he, hmodule, hport⟩ := hto
  rw [htalker] at he
  obtain ⟨r, k, app, hs, -, hplace⟩ := hn.talkers v _ _ e he
  rcases hplace with ⟨-, hsource⟩ | ⟨u, j, hcloser, hj, hphy, hknows⟩
  · rw [hmodule] at hsource
    cases hsource
  · rw [hmodule] at hphy
    cases hphy
    refine ⟨[⟨v, u, n.now, d.message⟩], ?_, fun f hf => ?_, fun m' hm' => (hnot m' hm').elim⟩
    · unfold dispatchSRP
      rw [hport]
      exact Option.map_eq_some_iff.mpr ⟨u, hj, rfl⟩
    · rw [List.mem_singleton.mp hf]
      exact ⟨⟨hcloser.adj.symm, le_rfl, hmessage u r k app hknows hs.1 hcloser⟩, rfl, rfl, rfl⟩

/-- An advertisement goes everywhere but to the port of its talker. -/
theorem Inv.dispatched_advertise (hn : n.Inv w c) (hc : Configured w c) {m : TalkerAdvertise}
    (hd : d.message = .talkerAdvertise m) (hport : d.switchPort = none)
    (he : (n.node v).table.talker m.vlanIdentifier m.streamID = some e)
    (hnot : d.notSwitchPort = e.module.portIndex)
    (hm : m = (c v).protocol.advertisement m.vlanIdentifier m.streamID e) :
    Dispatched w c n v d := by
  obtain ⟨r, k, app, hs, hdescribes, hplace⟩ := hn.talkers v _ _ e he
  have haway : ∀ x i, (w.ports v)[i]? = some x →
      (some i ≠ d.notSwitchPort ↔ Closer w.graph r v x) := by
    intro x i hi
    have hadj : w.graph.Adj v x := hc.tree.mem_ports.mp (List.mem_of_getElem? hi)
    rw [hnot]
    rcases hplace with ⟨rfl, hsource⟩ | ⟨u, j, hcloser, hj, hphy, -⟩
    · rw [hsource]
      refine ⟨fun _ => ?_, fun _ h => nomatch h⟩
      exact (closer_or_closer hc.tree.isTree v hadj).resolve_right fun h => h.ne_root rfl
    · rw [hphy]
      constructor
      · intro hne
        refine (closer_or_closer hc.tree.isTree r hadj).resolve_right fun h => hne ?_
        rw [h.unique hc.tree.isTree hcloser] at hi
        rw [hc.tree.port_unique hi hj]
        rfl
      · intro hx heq
        cases heq
        rw [hi] at hj
        cases hj
        exact hx.not_symm hcloser
  refine ⟨_, by unfold dispatchSRP; rw [hport], fun f hf => ?_, fun m' hm' r' k' app' x hs' hx => ?_⟩
  · obtain ⟨⟨x, i⟩, hport, rfl⟩ := List.mem_map.mp hf
    rw [List.mem_filter, decide_eq_true_eq, List.mem_zipIdx_iff_getElem?] at hport
    have hcloser := (haway x i hport.1).mp hport.2
    refine ⟨⟨hcloser.adj, le_rfl, ?_⟩, rfl, rfl, rfl⟩
    dsimp only
    rw [hd]
    exact ⟨r, k, app, e, hs, hdescribes, hm, hcloser, Option.isSome_iff_exists.mpr ⟨e, he⟩⟩
  · rw [hd] at hm'
    cases hm'
    obtain ⟨rfl, rfl⟩ := hc.unique _ _ _ _ _ _ _ _ hs.1 hs'
    obtain ⟨i, hi⟩ := List.mem_iff_getElem?.mp (hc.tree.mem_ports.mpr hx.adj)
    refine ⟨_, List.mem_map.mpr ⟨(x, i), ?_, rfl⟩, rfl⟩
    rw [List.mem_filter, decide_eq_true_eq, List.mem_zipIdx_iff_getElem?]
    exact ⟨hi, (haway x i hi).mpr hx⟩

theorem Inv.dispatched (hn : n.Inv w c) (hc : Configured w c) (hok : OutOk (c v) n.now s' d)
    (htalker : ∀ vid sid, s'.table.talker vid sid = (n.node v).table.talker vid sid) :
    Dispatched w c n v d := by
  unfold OutOk at hok
  cases hm : d.message with
  | talkerAdvertise m =>
    rw [hm] at hok
    obtain ⟨hport, e, he, hnot, hadvertisement⟩ := hok
    rw [htalker] at he
    exact hn.dispatched_advertise hc hm hport he hnot hadvertisement
  | listenerReady m =>
    rw [hm] at hok
    refine hn.dispatched_toTalker hok.1 htalker (fun m' h => ?_) fun u r k app hknows hs hcloser => ?_
    · rw [hm] at h
      cases h
    · rw [hm]
      exact ⟨hknows, r, k, app, hs, hcloser⟩
  | listenerReadyFailed m =>
    rw [hm] at hok
    refine hn.dispatched_toTalker hok htalker (fun m' h => ?_) fun u r k app hknows hs hcloser => ?_
    · rw [hm] at h
      cases h
    · rw [hm]
      exact ⟨hknows, r, k, app, hs, hcloser⟩
  | listenerAskingFailed m =>
    rw [hm] at hok
    refine hn.dispatched_toTalker hok htalker (fun m' h => ?_) fun u r k app hknows hs hcloser => ?_
    · rw [hm] at h
      cases h
    · rw [hm]
      trivial

/-! ## What an event does -/

/-- An event at the present time. New listeners are asked for by frames, new frames are of the present
time, a node that gets to know a talker advertises it, and no advertisement is lost. -/
structure Passed (w : Wiring V) (c : V → SRPNode) (n n' : SRPNetwork V) : Prop where
  inv : n'.Inv w c
  now : n'.now = n.now
  later : Later n n'
  listener : ∀ v vid sid i e, (n'.node v).table.listener vid sid (.phy i) = some e →
    (n.node v).table.listener vid sid (.phy i) = some e ∨ e = ⟨n.now, false⟩ ∧
      ∃ f ∈ n.frames, f.dst = v ∧ (w.ports v)[i]? = some f.src ∧ f.AsksFor vid sid
  kept : ∀ v vid sid m e, (n.node v).table.listener vid sid m = some e →
    ((c v).protocol.agingTime ≠ 0 ∧ e.aging (c v).protocol.agingTime ≤ n.now) ∨
      (n'.node v).table.listener vid sid m = some e ∨
      (n'.node v).table.listener vid sid m = some ⟨n.now, false⟩
  sent : ∀ f ∈ n'.frames, f ∈ n.frames ∨ f.sentAt = n.now ∧ ∀ m, f.message = .listenerReady m →
    ∃ module, (n'.node f.src).table.listener m.vlanIdentifier m.streamID module =
      some ⟨n.now, false⟩
  known : ∀ vid sid v, n'.Knows vid sid v → n.Knows vid sid v ∨
    ∀ r k app x, IsTalker c vid sid r k app → Closer w.graph r v x →
      ∃ f ∈ n'.frames, f.src = v ∧ f.dst = x ∧ f.Advertises vid sid
  delivered : ∀ f ∈ n.frames, f ∈ n'.frames ∨ ∀ vid sid, f.Advertises vid sid →
    n'.Knows vid sid f.dst
  started : ∀ vid sid r k app, Started c n' vid sid r k app →
    Started c n vid sid r k app ∨ n'.Knows vid sid r
  fits : ∀ v, (n.node v).Fits (c v) n.now → (n'.node v).Fits (c v) n.now

section
variable [DecidableEq V]

theorem later_setNode (s₁ : SRPNodeState) (frames : List (LinkFrame V))
    (htalker : ∀ vid sid, ((n.node v).table.talker vid sid).isSome →
      (s₁.table.talker vid sid).isSome) (hstarted : (n.node v).started ⊆ s₁.started) :
    Later n { n with node := Function.update n.node v s₁, frames := frames } where
  now := le_rfl
  knows vid sid := (Function.forall_update_iff n.node fun u s =>
    n.Knows vid sid u → (s.table.talker vid sid).isSome).mpr ⟨htalker vid sid, fun _ _ hu => hu⟩
  started := (Function.forall_update_iff n.node fun u s => (n.node u).started ⊆ s.started).mpr
    ⟨hstarted, fun _ _ => List.Subset.refl _⟩

/-- A network with another state of a node and other frames. -/
theorem Inv.setNode (hn : n.Inv w c) {frames : List (LinkFrame V)} {s₁ : SRPNodeState}
    (hlater : Later n { n with node := Function.update n.node v s₁, frames := frames })
    (hinv : s₁.Inv (c v)) (hstreams : s₁.Streams (c v)) (hout : s₁.out = [])
    (htalkers : ∀ vid sid e, s₁.table.talker vid sid = some e →
      TalkerOk w c { n with node := Function.update n.node v s₁, frames := frames } v vid sid e)
    (hlisteners : ∀ vid sid i, (s₁.table.listener vid sid (.phy i)).isSome →
      ListenerOk w c v vid sid i)
    (hframes : ∀ f ∈ frames, FrameOk w c n f) :
    Inv w c { n with node := Function.update n.node v s₁, frames := frames } where
  node := (Function.forall_update_iff n.node fun u s => s.Inv (c u)).mpr ⟨hinv, fun u _ => hn.node u⟩
  streams := (Function.forall_update_iff n.node fun u s => s.Streams (c u)).mpr
    ⟨hstreams, fun u _ => hn.streams u⟩
  out := (Function.forall_update_iff n.node fun _ s => s.out = []).mpr ⟨hout, fun u _ => hn.out u⟩
  talkers := (Function.forall_update_iff n.node fun u s => ∀ vid sid e,
    s.table.talker vid sid = some e → TalkerOk w c _ u vid sid e).mpr
    ⟨htalkers, fun u _ vid sid e he => hlater.talkerOk (hn.talkers u vid sid e he)⟩
  listeners := (Function.forall_update_iff n.node fun u s => ∀ vid sid i,
    (s.table.listener vid sid (.phy i)).isSome → ListenerOk w c u vid sid i).mpr
    ⟨hlisteners, fun u _ => hn.listeners u⟩
  frames f hf := hlater.frameOk (hframes f hf)

/-- A node after an event that does not change its talkers. -/
theorem Inv.exists_settle (hn : n.Inv w c) (hc : Configured w c)
    {K : Set (UInt16 × UInt64 × SRPModule)} (heffect : Effect (c v) n.now K (n.node v) s')
    (hK : ∀ vid sid i, (vid, sid, .phy i) ∈ K → ListenerOk w c v vid sid i)
    (hinv' : s'.Inv (c v)) (hstreams' : s'.Streams (c v)) :
    ∃ n', n.settle w v s' = some n' ∧ n'.Inv w c ∧ Later n n' ∧ n'.now = n.now ∧
      n'.node = Function.update n.node v { s' with out := [] } ∧
      (∀ f, f ∈ n'.frames ↔ f ∈ n.frames ∨
        ∃ d ∈ s'.out, ∃ l, n.dispatchSRP w v d = some l ∧ f ∈ l) ∧
      ∀ d ∈ s'.out, OutOk (c v) n.now s' d ∧ Dispatched w c n v d := by
  have hsent : ∀ d ∈ s'.out, OutOk (c v) n.now s' d ∧ Dispatched w c n v d := by
    intro d hd
    have hok := (heffect.out d hd).resolve_left (by rw [hn.out]; exact List.not_mem_nil)
    exact ⟨hok, hn.dispatched hc hok heffect.table.talker⟩
  obtain ⟨ls, hls⟩ := exists_mapM_eq_some fun d hd =>
    Option.isSome_iff_exists.mpr ((hsent d hd).2.imp fun l hl => hl.1)
  have hflat : ∀ f, f ∈ ls.flatten ↔ ∃ d ∈ s'.out, ∃ l, n.dispatchSRP w v d = some l ∧ f ∈ l :=
    fun f => mem_flatten_of_mapM hls
  have hlater := later_setNode { s' with out := [] } (n.frames ++ ls.flatten)
    (fun vid sid hm => (heffect.table.talker vid sid).symm ▸ hm)
    (heffect.started ▸ List.Subset.refl _)
  refine ⟨_, by rw [settle, hls, Option.map_some], ?_, hlater, rfl, rfl, fun f => ?_, hsent⟩
  · refine hn.setNode hlater { hinv' with } (hstreams'.congr (fun _ _ _ => rfl) rfl rfl) rfl
      (fun vid sid e he => ?_) (fun vid sid i hm => ?_) fun f hf => ?_
    · exact hlater.talkerOk (hn.talkers v vid sid e ((heffect.table.talker vid sid).symm.trans he))
    · obtain ⟨e, he⟩ := Option.isSome_iff_exists.mp hm
      rcases heffect.table.listener vid sid _ e he with hold | ⟨hmem, -⟩
      · exact hn.listeners v vid sid i (Option.isSome_iff_exists.mpr ⟨e, hold⟩)
      · exact hK vid sid i hmem
    · rcases List.mem_append.mp hf with hf | hf
      · exact hn.frames f hf
      · obtain ⟨d, hd, l, hl, hf⟩ := (hflat f).mp hf
        obtain ⟨l', hl', hframes, -⟩ := (hsent d hd).2
        obtain rfl := Option.some.inj (hl.symm.trans hl')
        exact (hframes f hf).1
  · rw [List.mem_append, hflat]

/-- An event at a node, which first may get to know a talker. -/
theorem Inv.exists_passed (hn : n.Inv w c) (hc : Configured w c) {frames : List (LinkFrame V)}
    {s₁ : SRPNodeState} {K : Set (UInt16 × UInt64 × SRPModule)}
    (hframes : ∀ f ∈ frames, f ∈ n.frames)
    (hlater : Later n { n with node := Function.update n.node v s₁, frames := frames })
    (hinv₁ : s₁.Inv (c v)) (hstreams₁ : s₁.Streams (c v)) (hout₁ : s₁.out = [])
    (htalkers : ∀ vid sid e, s₁.table.talker vid sid = some e →
      TalkerOk w c { n with node := Function.update n.node v s₁, frames := frames } v vid sid e)
    (hlistener : ∀ vid sid m, s₁.table.listener vid sid m = (n.node v).table.listener vid sid m)
    (heffect : Effect (c v) n.now K s₁ s')
    (hK : ∀ vid sid i, (vid, sid, .phy i) ∈ K → ListenerOk w c v vid sid i ∧
      ∃ f ∈ n.frames, f.dst = v ∧ (w.ports v)[i]? = some f.src ∧ f.AsksFor vid sid)
    (hinv' : s'.Inv (c v)) (hstreams' : s'.Streams (c v))
    (hknown : ∀ vid sid, (s₁.table.talker vid sid).isSome → n.Knows vid sid v ∨
      ∃ d ∈ s'.out, ∃ m, d.message = .talkerAdvertise m ∧ m.vlanIdentifier = vid ∧
        m.streamID = sid)
    (hdelivered : ∀ f ∈ n.frames, f ∈ frames ∨ ∀ vid sid, f.Advertises vid sid → f.dst = v ∧
      (s₁.table.talker vid sid).isSome)
    (hstarted : ∀ vid sid r k app, IsTalker c vid sid r k app → r = v → k ∈ s₁.started →
      k ∈ (n.node v).started ∨ (s₁.table.talker vid sid).isSome)
    (hfits : (n.node v).Fits (c v) n.now → s'.Fits (c v) n.now) :
    ∃ n', ({ n with frames := frames } : SRPNetwork V).settle w v s' = some n' ∧
      Passed w c n n' := by
  have hn₁ := hn.setNode hlater hinv₁ hstreams₁ hout₁ htalkers
    (fun vid sid i hm => hn.listeners v vid sid i (hlistener vid sid _ ▸ hm))
    fun f hf => hn.frames f (hframes f hf)
  have hnode₁ : ({ n with node := Function.update n.node v s₁, frames := frames } :
      SRPNetwork V).node v = s₁ := Function.update_self v s₁ n.node
  obtain ⟨n', hn', hinv, hlater', hnow, hnode, hsettled, hsent⟩ :=
    hn₁.exists_settle hc (hnode₁.symm ▸ heffect) (fun vid sid i hm => (hK vid sid i hm).1) hinv'
      hstreams'
  have hnode' : n'.node = Function.update n.node v { s' with out := [] } :=
    hnode.trans (Function.update_idem _ _ _)
  have hsame : ∀ u, u ≠ v → n'.node u = n.node u := fun u hu => by
    rw [hnode', Function.update_of_ne hu]
  have htable : (n'.node v).table = s'.table := by rw [hnode', Function.update_self]
  have hstarted' : (n'.node v).started = s₁.started := by
    rw [hnode', Function.update_self]
    exact heffect.started
  have hknows : ∀ vid sid, n'.Knows vid sid v ↔ (s₁.table.talker vid sid).isSome := by
    intro vid sid
    unfold Knows
    rw [htable, heffect.table.talker]
  refine ⟨n', ?_, ⟨hinv, hnow, hlater.trans hlater', fun u vid sid i e he => ?_,
    fun u vid sid m e he => ?_, fun f hf => ?_, fun vid sid u hu => ?_, fun f hf => ?_,
    fun vid sid r k app hs => ?_, fun u hu => ?_⟩⟩
  · rw [← hn']
    unfold settle
    rw [Function.update_idem]
    rfl
  · by_cases hu : u = v
    · subst hu
      rw [htable] at he
      rcases heffect.table.listener vid sid _ e he with hold | ⟨hmem, he⟩
      · exact .inl ((hlistener vid sid _).symm.trans hold)
      · exact .inr ⟨he, (hK vid sid i hmem).2⟩
    · exact .inl (hsame u hu ▸ he)
  · by_cases hu : u = v
    · subst hu
      rw [htable]
      exact heffect.table.kept vid sid m e ((hlistener vid sid m).trans he)
    · rw [hsame u hu]
      exact .inr (.inl he)
  · rcases (hsettled f).mp hf with hf | ⟨d, hd, l, hl, hf⟩
    · exact .inl (hframes f hf)
    · right
      obtain ⟨hok, l', hl', hframes', -⟩ := hsent d hd
      obtain rfl := Option.some.inj (hl.symm.trans hl')
      obtain ⟨-, hsrc, hsentAt, hmessage⟩ := hframes' f hf
      refine ⟨hsentAt, fun m hm => ?_⟩
      unfold OutOk at hok
      rw [← hmessage, hm] at hok
      rw [hsrc, htable]
      exact hok.2
  · by_cases huv : u = v
    · subst huv
      rcases hknown vid sid ((hknows vid sid).mp hu) with hold | ⟨d, hd, m, hm, rfl, rfl⟩
      · exact .inl hold
      · right
        intro r k app x hs hx
        obtain ⟨-, l, hl, hframes', hall⟩ := hsent d hd
        obtain ⟨f, hf, hdst⟩ := hall m hm r k app x hs hx
        obtain ⟨-, hsrc, -, hmessage⟩ := hframes' f hf
        exact ⟨f, (hsettled f).mpr (.inr ⟨d, hd, l, hl, hf⟩), hsrc, hdst, m,
          hmessage.trans hm, rfl, rfl⟩
    · unfold Knows at hu
      rw [hsame u huv] at hu
      exact .inl hu
  · refine (hdelivered f hf).imp (fun hf => (hsettled f).mpr (.inl hf)) fun hall vid sid hf => ?_
    obtain ⟨hdst, hsome⟩ := hall vid sid hf
    rw [hdst]
    exact (hknows vid sid).mpr hsome
  · obtain ⟨htalker, hk⟩ := hs
    by_cases hr : r = v
    · subst hr
      rw [hstarted'] at hk
      exact (hstarted vid sid r k app htalker rfl hk).imp (fun hk => ⟨htalker, hk⟩)
        (hknows vid sid).mpr
    · exact .inl ⟨htalker, hsame r hr ▸ hk⟩
  · by_cases huv : u = v
    · subst huv
      rw [hnode', Function.update_self]
      exact hfits hu
    · rw [hsame u huv]
      exact hu

end

end SRPNetwork

end TsnReconfig.Avb
