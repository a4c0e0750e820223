import Mathlib.Algebra.BigOperators.Group.Finset.Basic
import Mathlib.Algebra.Order.BigOperators.Group.Finset
import TsnReconfig.Avb.Ageing

/-!
# Stream reservation

`SRProtocol` on its SRP table: a listener is admitted if the bandwidth of its stream fits on the
port. The cost of a stream that is advertised again is not checked.
-/

namespace TsnReconfig.Avb

open Lib OpenFlow

/-- `TalkerAdvertise`, and `TalkerFailed`, which extends it. -/
structure TalkerAdvertise where
  streamID : UInt64
  destinationAddress : MACAddress
  vlanIdentifier : UInt16
  maxFrameSize : UInt16
  maxIntervalFrames : UInt16
  priorityAndRank : UInt8
  deriving DecidableEq, Repr

/-- `ListenerReady`, and `ListenerReadyFailed`, which extends it; also `ListenerAskingFailed`. -/
structure ListenerReady where
  streamID : UInt64
  vlanIdentifier : UInt16
  deriving DecidableEq, Repr

/-- What the protocol sends to the port of a talker when a listener is not admitted, or another
switch did not admit it. -/
inductive SRPReply
  | listenerReadyFailed (m : ListenerReady) (switchPort : ℕ)
  | listenerAskingFailed (m : ListenerReady) (switchPort : ℕ)
  deriving DecidableEq, Repr

/-- `SRProtocol` with the parameters of its surroundings: the observation windows, the ageing time
of the table, and what it reads at a port. `portIndex` is there for the modules that are ports. -/
structure SRProtocol (M : Type*) where
  windows : ObservationWindows := {}
  agingTime : SimTime := 7
  reservableBandwidth : ℚ := 3 / 4
  nominalDatarate : M → ℕ
  higherPriorityBandwidth : M → ℕ := fun _ => 0
  portIndex : M → Option ℕ
  pcpSRClassA : UInt8 := 6
  pcpSRClassB : UInt8 := 5

namespace SRProtocol
variable {M : Type*} [DecidableEq M] (p : SRProtocol M)

def priortyAndRankSRClassA  : UInt8 := (0x10 : UInt8) ||| (p.pcpSRClassA <<< 5)
def priortyAndRankSRClassB  : UInt8 := (0x10 : UInt8) ||| (p.pcpSRClassB <<< 5)

def srClassOf (priorityAndRank : UInt8) : SRClass :=
  if priorityAndRank = p.priortyAndRankSRClassA then .A
  else if priorityAndRank = p.priortyAndRankSRClassB then .B
  else .A

/-- `handleMessage` for a `TalkerAdvertise`. -/
def handleTalkerAdvertise (t : SRPTable M) (now : SimTime) (port : M) (m : TalkerAdvertise) :
    Option (SRPTable M) :=
  (t.updateTalkerWithStreamId now m.streamID port m.destinationAddress
    (p.srClassOf m.priorityAndRank) (.ofNat m.maxFrameSize.toNat) m.maxIntervalFrames
    m.vlanIdentifier ((m.priorityAndRank &&& 0xE0) >>> 5) false).map (·.2)

/-- The bandwidth that can be reserved at a port. -/
def reservable (port : M) : ℚ :=
  p.nominalDatarate port * p.reservableBandwidth

/-- A reply to the talker of a stream, if it is at a port. -/
def replyToTalker (t : SRPTable M) (now : SimTime) (m : ListenerReady) (reply : ℕ → SRPReply) :
    SRPTable M × Option SRPReply :=
  let (talker, t) := t.getTalkerForStreamId p.agingTime now m.streamID m.vlanIdentifier
  (t, (talker.bind p.portIndex).map reply)

/-- `handleMessage` for a `ListenerReady`. -/
def handleListenerReady (t : SRPTable M) (now : SimTime) (port : M) (m : ListenerReady) :
    Option (SRPTable M × Option SRPReply) :=
  let (listeners, t) := t.getListenersForStreamId p.agingTime now m.streamID m.vlanIdentifier
  let update : Bool := port ∈ listeners
  (t.getBandwidthForModule p.windows p.agingTime now port).bind fun (utilized, t) =>
  let utilizedBandwidth := utilized + p.higherPriorityBandwidth port
  (t.getBandwidthForStream p.windows p.agingTime now m.streamID m.vlanIdentifier).bind
    fun (requiredBandwidth, t) =>
  if update ∨ ((utilizedBandwidth + requiredBandwidth : ℕ) : ℚ) ≤ p.reservable port then
    (t.updateListenerWithStreamId p.agingTime now m.streamID port m.vlanIdentifier false).map
      fun r => (r.2, none)
  else
    let (listeners, t) := t.getListenersForStreamId p.agingTime now m.streamID m.vlanIdentifier
    some (p.replyToTalker t now m
      (if 0 < listeners.length then .listenerReadyFailed m else .listenerAskingFailed m))

/-- `handleMessage` for a `ListenerAskingFailed`. -/
def handleListenerAskingFailed (t : SRPTable M) (now : SimTime) (m : ListenerReady) :
    SRPTable M × Option SRPReply :=
  p.replyToTalker t now m (.listenerAskingFailed m)

/-- What happens at the switch: the messages of the protocol, and the queries of other modules. -/
inductive Event (M : Type*)
  | advance (t : SimTime)
  | talkerAdvertise (port : M) (m : TalkerAdvertise)
  | listenerReady (port : M) (m : ListenerReady)
  | listenerAskingFailed (m : ListenerReady)
  | query (q : TableQuery M)

def step (s : TimedTable M) : Event M → Option (TimedTable M)
  | .advance t => if s.now ≤ t then some { s with now := t } else none
  | .talkerAdvertise port m =>
    (p.handleTalkerAdvertise s.table s.now port m).map ({ s with table := · })
  | .listenerReady port m =>
    (p.handleListenerReady s.table s.now port m).map ({ s with table := ·.1 })
  | .listenerAskingFailed m =>
    some { s with table := (p.handleListenerAskingFailed s.table s.now m).1 }
  | .query q => (TimedTable.runQuery s.table p.agingTime s.now q).map ({ s with table := · })

/-- The runs of an empty table. -/
def runs : System (TimedTable M) (Event M) where
  init s := 0 ≤ s.now ∧ s.table = {}
  step := p.step

/-- Every port has a bandwidth, and it can be reserved. -/
def NotOverReserved (s : TimedTable M) : Prop :=
  ∀ port, ∃ b t, s.table.getBandwidthForModule p.windows p.agingTime s.now port = some (b, t) ∧
    ((b + p.higherPriorityBandwidth port : ℕ) : ℚ) ≤ p.reservable port

/-- A talker with what a new advertisement of its stream changes in its bandwidth. -/
def readvertised (old : TalkerEntry M) (m : TalkerAdvertise) : TalkerEntry M :=
  let framesize : UInt64 := .ofNat m.maxFrameSize.toNat
  { old with
    srClass := p.srClassOf m.priorityAndRank
    framesize := if 0 < framesize then framesize else old.framesize
    intervalFrames := if 0 < m.maxIntervalFrames then m.maxIntervalFrames else old.intervalFrames }

/-- A stream that is advertised again fits on the ports that have a listener for it, in place of
its old bandwidth. -/
def stillFits (s : TimedTable M) : Event M → Bool
  | .talkerAdvertise _ m =>
    (s.table.talker m.vlanIdentifier m.streamID).all fun old =>
      (s.table.getListenersForStreamId p.agingTime s.now m.streamID m.vlanIdentifier).1.all
        fun port => (s.table.getBandwidthForModule p.windows p.agingTime s.now port).all fun b =>
          ((b.1 + SRPTable.bandwidth p.windows (p.readvertised old m) +
            p.higherPriorityBandwidth port : ℕ) : ℚ) ≤
              p.reservable port + SRPTable.bandwidth p.windows old
  | _ => true

end SRProtocol

/-! ## The bandwidth of a port as a sum -/

namespace SRPTable
variable {M : Type*} [DecidableEq M] {t t' : SRPTable M} {w : ObservationWindows} {port : M}
  {key : UInt16 × UInt64 × M} {agingTime now : SimTime} {v : UInt16} {sid : UInt64} {m : M}

/-- The listeners at a port. -/
def reservations (t : SRPTable M) (port : M) : Finset (UInt16 × UInt64 × M) :=
  ((listenerKeys t.listenerTables).filter (·.2.2 = port)).toFinset

/-- The bandwidth of the talker for a listener. -/
def cost (t : SRPTable M) (w : ObservationWindows) (key : UInt16 × UInt64 × M) : ℕ :=
  (t.talker key.1 key.2.1).elim 0 (bandwidth w)

def utilized (t : SRPTable M) (w : ObservationWindows) (port : M) : ℕ :=
  ∑ key ∈ t.reservations port, t.cost w key

/-- Every listener has a talker. -/
def TalkersKnown (t : SRPTable M) : Prop :=
  ∀ v sid m, (t.listener v sid m).isSome → (t.talker v sid).isSome

theorem mem_reservations :
    key ∈ t.reservations port ↔ key.2.2 = port ∧ (t.listener key.1 key.2.1 key.2.2).isSome := by
  obtain ⟨v, sid, m⟩ := key
  rw [reservations, List.mem_toFinset, List.mem_filter, mem_listenerKeys, decide_eq_true_eq]
  exact and_comm

/-- The talker of a listener has the class, if one is given. -/
def ofClass (t : SRPTable M) (srClass : Option SRClass) (key : UInt16 × UInt64 × M) : Bool :=
  (t.talker key.1 key.2.1).any fun e => srClass.all (e.srClass = ·)

theorem bandwidthForModule_ofClass (h : t.TalkersKnown) (srClass : Option SRClass) :
    t.bandwidthForModule w port srClass =
      some (∑ key ∈ t.reservations port with t.ofClass srClass key, t.cost w key) := by
  have hkeys : ∀ keys : List (UInt16 × UInt64 × M),
      (∀ key ∈ keys, (t.talker key.1 key.2.1).isSome) →
      ∃ talkers, (keys.mapM fun key => (t.talkerTables.get key.1).find key.2.1) = some talkers ∧
        ((talkers.filter fun e => srClass.all (e.srClass = ·)).map (bandwidth w)).sum =
          ((keys.filter (t.ofClass srClass)).map (t.cost w)).sum := by
    intro keys hkeys
    induction keys with
    | nil => exact ⟨[], rfl, rfl⟩
    | cons key keys ih =>
      obtain ⟨e, he⟩ := Option.isSome_iff_exists.mp (hkeys key (List.mem_cons_self ..))
      obtain ⟨talkers, htalkers, hsum⟩ :=
        ih fun key hkey => hkeys key (List.mem_cons_of_mem _ hkey)
      have hfind : (t.talkerTables.get key.1).find key.2.1 = some e := he
      have hclass : t.ofClass srClass key = srClass.all (e.srClass = ·) := by
        rw [ofClass, he, Option.any_some]
      have hcost : t.cost w key = bandwidth w e := by
        rw [cost, he, Option.elim_some]
      refine ⟨e :: talkers, ?_, ?_⟩
      · rw [List.mapM_cons, hfind, htalkers]
        rfl
      · rw [List.filter_cons, List.filter_cons, hclass]
        split_ifs
        · rw [List.map_cons, List.map_cons, List.sum_cons, List.sum_cons, hsum, hcost]
        · exact hsum
  have hnodup := ((nodup_listenerKeys t).filter (·.2.2 = port)).filter (t.ofClass srClass)
  obtain ⟨talkers, htalkers, hsum⟩ := hkeys ((listenerKeys t.listenerTables).filter (·.2.2 = port))
    fun key hkey => h _ _ _ (mem_listenerKeys.mp (List.mem_filter.mp hkey).1)
  unfold bandwidthForModule
  dsimp only
  rw [htalkers, Option.map_some, hsum, reservations, ← List.toFinset_filter,
    List.sum_toFinset _ hnodup]

theorem bandwidthForModule_eq (h : t.TalkersKnown) :
    t.bandwidthForModule w port none = some (t.utilized w port) := by
  rw [bandwidthForModule_ofClass h, utilized, Finset.filter_true_of_mem]
  intro key hkey
  obtain ⟨e, he⟩ := Option.isSome_iff_exists.mp (h _ _ _ (mem_reservations.mp hkey).2)
  rw [ofClass, he, Option.any_some, Option.all_none]

/-- The second table has the talkers of the first one, and no other listeners. -/
structure Sub (t t' : SRPTable M) : Prop where
  talker : ∀ v sid, t'.talker v sid = t.talker v sid
  listener : ∀ v sid m, (t'.listener v sid m).isSome → (t.listener v sid m).isSome

theorem Sub.trans {t'' : SRPTable M} (h : t.Sub t') (h' : t'.Sub t'') : t.Sub t'' where
  talker v sid := (h'.talker v sid).trans (h.talker v sid)
  listener v sid m hm := h.listener v sid m (h'.listener v sid m hm)

theorem SameEntries.sub (h : SameEntries t t') : t.Sub t' where
  talker := h.talker
  listener v sid m hm := h.listener v sid m ▸ hm

theorem sub_sweep (t : SRPTable M) (agingTime now : SimTime) :
    t.Sub (t.removeAgedEntriesIfNeeded agingTime now) where
  talker _ _ := talker_removeAgedEntriesIfNeeded
  listener v sid m hm := by
    rw [listener_removeAgedEntriesIfNeeded] at hm
    split_ifs at hm
    · obtain ⟨e, he⟩ := Option.isSome_iff_exists.mp hm
      exact Option.isSome_iff_exists.mpr ⟨e, (Option.filter_eq_some_iff.mp he).1⟩
    · exact hm

/-- A later sweep leaves no more. -/
theorem sub_sweep_of_le {now' : SimTime} (h : now ≤ now') :
    (t.removeAgedEntriesIfNeeded agingTime now).Sub
      (t.removeAgedEntriesIfNeeded agingTime now') where
  talker _ _ := talker_removeAgedEntriesIfNeeded.trans talker_removeAgedEntriesIfNeeded.symm
  listener v sid m hm := by
    have ht := (sub_sweep t agingTime now').listener v sid m hm
    rw [listener_removeAgedEntriesIfNeeded] at hm ⊢
    split_ifs with hneeded
    · rw [if_pos ⟨hneeded.1, hneeded.2.1, hneeded.2.2.trans h⟩] at hm
      obtain ⟨e, he⟩ := Option.isSome_iff_exists.mp hm
      obtain ⟨hfound, hexpired⟩ := Option.filter_eq_some_iff.mp he
      refine Option.isSome_iff_exists.mpr ⟨e, Option.filter_eq_some_iff.mpr ⟨hfound, ?_⟩⟩
      simp only [ListenerEntry.expired, Bool.not_and, Bool.not_not, Bool.or_eq_true,
        Bool.not_eq_true', decide_eq_false_iff_not] at hexpired ⊢
      exact hexpired.imp_right fun hnot hle => hnot (hle.trans h)
    · exact ht

theorem Sub.cost_eq (h : t.Sub t') : t'.cost w key = t.cost w key := by
  rw [cost, h.talker, cost]

theorem Sub.reservations_subset (h : t.Sub t') (port : M) :
    t'.reservations port ⊆ t.reservations port := by
  intro key hkey
  obtain ⟨hport, hlistener⟩ := mem_reservations.mp hkey
  exact mem_reservations.mpr ⟨hport, h.listener _ _ _ hlistener⟩

theorem Sub.utilized_le (h : t.Sub t') (port : M) : t'.utilized w port ≤ t.utilized w port := by
  calc
    t'.utilized w port = ∑ key ∈ t'.reservations port, t.cost w key :=
      Finset.sum_congr rfl fun _ _ => h.cost_eq
    _ ≤ t.utilized w port := Finset.sum_le_sum_of_subset (h.reservations_subset port)

theorem Sub.talkersKnown (h : t.Sub t') (hknown : t.TalkersKnown) : t'.TalkersKnown := by
  intro v sid m hm
  rw [h.talker]
  exact hknown v sid m (h.listener v sid m hm)

/-- What a new listener adds at its port. -/
theorem utilized_updateListener {streamId : UInt64} {vid : UInt16} {module : M} {isStatic : Bool}
    {updated : Bool}
    (h : t.updateListenerWithStreamId agingTime now streamId module vid isStatic =
      some (updated, t')) :
    t'.utilized w port = if port = module then
        ∑ key ∈ insert (vid, streamId, module) (t.reservations port), t.cost w key
      else t.utilized w port := by
  have hcost : ∀ key, t'.cost w key = t.cost w key := fun key => by
    rw [cost, talker_updateListener h, cost]
  have hmem : ∀ key, key ∈ t'.reservations port ↔
      key ∈ t.reservations port ∨ port = module ∧ key = (vid, streamId, module) := by
    rintro ⟨v, sid, m⟩
    simp only [mem_reservations, listener_updateListener h, Prod.mk.injEq]
    split_ifs with hkey
    · obtain ⟨rfl, rfl, rfl⟩ := hkey
      simp only [Option.isSome_some, and_true, and_self]
      exact ⟨fun hm => .inr hm.symm, fun hm => hm.elim And.left Eq.symm⟩
    · tauto
  unfold utilized
  split_ifs with hport
  · refine Finset.sum_congr ?_ fun key _ => hcost key
    ext key
    rw [hmem, Finset.mem_insert, or_comm, and_iff_right hport]
  · refine Finset.sum_congr ?_ fun key _ => hcost key
    ext key
    rw [hmem, or_iff_left fun hkey => hport hkey.1]

/-- What another talker of a stream changes at a port. -/
theorem utilized_talker {streamId : UInt64} {vid : UInt16} {e : TalkerEntry M}
    (hlistener : ∀ v sid m, t'.listener v sid m = t.listener v sid m)
    (htalker : ∀ v sid, t'.talker v sid =
      if v = vid ∧ sid = streamId then some e else t.talker v sid) (port : M) :
    if (t.listener vid streamId port).isSome then
      t'.utilized w port + t.cost w (vid, streamId, port) = t.utilized w port + bandwidth w e
    else t'.utilized w port = t.utilized w port := by
  have hreservations : t'.reservations port = t.reservations port := by
    ext key
    rw [mem_reservations, mem_reservations, hlistener]
  have hcost : ∀ key ∈ t.reservations port, key ≠ (vid, streamId, port) →
      t'.cost w key = t.cost w key := by
    rintro ⟨v, sid, m⟩ hkey hne
    have hm := (mem_reservations.mp hkey).1
    rw [cost, htalker, if_neg fun h => hne (by simp_all), cost]
  unfold utilized
  rw [hreservations]
  split_ifs with hmem
  · have hkey : (vid, streamId, port) ∈ t.reservations port := mem_reservations.mpr ⟨rfl, hmem⟩
    have hnew : t'.cost w (vid, streamId, port) = bandwidth w e := by
      rw [cost, htalker, if_pos ⟨rfl, rfl⟩]
      rfl
    have hrest : ∑ key ∈ (t.reservations port).erase (vid, streamId, port), t'.cost w key =
        ∑ key ∈ (t.reservations port).erase (vid, streamId, port), t.cost w key :=
      Finset.sum_congr rfl fun key h =>
        hcost key (Finset.mem_of_mem_erase h) (Finset.ne_of_mem_erase h)
    rw [← Finset.add_sum_erase _ _ hkey, ← Finset.add_sum_erase _ _ hkey, hrest, hnew]
    omega
  · refine Finset.sum_congr rfl fun key hkey => hcost key hkey ?_
    rintro rfl
    exact hmem (mem_reservations.mp hkey).2

end SRPTable

/-! ## Admission -/

namespace SRProtocol
variable {M : Type*} [DecidableEq M] {p : SRProtocol M} {s s' : TimedTable M} {e : Event M}

open SRPTable

/-- The table after a sweep at the present time, if it is needed. -/
def swept (p : SRProtocol M) (s : TimedTable M) : SRPTable M :=
  s.table.removeAgedEntriesIfNeeded p.agingTime s.now

/-- The listeners that have not expired fit on their ports. -/
structure Fits (p : SRProtocol M) (s : TimedTable M) : Prop where
  known : s.table.TalkersKnown
  fits : ∀ port, (((p.swept s).utilized p.windows port + p.higherPriorityBandwidth port : ℕ) : ℚ) ≤
    p.reservable port

theorem getBandwidthForModule_eq {t : SRPTable M} {w : ObservationWindows} {now : SimTime}
    {agingTime : SimTime} (h : t.TalkersKnown) (port : M) :
    t.getBandwidthForModule w agingTime now port =
      some ((t.removeAgedEntriesIfNeeded agingTime now).utilized w port,
        t.removeAgedEntriesIfNeeded agingTime now) := by
  unfold getBandwidthForModule
  dsimp only
  rw [bandwidthForModule_eq ((sub_sweep t agingTime now).talkersKnown h)]
  rfl

theorem Fits.notOverReserved (h : p.Fits s) : p.NotOverReserved s :=
  fun port => ⟨_, _, getBandwidthForModule_eq h.known port, h.fits port⟩

theorem fits_of_utilized_le {u : ℕ} {port : M} (h : u ≤ (p.swept s).utilized p.windows port)
    (hfits : p.Fits s) : ((u + p.higherPriorityBandwidth port : ℕ) : ℚ) ≤ p.reservable port :=
  (Nat.cast_le.mpr (Nat.add_le_add_right h _)).trans (hfits.fits port)

/-- A table with no more than is left after a sweep. -/
theorem Fits.sub {t : SRPTable M} (h : p.Fits s) (hsub : (p.swept s).Sub t) :
    p.Fits { s with table := t } where
  known := ((sub_sweep _ _ _).trans hsub).talkersKnown h.known
  fits port := fits_of_utilized_le ((hsub.trans (sub_sweep t p.agingTime s.now)).utilized_le port) h

theorem Fits.advance {t : SimTime} (h : p.Fits s) (ht : s.now ≤ t) :
    p.Fits { s with now := t } where
  known := h.known
  fits port := by
    have hsub : (p.swept s).Sub (s.table.removeAgedEntriesIfNeeded p.agingTime t) :=
      sub_sweep_of_le ht
    exact fits_of_utilized_le (hsub.utilized_le port) h

/-- The same entries with the same cached time are swept alike. -/
theorem Fits.same {t : SRPTable M} (h : p.Fits s) (hsame : SameEntries s.table t) :
    p.Fits { s with table := t } where
  known := hsame.sub.talkersKnown h.known
  fits port := by
    have hsub : (p.swept s).Sub (t.removeAgedEntriesIfNeeded p.agingTime s.now) := by
      refine ⟨fun v sid => ?_, fun v sid m hm => ?_⟩
      · unfold swept
        rw [talker_removeAgedEntriesIfNeeded, talker_removeAgedEntriesIfNeeded, hsame.talker]
      · unfold swept
        rw [listener_removeAgedEntriesIfNeeded, hsame.nextAging, hsame.listener] at hm
        rw [listener_removeAgedEntriesIfNeeded]
        exact hm
    exact fits_of_utilized_le (hsub.utilized_le port) h

theorem Fits.query {q : TableQuery M} {t : SRPTable M} (h : p.Fits s)
    (ht : TimedTable.runQuery s.table p.agingTime s.now q = some t) :
    p.Fits { s with table := t } := by
  have hsame := TimedTable.runQuery_same ht
  split_ifs at hsame
  · exact h.sub hsame.sub
  · exact h.same hsame

theorem sub_replyToTalker (p : SRProtocol M) (t : SRPTable M) (now : SimTime) (m : ListenerReady)
    (reply : ℕ → SRPReply) : t.Sub (p.replyToTalker t now m reply).1 :=
  (sub_sweep t p.agingTime now).trans (sameEntries_touchTalkers _ m.vlanIdentifier).sub

theorem sub_getListenersForStreamId (t : SRPTable M) (agingTime now : SimTime) (streamId : UInt64)
    (vid : UInt16) : (t.removeAgedEntriesIfNeeded agingTime now).Sub
      (t.getListenersForStreamId agingTime now streamId vid).2 :=
  (sameEntries_touchListeners _ vid).sub

/-- A listener is not admitted, or it was admitted before, or its stream fits. -/
theorem handleListenerReady_cases {t t' : SRPTable M} {now : SimTime} {port : M}
    {m : ListenerReady} {r : Option SRPReply} (hknown : t.TalkersKnown)
    (h : p.handleListenerReady t now port m = some (t', r)) :
    (t.removeAgedEntriesIfNeeded p.agingTime now).Sub t' ∨
    ∃ t₀ updated, (t.removeAgedEntriesIfNeeded p.agingTime now).Sub t₀ ∧
      t₀.updateListenerWithStreamId p.agingTime now m.streamID port m.vlanIdentifier false =
        some (updated, t') ∧
      (((t.removeAgedEntriesIfNeeded p.agingTime now).listener m.vlanIdentifier m.streamID
          port).isSome ∨
        ((t₀.utilized p.windows port + p.higherPriorityBandwidth port +
          t₀.cost p.windows (m.vlanIdentifier, m.streamID, port) : ℕ) : ℚ) ≤
          p.reservable port) := by
  let t₁ := (t.getListenersForStreamId p.agingTime now m.streamID m.vlanIdentifier).2
  let t₂ := t₁.removeAgedEntriesIfNeeded p.agingTime now
  let t₃ := t₂.removeAgedEntriesIfNeeded p.agingTime now
  have h₁ : (t.removeAgedEntriesIfNeeded p.agingTime now).Sub t₁ :=
    sub_getListenersForStreamId t p.agingTime now m.streamID m.vlanIdentifier
  have h₂ : t₁.Sub t₂ := sub_sweep t₁ p.agingTime now
  have h₃ : t₂.Sub t₃ := sub_sweep t₂ p.agingTime now
  have hknown₁ : t₁.TalkersKnown := ((sub_sweep t p.agingTime now).trans h₁).talkersKnown hknown
  change ((t₁.getBandwidthForModule p.windows p.agingTime now port).bind _) = _ at h
  rw [getBandwidthForModule_eq hknown₁, Option.bind_some] at h
  obtain ⟨⟨b, t₄⟩, hb, h⟩ := Option.bind_eq_some_iff.mp h
  obtain ⟨e, he, heq⟩ := Option.map_eq_some_iff.mp hb
  obtain ⟨rfl, rfl⟩ := Prod.mk.inj heq
  let t₄ : SRPTable M := { t₃ with talkerTables := t₃.talkerTables.touch m.vlanIdentifier }
  have h₄ : t₃.Sub t₄ := (sameEntries_touchTalkers t₃ m.vlanIdentifier).sub
  have hsub := ((h₁.trans h₂).trans h₃).trans h₄
  dsimp only at h
  split at h
  · rename_i hadmitted
    right
    obtain ⟨⟨updated, t₅⟩, hupdate, heq⟩ := Option.map_eq_some_iff.mp h
    obtain ⟨rfl, rfl⟩ := Prod.mk.inj heq
    refine ⟨t₄, updated, hsub, hupdate, hadmitted.imp (fun hmem => ?_) fun hfits => ?_⟩
    · obtain ⟨⟨_, entry⟩, hentry, rfl⟩ := List.mem_map.mp (of_decide_eq_true hmem)
      have hfind : (t.removeAgedEntriesIfNeeded p.agingTime now).listener m.vlanIdentifier
          m.streamID _ = some entry := Table.mem_entries.mp hentry
      rw [hfind]
      rfl
    · -- the handler has counted what is reserved without the new listener
      have htalker : t₄.talker m.vlanIdentifier m.streamID = some e :=
        (h₄.talker _ _).trans he
      have hcost : t₄.cost p.windows (m.vlanIdentifier, m.streamID, port) =
          bandwidth p.windows e := by
        rw [cost, htalker]
        rfl
      have hle : t₄.utilized p.windows port ≤ t₂.utilized p.windows port :=
        (h₃.trans h₄).utilized_le port
      refine le_trans (Nat.cast_le.mpr ?_) hfits
      rw [hcost]
      change _ ≤ t₂.utilized p.windows port + _ + _
      omega
  · left
    obtain rfl : _ = t' := congrArg Prod.fst (Option.some.inj h)
    exact (hsub.trans ((sub_sweep t₄ p.agingTime now).trans
      (sub_getListenersForStreamId t₄ p.agingTime now m.streamID m.vlanIdentifier))).trans
        (sub_replyToTalker p _ now m (if 0 < _ then _ else _))

theorem sum_insert_le {α : Type*} [DecidableEq α] (f : α → ℕ) (a : α) (l : Finset α) :
    ∑ x ∈ insert a l, f x ≤ ∑ x ∈ l, f x + f a := by
  by_cases ha : a ∈ l
  · rw [Finset.insert_eq_of_mem ha]
    exact Nat.le_add_right _ _
  · rw [Finset.sum_insert ha, add_comm]

theorem Fits.listenerReady {port : M} {m : ListenerReady} {t : SRPTable M} {r : Option SRPReply}
    (h : p.Fits s) (hr : p.handleListenerReady s.table s.now port m = some (t, r)) :
    p.Fits { s with table := t } := by
  obtain hsub | ⟨t₀, updated, hsub, hupdate, hfits⟩ := handleListenerReady_cases h.known hr
  · exact h.sub hsub
  · have hknown := ((sub_sweep s.table p.agingTime s.now).trans hsub).talkersKnown h.known
    refine ⟨fun v sid m' hm => ?_, fun port' => ?_⟩
    · dsimp only at hm ⊢
      rw [listener_updateListener hupdate] at hm
      rw [talker_updateListener hupdate]
      split_ifs at hm with hkey
      · obtain ⟨rfl, rfl, -⟩ := hkey
        exact (updateListener_eq hupdate).1
      · exact hknown v sid m' hm
    · have hle := (sub_sweep t p.agingTime s.now).utilized_le (w := p.windows) port'
      have hnew : t.utilized p.windows port' = _ := utilized_updateListener hupdate
      split_ifs at hnew with hport
      · subst hport
        refine le_trans (Nat.cast_le.mpr (Nat.add_le_add_right (hle.trans hnew.le) _)) ?_
        -- a listener that was there before was counted before the sweep already
        rcases hfits with hold | hfits
        · refine fits_of_utilized_le ?_ h
          calc
            _ = ∑ key ∈ insert (m.vlanIdentifier, m.streamID, port') (t₀.reservations port'),
                (p.swept s).cost p.windows key :=
              Finset.sum_congr rfl fun _ _ => hsub.cost_eq
            _ ≤ _ := by
              refine Finset.sum_le_sum_of_subset (Finset.insert_subset ?_ ?_)
              · exact mem_reservations.mpr ⟨rfl, hold⟩
              · exact hsub.reservations_subset port'
        · refine le_trans (Nat.cast_le.mpr ?_) hfits
          have hinsert := sum_insert_le (t₀.cost p.windows)
            (m.vlanIdentifier, m.streamID, port') (t₀.reservations port')
          change _ ≤ t₀.utilized p.windows port' + _ + _
          unfold utilized
          omega
      · refine fits_of_utilized_le (hle.trans ?_) h
        rw [hnew]
        exact hsub.utilized_le port'

/-- The listeners that are found are those that have not expired. -/
theorem mem_listeners {t : SRPTable M} {agingTime now : SimTime} {streamId : UInt64}
    {vid : UInt16} {port : M} :
    port ∈ (t.getListenersForStreamId agingTime now streamId vid).1 ↔
      ((t.removeAgedEntriesIfNeeded agingTime now).listener vid streamId port).isSome := by
  rw [Option.isSome_iff_exists]
  constructor
  · intro h
    obtain ⟨⟨_, e⟩, he, rfl⟩ := List.mem_map.mp h
    exact ⟨e, Table.mem_entries.mp he⟩
  · rintro ⟨e, he⟩
    exact List.mem_map.mpr ⟨(port, e), Table.mem_entries.mpr he, rfl⟩

/-- An advertisement changes the bandwidth of the ports that have a listener for its stream. -/
theorem utilized_talkerAdvertise {port : M} {m : TalkerAdvertise} {t : SRPTable M}
    (ht : p.handleTalkerAdvertise s.table s.now port m = some t) :
    ∃ new : TalkerEntry M, (∀ old, s.table.talker m.vlanIdentifier m.streamID = some old →
        bandwidth p.windows new = bandwidth p.windows (p.readvertised old m)) ∧
      (∀ v sid, (s.table.talker v sid).isSome → (t.talker v sid).isSome) ∧
      (∀ v sid m', t.listener v sid m' = s.table.listener v sid m') ∧
      ∀ port', if ((p.swept s).listener m.vlanIdentifier m.streamID port').isSome then
        (t.removeAgedEntriesIfNeeded p.agingTime s.now).utilized p.windows port' +
            s.table.cost p.windows (m.vlanIdentifier, m.streamID, port') =
          (p.swept s).utilized p.windows port' + bandwidth p.windows new
      else (t.removeAgedEntriesIfNeeded p.agingTime s.now).utilized p.windows port' =
        (p.swept s).utilized p.windows port' := by
  obtain ⟨⟨updated, t'⟩, hr, rfl⟩ := Option.map_eq_some_iff.mp ht
  obtain ⟨framesize, intervalFrames, hnew, hknown, -⟩ := talker_updateTalker hr
  obtain ⟨htables, hnext⟩ := updateTalker_listenerTables hr
  have hlistener : ∀ v sid m', t'.listener v sid m' = s.table.listener v sid m' := by
    intro v sid m'
    unfold listener
    rw [htables]
  refine ⟨⟨p.srClassOf m.priorityAndRank, m.destinationAddress, port, framesize, intervalFrames,
    (m.priorityAndRank &&& 0xE0) >>> 5, s.now, false⟩, fun old hold => ?_, fun v sid hsome => ?_,
    hlistener, fun port' => ?_⟩
  · obtain ⟨rfl, rfl⟩ := hknown old hold
    rfl
  · rw [hnew]
    split_ifs
    · rfl
    · exact hsome
  · have hcost : (p.swept s).cost p.windows (m.vlanIdentifier, m.streamID, port') =
        s.table.cost p.windows (m.vlanIdentifier, m.streamID, port') :=
      (sub_sweep s.table p.agingTime s.now).cost_eq
    rw [← hcost]
    refine utilized_talker (fun v sid m' => ?_) (fun v sid => ?_) port'
    · unfold swept
      rw [listener_removeAgedEntriesIfNeeded, listener_removeAgedEntriesIfNeeded, hlistener, hnext]
    · unfold swept
      rw [talker_removeAgedEntriesIfNeeded, talker_removeAgedEntriesIfNeeded, hnew]

/-- After an advertisement the listeners fit on their ports exactly if its stream does. -/
theorem Fits.talkerAdvertise_iff {port : M} {m : TalkerAdvertise} {t : SRPTable M} (h : p.Fits s)
    (ht : p.handleTalkerAdvertise s.table s.now port m = some t) :
    p.Fits { s with table := t } ↔ p.stillFits s (.talkerAdvertise port m) = true := by
  obtain ⟨new, hnew, htalker, hlistener, hutilized⟩ := utilized_talkerAdvertise ht
  have hknown : t.TalkersKnown := fun v sid m' hm =>
    htalker v sid (h.known v sid m' (hlistener v sid m' ▸ hm))
  -- at a port with a listener for the stream, the two sides differ by the old bandwidth
  have hport : ∀ old, s.table.talker m.vlanIdentifier m.streamID = some old → ∀ port',
      ((p.swept s).listener m.vlanIdentifier m.streamID port').isSome →
      ((((t.removeAgedEntriesIfNeeded p.agingTime s.now).utilized p.windows port' +
          p.higherPriorityBandwidth port' : ℕ) : ℚ) ≤ p.reservable port' ↔
        (((p.swept s).utilized p.windows port' + bandwidth p.windows (p.readvertised old m) +
          p.higherPriorityBandwidth port' : ℕ) : ℚ) ≤
            p.reservable port' + bandwidth p.windows old) := by
    intro old hold port' hmem
    have hsum := hutilized port'
    rw [if_pos hmem, cost, hold, hnew old hold] at hsum
    rw [← hsum, Option.elim_some]
    push_cast
    constructor
    · intro hle
      linarith
    · intro hle
      linarith
  unfold stillFits
  rw [Option.all_eq_true]
  simp only [List.all_eq_true]
  constructor
  · intro hfits old hold port' hmem
    rw [getBandwidthForModule_eq h.known, Option.all_some, decide_eq_true_eq]
    exact (hport old hold port' (mem_listeners.mp hmem)).mp (hfits.fits port')
  · intro hok
    refine ⟨hknown, fun port' => ?_⟩
    by_cases hmem : ((p.swept s).listener m.vlanIdentifier m.streamID port').isSome
    · have hsome := h.known _ _ _ ((sub_sweep s.table p.agingTime s.now).listener _ _ _ hmem)
      obtain ⟨old, hold⟩ := Option.isSome_iff_exists.mp hsome
      have hle := hok old hold port' (mem_listeners.mpr hmem)
      rw [getBandwidthForModule_eq h.known, Option.all_some, decide_eq_true_eq] at hle
      exact (hport old hold port' hmem).mpr hle
    · have hsum := hutilized port'
      rw [if_neg hmem] at hsum
      exact fits_of_utilized_le hsum.le h

theorem Fits.step (h : p.Fits s) (hok : p.stillFits s e = true) (hs : p.step s e = some s') :
    p.Fits s' := by
  cases e with
  | advance t =>
    change (if s.now ≤ t then _ else none) = _ at hs
    split_ifs at hs with ht
    cases hs
    exact h.advance ht
  | talkerAdvertise port m =>
    obtain ⟨t, ht, rfl⟩ := Option.map_eq_some_iff.mp hs
    exact (h.talkerAdvertise_iff ht).mpr hok
  | listenerReady port m =>
    obtain ⟨⟨t, r⟩, ht, rfl⟩ := Option.map_eq_some_iff.mp hs
    exact h.listenerReady ht
  | listenerAskingFailed m =>
    cases hs
    exact h.sub (sameEntries_touchTalkers (p.swept s) m.vlanIdentifier).sub
  | query q =>
    obtain ⟨t, ht, rfl⟩ := Option.map_eq_some_iff.mp hs
    exact h.query ht

theorem fits_init (hconfig : ∀ port, (p.higherPriorityBandwidth port : ℚ) ≤ p.reservable port)
    (h : p.runs.init s) : p.Fits s := by
  refine ⟨fun v sid m hm => ?_, fun port => ?_⟩
  · rw [h.2] at hm
    cases hm
  · have hempty : p.swept s = {} := by
      rw [swept, h.2]
      rfl
    have hzero : utilized ({} : SRPTable M) p.windows port = 0 := rfl
    rw [hempty, hzero, Nat.zero_add]
    exact hconfig port

/-- No port is over-reserved in a run in which every stream that is advertised again still fits. -/
theorem notOverReserved_of_stillFits
    (hconfig : ∀ port, (p.higherPriorityBandwidth port : ℚ) ≤ p.reservable port)
    (h : p.runs.ReachableUnder (p.stillFits · ·) s) : p.NotOverReserved s := by
  have hfits : p.Fits s :=
    h.invariant (fun _ hs => fits_init hconfig hs) fun _ _ _ _ hs hok hstep => hs.step hok hstep
  exact hfits.notOverReserved

/-- Ports of 100 Mbit/s. -/
def fastEthernet : SRProtocol ℕ where
  nominalDatarate _ := 100000000
  portIndex := some

/-- A stream from port 0 to port 1 that is advertised with two sizes. -/
def advertisedTwice (first second : UInt16) : List (Event ℕ) :=
  let m : TalkerAdvertise := ⟨1, 5, 2, first, 1, 0xD0⟩
  [.talkerAdvertise 0 m, .listenerReady 1 ⟨1, 2⟩, .advance 1,
    .talkerAdvertise 0 { m with maxFrameSize := second }]

theorem notOverReserved_advertisedTwice : ∃ s : TimedTable ℕ,
    (s.table.talker 2 1).map (·.framesize) = some 600 ∧ (s.table.listener 2 1 1).isSome ∧
      fastEthernet.NotOverReserved s := by
  have hrun : ((fastEthernet.runs.runUnder (fastEthernet.stillFits · ·) {}
      (advertisedTwice 500 600)).any fun s =>
        (s.table.talker 2 1).map (·.framesize) = some 600 ∧ (s.table.listener 2 1 1).isSome) =
          true := by
    decide +kernel
  obtain ⟨s, hs, h⟩ := (Option.any_eq_true _ _).mp hrun
  obtain ⟨htalker, hlistener⟩ := of_decide_eq_true h
  have hinit : fastEthernet.runs.init {} := ⟨le_refl _, rfl⟩
  have hconfig : ∀ port : ℕ, (fastEthernet.higherPriorityBandwidth port : ℚ) ≤
      fastEthernet.reservable port := by
    intro port
    change ((0 : ℕ) : ℚ) ≤ ((100000000 : ℕ) : ℚ) * (3 / 4)
    norm_num
  exact ⟨s, htalker, hlistener,
    notOverReserved_of_stillFits hconfig (System.ReachableUnder.run (.init hinit) hs)⟩

/-- With frames of 1500 bytes the stream takes 97.344 Mbit/s of its listener's port. -/
theorem not_notOverReserved :
    ¬∀ s : TimedTable ℕ, fastEthernet.runs.Reachable s → fastEthernet.NotOverReserved s := by
  intro h
  have hrun : ((fastEthernet.runs.runFrom {} (advertisedTwice 500 1500)).any fun s =>
      (s.table.getBandwidthForModule fastEthernet.windows 7 s.now 1).any (·.1 = 97344000)) =
        true := by
    decide +kernel
  obtain ⟨s, hs, hbandwidth⟩ := (Option.any_eq_true _ _).mp hrun
  obtain ⟨⟨b, t⟩, hb, hvalue⟩ := (Option.any_eq_true _ _).mp hbandwidth
  obtain rfl : b = 97344000 := of_decide_eq_true hvalue
  have hinit : fastEthernet.runs.init {} := ⟨le_refl _, rfl⟩
  obtain ⟨b', t', hb', hle⟩ := h s (System.reachable_of_runFrom hinit hs) 1
  cases (hb.symm.trans hb' : some _ = some _)
  change ((97344000 + 0 : ℕ) : ℚ) ≤ ((100000000 : ℕ) : ℚ) * (3 / 4) at hle
  norm_num at hle

end SRProtocol

end TsnReconfig.Avb
