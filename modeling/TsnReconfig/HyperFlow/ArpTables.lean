import TsnReconfig.HyperFlow.Replication
import TsnReconfig.Network.PacketIns

/-!
# The ARP tables of the controllers

Every controller has an `HF_ARPResponder`, which answers ARP requests from its own table, tells
HyperFlow what it has added, and adds what is re-fired.
-/

namespace TsnReconfig.HyperFlow
open Lib OpenFlow Network Switch

/-- The responders over HyperFlow, with what they have decided about packet-ins. -/
structure ArpNetwork (A : Type*) where
  hyperFlow : State A
  responders : A → ARPResponder
  decisions : List (CommonHeaderFields × ArpDecision) := []

/-- `payload` is where a wrapper is allocated; `change` is that of another application. -/
inductive ArpEvent (A : Type*)
  | packetIn (a : A) (f : CommonHeaderFields) (payload : ℕ)
  | change (a : A) (trgSwitch : String) (eventId : Int32) (payload : ℕ)
  | hyperFlow (e : Event A)

def Event.IsChange {A : Type*} : Event A → Bool
  | .change .. => true
  | _ => false

/-- What the `ARP_Wrapper` of an entry has, if it has one that is for every controller. -/
def arpWrapper (wrappers : ℕ → Option (IPv4Address × MACAddress)) (entry : DataChannelEntry) :
    Option (IPv4Address × MACAddress) :=
  if entry.trgSwitch = "" then wrappers entry.payload else none

/-- The responder adds what is re-fired. -/
def refire (wrappers : ℕ → Option (IPv4Address × MACAddress)) (r : ARPResponder)
    (entry : DataChannelEntry) : ARPResponder :=
  match arpWrapper wrappers entry with
  | some w => r.addEntry w.1 w.2
  | none => r

namespace ArpNetwork
variable {A : Type*} [DecidableEq A] (aliveInterval : SimTime) (fullPath : A → String)
  (wrappers : ℕ → Option (IPv4Address × MACAddress))

/-- `HF_ARPResponder::handlePacketIn`. -/
def handlePacketIn (n : ArpNetwork A) (a : A) (f : CommonHeaderFields) (payload : ℕ) :
    Option (ArpNetwork A) :=
  let r := (n.responders a).handlePacketIn f
  let n' := { n with
    responders := Function.update n.responders a r.1
    decisions := (f, r.2) :: n.decisions }
  if f.ethType = ethertypeArp.toNat ∧ ((n.responders a).macToIp.lookup f.srcMac).isNone then
    if wrappers payload = some (f.arpSrcAdr, f.srcMac) then
      (HyperFlow.step aliveInterval fullPath n.hyperFlow (.change a "" 0 payload)).map
        fun s => { n' with hyperFlow := s }
    else none
  else some n'

/-- One event. What an agent re-fires in it goes to the responder of its controller. -/
def step (n : ArpNetwork A) : ArpEvent A → Option (ArpNetwork A)
  | .packetIn a f payload => n.handlePacketIn aliveInterval fullPath wrappers a f payload
  | .change a trgSwitch eventId payload =>
    if (wrappers payload).isNone then
      (HyperFlow.step aliveInterval fullPath n.hyperFlow (.change a trgSwitch eventId payload)).map
        fun s => { n with hyperFlow := s }
    else none
  | .hyperFlow e =>
    if e.IsChange then none
    else (HyperFlow.step aliveInterval fullPath n.hyperFlow e).map fun s => { n with
      hyperFlow := s
      responders := fun a => ((s.refired a).drop (n.hyperFlow.refired a).length).foldl
        (refire wrappers) (n.responders a) }

def system : System (ArpNetwork A) (ArpEvent A) where
  init n := n.hyperFlow = start ∧ (∀ a, n.responders a = {}) ∧ n.decisions = []
  step := step aliveInterval fullPath wrappers

end ArpNetwork

/-! ## Announced changes -/

section
variable {A : Type*} [DecidableEq A] {aliveInterval : SimTime} {fullPath : A → String}
  {s s' : State A} {entry : DataChannelEntry}

/-- The entry is in the log, or a notification of it is under way. -/
def State.Announced (s : State A) (entry : DataChannelEntry) : Prop :=
  entry ∈ s.synchronizer.dataChannel ∨
    (∃ a, .changeNotification entry ∈ s.toSynchronizer a) ∨
    ∃ a, (a, .changeNotification entry) ∈ s.synchronizer.queue.contents

theorem exists_mem_channel (s : State A) (a : A) (m : ToSynchronizer) :
    (∃ b, m ∈ s.toSynchronizer b) ↔
      m ∈ s.toSynchronizer a ∨ ∃ b, b ≠ a ∧ m ∈ s.toSynchronizer b := by
  constructor
  · rintro ⟨b, hb⟩
    by_cases hba : b = a
    · exact .inl (hba ▸ hb)
    · exact .inr ⟨b, hba, hb⟩
  · rintro (ha | ⟨b, -, hb⟩)
    · exact ⟨a, ha⟩
    · exact ⟨b, hb⟩

theorem announced_send (s : State A) (a : A) (m : ToSynchronizer) :
    (s.send a m).Announced entry ↔ s.Announced entry ∨ m = .changeNotification entry := by
  unfold State.Announced State.send
  dsimp only
  rw [Function.exists_update_iff s.toSynchronizer (p := fun _ l => .changeNotification entry ∈ l),
    exists_mem_channel s a, List.mem_append, List.mem_singleton]
  grind

/-- Messages bring a change to the log, and nothing but a call announces one. -/
theorem announced_step {e : Event A} (he : e.IsChange = false)
    (hs : HyperFlow.step aliveInterval fullPath s e = some s') :
    s'.Announced entry ↔ s.Announced entry := by
  cases e with
  | change => cases he
  | reportIn a =>
    obtain rfl := Option.some.inj hs
    rw [announced_send]
    exact or_iff_left nofun
  | sync a =>
    obtain rfl := Option.some.inj hs
    unfold HyperFlowAgent.sendSyncRequest
    split_ifs
    · exact Iff.rfl
    · rw [Option.elim_some, announced_send]
      exact or_iff_left nofun
  | checkAlive a =>
    obtain rfl := Option.some.inj hs
    exact Iff.rfl
  | arriveSynchronizer a =>
    unfold HyperFlow.step at hs
    cases hchannel : s.toSynchronizer a with
    | nil => simp [hchannel] at hs
    | cons m rest =>
      simp only [hchannel, Option.some.injEq] at hs
      subst hs
      unfold State.Announced
      dsimp only
      rw [Function.exists_update_iff s.toSynchronizer
        (p := fun _ l => .changeNotification entry ∈ l), exists_mem_channel s a, hchannel,
        ServiceQueue.contents_arrive, List.mem_cons]
      simp only [List.mem_append, List.mem_singleton, Prod.mk.injEq, exists_or, exists_eq_left]
      grind
  | finishSynchronizer now =>
    obtain ⟨⟨⟨a, m⟩, queue⟩, hfinish, rfl⟩ := Option.map_eq_some_iff.mp hs
    unfold State.Announced
    rw [ServiceQueue.contents_of_finish hfinish]
    simp only [List.mem_cons, Prod.mk.injEq, exists_or, exists_eq_left]
    cases m with
    | reportIn controllerId =>
      change entry ∈ s.synchronizer.dataChannel ∨ _ ∨ (∃ b, (b, _) ∈ queue.contents) ↔ _
      simp
    | syncRequest lastSyncCounter =>
      change entry ∈ s.synchronizer.dataChannel ∨ _ ∨ (∃ b, (b, _) ∈ queue.contents) ↔ _
      simp
    | changeNotification entry' =>
      change entry ∈ entry' :: s.synchronizer.dataChannel ∨ _ ∨ (∃ b, (b, _) ∈ queue.contents) ↔ _
      rw [List.mem_cons, ToSynchronizer.changeNotification.injEq]
      tauto
  | arriveAgent a =>
    unfold HyperFlow.step at hs
    cases hchannel : s.toAgent a with
    | nil => simp [hchannel] at hs
    | cons reply rest =>
      simp only [hchannel, Option.some.injEq] at hs
      subst hs
      exact Iff.rfl
  | finishAgent a =>
    obtain ⟨r, -, rfl⟩ := Option.map_eq_some_iff.mp hs
    exact Iff.rfl

theorem announced_change {a : A} {trgSwitch : String} {eventId : Int32} {payload : ℕ}
    (hs : HyperFlow.step aliveInterval fullPath s (.change a trgSwitch eventId payload) = some s') :
    s'.Announced entry ↔
      s.Announced entry ∨ entry = ⟨fullPath a, trgSwitch, eventId, payload⟩ := by
  obtain rfl := Option.some.inj hs
  rw [announced_send, ToSynchronizer.changeNotification.injEq]
  exact or_congr_right eq_comm

/-- An agent re-fires entries after those it has re-fired. -/
theorem refired_step {e : Event A} (hs : HyperFlow.step aliveInterval fullPath s e = some s') (a : A) :
    ∃ new, s'.refired a = s.refired a ++ new := by
  have hsame : s'.refired = s.refired → ∃ new, s'.refired a = s.refired a ++ new := fun heq =>
    ⟨[], by rw [heq, List.append_nil]⟩
  cases e with
  | change b trgSwitch eventId payload =>
    obtain rfl := Option.some.inj hs
    exact hsame rfl
  | reportIn b =>
    obtain rfl := Option.some.inj hs
    exact hsame rfl
  | sync b =>
    obtain rfl := Option.some.inj hs
    unfold HyperFlowAgent.sendSyncRequest at hsame ⊢
    split_ifs at hsame ⊢ <;> exact hsame rfl
  | checkAlive b =>
    obtain rfl := Option.some.inj hs
    exact hsame rfl
  | arriveSynchronizer b =>
    unfold HyperFlow.step at hs
    cases hchannel : s.toSynchronizer b with
    | nil => simp [hchannel] at hs
    | cons m rest =>
      simp only [hchannel, Option.some.injEq] at hs
      subst hs
      exact hsame rfl
  | finishSynchronizer now =>
    obtain ⟨r, -, rfl⟩ := Option.map_eq_some_iff.mp hs
    exact hsame rfl
  | arriveAgent b =>
    unfold HyperFlow.step at hs
    cases hchannel : s.toAgent b with
    | nil => simp [hchannel] at hs
    | cons reply rest =>
      simp only [hchannel, Option.some.injEq] at hs
      subst hs
      exact hsame rfl
  | finishAgent b =>
    obtain ⟨r, -, rfl⟩ := Option.map_eq_some_iff.mp hs
    dsimp only
    by_cases hab : a = b
    · subst hab
      rw [Function.update_self]
      exact ⟨_, rfl⟩
    · rw [Function.update_of_ne hab]
      exact ⟨[], (List.append_nil _).symm⟩

/-- What is re-fired has been announced. -/
theorem Inv.announced (h : Inv fullPath s) (hlog : s.log.length < 2147483648) {a : A}
    (he : entry ∈ s.refired a) : s.Announced entry := by
  rw [State.log, List.length_reverse] at hlog
  have hfollows := h.follows hlog a
  rw [hfollows.refired] at he
  exact .inl (hfollows.isSuffix.subset (List.mem_reverse.mp (List.mem_filter.mp he).1))

end

/-! ## One table -/

section
variable {address : MACAddress → Option IPv4Address} {wrappers : ℕ → Option (IPv4Address × MACAddress)}
  {r : ARPResponder} {ip : IPv4Address} {mac mac' : MACAddress}

def Known (r : ARPResponder) (mac : MACAddress) : Prop := (r.macToIp.lookup mac).isSome = true

/-- No two stations have the same address. -/
def Single (address : MACAddress → Option IPv4Address) : Prop :=
  ∀ mac mac' ip, address mac = some ip → address mac' = some ip → mac = mac'

/-- The table has the addresses of the stations that are known, and no others. -/
def Right (address : MACAddress → Option IPv4Address) (r : ARPResponder) : Prop :=
  ∀ ip mac, r.ipToMac.lookup ip = some mac ↔ address mac = some ip ∧ Known r mac

theorem known_addEntry : Known (r.addEntry ip mac) mac' ↔ Known r mac' ∨ mac' = mac := by
  unfold Known ARPResponder.addEntry
  split_ifs with hnew
  · rw [List.lookup_cons]
    by_cases hmac : mac' = mac
    · subst hmac
      simp
    · rw [beq_false_of_ne hmac, or_iff_left hmac]
  · constructor
    · exact .inl
    · rintro (h | rfl)
      · exact h
      · simpa using hnew

theorem addEntry_of_known (h : Known r mac) : r.addEntry ip mac = r := by
  unfold Known at h
  exact if_neg (by simpa using h)

theorem Right.addEntry (h : Right address r) (hinj : Single address)
    (hip : address mac = some ip) : Right address (r.addEntry ip mac) := by
  intro ip' mac'
  rw [known_addEntry]
  have hr := h ip' mac'
  unfold ARPResponder.addEntry
  split_ifs with hnew
  · rw [List.lookup_cons]
    by_cases hip' : ip' = ip
    · subst hip'
      rw [beq_self_eq_true, Option.some.injEq]
      constructor
      · rintro rfl
        exact ⟨hip, .inr rfl⟩
      · rintro ⟨hmac', -⟩
        exact hinj _ _ _ hip hmac'
    · rw [beq_false_of_ne hip', hr]
      refine and_congr_right fun hmac' => (or_iff_left ?_).symm
      rintro rfl
      exact hip' (Option.some.inj (hmac'.symm.trans hip))
  · rw [hr]
    refine and_congr_right fun _ => ⟨.inl, ?_⟩
    rintro (hknown | rfl)
    · exact hknown
    · unfold Known
      simpa using hnew

theorem known_foldl_refire {entries : List DataChannelEntry} :
    Known (entries.foldl (refire wrappers) r) mac ↔
      Known r mac ∨ ∃ entry ∈ entries, ∃ ip, arpWrapper wrappers entry = some (ip, mac) := by
  induction entries generalizing r with
  | nil => simp
  | cons entry entries ih =>
    rw [List.foldl_cons, ih, refire]
    cases hw : arpWrapper wrappers entry with
    | none => simp [hw]
    | some w =>
      obtain ⟨ip, mac'⟩ := w
      rw [known_addEntry]
      simp only [List.mem_cons, exists_eq_or_imp, hw, Option.some.injEq, Prod.mk.injEq,
        exists_eq_left', or_assoc]
      exact or_congr_right (or_congr_left eq_comm)

theorem Right.foldl_refire {entries : List DataChannelEntry} (h : Right address r)
    (hinj : Single address)
    (hentries : ∀ entry ∈ entries, ∀ w, arpWrapper wrappers entry = some w → address w.2 = some w.1) :
    Right address (entries.foldl (refire wrappers) r) := by
  induction entries generalizing r with
  | nil => exact h
  | cons entry entries ih =>
    rw [List.foldl_cons, refire]
    have hrest : ∀ entry ∈ entries, ∀ w, arpWrapper wrappers entry = some w → address w.2 = some w.1 :=
      fun e he => hentries e (List.mem_cons_of_mem _ he)
    cases hw : arpWrapper wrappers entry with
    | none => exact ih h hrest
    | some w => exact ih (h.addEntry hinj (hentries entry List.mem_cons_self w hw)) hrest

theorem handlePacketIn_fst (r : ARPResponder) (f : CommonHeaderFields) :
    (r.handlePacketIn f).1 =
      if f.ethType = ethertypeArp.toNat then r.addEntry f.arpSrcAdr f.srcMac else r := by
  unfold ARPResponder.handlePacketIn
  dsimp only
  split_ifs with harp hop
  · cases (r.addEntry f.arpSrcAdr f.srcMac).ipToMac.lookup f.arpDstAdr <;> rfl
  · rfl
  · rfl

/-- A reply has the address of the station that is asked for. -/
def RightDecision (address : MACAddress → Option IPv4Address) : ArpDecision → Prop
  | .reply srcIp _ srcMac _ _ => address srcMac = some srcIp
  | _ => True

theorem Right.decision {f : CommonHeaderFields} (h : Right address (r.handlePacketIn f).1) :
    RightDecision address (r.handlePacketIn f).2 := by
  rw [handlePacketIn_fst] at h
  unfold ARPResponder.handlePacketIn
  dsimp only
  split_ifs with harp hop
  · rw [if_pos harp] at h
    cases hlookup : (r.addEntry f.arpSrcAdr f.srcMac).ipToMac.lookup f.arpDstAdr with
    | none => trivial
    | some mac => exact ((h _ _).mp hlookup).1
  · trivial
  · trivial

end

/-! ## Runs -/

namespace ArpNetwork
variable {A : Type*} [DecidableEq A] {aliveInterval : SimTime} {fullPath : A → String}
  {wrappers : ℕ → Option (IPv4Address × MACAddress)} {address : MACAddress → Option IPv4Address}
  {n n' : ArpNetwork A}

/-- Stations send ARP packets with their own addresses. -/
def OwnAddress (address : MACAddress → Option IPv4Address) (_ : ArpNetwork A) : ArpEvent A → Prop
  | .packetIn _ f _ => f.ethType = ethertypeArp.toNat → address f.srcMac = some f.arpSrcAdr
  | _ => True

instance (n : ArpNetwork A) (e : ArpEvent A) : Decidable (n.OwnAddress address e) :=
  match e with
  | .packetIn .. => inferInstanceAs (Decidable (_ → _))
  | .change .. | .hyperFlow _ => inferInstanceAs (Decidable True)

structure Inv (fullPath : A → String) (wrappers : ℕ → Option (IPv4Address × MACAddress))
    (address : MACAddress → Option IPv4Address) (n : ArpNetwork A) : Prop where
  announced : ∀ a mac, Known (n.responders a) mac → ∃ entry, n.hyperFlow.Announced entry ∧
    ∃ ip, arpWrapper wrappers entry = some (ip, mac)
  own : ∀ entry w, n.hyperFlow.Announced entry → arpWrapper wrappers entry = some w →
    ∀ a, fullPath a = entry.srcController → Known (n.responders a) w.2
  refired : ∀ a, ∀ entry ∈ n.hyperFlow.refired a, ∀ w, arpWrapper wrappers entry = some w →
    Known (n.responders a) w.2
  wrappers : ∀ entry w, n.hyperFlow.Announced entry → arpWrapper wrappers entry = some w →
    address w.2 = some w.1
  right : ∀ a, Right address (n.responders a)
  decisions : ∀ d ∈ n.decisions, RightDecision address d.2

/-- HyperFlow makes a step, and the responders add what is re-fired. -/
theorem Inv.hyperFlow {e : Event A} {s : State A} (h : n.Inv fullPath wrappers address)
    (hinj : Single address) (he : e.IsChange = false)
    (hs : HyperFlow.step aliveInterval fullPath n.hyperFlow e = some s)
    (hs' : HyperFlow.Inv fullPath s) (hlog : s.log.length < 2147483648) :
    ({ n with
      hyperFlow := s
      responders := fun a => ((s.refired a).drop (n.hyperFlow.refired a).length).foldl
        (refire wrappers) (n.responders a) } : ArpNetwork A).Inv fullPath wrappers address := by
  have hannounced : ∀ entry, s.Announced entry ↔ n.hyperFlow.Announced entry := fun entry =>
    announced_step he hs
  have hnew : ∀ a, ∀ entry ∈ (s.refired a).drop (n.hyperFlow.refired a).length,
      n.hyperFlow.Announced entry := fun a entry hentry =>
    (hannounced entry).mp (hs'.announced hlog (List.mem_of_mem_drop hentry))
  refine {
    announced := fun a mac hknown => ?_
    own := fun entry w hentry hw a ha => ?_
    refired := fun a entry hentry w hw => ?_
    wrappers := fun entry w hentry hw => h.wrappers entry w ((hannounced entry).mp hentry) hw
    right := fun a => (h.right a).foldl_refire hinj fun entry hentry w hw =>
      h.wrappers entry w (hnew a entry hentry) hw
    decisions := h.decisions }
  · rcases known_foldl_refire.mp hknown with hknown | ⟨entry, hentry, hw⟩
    · obtain ⟨entry, hentry, hw⟩ := h.announced a mac hknown
      exact ⟨entry, (hannounced entry).mpr hentry, hw⟩
    · exact ⟨entry, (hannounced entry).mpr (hnew a entry hentry), hw⟩
  · exact known_foldl_refire.mpr (.inl (h.own entry w ((hannounced entry).mp hentry) hw a ha))
  · obtain ⟨new, hrefired⟩ := refired_step hs a
    refine known_foldl_refire.mpr ?_
    change entry ∈ s.refired a at hentry
    rw [hrefired] at hentry ⊢
    rw [List.drop_left]
    rcases List.mem_append.mp hentry with hentry | hentry
    · exact .inl (h.refired a entry hentry w hw)
    · exact .inr ⟨entry, hentry, w.1, hw⟩

/-- A change that is not of an ARP table. -/
theorem Inv.change {a : A} {trgSwitch : String} {eventId : Int32} {payload : ℕ} {s : State A}
    (h : n.Inv fullPath wrappers address)
    (hs : HyperFlow.step aliveInterval fullPath n.hyperFlow (.change a trgSwitch eventId payload) =
      some s) (hnone : wrappers payload = none) :
    ({ n with hyperFlow := s } : ArpNetwork A).Inv fullPath wrappers address := by
  have hold : ∀ entry w, s.Announced entry → arpWrapper wrappers entry = some w →
      n.hyperFlow.Announced entry := by
    intro entry w hentry hw
    refine ((announced_change hs).mp hentry).resolve_right ?_
    rintro rfl
    unfold arpWrapper at hw
    split_ifs at hw
    rw [hnone] at hw
    cases hw
  have hrefired : s.refired = n.hyperFlow.refired := by
    obtain rfl := Option.some.inj hs
    rfl
  refine { h with
    announced := fun b mac hknown => ?_
    own := fun entry w hentry hw => h.own entry w (hold entry w hentry hw) hw
    refired := fun b entry hentry => h.refired b entry (hrefired ▸ hentry)
    wrappers := fun entry w hentry hw => h.wrappers entry w (hold entry w hentry hw) hw }
  obtain ⟨entry, hentry, hw⟩ := h.announced b mac hknown
  exact ⟨entry, (announced_change hs).mpr (.inl hentry), hw⟩

/-- A packet-in that adds nothing to the table. -/
theorem Inv.addDecision (h : n.Inv fullPath wrappers address) (a : A) {f : CommonHeaderFields}
    (hsame : ((n.responders a).handlePacketIn f).1 = n.responders a) :
    ({ n with
      responders := Function.update n.responders a ((n.responders a).handlePacketIn f).1
      decisions := (f, ((n.responders a).handlePacketIn f).2) :: n.decisions } :
        ArpNetwork A).Inv fullPath wrappers address := by
  have hdecision : RightDecision address ((n.responders a).handlePacketIn f).2 := by
    refine Right.decision ?_
    rw [hsame]
    exact h.right a
  rw [hsame, Function.update_eq_self]
  refine { h with decisions := fun d hd => ?_ }
  rcases List.mem_cons.mp hd with rfl | hd
  · exact hdecision
  · exact h.decisions d hd

theorem Inv.packetIn {a : A} {f : CommonHeaderFields} {payload : ℕ}
    (h : n.Inv fullPath wrappers address) (hinj : Single address)
    (hpath : Function.Injective fullPath)
    (hown : f.ethType = ethertypeArp.toNat → address f.srcMac = some f.arpSrcAdr)
    (hs : n.handlePacketIn aliveInterval fullPath wrappers a f payload = some n') :
    n'.Inv fullPath wrappers address := by
  unfold ArpNetwork.handlePacketIn at hs
  dsimp only at hs
  split_ifs at hs with hnew hpayload
  · obtain ⟨harp, hnew⟩ := hnew
    obtain ⟨s, hstep, rfl⟩ := Option.map_eq_some_iff.mp hs
    have hfst := handlePacketIn_fst (n.responders a) f
    rw [if_pos harp] at hfst
    have hknown : ∀ b mac, Known (Function.update n.responders a
        ((n.responders a).handlePacketIn f).1 b) mac ↔
          Known (n.responders b) mac ∨ (b = a ∧ mac = f.srcMac) := by
      intro b mac
      by_cases hb : b = a
      · subst hb
        rw [Function.update_self, hfst, known_addEntry, and_iff_right rfl]
      · rw [Function.update_of_ne hb, or_iff_left fun hand => hb hand.1]
    have hright : Right address ((n.responders a).handlePacketIn f).1 := by
      rw [hfst]
      exact (h.right a).addEntry hinj (hown harp)
    have hwrapper : arpWrapper wrappers ⟨fullPath a, "", 0, payload⟩ =
        some (f.arpSrcAdr, f.srcMac) := hpayload
    have hrefired : s.refired = n.hyperFlow.refired := by
      obtain rfl := Option.some.inj hstep
      rfl
    refine {
      announced := fun b mac hmac => ?_
      own := fun entry w hentry hw b hb => (hknown b w.2).mpr ?_
      refired := fun b entry hentry w hw =>
        (hknown b w.2).mpr (.inl (h.refired b entry (hrefired ▸ hentry) w hw))
      wrappers := fun entry w hentry hw => ?_
      right := fun b => ?_
      decisions := fun d hd => ?_ }
    · rcases (hknown b mac).mp hmac with hmac | ⟨rfl, rfl⟩
      · obtain ⟨entry, hentry, hw⟩ := h.announced b mac hmac
        exact ⟨entry, (announced_change hstep).mpr (.inl hentry), hw⟩
      · exact ⟨_, (announced_change hstep).mpr (.inr rfl), f.arpSrcAdr, hwrapper⟩
    · rcases (announced_change hstep).mp hentry with hentry | rfl
      · exact .inl (h.own entry w hentry hw b hb)
      · rw [hwrapper] at hw
        cases hw
        exact .inr ⟨hpath hb, rfl⟩
    · rcases (announced_change hstep).mp hentry with hentry | rfl
      · exact h.wrappers entry w hentry hw
      · rw [hwrapper] at hw
        cases hw
        exact hown harp
    · dsimp only
      by_cases hb : b = a
      · subst hb
        rw [Function.update_self]
        exact hright
      · rw [Function.update_of_ne hb]
        exact h.right b
    · rcases List.mem_cons.mp hd with rfl | hd
      · exact hright.decision
      · exact h.decisions d hd
  · cases hs
    refine h.addDecision a ?_
    rw [handlePacketIn_fst]
    split_ifs with harp
    · refine addEntry_of_known ?_
      have hnot := not_and.mp hnew harp
      unfold Known
      simpa using hnot
    · rfl

/-- The log only grows. -/
theorem log_le_of_step {s s' : State A} {e : Event A}
    (hs : HyperFlow.step aliveInterval fullPath s e = some s') : s.log.length ≤ s'.log.length := by
  unfold State.log
  rw [List.length_reverse, List.length_reverse]
  by_cases he : ∀ now, e ≠ .finishSynchronizer now
  · rw [(log_of_step hs he).1]
  · push Not at he
    obtain ⟨now, rfl⟩ := he
    obtain ⟨a, m, queue, -, hcases⟩ := finishSynchronizer_cases hs
    rcases hcases with ⟨-, _, rfl⟩ | ⟨-, _, rfl⟩ | ⟨_, _, _, -, -, rfl⟩
    · exact le_rfl
    · exact Nat.le_succ _
    · exact le_rfl

/-- A step of the network is one of HyperFlow, or none. -/
theorem hyperFlow_step {e : ArpEvent A}
    (hs : n.step aliveInterval fullPath wrappers e = some n') : n'.hyperFlow = n.hyperFlow ∨
      ∃ e', HyperFlow.step aliveInterval fullPath n.hyperFlow e' = some n'.hyperFlow := by
  cases e with
  | packetIn a f payload =>
    rw [ArpNetwork.step, ArpNetwork.handlePacketIn] at hs
    dsimp only at hs
    split_ifs at hs
    · obtain ⟨s, hstep, rfl⟩ := Option.map_eq_some_iff.mp hs
      exact .inr ⟨_, hstep⟩
    · cases hs
      exact .inl rfl
  | change a trgSwitch eventId payload =>
    rw [ArpNetwork.step] at hs
    split_ifs at hs
    obtain ⟨s, hstep, rfl⟩ := Option.map_eq_some_iff.mp hs
    exact .inr ⟨_, hstep⟩
  | hyperFlow e =>
    rw [ArpNetwork.step] at hs
    split_ifs at hs
    obtain ⟨s, hstep, rfl⟩ := Option.map_eq_some_iff.mp hs
    exact .inr ⟨_, hstep⟩

/-- As long as the length of the log is an `int`. -/
theorem inv_of_reachable (hinj : Single address) (hpath : Function.Injective fullPath)
    (h : (system aliveInterval fullPath wrappers).ReachableUnder (OwnAddress address) n) :
    HyperFlow.Inv fullPath n.hyperFlow ∧
      (n.hyperFlow.log.length < 2147483648 → n.Inv fullPath wrappers address) := by
  refine h.invariant (P := fun n => HyperFlow.Inv fullPath n.hyperFlow ∧
    (n.hyperFlow.log.length < 2147483648 → n.Inv fullPath wrappers address)) ?_
    fun n e n' _ hinv hok hs => ?_
  · rintro n ⟨hstart, hresponders, hdecisions⟩
    have hnone : ∀ entry, ¬n.hyperFlow.Announced entry := by
      rw [hstart]
      rintro entry (hentry | ⟨a, hentry⟩ | ⟨a, hentry⟩) <;> cases hentry
    have hunknown : ∀ a mac, ¬Known (n.responders a) mac := by
      intro a mac
      rw [hresponders a]
      exact Bool.false_ne_true
    refine ⟨hstart ▸ .init, fun _ => {
      announced := fun a mac hmac => (hunknown a mac hmac).elim
      own := fun entry w hentry => (hnone entry hentry).elim
      refired := fun a entry hentry => ?_
      wrappers := fun entry w hentry => (hnone entry hentry).elim
      right := fun a ip mac => ?_
      decisions := fun d hd => ?_ }⟩
    · rw [hstart] at hentry
      cases hentry
    · rw [hresponders a]
      exact iff_of_false nofun fun hand => Bool.false_ne_true hand.2
    · rw [hdecisions] at hd
      cases hd
  · change n.step aliveInterval fullPath wrappers e = some n' at hs
    have hhyper : HyperFlow.Inv fullPath n'.hyperFlow := by
      rcases hyperFlow_step hs with heq | ⟨e', hs'⟩
      · exact heq ▸ hinv.1
      · exact hinv.1.step hs'
    refine ⟨hhyper, fun hlog => ?_⟩
    have hbefore : n.hyperFlow.log.length < 2147483648 := by
      rcases hyperFlow_step hs with heq | ⟨e', hs'⟩
      · exact heq ▸ hlog
      · exact (log_le_of_step hs').trans_lt hlog
    have hn := hinv.2 hbefore
    cases e with
    | packetIn a f payload => exact hn.packetIn hinj hpath hok hs
    | change a trgSwitch eventId payload =>
      rw [ArpNetwork.step] at hs
      split_ifs at hs with hnone
      obtain ⟨s, hstep, rfl⟩ := Option.map_eq_some_iff.mp hs
      exact hn.change hstep (Option.isNone_iff_eq_none.mp hnone)
    | hyperFlow e =>
      rw [ArpNetwork.step] at hs
      split_ifs at hs with he
      obtain ⟨s, hstep, rfl⟩ := Option.map_eq_some_iff.mp hs
      exact hn.hyperFlow hinj (by simpa using he) hstep hhyper hlog

/-- A station that one controller knows is known to another one that has read the whole log. -/
theorem Inv.known (h : n.Inv fullPath wrappers address) (hhyper : HyperFlow.Inv fullPath n.hyperFlow)
    (hlog : n.hyperFlow.log.length < 2147483648)
    (hquiet : ∀ entry, n.hyperFlow.Announced entry → entry ∈ n.hyperFlow.log) {a b : A}
    (hread : (n.hyperFlow.agents b).dataChannel.length = n.hyperFlow.log.length)
    {mac : MACAddress} (hmac : Known (n.responders a) mac) : Known (n.responders b) mac := by
  obtain ⟨entry, hentry, ip, hw⟩ := h.announced a mac hmac
  by_cases hown : fullPath b = entry.srcController
  · exact h.own entry (ip, mac) hentry hw b hown
  · have hmem := List.mem_reverse.mp (hquiet entry hentry)
    rw [State.log, List.length_reverse] at hlog hread
    have hfollows := hhyper.follows hlog b
    have hsame := hfollows.isSuffix.eq_of_length hread
    refine h.refired b entry ?_ (ip, mac) hw
    rw [hfollows.refired, hsame, List.mem_filter, List.mem_reverse]
    exact ⟨hmem, decide_eq_true (Ne.symm hown)⟩

/-- **One ARP table**: where stations have one address each and send it, every reply of a controller
has the right one. Controllers that have read the whole log, while no change is under way, have one
table. -/
theorem arp_tables_agree (hinj : Single address) (hpath : Function.Injective fullPath)
    (h : (system aliveInterval fullPath wrappers).ReachableUnder (OwnAddress address) n)
    (hlog : n.hyperFlow.log.length < 2147483648) :
    (∀ d ∈ n.decisions, RightDecision address d.2) ∧
    ((∀ entry, n.hyperFlow.Announced entry → entry ∈ n.hyperFlow.log) → ∀ a b,
      (n.hyperFlow.agents a).dataChannel.length = n.hyperFlow.log.length →
      (n.hyperFlow.agents b).dataChannel.length = n.hyperFlow.log.length →
      ∀ ip, (n.responders a).ipToMac.lookup ip = (n.responders b).ipToMac.lookup ip) := by
  obtain ⟨hhyper, hinv⟩ := inv_of_reachable hinj hpath h
  have hn := hinv hlog
  refine ⟨hn.decisions, fun hquiet a b ha hb ip => Option.ext fun mac => ?_⟩
  rw [hn.right a ip mac, hn.right b ip mac]
  exact and_congr_right fun _ =>
    ⟨hn.known hhyper hlog hquiet hb, hn.known hhyper hlog hquiet ha⟩

/-- Two stations with their addresses, and the wrappers of these. -/
def twoStations (mac : MACAddress) : Option IPv4Address :=
  if mac = 1 then some 0x0a000001 else if mac = 2 then some 0x0a000002 else none

theorem twoStations_eq_some {mac : MACAddress} {ip : IPv4Address}
    (h : twoStations mac = some ip) :
    (mac = 1 ∧ ip = 0x0a000001) ∨ (mac = 2 ∧ ip = 0x0a000002) := by
  unfold twoStations at h
  split_ifs at h with hfirst hsecond
  · exact .inl ⟨hfirst, (Option.some.inj h).symm⟩
  · exact .inr ⟨hsecond, (Option.some.inj h).symm⟩

theorem single_twoStations : Single twoStations := by
  intro mac mac' ip h h'
  rcases twoStations_eq_some h with ⟨rfl, rfl⟩ | ⟨rfl, rfl⟩ <;>
    rcases twoStations_eq_some h' with ⟨rfl, hip⟩ | ⟨rfl, hip⟩ <;> first | rfl | cases hip

theorem samplePath_injective : Function.Injective samplePath := by
  intro a b
  cases a <;> cases b <;> decide

def twoWrappers (payload : ℕ) : Option (IPv4Address × MACAddress) :=
  if payload = 5 then some (0x0a000001, 1) else if payload = 6 then some (0x0a000002, 2) else none

def requestOf (srcMac : MACAddress) (srcIp dstIp : IPv4Address) : CommonHeaderFields :=
  { bufferId := 0, swInfo := 0, inport := 1, srcMac, dstMac := 0xffffffffffff, ethType := 0x0806
    arpSrcAdr := srcIp, arpDstAdr := dstIp, arpOp := 1 }

/-- A sync request of an agent, with its reply. -/
def syncOf (a : Bool) : List (ArpEvent Bool) :=
  [.hyperFlow (.sync a), .hyperFlow (.arriveSynchronizer a), .hyperFlow (.finishSynchronizer 0),
    .hyperFlow (.arriveAgent a), .hyperFlow (.finishAgent a)]

/-- Each station asks for the other one, at different controllers. -/
def twoRequests : List (ArpEvent Bool) :=
  [.packetIn false (requestOf 1 0x0a000001 0x0a000002) 5, .hyperFlow (.arriveSynchronizer false),
    .hyperFlow (.finishSynchronizer 0)] ++ syncOf true ++
  [.packetIn true (requestOf 2 0x0a000002 0x0a000001) 6, .hyperFlow (.arriveSynchronizer true),
    .hyperFlow (.finishSynchronizer 0)] ++ syncOf true ++ syncOf false

def unasked : ArpNetwork Bool := ⟨start, fun _ => {}, []⟩

theorem arp_tables_agree_twoRequests : ∃ n,
    (system 3 samplePath twoWrappers).runUnder (OwnAddress twoStations) unasked twoRequests =
      some n ∧ n.decisions.map Prod.snd = [.reply 0x0a000001 0x0a000002 1 2 1, .flood] ∧
    (∀ d ∈ n.decisions, RightDecision twoStations d.2) ∧
    ∀ ip, (n.responders false).ipToMac.lookup ip = (n.responders true).ipToMac.lookup ip := by
  have hrun : ((system 3 samplePath twoWrappers).runUnder (OwnAddress twoStations) unasked
      twoRequests).map (fun n => decide (n.decisions.map Prod.snd =
          [.reply 0x0a000001 0x0a000002 1 2 1, .flood] ∧ n.hyperFlow.log.length = 2 ∧
        (∀ a, (n.hyperFlow.agents a).dataChannel.length = 2) ∧
        (∀ a, n.hyperFlow.toSynchronizer a = []) ∧
        n.hyperFlow.synchronizer.queue.contents = [])) = some true := by
    decide +kernel
  obtain ⟨n, hn, hend⟩ := Option.map_eq_some_iff.mp hrun
  obtain ⟨hdecisions, hlog, hread, hchannels, hqueue⟩ := of_decide_eq_true hend
  have hinit : (system 3 samplePath twoWrappers).ReachableUnder (OwnAddress twoStations) unasked :=
    .init ⟨rfl, fun _ => rfl, rfl⟩
  have h := arp_tables_agree single_twoStations samplePath_injective (hinit.run hn)
    (by rw [hlog]; decide)
  refine ⟨n, hn, hdecisions, h.1, h.2 ?_ false true ?_ ?_⟩
  · rintro entry (hentry | ⟨a, hentry⟩ | ⟨a, hentry⟩)
    · exact List.mem_reverse.mpr hentry
    · rw [hchannels a] at hentry
      cases hentry
    · rw [hqueue] at hentry
      cases hentry
  · rw [hread, hlog]
  · rw [hread, hlog]

end ArpNetwork

end TsnReconfig.HyperFlow
