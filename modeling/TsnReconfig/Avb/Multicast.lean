import TsnReconfig.Avb.AVBLearningControllerApp
import TsnReconfig.OpenFlow.FirstEntry

/-!
# The listeners of a stream

A switch with the rules that the learning controller sends to it. Every `ListenerReady` of a stream
brings another rule with the same match. The old rules stay in the table, and the addresses of the
entries decide which one is found.
-/

namespace TsnReconfig.Avb

open Lib OpenFlow

/-- The controller with a switch, its flow table, and the rules on the way to it. -/
structure MulticastRun (S : Type*) where
  now : SimTime
  app : AVBLearningControllerApp S
  channel : List FlowMod := []
  flowTable : FlowTable

/-- Frames come from any switch. A rule has the address of its new entry. -/
inductive MulticastEvent (S : Type*)
  | advance (t : SimTime)
  | srp (swInfo : S) (arrivalPort : Port) (memory : OxmBasicMatch) (frame : SRPFrame)
  | flowMod (addr : ℕ)
  | lookup (m : OxmBasicMatch)
  | aging

namespace MulticastRun
variable {S : Type*} [DecidableEq S] (sw : S)

/-- A new object is at an address at which there is none. -/
def step (s : MulticastRun S) : MulticastEvent S → Option (MulticastRun S)
  | .advance t => if s.now ≤ t ∧ t < maxTime then some { s with now := t } else none
  | .srp swInfo arrivalPort memory frame =>
    (s.app.doSRP s.now memory swInfo arrivalPort frame).map fun r =>
      { s with
        app := r.1
        channel := if swInfo = sw then s.channel ++ r.2.toList else s.channel }
  | .flowMod addr =>
    match s.channel with
    | [] => none
    | f :: channel =>
      if s.flowTable.entries.any (·.addr = addr) then none
      else some { s with
        channel := channel
        flowTable := s.flowTable.handleFlowMod s.now addr f }
  | .lookup m => some { s with flowTable := (s.flowTable.lookup s.now m).2 }
  | .aging =>
    if s.now ∈ s.flowTable.agingEvents then
      some { s with flowTable := s.flowTable.handleAging s.now }
    else none

/-- The runs of a switch, with a controller without tables. -/
def runs : System (MulticastRun S) (MulticastEvent S) where
  init s := s.now < maxTime ∧ 0 ≤ s.app.srpManager.agingTime ∧
    s.app.srpManager.srpTables = ∅ ∧ s.channel = [] ∧
    ∃ maxEntries agingInterval, s.flowTable = FlowTable.initTable s.now maxEntries agingInterval
  step := step sw

/-- The controller's table of the switch. -/
def srpTable (s : MulticastRun S) : SRPTable Port := s.app.srpManager.srpTable sw

/-- When all rules have been applied, what a lookup finds for a frame of a stream outputs to the
ports of the registered listeners of this stream, each once. -/
def ReachesListeners (s : MulticastRun S) : Prop :=
  s.channel = [] → ∀ vid streamID talker, (s.srpTable sw).talker vid streamID = some talker →
    ∀ m : OxmBasicMatch, m.ofbEthType = qTagEtherType → streamOf m = talker.stream vid →
      (s.srpTable sw).ToListeners streamID vid
        (((s.flowTable.lookup s.now m).1).elim [] (·.instructions))

/-! ## When they are reached -/

/-- The last rule on the way for a stream. -/
def lastRule (channel : List FlowMod) (k : StreamMatch) : Option FlowMod :=
  (channel.filter fun f => streamOf f.oxmMatch = k).getLast?

/-- The first entry for a stream. -/
def current (t : FlowTable) (k : StreamMatch) : Option FlowTableEntry :=
  t.first fun m => streamOf m = k

/-- A talker other than that of a stream whose frames match the same. -/
def matchesOther (t : SRPTable Port) (vid : UInt16) (streamID : UInt64) (k : StreamMatch) : Bool :=
  t.talkerTables.entries.any fun table => table.2.entries.any fun e =>
    e.2.stream table.1 = k ∧ ¬(table.1 = vid ∧ e.1 = streamID)

/-- A talker whose frames match. -/
def hasTalker (t : SRPTable Port) (k : StreamMatch) : Bool :=
  t.talkerTables.entries.any fun table => table.2.entries.any fun e => e.2.stream table.1 = k

/-- No sweep is due that removes a listener, except for those that `ignored` tells. -/
def noneAges (agingTime now : SimTime) (t : SRPTable Port) (ignored : UInt16 → UInt64 → Bool) :
    Bool :=
  agingTime = 0 || t.nextAging = 0 || now < t.nextAging ||
    (SRPTable.listenerKeys t.listenerTables).all fun key =>
      ignored key.1 key.2.1 ||
        (t.listener key.1 key.2.1 key.2.2).all fun e => !e.expired agingTime now

def hasListener (t : SRPTable Port) (vid : UInt16) (streamID : UInt64) : Bool :=
  (SRPTable.listenerKeys t.listenerTables).any fun key => key.1 = vid ∧ key.2.1 = streamID

/-- The first entries of the streams do not expire, the listeners do not age, no two streams have
the same match, a stream with listeners keeps its match, and the last rule of a stream gets an
entry in front of the old ones, or the first one has the same ports already. -/
def inOrder (s : MulticastRun S) : MulticastEvent S → Bool
  | .advance t => s.flowTable.entries.all fun e =>
    let k := streamOf e.oxmMatch
    current s.flowTable k ≠ some e ∨ (lastRule s.channel k).isSome ∨
      !hasTalker (s.srpTable sw) k ∨ t < e.getTimeOut
  | .srp swInfo arrivalPort _ (.talkerAdvertise m) =>
    let k : StreamMatch := ⟨arrivalPort, m.destinationAddress, m.vlanIdentifier, m.pcp⟩
    swInfo ≠ sw ||
      noneAges s.app.srpManager.agingTime s.now (s.srpTable sw) (fun _ _ => false) &&
      (((s.srpTable sw).talker m.vlanIdentifier m.streamID).any (·.stream m.vlanIdentifier = k) ||
        !hasListener (s.srpTable sw) m.vlanIdentifier m.streamID && (lastRule s.channel k).isNone &&
          (current s.flowTable k).isNone)
  | .srp swInfo _ _ (.listenerReady m) =>
    swInfo ≠ sw ||
      noneAges s.app.srpManager.agingTime s.now (s.srpTable sw)
        (fun vid streamID => vid = m.vlanIdentifier ∧ streamID = m.streamID) &&
      ((s.srpTable sw).talker m.vlanIdentifier m.streamID).all fun e =>
        !matchesOther (s.srpTable sw) m.vlanIdentifier m.streamID (e.stream m.vlanIdentifier)
  | .flowMod addr =>
    match s.channel with
    | [] => true
    | f :: channel =>
      let k := streamOf f.oxmMatch
      (lastRule channel k).isSome ||
        !(s.flowTable.isFull s.now).1 && (s.flowTable.entries.all fun e =>
          streamOf e.oxmMatch ≠ k ∨ e.getTimeOut ≤ s.now ∨ e.addr < addr) ||
        (current s.flowTable k).any fun e =>
          s.now < e.getTimeOut ∧ e.instructions.isPerm f.actions
  | .lookup _ => true
  | .aging => true

/-! ## The ports of a stream -/

variable {sw} {s s' : MulticastRun S} {e : MulticastEvent S} {k : StreamMatch} {now : SimTime}
  {channel : List FlowMod} {f : FlowMod} {F F' : FlowTable} {P P' : List UInt32 → Prop}
  {t : SRPTable Port} {vid v : UInt16} {streamID sid : UInt64}

/-- The last rule on the way for a stream has the right ports, or the first entry if there is no
rule. -/
structure Served (now : SimTime) (channel : List FlowMod) (F : FlowTable) (k : StreamMatch)
    (P : List UInt32 → Prop) : Prop where
  rule : ∀ f, lastRule channel k = some f → P f.actions
  entry : lastRule channel k = none → ∀ e, current F k = some e →
    P e.instructions ∧ now < e.getTimeOut
  nothing : lastRule channel k = none → current F k = none → P []

theorem Served.imp (h : Served now channel F k P) (himp : ∀ ports, P ports → P' ports) :
    Served now channel F k P' where
  rule f hf := himp _ (h.rule f hf)
  entry hnone e he := ⟨himp _ (h.entry hnone e he).1, (h.entry hnone e he).2⟩
  nothing hnone hcurrent := himp _ (h.nothing hnone hcurrent)

/-- Another flow table that keeps the entries of the stream. -/
theorem Served.keeps (h : Served now channel F k P)
    (hkeeps : FlowTable.KeepsEntries (fun m => streamOf m = k) now F F') (hsorted : F.Sorted)
    (hsorted' : F'.Sorted) : Served now channel F' k P where
  rule := h.rule
  entry hnone e' he' := by
    cases hcurrent : current F k with
    | none => cases (hkeeps.first_eq_none hcurrent).symm.trans he'
    | some e =>
      obtain ⟨hP, hlive⟩ := h.entry hnone e hcurrent
      obtain ⟨e'', he'', hlater⟩ := hkeeps.first_eq_some hsorted hsorted' hcurrent hlive
      cases he''.symm.trans he'
      rw [hlater.instructions]
      exact ⟨hP, hlive.trans_le hlater.getTimeOut⟩
  nothing hnone hcurrent' := by
    refine h.nothing hnone ?_
    cases hcurrent : current F k with
    | none => rfl
    | some e =>
      obtain ⟨e', he', -⟩ := hkeeps.first_eq_some hsorted hsorted' hcurrent
        (h.entry hnone e hcurrent).2
      cases he'.symm.trans hcurrent'

theorem lastRule_append_self (hk : streamOf f.oxmMatch = k) :
    lastRule (channel ++ [f]) k = some f := by
  rw [lastRule, List.filter_append, List.filter_cons_of_pos (by simpa using hk), List.filter_nil,
    List.getLast?_concat]

theorem lastRule_append_of_ne (hk : streamOf f.oxmMatch ≠ k) :
    lastRule (channel ++ [f]) k = lastRule channel k := by
  rw [lastRule, List.filter_append, List.filter_cons_of_neg (by simpa using hk), List.filter_nil,
    List.append_nil, lastRule]

theorem lastRule_cons_of_ne (hk : streamOf f.oxmMatch ≠ k) :
    lastRule (f :: channel) k = lastRule channel k := by
  rw [lastRule, List.filter_cons_of_neg (by simpa using hk), lastRule]

theorem lastRule_cons_self (hk : streamOf f.oxmMatch = k) :
    lastRule (f :: channel) k = some ((lastRule channel k).getD f) := by
  rw [lastRule, List.filter_cons_of_pos (by simpa using hk), lastRule, List.getLast?_cons]

/-! ## The invariant -/

structure Inv (sw : S) (s : MulticastRun S) : Prop where
  agingTime : 0 ≤ s.app.srpManager.agingTime
  now : s.now < maxTime
  sorted : s.flowTable.Sorted
  aging : s.flowTable.Aging s.now
  rules : ∀ f ∈ s.channel, f.command = .add ∧ IsStreamMatch f.oxmMatch
  entries : ∀ e ∈ s.flowTable.entries, IsStreamMatch e.oxmMatch
  served : ∀ vid streamID talker, (s.srpTable sw).talker vid streamID = some talker →
    Served s.now s.channel s.flowTable (talker.stream vid) ((s.srpTable sw).ToListeners streamID vid)

theorem Inv.reachesListeners (h : s.Inv sw) : s.ReachesListeners sw := by
  intro hchannel vid streamID talker htalker m hm hstream
  have hserved := h.served vid streamID talker htalker
  have hnone : lastRule s.channel (talker.stream vid) = none := by
    rw [hchannel]
    rfl
  have hkind : ∀ e ∈ s.flowTable.entries,
      e.tryMatch m ↔ decide (streamOf e.oxmMatch = talker.stream vid) := by
    intro e he
    rw [tryMatch_iff_streamOf (h.entries e he) hm, hstream, decide_eq_true_iff]
  cases hcurrent : current s.flowTable (talker.stream vid) with
  | none =>
    rw [FlowTable.lookup_eq_none_of_first hkind hcurrent]
    exact hserved.nothing hnone hcurrent
  | some e =>
    obtain ⟨hports, hlive⟩ := hserved.entry hnone e hcurrent
    rw [FlowTable.lookup_first h.sorted hkind hcurrent hlive]
    exact hports

theorem inv_init (h : (runs sw).init s) : s.Inv sw := by
  obtain ⟨hnow, hagingTime, htables, hchannel, n, i, htable⟩ := h
  have hempty : s.srpTable sw = {} := by
    rw [srpTable, SRPTableManagement.srpTable, htables]
    rfl
  have hentries : s.flowTable.entries = [] := by rw [htable, FlowTable.initTable_entries]
  refine ⟨hagingTime, hnow, ?_, fun e he => ?_, fun f hf => ?_, fun e he => ?_,
    fun vid streamID talker htalker => ?_⟩
  · rw [htable]
    exact FlowTable.sorted_initTable s.now n i
  · rw [hentries] at he
    cases he
  · rw [hchannel] at hf
    cases hf
  · rw [hentries] at he
    cases he
  · rw [hempty] at htalker
    cases htalker

theorem hasTalker_eq_true {talker : TalkerEntry Port} (h : t.talker vid streamID = some talker) :
    hasTalker t (talker.stream vid) = true := by
  unfold SRPTable.talker at h
  rw [Table.find_get, Option.bind_eq_some_iff] at h
  obtain ⟨table, htable, hfind⟩ := h
  exact List.any_eq_true.mpr ⟨(vid, table), Table.mem_entries.mpr htable,
    List.any_eq_true.mpr ⟨(streamID, talker), Table.mem_entries.mpr hfind, decide_eq_true rfl⟩⟩

theorem ne_of_matchesOther {talker : TalkerEntry Port}
    (h : t.talker v sid = some talker) (hother : ¬(v = vid ∧ sid = streamID))
    (hk : matchesOther t vid streamID k = false) : talker.stream v ≠ k := by
  intro hstream
  unfold SRPTable.talker at h
  rw [Table.find_get, Option.bind_eq_some_iff] at h
  obtain ⟨table, htable, hfind⟩ := h
  have htrue : matchesOther t vid streamID k = true :=
    List.any_eq_true.mpr ⟨(v, table), Table.mem_entries.mpr htable,
      List.any_eq_true.mpr ⟨(sid, talker), Table.mem_entries.mpr hfind,
        decide_eq_true ⟨hstream, hother⟩⟩⟩
  rw [hk] at htrue
  cases htrue

theorem keptBySweeps_of_noneAges {agingTime : SimTime} {ignored : UInt16 → UInt64 → Bool}
    (hnonneg : 0 ≤ agingTime) (h : noneAges agingTime now t ignored = true)
    (hv : ignored v sid = false) : SRPTableManagement.KeptBySweeps agingTime now v sid t := by
  refine ⟨hnonneg, fun ⟨hagingTime, hne, hle⟩ p e he => ?_⟩
  simp only [noneAges, Bool.or_eq_true, decide_eq_true_eq, List.all_eq_true] at h
  rcases h with ((h | h) | h) | h
  · exact absurd h hagingTime
  · exact absurd h hne
  · exact absurd hle (not_le.mpr h)
  · have hkey := h (v, sid, p) (SRPTable.mem_listenerKeys.mpr (by rw [he]; rfl))
    dsimp only at hkey
    rw [hv, he] at hkey
    simpa using hkey

/-- The listeners of a stream may be given by any table that has the same. -/
theorem toListeners_congr {t' : SRPTable Port} {ports : List UInt32}
    (h : ∀ p, t'.listener vid streamID p = t.listener vid streamID p)
    (hports : t.ToListeners streamID vid ports) : t'.ToListeners streamID vid ports where
  nodup := hports.nodup
  mem port := by
    simp only [h]
    exact hports.mem port

theorem Inv.advance {time : SimTime} (h : s.Inv sw) (hle : s.now ≤ time) (htime : time < maxTime)
    (hok : inOrder sw s (.advance time) = true) : Inv sw { s with now := time } := by
  refine ⟨h.agingTime, htime, h.sorted, h.aging.mono hle, h.rules, h.entries,
    fun vid streamID talker (htalker : (s.srpTable sw).talker vid streamID = some talker) => ?_⟩
  have hserved := h.served vid streamID talker htalker
  refine ⟨hserved.rule, fun hnone e he => ⟨(hserved.entry hnone e he).1, ?_⟩, hserved.nothing⟩
  obtain ⟨hmem, hk, -⟩ := (FlowTable.first_eq_some_iff h.sorted).mp he
  have hk := of_decide_eq_true hk
  have hstays := List.all_eq_true.mp hok e hmem
  simp only [hk, decide_eq_true_eq] at hstays
  rcases hstays with hstays | hstays | hstays | hstays
  · exact absurd he hstays
  · rw [show lastRule s.channel (talker.stream vid) = none from hnone] at hstays
    cases hstays
  · rw [hasTalker_eq_true htalker] at hstays
    cases hstays
  · exact hstays

/-- The controller's tables change, but the flow table does not. -/
theorem Inv.srp {app : AVBLearningControllerApp S} (h : s.Inv sw)
    (hagingTime : app.srpManager.agingTime = s.app.srpManager.agingTime)
    (hrules : ∀ f ∈ channel, f.command = .add ∧ IsStreamMatch f.oxmMatch)
    (hserved : ∀ vid streamID talker,
      (app.srpManager.srpTable sw).talker vid streamID = some talker →
        Served s.now channel s.flowTable (talker.stream vid)
          ((app.srpManager.srpTable sw).ToListeners streamID vid)) :
    Inv sw { s with app := app, channel := channel } :=
  ⟨hagingTime ▸ h.agingTime, h.now, h.sorted, h.aging, hrules, h.entries, hserved⟩

theorem Inv.talkerAdvertise {swInfo : S} {arrivalPort : Port} {m : TalkerAdvertise}
    {manager : SRPTableManagement S} {memory : OxmBasicMatch} (h : s.Inv sw)
    (hok : inOrder sw s (.srp swInfo arrivalPort memory (.talkerAdvertise m)) = true)
    (hregister : s.app.srpManager.registerTalker s.now swInfo arrivalPort m = some manager) :
    Inv sw { s with app := { s.app with srpManager := manager } } := by
  obtain ⟨hagingTime, hother, hlistener, e, hport, hdest, hpcp, htalker⟩ :=
    SRPTableManagement.registerTalker_spec hregister
  refine h.srp hagingTime h.rules fun v sid talker hnew => ?_
  by_cases hsw : swInfo = sw
  · subst hsw
    simp only [inOrder, ne_eq, not_true_eq_false, decide_false, Bool.false_or, Bool.and_eq_true,
      Bool.or_eq_true, Option.isNone_iff_eq_none, Bool.not_eq_true'] at hok
    obtain ⟨hages, hstream⟩ := hok
    have hsame : ∀ v sid p, (manager.srpTable swInfo).listener v sid p =
        (s.srpTable swInfo).listener v sid p := fun v sid p =>
      (hlistener v sid p).trans ((keptBySweeps_of_noneAges h.agingTime hages rfl).listener p)
    dsimp only at hnew ⊢
    rw [htalker] at hnew
    split_ifs at hnew with hkey
    · obtain ⟨rfl, rfl⟩ := hkey
      cases hnew
      have hk : e.stream m.vlanIdentifier =
          ⟨arrivalPort, m.destinationAddress, m.vlanIdentifier, m.pcp⟩ := by
        rw [TalkerEntry.stream, hport, hdest, hpcp]
      rw [hk]
      rcases hstream with hold | ⟨⟨hnone, hrule⟩, hcurrent⟩
      · -- the frames of the stream match as before
        obtain ⟨old, hold, hstream⟩ := (Option.any_eq_true _ _).mp hold
        have hserved := h.served _ _ old hold
        rw [of_decide_eq_true hstream] at hserved
        exact hserved.imp fun ports => toListeners_congr (hsame _ _)
      · refine ⟨fun f hf => ?_, fun _ e he => ?_, fun _ _ => ⟨.nil, fun port => ?_⟩⟩
        · cases hrule.symm.trans hf
        · cases hcurrent.symm.trans he
        · refine iff_of_false List.not_mem_nil ?_
          rintro ⟨p, -, hp⟩
          rw [hsame] at hp
          have hmem := SRPTable.mem_listenerKeys.mpr hp
          have htrue : hasListener (s.srpTable swInfo) m.vlanIdentifier m.streamID = true :=
            List.any_eq_true.mpr ⟨_, hmem, decide_eq_true ⟨rfl, rfl⟩⟩
          rw [hnone] at htrue
          cases htrue
    · exact (h.served v sid talker hnew).imp fun ports => toListeners_congr (hsame v sid)
  · rw [hother sw (Ne.symm hsw)] at hnew ⊢
    exact h.served v sid talker hnew

theorem Inv.listenerReady {swInfo : S} {arrivalPort : Port} {m : ListenerReady}
    {memory : OxmBasicMatch} {app : AVBLearningControllerApp S} {rule : Option FlowMod}
    (h : s.Inv sw) (hok : inOrder sw s (.srp swInfo arrivalPort memory (.listenerReady m)) = true)
    (hsrp : s.app.doSRP s.now memory swInfo arrivalPort (.listenerReady m) = some (app, rule)) :
    Inv sw { s with
      app := app
      channel := if swInfo = sw then s.channel ++ rule.toList else s.channel } := by
  rcases AVBLearningControllerApp.doSRP_listenerReady hsrp with
    ⟨rfl, rfl⟩ | ⟨f, rfl, hagingTime, hother, hrule, htalker, hlistener⟩
  · rw [Option.toList_none, List.append_nil, ite_self]
    exact h
  · by_cases hsw : swInfo = sw
    · subst hsw
      rw [if_pos rfl, Option.toList_some]
      simp only [inOrder, ne_eq, not_true_eq_false, decide_false, Bool.false_or,
        Bool.and_eq_true] at hok
      obtain ⟨hages, hmatches⟩ := hok
      obtain ⟨e, he, hstream⟩ := hrule.stream
      rw [htalker] at he
      have hunique : matchesOther (s.srpTable swInfo) m.vlanIdentifier m.streamID
          (e.stream m.vlanIdentifier) = false := by
        have hall : ((s.srpTable swInfo).talker m.vlanIdentifier m.streamID).all (fun e =>
          !matchesOther (s.srpTable swInfo) m.vlanIdentifier m.streamID
            (e.stream m.vlanIdentifier)) = true := hmatches
        rw [srpTable, he] at hall
        simpa [srpTable] using hall
      refine h.srp hagingTime (fun f' hf' => ?_) fun v sid talker hnew => ?_
      · rcases List.mem_append.mp hf' with hf' | hf'
        · exact h.rules f' hf'
        · obtain rfl := List.mem_singleton.mp hf'
          exact ⟨hrule.add, hrule.isMatch⟩
      · rw [htalker] at hnew
        by_cases hkey : v = m.vlanIdentifier ∧ sid = m.streamID
        · -- the new rule is the last one for its stream
          obtain ⟨rfl, rfl⟩ := hkey
          cases hnew.symm.trans he
          have hlast : lastRule (s.channel ++ [f]) _ = some f := lastRule_append_self hstream
          refine ⟨fun f' hf' => ?_, fun hnone => ?_, fun hnone => ?_⟩
          · cases hlast.symm.trans hf'
            exact hrule.actions
          · cases hlast.symm.trans hnone
          · cases hlast.symm.trans hnone
        · have hne : streamOf f.oxmMatch ≠ talker.stream v := by
            rw [hstream]
            exact (ne_of_matchesOther hnew hkey hunique).symm
          have hkept : SRPTableManagement.KeptBySweeps _ _ v sid _ :=
            keptBySweeps_of_noneAges h.agingTime hages (decide_eq_false hkey)
          have hserved := (h.served v sid talker hnew).imp fun ports =>
            toListeners_congr (hlistener v sid hkey hkept)
          have hlast : lastRule (s.channel ++ [f]) _ = lastRule s.channel _ :=
            lastRule_append_of_ne hne
          exact ⟨fun f' hf' => hserved.rule f' (hlast ▸ hf'),
            fun hnone => hserved.entry (hlast ▸ hnone),
            fun hnone => hserved.nothing (hlast ▸ hnone)⟩
    · rw [if_neg hsw]
      refine h.srp hagingTime h.rules fun v sid talker hnew => ?_
      rw [hother sw (Ne.symm hsw)] at hnew ⊢
      exact h.served v sid talker hnew

/-- The flow table changes, but it keeps the entries of all streams. -/
theorem Inv.keeps (h : s.Inv sw) (hsorted : F.Sorted) (haging : F.Aging s.now)
    (hentries : ∀ e ∈ F.entries, IsStreamMatch e.oxmMatch)
    (hkeeps : ∀ p, FlowTable.KeepsEntries p s.now s.flowTable F) :
    Inv sw { s with flowTable := F } :=
  ⟨h.agingTime, h.now, hsorted, haging, h.rules, hentries, fun vid streamID talker htalker =>
    (h.served vid streamID talker htalker).keeps (hkeeps _) h.sorted hsorted⟩

theorem toListeners_perm {ports ports' : List UInt32} (hperm : ports'.Perm ports)
    (h : t.ToListeners streamID vid ports) : t.ToListeners streamID vid ports' where
  nodup := hperm.nodup_iff.mpr h.nodup
  mem port := hperm.mem_iff.trans (h.mem port)

/-- A rule is applied. -/
theorem Inv.flowMod {addr : ℕ} (h : s.Inv sw) (hchannel : s.channel = f :: channel)
    (hok : inOrder sw s (.flowMod addr) = true)
    (hfresh : ∀ e ∈ s.flowTable.entries, e.addr ≠ addr) :
    Inv sw { s with
      channel := channel
      flowTable := s.flowTable.handleFlowMod s.now addr f } := by
  obtain ⟨hadd, hmatch⟩ := h.rules f (hchannel ▸ List.mem_cons_self ..)
  have hF : s.flowTable.handleFlowMod s.now addr f =
      (s.flowTable.addEntry s.now (.ofFlowMod s.now addr f)).2 := by
    rw [FlowTable.handleFlowMod, hadd]
  have hsorted := h.sorted.handleFlowMod s.now addr f
  refine ⟨h.agingTime, h.now, hsorted, h.aging.handleFlowMod addr f,
    fun f' hf' => h.rules f' (hchannel ▸ List.mem_cons_of_mem _ hf'), fun e he => ?_,
    fun vid streamID talker htalker => ?_⟩
  · rw [hF] at he
    rcases FlowTable.mem_addEntry he with he | rfl
    · exact h.entries e he
    · exact hmatch
  · have hserved := h.served vid streamID talker htalker
    rw [hchannel] at hserved
    by_cases hk : streamOf f.oxmMatch = talker.stream vid
    · -- a later rule for the stream is still on its way, or this was the last one
      cases hlast : lastRule channel (talker.stream vid) with
      | some f' =>
        refine ⟨fun f'' hf'' => ?_, fun hnone => ?_, fun hnone => ?_⟩
        · cases hlast.symm.trans hf''
          exact hserved.rule f' (by rw [lastRule_cons_self hk, hlast]; rfl)
        · cases hlast.symm.trans hnone
        · cases hlast.symm.trans hnone
      | none =>
        have hports := hserved.rule f (by rw [lastRule_cons_self hk, hlast]; rfl)
        suffices hfirst : ∃ e, current (s.flowTable.handleFlowMod s.now addr f)
            (talker.stream vid) = some e ∧ s.now < e.getTimeOut ∧
              e.instructions.Perm f.actions by
          obtain ⟨e, he, hlive, hperm⟩ := hfirst
          refine ⟨fun f' hf' => ?_, fun _ e' he' => ?_, fun _ hnone => ?_⟩
          · cases hlast.symm.trans hf'
          · cases he.symm.trans he'
            exact ⟨toListeners_perm hperm hports, hlive⟩
          · cases he.symm.trans hnone
        simp only [inOrder, hchannel, hk, hlast, Option.isSome_none, Bool.false_or,
          Bool.or_eq_true, Bool.and_eq_true, Bool.not_eq_true', List.all_eq_true,
          decide_eq_true_eq] at hok
        rw [hF]
        -- the rule becomes the first entry for the stream, or the first entry says the same
        rcases hok with ⟨hroom, hhighest⟩ | hsame
        · refine ⟨_, FlowTable.first_addEntry h.sorted (decide_eq_true hk) h.now hroom hfresh
            fun e he hp hlive => ?_, FlowTable.lt_getTimeOut_of_new rfl rfl h.now, .refl _⟩
          rcases hhighest e he with hne | hle | hlt
          · exact absurd (of_decide_eq_true hp) hne
          · exact absurd hlive (not_lt.mpr hle)
          · exact hlt
        · obtain ⟨e, he, hlive⟩ := (Option.any_eq_true _ _).mp hsame
          obtain ⟨hlive, hperm⟩ := of_decide_eq_true hlive
          obtain ⟨e', he', hlive', hports'⟩ := FlowTable.first_addEntry_of_first
            (.ofFlowMod s.now addr f) h.sorted he hlive h.now
          refine ⟨e', he', hlive', ?_⟩
          rcases hports' with rfl | hports'
          · exact List.isPerm_iff.mp hperm
          · rw [hports']
            exact .refl _
    · have hlast : lastRule (f :: channel) _ = lastRule channel _ := lastRule_cons_of_ne hk
      have hkeeps : Served _ _ (s.flowTable.handleFlowMod s.now addr f) _ _ := hserved.keeps
        (hF ▸ FlowTable.keepsEntries_addEntry fun hk' => hk (of_decide_eq_true hk')) h.sorted hsorted
      exact ⟨fun f' hf' => hkeeps.rule f' (hlast ▸ hf'), fun hnone => hkeeps.entry (hlast ▸ hnone),
        fun hnone => hkeeps.nothing (hlast ▸ hnone)⟩

theorem Inv.step (h : s.Inv sw) (hok : inOrder sw s e = true) (hs : step sw s e = some s') :
    s'.Inv sw := by
  cases e with
  | advance t =>
    change (if _ then _ else none) = _ at hs
    split_ifs at hs with htime
    cases hs
    exact h.advance htime.1 htime.2 hok
  | srp swInfo arrivalPort memory frame =>
    obtain ⟨⟨app, rule⟩, hsrp, rfl⟩ := Option.map_eq_some_iff.mp hs
    cases frame with
    | talkerAdvertise m =>
      obtain ⟨manager, hregister, heq⟩ := Option.map_eq_some_iff.mp hsrp
      cases heq
      have hinv := h.talkerAdvertise hok hregister
      rw [Option.toList_none, List.append_nil, ite_self]
      exact hinv
    | listenerReady m => exact h.listenerReady hok hsrp
  | flowMod addr =>
    cases hchannel : s.channel with
    | nil =>
      simp only [MulticastRun.step, hchannel] at hs
      cases hs
    | cons f channel =>
      simp only [MulticastRun.step, hchannel] at hs
      split_ifs at hs with hfresh
      cases hs
      refine h.flowMod hchannel hok fun e he haddr => hfresh ?_
      exact List.any_eq_true.mpr ⟨e, he, decide_eq_true haddr⟩
  | lookup m =>
    cases hs
    refine h.keeps (h.sorted.lookup s.now m) (h.aging.lookup m) (fun e he => ?_) fun p =>
      FlowTable.keepsEntries_lookup p m fun e he => (h.aging e he).2
    -- a lookup marks its entry as matched, with the same match
    obtain ⟨e₀, he₀, hmatch⟩ := FlowTable.mem_lookup he
    rw [hmatch]
    exact h.entries e₀ he₀
  | aging =>
    change (if _ then _ else none) = _ at hs
    split_ifs at hs
    cases hs
    exact h.keeps (h.sorted.handleAging s.now)
      (FlowTable.aging_removeAgedEntries fun e he => (h.aging e he).2)
      (fun e he => h.entries e (FlowTable.mem_removeAgedEntries.mp he).1)
      FlowTable.keepsEntries_handleAging

/-- All listeners are reached in every run that is in order. -/
theorem reachesListeners_of_inOrder (h : (runs sw).ReachableUnder (inOrder sw · ·) s) :
    s.ReachesListeners sw := by
  have hinv : s.Inv sw := h.invariant (fun _ => inv_init) fun _ _ _ _ hs hok hstep =>
    hs.step hok hstep
  exact hinv.reachesListeners

/-- A stream with two listeners, whose entries are at two addresses. -/
def twoListeners (addr₁ addr₂ : ℕ) : List (MulticastEvent Unit) :=
  [.srp () 0 .zero (.talkerAdvertise ⟨1, 5, 2, 100, 1, 0xD0⟩),
    .srp () 1 .zero (.listenerReady ⟨1, 2⟩), .flowMod addr₁,
    .srp () 2 .zero (.listenerReady ⟨1, 2⟩), .flowMod addr₂]

def emptyRun : MulticastRun Unit where
  now := 0
  app := { srpManager := { agingTime := 7 } }
  flowTable := .initTable 0 0 0

theorem init_emptyRun : (runs ()).init emptyRun := ⟨by decide, by decide, rfl, rfl, 0, 0, rfl⟩

theorem reachesListeners_twoListeners :
    ∃ s : MulticastRun Unit, s.flowTable.entries.length = 2 ∧ s.channel = [] ∧
      s.ReachesListeners () := by
  have hrun : (((runs ()).runUnder (inOrder () · ·) emptyRun (twoListeners 1 2)).any fun s =>
      s.flowTable.entries.length = 2 ∧ s.channel = []) = true := by
    decide +kernel
  obtain ⟨s, hs, hstate⟩ := (Option.any_eq_true _ _).mp hrun
  obtain ⟨hlength, hchannel⟩ := of_decide_eq_true hstate
  exact ⟨s, hlength, hchannel,
    reachesListeners_of_inOrder (System.ReachableUnder.run (.init init_emptyRun) hs)⟩

/-- The new entry is at the lower address, and frames still go to the first listener only. -/
theorem not_reachesListeners :
    ¬∀ s : MulticastRun Unit, (runs ()).Reachable s → s.ReachesListeners () := by
  intro h
  have hrun : (((runs ()).runFrom emptyRun (twoListeners 2 1)).any fun s =>
      s.channel = [] ∧ ((s.srpTable ()).talker 2 1).any (fun e => e.stream 2 = ⟨0, 5, 2, 6⟩) ∧
        ((s.srpTable ()).listener 2 1 2).isSome ∧
        ((s.flowTable.lookup s.now { OxmBasicMatch.zero with
          ofbEthDst := 5, ofbEthType := qTagEtherType, ofbVlanVid := 2,
          ofbVlanPcp := 6 }).1).elim [] (·.instructions) = [1]) = true := by
    decide +kernel
  obtain ⟨s, hs, hstate⟩ := (Option.any_eq_true _ _).mp hrun
  obtain ⟨hchannel, htalker, hlistener, hports⟩ := of_decide_eq_true hstate
  obtain ⟨talker, htalker, hstream⟩ := (Option.any_eq_true _ _).mp htalker
  have hreach := h s (System.reachable_of_runFrom init_emptyRun hs) hchannel 2 1 talker htalker
    { OxmBasicMatch.zero with
      ofbEthDst := 5, ofbEthType := qTagEtherType, ofbVlanVid := 2, ofbVlanPcp := 6 } rfl
    (of_decide_eq_true hstream).symm
  rw [hports] at hreach
  have hmem := (hreach.mem 2).mpr ⟨2, rfl, hlistener⟩
  revert hmem
  decide

end MulticastRun

end TsnReconfig.Avb
