import TsnReconfig.Controller.ConfigurationEngine
import TsnReconfig.Lib.Lists
import TsnReconfig.Lib.System
import TsnReconfig.Switch.RelayUnit

/-!
# The version of the rule that forwards a frame

The flow table of a switch that receives the rules of the configuration engine, of any
versions and in any order, while frames are looked up and entries age.
-/

namespace TsnReconfig.Network
open OpenFlow Switch Controller Lib

/-- The arguments `insertAssignedPath` builds a rule from, and the members of the engine
that go into it. -/
structure RuleArguments where
  memory : OxmBasicMatch
  inport : UInt16
  dst : MACAddress
  src : MACAddress
  vlan : UInt16
  matchTag : UInt16
  outport : UInt32
  priority : Int
  idleTimeout : Int
  hardTimeout : Int
  deriving DecidableEq, Repr

/-- The `FLOW_MOD` of such a rule. -/
def RuleArguments.flowMod (a : RuleArguments) : Option FlowMod := do
  let m ← createDesiredMatch a.memory a.inport a.dst a.src a.vlan a.matchTag
  return createFlowMod .add m a.outport a.priority a.idleTimeout a.hardTimeout

/-- What happens to the table, and when. A new entry is allocated at `addr`. -/
inductive TableEvent
  | flowMod (now : SimTime) (addr : ℕ) (a : RuleArguments)
  | frame (now : SimTime) (f : Frame)
  | aging (now : SimTime)
  deriving DecidableEq, Repr

def tableStep (t : FlowTable) : TableEvent → Option FlowTable
  | .flowMod now addr a => do return t.handleFlowMod now addr (← a.flowMod)
  | .frame now f => do return (← processFrame t now f).2.2
  | .aging now => some (t.handleAging now)

/-- The flow table of a switch, from its initialisation on. -/
def ruleTable : System FlowTable TableEvent where
  init t := ∃ now maxEntries agingInterval, t = FlowTable.initTable now maxEntries agingInterval
  step := tableStep

/-- The rule and the frame have the same in-port, addresses and VLAN. -/
def Agrees (e : FlowTableEntry) (f : Frame) : Prop :=
  e.oxmMatch.ofbInPort = .ofNat f.arrivalGate ∧ e.oxmMatch.ofbEthSrc = f.src ∧
    e.oxmMatch.ofbEthDst = f.dest ∧ e.oxmMatch.ofbVlanVid = f.vid

/-- If the frame is forwarded by a rule, then by one of its own version. -/
def ForwardedByOwnVersion (t : FlowTable) (now : SimTime) (f : Frame) : Prop :=
  ∀ e out t', processFrame t now f = some (some e, out, t') → e.oxmMatch.ofbTag = f.matchVersion

/-! ## Matching -/

theorem wildcarded_desiredWildcards :
    wildcarded desiredWildcards ofpfwInPort = false ∧
    wildcarded desiredWildcards ofpfwDlType = true ∧
    wildcarded desiredWildcards ofpfwDlSrc = false ∧
    wildcarded desiredWildcards ofpfwDlDst = false ∧
    wildcarded desiredWildcards ofpfwDlVlan = false ∧
    wildcarded desiredWildcards ofpfwDlVlanPcp = true ∧
    wildcarded desiredWildcards ofpfwNwProto = true ∧
    wildcarded desiredWildcards ofpfwNwSrcAll = true ∧
    wildcarded desiredWildcards ofpfwNwDstAll = true ∧
    wildcarded desiredWildcards ofpfwTpSrc = true ∧
    wildcarded desiredWildcards ofpfwTpDst = true := by
  decide

/-- A rule of the engine matches a frame when they agree, whatever their versions are. -/
theorem tryMatch_iff_agrees {e : FlowTableEntry} {f : Frame} {m : OxmBasicMatch}
    (he : e.oxmMatch.wildcards = desiredWildcards) (hm : extractMatch f = some m) :
    e.tryMatch m = true ↔ Agrees e f := by
  obtain ⟨hport, hsrc, hdst, hvlan, -⟩ := extractMatch_frame hm
  simp [FlowTableEntry.tryMatch, FlowTableEntry.tryMatchWith, he, wildcarded_desiredWildcards,
    MACAddress.compareTo_eq_zero, hport, hsrc, hdst, hvlan, Agrees, and_assoc]

/-- Every entry came from `createDesiredMatch`. -/
def EngineRules (t : FlowTable) : Prop :=
  ∀ e ∈ t.entries, e.oxmMatch.wildcards = desiredWildcards

theorem engineRules_step {t t' : FlowTable} {ev : TableEvent} (h : EngineRules t)
    (hs : tableStep t ev = some t') : EngineRules t' := by
  intro e he
  cases ev with
  | flowMod now addr a =>
    obtain rfl := Option.some.inj hs
    rcases FlowTable.mem_addEntry he with he | rfl
    · exact h e he
    · rfl
  | frame now f =>
    obtain ⟨⟨found, out, t''⟩, hp, hs⟩ := Option.bind_eq_some_iff.mp hs
    obtain rfl := Option.some.inj hs
    obtain ⟨m, -, hl⟩ := processFrame_eq_some hp
    obtain ⟨e₀, he₀, heq⟩ := FlowTable.mem_lookup (by rwa [hl])
    rw [heq]
    exact h e₀ he₀
  | aging now =>
    obtain rfl := Option.some.inj hs
    exact h e (FlowTable.mem_removeAgedEntries.mp he).1

theorem sorted_step {t t' : FlowTable} {ev : TableEvent} (h : t.Sorted)
    (hs : tableStep t ev = some t') : t'.Sorted := by
  cases ev with
  | flowMod now addr a =>
    obtain rfl := Option.some.inj hs
    exact h.handleFlowMod _ _ _
  | frame now f =>
    obtain ⟨⟨found, out, t''⟩, hp, hs⟩ := Option.bind_eq_some_iff.mp hs
    obtain rfl := Option.some.inj hs
    obtain ⟨m, -, hl⟩ := processFrame_eq_some hp
    have := h.lookup now m
    rwa [hl] at this
  | aging now =>
    obtain rfl := Option.some.inj hs
    exact h.handleAging now

theorem reachable_engineRules {t : FlowTable} (h : ruleTable.Reachable t) : EngineRules t := by
  refine h.invariant ?_ fun _ _ _ => engineRules_step
  rintro _ ⟨now, n, i, rfl⟩ e he
  simp at he

theorem reachable_sorted {t : FlowTable} (h : ruleTable.Reachable t) : t.Sorted := by
  refine h.invariant ?_ fun _ _ _ => sorted_step
  rintro _ ⟨now, n, i, rfl⟩
  exact FlowTable.sorted_initTable now n i

/-! ## Which rule forwards a frame -/

/-- Of the rules that agree with the frame and have not aged, the one that was allocated at
the highest address. -/
def TopRule (t : FlowTable) (now : SimTime) (f : Frame) (e : FlowTableEntry) : Prop :=
  e ∈ (t.removeAgedEntriesIfNeeded now).entries ∧ Agrees e f ∧
    ∀ e' ∈ (t.removeAgedEntriesIfNeeded now).entries, Agrees e' f → e' ≠ e → e'.addr < e.addr

theorem find?_tryMatch_iff {t : FlowTable} (h : ruleTable.Reachable t) {now : SimTime}
    {f : Frame} {m : OxmBasicMatch} (hm : extractMatch f = some m) {e : FlowTableEntry} :
    (t.removeAgedEntriesIfNeeded now).entries.find? (·.tryMatch m) = some e ↔
      TopRule t now f e := by
  have hrules : ∀ e ∈ (t.removeAgedEntriesIfNeeded now).entries,
      (e.tryMatch m = true ↔ Agrees e f) := by
    intro e he
    have hwild := reachable_engineRules h e (FlowTable.removeAgedEntriesIfNeeded_subset he)
    exact tryMatch_iff_agrees hwild hm
  have hsorted := (reachable_sorted h).removeAgedEntriesIfNeeded now
  rw [find?_eq_some_iff_of_pairwise hsorted fun a b hab hba => absurd hab (lt_asymm hba)]
  constructor
  · rintro ⟨he, hma, hfirst⟩
    exact ⟨he, (hrules e he).mp hma, fun e' he' hag => hfirst e' he' ((hrules e' he').mpr hag)⟩
  · rintro ⟨he, hag, hfirst⟩
    exact ⟨he, (hrules e he).mpr hag, fun e' he' hma => hfirst e' he' ((hrules e' he').mp hma)⟩

/-- The top rule forwards the frame, whatever its version is. -/
theorem processFrame_iff_topRule {t : FlowTable} (h : ruleTable.Reachable t) {now : SimTime}
    {f : Frame} {m : OxmBasicMatch} (hm : extractMatch f = some m) {e : FlowTableEntry} :
    (∃ out t', processFrame t now f = some (some e, out, t')) ↔
      ∃ e₀, TopRule t now f e₀ ∧ e = { e₀ with lastMatched := now } := by
  constructor
  · rintro ⟨out, t', hp⟩
    obtain ⟨m', hm', hl⟩ := processFrame_eq_some hp
    obtain rfl : m = m' := Option.some.inj (hm.symm.trans hm')
    obtain ⟨e₀, hfind, rfl⟩ := FlowTable.lookup_eq_some hl
    exact ⟨e₀, (find?_tryMatch_iff h hm).mp hfind, rfl⟩
  · rintro ⟨e₀, htop, rfl⟩
    have hl := FlowTable.lookup_of_find? ((find?_tryMatch_iff h hm).mpr htop)
    simp [processFrame, hm, hl]

/-- A frame is forwarded by a rule of its own version exactly when the top rule happens to
carry it. -/
theorem forwardedByOwnVersion_iff {t : FlowTable} (h : ruleTable.Reachable t) (now : SimTime)
    (f : Frame) :
    ForwardedByOwnVersion t now f ↔ ((extractMatch f).isSome →
      ∀ e, TopRule t now f e → e.oxmMatch.ofbTag = f.matchVersion) := by
  constructor
  · intro hown hsome e htop
    obtain ⟨m, hm⟩ := Option.isSome_iff_exists.mp hsome
    obtain ⟨out, t', hp⟩ := (processFrame_iff_topRule h hm).mpr ⟨e, htop, rfl⟩
    exact hown { e with lastMatched := now } out t' hp
  · intro htag e out t' hp
    obtain ⟨m, hm, -⟩ := processFrame_eq_some hp
    obtain ⟨e₀, htop, rfl⟩ := (processFrame_iff_topRule h hm).mp ⟨out, t', hp⟩
    exact htag (by simp [hm]) e₀ htop

/-- A rule of version `tag` for the frames that come in at port 1 from host 1 to host 2. -/
def sampleRule (matchTag : UInt16) (outport : UInt32) : RuleArguments :=
  ⟨.zero, 1, 2, 1, 5, matchTag, outport, 0, 0, 0⟩

/-- A frame such a rule is for, tagged with version 1. -/
def sampleFrame : Frame := ⟨1, 2, 0x8100, 1, some ⟨6, false, 5, 1, 7⟩, .other⟩

/-- The rules of version 1 and of version 2, in this order. -/
def sampleTable : List TableEvent :=
  [.flowMod 0 1 (sampleRule 1 3), .flowMod 0 2 (sampleRule 2 4)]

theorem sampleTable_start : ruleTable.init (FlowTable.initTable 0 0 0) := ⟨0, 0, 0, rfl⟩

theorem forwardedByOwnVersion_iff_sample : ∃ t, ruleTable.Reachable t ∧
    (ForwardedByOwnVersion t 0 sampleFrame ↔ ((extractMatch sampleFrame).isSome →
      ∀ e, TopRule t 0 sampleFrame e → e.oxmMatch.ofbTag = sampleFrame.matchVersion)) := by
  have h : ∃ t, ruleTable.runFrom (FlowTable.initTable 0 0 0) sampleTable = some t :=
    Option.isSome_iff_exists.mp (by decide)
  obtain ⟨t, ht⟩ := h
  have hr := System.reachable_of_runFrom sampleTable_start ht
  exact ⟨t, hr, forwardedByOwnVersion_iff hr 0 sampleFrame⟩

/-- The frame of version 1 leaves through the port of the rule of version 2. -/
theorem sampleFrame_forwarded_by_version_two : ∃ t, ruleTable.Reachable t ∧
    ∃ e t', processFrame t 0 sampleFrame = some (some e, [.send sampleFrame 4], t') ∧
      sampleFrame.matchVersion = 1 ∧ e.oxmMatch.ofbTag = 2 ∧
      ¬ ForwardedByOwnVersion t 0 sampleFrame := by
  have h : ∃ t, ruleTable.runFrom (FlowTable.initTable 0 0 0) sampleTable = some t ∧
      ∃ e t', processFrame t 0 sampleFrame = some (some e, [.send sampleFrame 4], t') ∧
        e.oxmMatch.ofbTag = 2 := by
    refine ⟨_, rfl, _, _, rfl, ?_⟩
    decide
  obtain ⟨t, ht, e, t', hp, htag⟩ := h
  refine ⟨t, System.reachable_of_runFrom sampleTable_start ht, e, t', hp, rfl, htag, fun hown => ?_⟩
  have := (hown e _ t' hp).symm.trans htag
  simp [sampleFrame, Frame.matchVersion] at this

end TsnReconfig.Network
