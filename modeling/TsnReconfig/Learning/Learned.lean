import TsnReconfig.Learning.LearningSwitch

/-!
# What the switches learn

In a tree network a copy may be sent back to where it came from, when a station is known on that side.
Still no switch learns a wrong port: the switches that such a copy passes know its source.
-/

namespace TsnReconfig.Learning

open Lib

variable {V : Type*} {w : Wiring V}

namespace LearningNetwork
variable {n n' : LearningNetwork V} {t t' : V → V → Option V} {v s d sw inport : V}
  {frame : Frame V} {c : Copy V}

/-! ## Where copies may be -/

def Known (t : V → V → Option V) (v s : V) : Prop := (t v s).isSome

/-- A rule is for a source and a destination that the switch knows. -/
def RuleOk (t : V → V → Option V) (sw : V) (r : Rule V) : Prop :=
  Known t sw r.src ∧ ∃ d, r.dst = some d ∧ t sw d = some r.outport

/-- A copy comes from a node that knows its source, and gets to a switch on the way away from its
source, or to one that knows its source. -/
def CopyOk (w : Wiring V) (t : V → V → Option V) (c : Copy V) : Prop :=
  w.isSwitch c.frame.src = false ∧
  match c.place with
  | .onLink u v => w.graph.Adj u v ∧ (u = c.frame.src ∨ Known t u c.frame.src) ∧
    (w.isSwitch v = true → Closer w.graph c.frame.src u v ∨ Known t v c.frame.src)
  | .packetIn sw inport => w.isSwitch sw = true ∧ w.graph.Adj inport sw ∧
    (inport = c.frame.src ∨ Known t inport c.frame.src) ∧
    (Closer w.graph c.frame.src inport sw ∨ Known t sw c.frame.src)
  | .packetOut sw inport outport => w.isSwitch sw = true ∧ w.graph.Adj inport sw ∧
    Known t sw c.frame.src ∧
    ∀ p, outport = some p → ∃ d, c.frame.dst = some d ∧ t sw d = some p

/-- The table of a switch has the port on the way to a station, and the next switch on this way knows
the station, too. -/
structure Inv (w : Wiring V) (n : LearningNetwork V) : Prop where
  learned : ∀ v s p, n.lookupTable v s = some p →
    w.isSwitch s = false ∧ Closer w.graph s p v ∧ (p = s ∨ Known n.lookupTable p s)
  rules : ∀ v, ∀ r ∈ n.flowTable v, RuleOk n.lookupTable v r
  flowMods : ∀ m ∈ n.flowMods, RuleOk n.lookupTable m.1 m.2
  copies : ∀ c ∈ n.copies, CopyOk w n.lookupTable c
  frames : ∀ c ∈ n.copies, c.frame ∈ n.sent
  received : ∀ x ∈ n.received, x.2 ∈ n.sent

/-- What is in a table stays there. -/
def Extends (t t' : V → V → Option V) : Prop :=
  ∀ v s p, t v s = some p → t' v s = some p

theorem Extends.known (h : Extends t t') (hs : Known t v s) : Known t' v s := by
  obtain ⟨p, hp⟩ := Option.isSome_iff_exists.mp hs
  exact Option.isSome_iff_exists.mpr ⟨p, h v s p hp⟩

theorem Extends.ruleOk (h : Extends t t') {r : Rule V} (hr : RuleOk t sw r) : RuleOk t' sw r := by
  obtain ⟨hsrc, d, hd, hp⟩ := hr
  exact ⟨h.known hsrc, d, hd, h _ _ _ hp⟩

theorem Extends.copyOk (h : Extends t t') (hc : CopyOk w t c) : CopyOk w t' c := by
  obtain ⟨hstation, hplace⟩ := hc
  refine ⟨hstation, ?_⟩
  cases hc : c.place with
  | onLink u v =>
    rw [hc] at hplace
    obtain ⟨hadj, hfrom, hto⟩ := hplace
    exact ⟨hadj, hfrom.imp_right h.known, fun hv => (hto hv).imp_right h.known⟩
  | packetIn sw inport =>
    rw [hc] at hplace
    obtain ⟨hsw, hadj, hfrom, hto⟩ := hplace
    exact ⟨hsw, hadj, hfrom.imp_right h.known, hto.imp_right h.known⟩
  | packetOut sw inport outport =>
    rw [hc] at hplace
    obtain ⟨hsw, hadj, hknown, hout⟩ := hplace
    refine ⟨hsw, hadj, h.known hknown, fun p hp => ?_⟩
    obtain ⟨d, hd, hlookup⟩ := hout p hp
    exact ⟨d, hd, h _ _ _ hlookup⟩

/-- A switch that knows the source of a frame may send it to every neighbour. -/
theorem Inv.onLink (h : n.Inv w) (hw : w.TreeNetwork) (hstation : w.isSwitch frame.src = false)
    (hknown : Known n.lookupTable sw frame.src) {x : V} (hadj : w.graph.Adj sw x) :
    CopyOk w n.lookupTable ⟨.onLink sw x, frame⟩ := by
  refine ⟨hstation, hadj, .inr hknown, fun hx => ?_⟩
  rcases closer_or_closer hw.isTree frame.src hadj with hcloser | hcloser
  · exact .inl hcloser
  · -- the neighbour is the one on the way to the source
    obtain ⟨p, hp⟩ := Option.isSome_iff_exists.mp hknown
    obtain ⟨-, hp, hnext⟩ := h.learned sw frame.src p hp
    obtain rfl := hp.unique hw.isTree hcloser
    refine .inr (hnext.resolve_left ?_)
    rintro rfl
    rw [hstation] at hx
    cases hx

/-! ## What a step does -/

theorem Inv.eraseCopy (h : n.Inv w) (k : ℕ) :
    ({ n with copies := n.copies.eraseIdx k } : LearningNetwork V).Inv w :=
  { h with
    copies := fun c hc => h.copies c (List.mem_of_mem_eraseIdx hc)
    frames := fun c hc => h.frames c (List.mem_of_mem_eraseIdx hc) }

theorem Inv.addCopies (h : n.Inv w) {copies : List (Copy V)}
    (hcopies : ∀ c ∈ copies, CopyOk w n.lookupTable c ∧ c.frame ∈ n.sent) :
    ({ n with copies := n.copies ++ copies } : LearningNetwork V).Inv w := by
  refine { h with copies := fun c hc => ?_, frames := fun c hc => ?_ }
  · rcases List.mem_append.mp hc with hc | hc
    · exact h.copies c hc
    · exact (hcopies c hc).1
  · rcases List.mem_append.mp hc with hc | hc
    · exact h.frames c hc
    · exact (hcopies c hc).2

theorem Inv.addCopy (h : n.Inv w) (hc : CopyOk w n.lookupTable c) (hsent : c.frame ∈ n.sent) :
    ({ n with copies := n.copies ++ [c] } : LearningNetwork V).Inv w :=
  h.addCopies fun c' hc' => by
    rw [List.mem_singleton.mp hc']
    exact ⟨hc, hsent⟩

variable [DecidableEq V]

/-- A rule of a switch is for a frame whose source and destination it knows. -/
theorem Inv.rule_spec (h : n.Inv w) {expired : Rule V → Bool} {r : Rule V}
    (hr : (lookup expired inport frame (n.flowTable sw)).1 = some r) :
    Known n.lookupTable sw frame.src ∧
      ∃ d, frame.dst = some d ∧ n.lookupTable sw d = some r.outport := by
  obtain ⟨hmem, -, hsrc, hdst, -⟩ := (lookup_spec expired inport frame (n.flowTable sw)).2 r hr
  obtain ⟨hknown, d, hd, hlookup⟩ := h.rules sw r hmem
  rw [hsrc] at hknown
  rw [hdst] at hd
  exact ⟨hknown, d, hd, hlookup⟩

/-- Rules for known stations may be put into a flow table. -/
theorem Inv.updateTable (h : n.Inv w) (sw : V) {rules : List (Rule V)}
    (hrules : ∀ r ∈ rules, RuleOk n.lookupTable sw r) :
    ({ n with flowTable := Function.update n.flowTable sw rules } : LearningNetwork V).Inv w := by
  refine { h with rules := fun v r hr => ?_ }
  dsimp only at hr
  by_cases hv : v = sw
  · subst hv
    rw [Function.update_self] at hr
    exact hrules r hr
  · rw [Function.update_of_ne hv] at hr
    exact h.rules v r hr

theorem Inv.processFrame (h : n.Inv w) (hw : w.TreeNetwork) {expired : Rule V → Bool} {u : V}
    (hc : CopyOk w n.lookupTable ⟨.onLink u v, frame⟩) (hsent : frame ∈ n.sent) :
    (n.processFrame w expired u v frame).Inv w := by
  obtain ⟨hstation, hadj, hfrom, hto⟩ := hc
  unfold LearningNetwork.processFrame
  by_cases hv : w.isSwitch v
  · rw [if_pos hv]
    have htable := h.updateTable v
      fun r hr => h.rules v r ((lookup_spec expired u frame (n.flowTable v)).1 r hr)
    refine htable.addCopy ?_ hsent
    cases hr : (lookup expired u frame (n.flowTable v)).1 with
    | none => exact ⟨hstation, hv, hadj, hfrom, hto hv⟩
    | some r =>
      obtain ⟨hknown, d, -, hlookup⟩ := h.rule_spec hr
      obtain ⟨-, hcloser, -⟩ := h.learned v d r.outport hlookup
      exact h.onLink hw hstation hknown hcloser.adj.symm
  · rw [if_neg hv]
    refine { h with received := fun x hx => ?_ }
    rcases List.mem_cons.mp hx with rfl | hx
    · exact hsent
    · exact h.received x hx

/-- What is in a table after a switch has seen a station. -/
theorem learn_eq_some {src p : V} (h : n.learn sw src inport v s = some p) :
    n.lookupTable v s = some p ∨
      (v = sw ∧ s = src ∧ p = inport ∧ n.lookupTable sw src = none) := by
  unfold learn at h
  cases hlookup : n.lookupTable sw src with
  | some q =>
    rw [hlookup] at h
    exact .inl h
  | none =>
    rw [hlookup] at h
    dsimp only at h
    by_cases hv : v = sw
    · subst hv
      rw [Function.update_self] at h
      by_cases hs : s = src
      · subst hs
        rw [Function.update_self] at h
        exact .inr ⟨rfl, rfl, (Option.some.inj h).symm, rfl⟩
      · rw [Function.update_of_ne hs] at h
        exact .inl h
    · rw [Function.update_of_ne hv] at h
      exact .inl h

theorem learn_extends (n : LearningNetwork V) (sw src inport : V) :
    Extends n.lookupTable (n.learn sw src inport) := by
  intro v s p hp
  unfold learn
  cases hlookup : n.lookupTable sw src with
  | some q => exact hp
  | none =>
    dsimp only
    by_cases hv : v = sw
    · subst hv
      have hs : s ≠ src := by
        rintro rfl
        rw [hlookup] at hp
        cases hp
      rw [Function.update_self, Function.update_of_ne hs]
      exact hp
    · rw [Function.update_of_ne hv]
      exact hp

theorem learn_known (n : LearningNetwork V) (sw src inport : V) :
    Known (n.learn sw src inport) sw src := by
  unfold Known learn
  cases hlookup : n.lookupTable sw src with
  | some q =>
    dsimp only
    rw [hlookup]
    rfl
  | none =>
    dsimp only
    rw [Function.update_self, Function.update_self]
    rfl

/-- The switch that has sent the packet-in learns the port at which the frame came. -/
theorem Inv.learn (h : n.Inv w) (hc : CopyOk w n.lookupTable ⟨.packetIn sw inport, frame⟩) :
    ({ n with lookupTable := n.learn sw frame.src inport } : LearningNetwork V).Inv w := by
  obtain ⟨hstation, -, -, hfrom, hto⟩ := hc
  have hextends := n.learn_extends sw frame.src inport
  refine {
    learned := fun v s p hp => ?_
    rules := fun v r hr => hextends.ruleOk (h.rules v r hr)
    flowMods := fun m hm => hextends.ruleOk (h.flowMods m hm)
    copies := fun c hc => hextends.copyOk (h.copies c hc)
    frames := h.frames
    received := h.received }
  rcases learn_eq_some hp with hp | ⟨rfl, rfl, rfl, hnone⟩
  · obtain ⟨hs, hcloser, hnext⟩ := h.learned v s p hp
    exact ⟨hs, hcloser, hnext.imp_right hextends.known⟩
  · have hunknown : ¬Known n.lookupTable v frame.src := by
      rw [Known, hnone]
      exact Bool.false_ne_true
    exact ⟨hstation, hto.resolve_right hunknown, hfrom.imp_right hextends.known⟩

theorem Inv.doSwitching (h : n.Inv w) (hc : CopyOk w n.lookupTable ⟨.packetIn sw inport, frame⟩)
    (hsent : frame ∈ n.sent) : (n.doSwitching sw inport frame).Inv w := by
  have hlearned := h.learn hc
  have hknown := n.learn_known sw frame.src inport
  obtain ⟨hstation, hsw, hadj, -, -⟩ := hc
  unfold LearningNetwork.doSwitching
  dsimp only
  cases hlookup : frame.dst.bind (n.learn sw frame.src inport sw) with
  | none =>
    refine hlearned.addCopy ⟨hstation, hsw, hadj, hknown, fun p hp => ?_⟩ hsent
    cases hp
  | some outport =>
    obtain ⟨d, hd, hp⟩ := Option.bind_eq_some_iff.mp hlookup
    refine { hlearned.addCopy (c := ⟨.packetOut sw inport (some outport), frame⟩)
        ⟨hstation, hsw, hadj, hknown, fun p hp' => ?_⟩ hsent with
      flowMods := fun m hm => ?_ }
    · cases hp'
      exact ⟨d, hd, hp⟩
    · rcases List.mem_append.mp hm with hm | hm
      · exact hlearned.flowMods m hm
      · rw [List.mem_singleton.mp hm]
        exact ⟨hknown, d, hd, hp⟩

theorem Inv.executePacketOutAction (h : n.Inv w) (hw : w.TreeNetwork) {outport : Option V}
    (hc : CopyOk w n.lookupTable ⟨.packetOut sw inport outport, frame⟩) (hsent : frame ∈ n.sent) :
    (n.executePacketOutAction w sw inport outport frame).Inv w := by
  obtain ⟨hstation, -, -, hknown, hout⟩ := hc
  refine h.addCopies fun c hc => ?_
  obtain ⟨x, hx, rfl⟩ := List.mem_map.mp hc
  refine ⟨h.onLink hw hstation hknown ?_, hsent⟩
  cases outport with
  | none => exact hw.mem_ports.mp (List.mem_filter.mp hx).1
  | some p =>
    obtain ⟨d, -, hlookup⟩ := hout p rfl
    rw [List.mem_singleton.mp hx]
    exact (h.learned sw d p hlookup).2.1.adj.symm

theorem Inv.process (h : n.Inv w) (hw : w.TreeNetwork) {expired : Rule V → Bool}
    (hc : CopyOk w n.lookupTable c) (hsent : c.frame ∈ n.sent) :
    (n.process w expired c).Inv w := by
  obtain ⟨place, frame⟩ := c
  cases place with
  | onLink u v => exact h.processFrame hw hc hsent
  | packetIn sw inport => exact h.doSwitching hc hsent
  | packetOut sw inport outport => exact h.executePacketOutAction hw hc hsent

omit [DecidableEq V] in
theorem Inv.send (h : n.Inv w) (hw : w.TreeNetwork) (hstation : w.isSwitch frame.src = false) :
    ({ n with
        copies := n.copies ++ (w.ports frame.src).map fun v => ⟨.onLink frame.src v, frame⟩
        sent := frame :: n.sent } : LearningNetwork V).Inv w := by
  have hsent : ({ n with sent := frame :: n.sent } : LearningNetwork V).Inv w :=
    { h with
      frames := fun c hc => List.mem_cons_of_mem _ (h.frames c hc)
      received := fun x hx => List.mem_cons_of_mem _ (h.received x hx) }
  refine hsent.addCopies fun c hc => ?_
  obtain ⟨x, hx, rfl⟩ := List.mem_map.mp hc
  have hadj := hw.mem_ports.mp hx
  refine ⟨⟨hstation, hadj, .inl rfl, fun hsw => .inl ?_⟩, List.mem_cons_self⟩
  -- the station is the nearest node to itself
  refine (closer_or_closer hw.isTree frame.src hadj).resolve_right fun hcloser => ?_
  have hdist := hcloser.2
  rw [SimpleGraph.dist_self] at hdist
  omega

theorem Inv.step {e : LearningEvent V} (h : n.Inv w) (hw : w.TreeNetwork)
    (hs : n.step w e = some n') : n'.Inv w := by
  cases e with
  | send frame =>
    rw [LearningNetwork.step] at hs
    split_ifs at hs with hsw
    cases hs
    exact h.send hw (by simpa using hsw)
  | move k expired =>
    obtain ⟨c, hc, rfl⟩ := Option.map_eq_some_iff.mp hs
    have hmem := List.mem_of_getElem? hc
    exact (h.eraseCopy k).process hw (h.copies c hmem) (h.frames c hmem)
  | flowMod k =>
    obtain ⟨m, hm, rfl⟩ := Option.map_eq_some_iff.mp hs
    have hrules : ∀ r ∈ m.2 :: n.flowTable m.1, RuleOk n.lookupTable m.1 r := by
      intro r hr
      rcases List.mem_cons.mp hr with rfl | hr
      · exact h.flowMods m (List.mem_of_getElem? hm)
      · exact h.rules _ r hr
    have htable := h.updateTable m.1 hrules
    exact { htable with
      flowMods := fun m' hm' => h.flowMods m' (List.mem_of_mem_eraseIdx hm') }

theorem inv_of_reachable (hw : w.TreeNetwork) (h : (system w).Reachable n) : n.Inv w := by
  refine h.invariant ?_ fun _ _ _ hinv hs => hinv.step hw hs
  rintro _ rfl
  exact {
    learned := fun v s p hp => by cases hp
    rules := fun v r hr => by cases hr
    flowMods := fun m hm => by cases hm
    copies := fun c hc => by cases hc
    frames := fun c hc => by cases hc
    received := fun x hx => by cases hx }

end LearningNetwork

end TsnReconfig.Learning
