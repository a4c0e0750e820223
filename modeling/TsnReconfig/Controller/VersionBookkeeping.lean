import Mathlib.Algebra.Group.Nat.Defs
import TsnReconfig.Controller.Installations
import TsnReconfig.Lib.Maps
import TsnReconfig.Lib.System

/-!
# The bookkeeping of versions

The tables of the engine over whole runs: which stream has which version, which paths still
wait for acknowledgements, and where a version is to be activated. The history of a run is a
ghost, newest first.
-/

namespace TsnReconfig.Controller
open OpenFlow Lib

/-! ## The runs of the engine -/

inductive Occurrence
  | installed (i : Install)
  | acked (matchVersion : UInt16) (sw : ℕ)

structure EngineState where
  engine : ConfigurationEngine
  history : List Occurrence

inductive EngineEvent
  | saveTalker (st : Stream)
  | configureDataPlane (memory : OxmBasicMatch) (demandid : Int) (sid : UInt64)
      (newAssignments : List Assignment)
  | ack (memory : UInt64) (matchVersion : UInt16) (sw : ℕ)

/-- The installations of a call, newest first. -/
def installedOf (installs : List Install) : List Occurrence :=
  (installs.map Occurrence.installed).reverse

def engineStep (c : ControllerTables) (s : EngineState) : EngineEvent → Option EngineState
  | .saveTalker st =>
    let e := s.engine
    some { s with engine := { e with registeredStreams := e.registeredStreams.insert st.sid st } }
  | .configureDataPlane memory demandid sid newAssignments => do
    let r ← configureDataPlane c memory s.engine demandid sid newAssignments
    return ⟨r.engine, installedOf r.installs ++ s.history⟩
  | .ack memory matchVersion sw => do
    let (v, _) ← s.engine.versions.receiveAck c memory matchVersion sw
    return ⟨{ s.engine with versions := v }, .acked matchVersion sw :: s.history⟩

/-- The engine with tagging enabled, from its initialisation on. -/
def engineRuns (c : ControllerTables) : System EngineState EngineEvent where
  init s := ∃ idleTimeout hardTimeout priority,
    s = ⟨.start true idleTimeout hardTimeout priority, []⟩
  step := engineStep c

/-! ## What the tables are to say -/

/-- The last installation for a stream. -/
def latestInstall (sid : UInt64) : List Occurrence → Option Install
  | [] => none
  | .installed i :: history => if i.streamId = sid then some i else latestInstall sid history
  | .acked _ _ :: history => latestInstall sid history

/-- The part of the last installed path of a stream whose switches have not acknowledged the
version `w` since. -/
def unacknowledged (sid : UInt64) (w : UInt16) : List Occurrence → Option (List ℕ)
  | [] => none
  | .installed i :: history =>
    if i.streamId = sid then some i.path else unacknowledged sid w history
  | .acked w' sw :: history =>
    if w' = w then (unacknowledged sid w history).map fun path => path.filter (· != sw)
    else unacknowledged sid w history

namespace VersionTables

/-- `w` is the next version of the stream. -/
def Pending (v : VersionTables) (sid : UInt64) (w : UInt16) : Prop :=
  ∃ info, v.streamFlowVersionTable[sid]? = some info ∧ info.next = w

/-- `w` is the next or the current version of the stream. -/
def Uses (v : VersionTables) (sid : UInt64) (w : UInt16) : Prop :=
  ∃ info, v.streamFlowVersionTable[sid]? = some info ∧ (info.next = w ∨ info.current = w)

theorem Pending.uses {v : VersionTables} {sid : UInt64} {w : UInt16} (h : v.Pending sid w) :
    v.Uses sid w := by
  obtain ⟨info, hinfo, hw⟩ := h
  exact ⟨info, hinfo, .inl hw⟩

end VersionTables

/-- The versions of the streams, the waiting paths and the ingress switches agree with each
other and with the history. The version zero stands for none. -/
structure Bookkeeping (c : ControllerTables) (v : VersionTables) (history : List Occurrence) :
    Prop where
  unique : ∀ w ≠ 0, ∀ sid sid', v.Uses sid w → v.Uses sid' w → sid = sid'
  waiting_iff : ∀ w, w ∈ v.ackWaitingPaths ↔ w ≠ 0 ∧ ∃ sid, v.Pending sid w
  waiting_path : ∀ w ≠ 0, ∀ sid, v.Pending sid w →
    ∃ path, unacknowledged sid w history = some path ∧ v.ackWaitingPaths[w]? = some path
  ingress : ∀ w ≠ 0, ∀ sid, v.Pending sid w →
    ∃ i k node, latestInstall sid history = some i ∧ i.path.head? = some k ∧
      c.topology[k]? = some node ∧ v.ingressSwTable[w]? = some node.moduleId
  recorded : ∀ i, .installed i ∈ history → i.recordedNext = i.matchVersion

/-! ## When a call keeps them right -/

/-- The streams that get a new path have no pending version, each gets one only once, and
the numbers the counter is about to give out are neither zero nor in use by another
stream. -/
structure CallOk (v : VersionTables) (sids : List UInt64) : Prop where
  nodup : sids.Nodup
  idle : ∀ sid ∈ sids, ∀ w, v.Pending sid w → w = 0
  noWrap : v.ofMatchVersionNumber.toNat + sids.length ≤ 2 ^ 16
  nonzero : sids ≠ [] → v.ofMatchVersionNumber ≠ 0
  fresh : ∀ j sid, sids[j]? = some sid →
    ∀ sid', v.Uses sid' (v.ofMatchVersionNumber + .ofNat j) → sid' = sid

/-- The condition on an event in a state. -/
def EventOk (s : EngineState) : EngineEvent → Prop
  | .configureDataPlane _ demandid sid newAssignments =>
    CallOk s.engine.versions ((callTargets s.engine demandid sid newAssignments).map Prod.fst)
  | _ => True

/-! ## One installation -/

section Numbers
variable (v : VersionTables) (waiting : Std.TreeMap UInt16 (List ℕ))
  (ingress : Std.TreeMap UInt16 Int)

/-- Taking a number does not depend on the waiting paths and the ingress switches. -/
theorem addMatchVersiontoStream_with (sid : UInt64) :
    VersionTables.addMatchVersiontoStream
        { v with ackWaitingPaths := waiting, ingressSwTable := ingress } sid =
      { v.addMatchVersiontoStream sid with
        ackWaitingPaths := waiting, ingressSwTable := ingress } := by
  simp only [VersionTables.addMatchVersiontoStream]
  split_ifs
  · rfl
  · split
    · rfl
    · split_ifs <;> rfl

theorem install_eq_with (sid : UInt64) (path : List ℕ) (moduleId : Int) :
    v.install sid path moduleId = { v.addMatchVersiontoStream sid with
      ackWaitingPaths := v.ackWaitingPaths.insert v.matchVersion path
      ingressSwTable := v.ingressSwTable.insert v.matchVersion moduleId } := by
  rw [VersionTables.install]
  rw [addMatchVersiontoStream_with v _ v.ingressSwTable]

end Numbers

section Install
variable {v : VersionTables} {sid : UInt64} {path : List ℕ} {ingress : Int}

/-- A stream without a pending version gets the version its rules carry, and the counter
moves on. -/
theorem install_of_idle (htag : v.isTaggingEnabled = true)
    (hidle : ∀ w, v.Pending sid w → w = 0) :
    v.install sid path ingress = { v with
      ofMatchVersionNumber := v.ofMatchVersionNumber + 1
      streamFlowVersionTable := v.streamFlowVersionTable.insert sid
        ⟨v.ofMatchVersionNumber,
          ((v.streamFlowVersionTable[sid]?).map VersionInfo.current).getD 0⟩
      ackWaitingPaths := v.ackWaitingPaths.insert v.ofMatchVersionNumber path
      ingressSwTable := v.ingressSwTable.insert v.ofMatchVersionNumber ingress } := by
  cases hinfo : v.streamFlowVersionTable[sid]? with
  | none =>
    simp [VersionTables.install, VersionTables.addMatchVersiontoStream,
      VersionTables.matchVersion, htag, hinfo]
  | some info =>
    have hnext : info.next = 0 := hidle _ ⟨info, hinfo, rfl⟩
    simp [VersionTables.install, VersionTables.addMatchVersiontoStream,
      VersionTables.matchVersion, htag, hinfo, hnext]

variable (htag : v.isTaggingEnabled = true) (hidle : ∀ w, v.Pending sid w → w = 0)
include htag hidle

theorem pending_install {sid' : UInt64} {w : UInt16} :
    (v.install sid path ingress).Pending sid' w ↔
      if sid' = sid then w = v.ofMatchVersionNumber else v.Pending sid' w := by
  rw [install_of_idle htag hidle]
  simp only [VersionTables.Pending, getElem?_insert]
  split_ifs
  · simp [eq_comm]
  · rfl

theorem uses_install {sid' : UInt64} {w : UInt16} (hw : w ≠ 0)
    (h : (v.install sid path ingress).Uses sid' w) :
    sid' = sid ∧ w = v.ofMatchVersionNumber ∨ v.Uses sid' w := by
  rw [install_of_idle htag hidle] at h
  obtain ⟨info, hinfo, huse⟩ := h
  simp only [getElem?_insert] at hinfo
  split_ifs at hinfo with heq
  · subst heq
    obtain rfl := Option.some.inj hinfo
    rcases huse with rfl | hcur
    · exact .inl ⟨rfl, rfl⟩
    · cases hold : v.streamFlowVersionTable[sid']? with
      | none =>
        simp only [hold, Option.map_none, Option.getD_none] at hcur
        exact absurd hcur.symm hw
      | some old =>
        simp only [hold, Option.map_some, Option.getD_some] at hcur
        exact .inr ⟨old, hold, .inr hcur⟩
  · exact .inr ⟨info, hinfo, huse⟩

end Install

/-- The tables are right with tagging enabled. -/
structure Kept (c : ControllerTables) (v : VersionTables) (history : List Occurrence) : Prop
    extends Bookkeeping c v history where
  tagging : v.isTaggingEnabled = true

/-- `CallOk` for a single installation. -/
structure InstallOk (v : VersionTables) (sid : UInt64) : Prop where
  idle : ∀ w, v.Pending sid w → w = 0
  nonzero : v.ofMatchVersionNumber ≠ 0
  fresh : ∀ sid', v.Uses sid' v.ofMatchVersionNumber → sid' = sid

theorem kept_install {c : ControllerTables} {v v' : VersionTables} {i : Install}
    {history : List Occurrence} (h : Kept c v history) (hok : InstallOk v i.streamId)
    (hi : InstallStep c v i v') : Kept c v' (.installed i :: history) := by
  obtain ⟨k, node, hk, hnode, rfl⟩ := hi.tables
  have htag := h.tagging
  have hform : v.install i.streamId i.path node.moduleId = _ := install_of_idle htag hok.idle
  have hversion : i.matchVersion = v.ofMatchVersionNumber := by
    rw [hi.matchVersion, VersionTables.matchVersion, if_pos htag]
  -- no other stream waits for the number that the counter gives out
  have hold : ∀ sid w, sid ≠ i.streamId → v.Pending sid w → w ≠ v.ofMatchVersionNumber := by
    rintro sid w hsid hp rfl
    exact hsid (hok.fresh sid hp.uses)
  refine ⟨⟨?_, ?_, ?_, ?_, ?_⟩, ?_⟩
  · intro w hw sid sid' hu hu'
    rcases uses_install htag hok.idle hw hu with ⟨rfl, rfl⟩ | hu
    · rcases uses_install htag hok.idle hw hu' with ⟨rfl, -⟩ | hu'
      · rfl
      · exact (hok.fresh sid' hu').symm
    · rcases uses_install htag hok.idle hw hu' with ⟨rfl, rfl⟩ | hu'
      · exact hok.fresh sid hu
      · exact h.unique w hw sid sid' hu hu'
  · intro w
    simp only [pending_install htag hok.idle]
    simp only [hform, mem_insert, h.waiting_iff]
    constructor
    · rintro (rfl | ⟨hw, sid, hp⟩)
      · exact ⟨hok.nonzero, i.streamId, by simp⟩
      · have hsid : sid ≠ i.streamId := by
          rintro rfl
          exact hw (hok.idle w hp)
        exact ⟨hw, sid, by rwa [if_neg hsid]⟩
    · rintro ⟨hw, sid, hp⟩
      split_ifs at hp
      · exact .inl hp
      · exact .inr ⟨hw, sid, hp⟩
  · intro w hw sid hp
    rw [pending_install htag hok.idle] at hp
    simp only [hform, getElem?_insert, unacknowledged]
    split_ifs at hp with hsid
    · subst hp hsid
      exact ⟨i.path, by simp⟩
    · rw [if_neg (Ne.symm hsid), if_neg (hold sid w hsid hp)]
      exact h.waiting_path w hw sid hp
  · intro w hw sid hp
    rw [pending_install htag hok.idle] at hp
    simp only [hform, getElem?_insert, latestInstall]
    split_ifs at hp with hsid
    · subst hp hsid
      exact ⟨i, k, node, by simp [hk, hnode]⟩
    · rw [if_neg (Ne.symm hsid), if_neg (hold sid w hsid hp)]
      exact h.ingress w hw sid hp
  · intro j hj
    rcases List.mem_cons.mp hj with heq | hj
    · obtain rfl := Occurrence.installed.inj heq
      rw [hi.recordedNext, hversion, hform]
      simp
    · exact h.recorded j hj
  · rw [hform]
    exact htag

theorem CallOk.head {v : VersionTables} {sid : UInt64} {sids : List UInt64}
    (h : CallOk v (sid :: sids)) : InstallOk v sid where
  idle := h.idle sid List.mem_cons_self
  nonzero := h.nonzero (by simp)
  fresh sid' hu := h.fresh 0 sid rfl sid' (by simpa using hu)

/-- The numbers a call gives out do not wrap. -/
theorem CallOk.toNat {v : VersionTables} {sids : List UInt64} (h : CallOk v sids) {j : ℕ}
    (hj : j < sids.length) :
    (v.ofMatchVersionNumber + .ofNat j).toNat = v.ofMatchVersionNumber.toNat + j := by
  have := h.noWrap
  rw [UInt16.toNat_add, UInt16.toNat_ofNat', @Nat.mod_eq_of_lt j, Nat.mod_eq_of_lt] <;> omega

theorem CallOk.ne_zero {v : VersionTables} {sids : List UInt64} (h : CallOk v sids) {j : ℕ}
    (hj : j < sids.length) : v.ofMatchVersionNumber + .ofNat j ≠ 0 := by
  intro heq
  have htoNat := h.toNat hj
  rw [heq, UInt16.toNat_zero] at htoNat
  refine h.nonzero (List.ne_nil_of_length_pos (by omega)) ?_
  exact UInt16.toNat.inj (by rw [UInt16.toNat_zero]; omega)

theorem add_one_add_ofNat (a : UInt16) (j : ℕ) : a + 1 + .ofNat j = a + .ofNat (j + 1) := by
  rw [UInt16.ofNat_add, UInt16.add_assoc, UInt16.add_comm (UInt16.ofNat j)]
  rfl

/-- After the first installation the condition holds for the rest. -/
theorem CallOk.tail {c : ControllerTables} {v v' : VersionTables} {i : Install}
    {sids : List UInt64} (h : CallOk v (i.streamId :: sids)) (htag : v.isTaggingEnabled = true)
    (hi : InstallStep c v i v') : CallOk v' sids := by
  obtain ⟨k, node, -, -, rfl⟩ := hi.tables
  have hidle := h.head.idle
  obtain ⟨hnot, hnodup⟩ := List.nodup_cons.mp h.nodup
  have hwrap := h.noWrap
  simp only [List.length_cons] at hwrap
  have hcounter : (v.install i.streamId i.path node.moduleId).ofMatchVersionNumber =
      v.ofMatchVersionNumber + 1 := by
    rw [install_of_idle htag hidle]
  have hnext : sids ≠ [] →
      (v.ofMatchVersionNumber + 1).toNat = v.ofMatchVersionNumber.toNat + 1 := fun hne =>
    h.toNat (by simpa using List.length_pos_iff.mpr hne)
  refine ⟨hnodup, ?_, ?_, ?_, ?_⟩
  · intro sid hmem w hp
    have hne : sid ≠ i.streamId := fun heq => hnot (heq ▸ hmem)
    rw [pending_install htag hidle, if_neg hne] at hp
    exact h.idle sid (List.mem_cons_of_mem _ hmem) w hp
  · rw [hcounter]
    rcases eq_or_ne sids [] with rfl | hne
    · have := (v.ofMatchVersionNumber + 1).toNat_lt
      simpa using this.le
    · have := hnext hne
      omega
  · intro hne heq
    have := hnext hne
    rw [hcounter] at heq
    simp [heq] at this
  · intro j sid hj sid' hu
    have hlt : j + 1 < (i.streamId :: sids).length := by
      simpa using (List.getElem?_eq_some_iff.mp hj).1
    rw [hcounter, add_one_add_ofNat] at hu
    -- the version of the first installation is not one of those still to come
    rcases uses_install htag hidle (h.ne_zero hlt) hu with ⟨-, heq⟩ | hu
    · have htoNat := h.toNat hlt
      rw [heq] at htoNat
      omega
    · exact h.fresh (j + 1) sid hj sid' hu

/-- Every installation of a chain meets the condition at its turn. -/
theorem kept_chain {c : ControllerTables} {v v' : VersionTables} {is : List Install}
    {history : List Occurrence} (hc : InstallChain c v is v') (h : Kept c v history)
    (hok : CallOk v (is.map Install.streamId)) : Kept c v' (installedOf is ++ history) := by
  induction hc generalizing history with
  | nil => exact h
  | cons hi _ ih =>
    have h' := ih (kept_install h hok.head hi) (hok.tail h.tagging hi)
    simpa [installedOf] using h'

/-! ## An acknowledgement -/

/-- A stream that waits for the version, if there is one, has it as its current version
afterwards. The other tables stay as they are. -/
theorem activateMatchVersion_eq_some {c : ControllerTables} {v v' : VersionTables}
    {memory : UInt64} {w : UInt16} {info : SwitchInfo} {message : ToSwitch}
    (h : v.activateMatchVersion c memory w = some (v', info, message)) :
    v' = { v with
      streamFlowVersionTable := v'.streamFlowVersionTable
      ingressSwTable := v.ingressSwTable.insertIfNew w 0 } ∧
    c.findRelatedSwitchSocket (v.ingressSwTable.getD w 0) = some info ∧
    ((∃ sid, v.Pending sid w ∧ message = .packetOut (.activationMessage w sid) ∧
        v'.streamFlowVersionTable = v.streamFlowVersionTable.insert sid ⟨0, w⟩) ∨
      (∀ sid, ¬ v.Pending sid w) ∧ message = .packetOut (.activationMessage w memory) ∧
        v'.streamFlowVersionTable = v.streamFlowVersionTable) := by
  obtain ⟨sw, hsw, h⟩ := Option.bind_eq_some_iff.mp h
  obtain ⟨rfl, rfl, rfl⟩ : _ = v' ∧ sw = info ∧ _ = message := by simpa using h
  refine ⟨rfl, hsw, ?_⟩
  cases hfind : v.streamFlowVersionTable.toList.find? fun i => i.2.next == w with
  | none =>
    refine .inr ⟨?_, rfl, rfl⟩
    rintro sid ⟨info, hinfo, hnext⟩
    have hmem := Std.TreeMap.mem_toList_iff_getElem?_eq_some.mpr hinfo
    have := List.find?_eq_none.mp hfind _ hmem
    simp [hnext] at this
  | some p =>
    obtain ⟨sid, info⟩ := p
    have hinfo := Std.TreeMap.mem_toList_iff_getElem?_eq_some.mp (List.mem_of_find?_eq_some hfind)
    have hnext : info.next = w := by simpa using List.find?_some hfind
    refine .inl ⟨sid, ⟨info, hinfo, hnext⟩, rfl, ?_⟩
    simp [hnext]

theorem VersionTables.Pending.eq {v : VersionTables} {sid : UInt64} {w x : UInt16}
    (hw : v.Pending sid w) (hx : v.Pending sid x) : w = x := by
  obtain ⟨info, hinfo, rfl⟩ := hw
  obtain ⟨info', hinfo', rfl⟩ := hx
  rw [Option.some.inj (hinfo.symm.trans hinfo')]

section Activate
variable {c : ControllerTables} {v v' : VersionTables} {memory : UInt64} {w : UInt16}
  {info : SwitchInfo} {message : ToSwitch}

/-- No stream has a version after an activation that it did not have before. -/
theorem uses_activate (h : v.activateMatchVersion c memory w = some (v', info, message))
    {sid : UInt64} {x : UInt16} (hx : x ≠ 0) (hu : v'.Uses sid x) : v.Uses sid x := by
  obtain ⟨-, -, ⟨sid', hp, -, htable⟩ | ⟨-, -, htable⟩⟩ := activateMatchVersion_eq_some h
  · obtain ⟨info, hinfo, hx'⟩ := hu
    rw [htable, getElem?_insert] at hinfo
    split_ifs at hinfo with hsid
    · subst hsid
      obtain rfl := Option.some.inj hinfo
      obtain rfl := hx'.resolve_left hx.symm
      exact hp.uses
    · exact ⟨info, hinfo, hx'⟩
  · rwa [VersionTables.Uses, htable] at hu

/-- After the activation of `w` no stream waits for it, and all others wait as before. -/
theorem pending_activate (hunique : w ≠ 0 → ∀ sid sid', v.Uses sid w → v.Uses sid' w → sid = sid')
    (h : v.activateMatchVersion c memory w = some (v', info, message))
    {sid : UInt64} {x : UInt16} (hx : x ≠ 0) :
    v'.Pending sid x ↔ x ≠ w ∧ v.Pending sid x := by
  obtain ⟨-, -, ⟨sid', hp', -, htable⟩ | ⟨hnone, -, htable⟩⟩ := activateMatchVersion_eq_some h
  · have hiff : v'.Pending sid x ↔ sid ≠ sid' ∧ v.Pending sid x := by
      simp only [VersionTables.Pending, htable, getElem?_insert]
      split_ifs with hsid
      · simp [hsid, hx.symm]
      · simp [hsid]
    rw [hiff]
    refine and_congr_left fun hp => not_congr ⟨?_, ?_⟩
    · rintro rfl
      exact hp.eq hp'
    · rintro rfl
      exact hunique hx sid sid' hp.uses hp'.uses
  · rw [VersionTables.Pending, htable]
    refine ⟨fun hp => ⟨?_, hp⟩, fun hp => hp.2⟩
    rintro rfl
    exact hnone sid hp

end Activate

/-- What an acknowledgement does: its switch leaves the waiting path, and the version is
activated when it was the last one. -/
theorem receiveAck_eq_some {c : ControllerTables} {v v' : VersionTables} {memory : UInt64}
    {w : UInt16} {sw : ℕ} {messages : List (SwitchInfo × ToSwitch)}
    (h : v.receiveAck c memory w sw = some (v', messages)) :
    (∃ path, v.ackWaitingPaths[w]? = some path ∧ path.filter (· != sw) ≠ [] ∧ messages = [] ∧
      v' = { v with ackWaitingPaths := v.ackWaitingPaths.insert w (path.filter (· != sw)) }) ∨
    ((v.ackWaitingPaths.getD w []).filter (· != sw) = [] ∧ ∃ u info message,
      v.activateMatchVersion c memory w = some (u, info, message) ∧
      messages = [(info, message)] ∧
      v' = { u with ackWaitingPaths := v.ackWaitingPaths.erase w }) := by
  simp only [VersionTables.receiveAck, List.isEmpty_iff] at h
  split_ifs at h with hempty
  · obtain ⟨⟨u, info, message⟩, hu, h⟩ := Option.bind_eq_some_iff.mp h
    obtain ⟨rfl, rfl⟩ := Prod.mk.inj (Option.some.inj h)
    refine .inr ⟨hempty, u, info, message, hu, rfl, ?_⟩
    rw [(activateMatchVersion_eq_some hu).1]
  · obtain ⟨rfl, rfl⟩ := Prod.mk.inj (Option.some.inj h)
    rw [Std.TreeMap.getD_eq_getD_getElem?] at hempty ⊢
    cases hpath : v.ackWaitingPaths[w]? with
    | none => simp [hpath] at hempty
    | some path => exact .inl ⟨path, rfl, by simpa [hpath] using hempty, rfl, rfl⟩

/-- An acknowledgement causes nothing but the activation of its version. -/
theorem activation_of_receiveAck {c : ControllerTables} {v v' : VersionTables} {memory : UInt64}
    {w : UInt16} {sw : ℕ} {messages : List (SwitchInfo × ToSwitch)}
    (h : v.receiveAck c memory w sw = some (v', messages)) :
    ∀ m ∈ messages, ∃ sid, m.2 = .packetOut (.activationMessage w sid) := by
  rcases receiveAck_eq_some h with ⟨_, -, -, rfl, -⟩ | ⟨-, _, _, _, hact, rfl, -⟩
  · simp
  · rcases (activateMatchVersion_eq_some hact).2.2 with ⟨sid, -, hm, -⟩ | ⟨-, hm, -⟩
    · simpa using ⟨sid, hm⟩
    · simpa using ⟨memory, hm⟩

theorem kept_ack {c : ControllerTables} {v v' : VersionTables} {memory : UInt64} {w : UInt16}
    {sw : ℕ} {messages : List (SwitchInfo × ToSwitch)} {history : List Occurrence}
    (h : Kept c v history) (hs : v.receiveAck c memory w sw = some (v', messages)) :
    Kept c v' (.acked w sw :: history) := by
  have hrecorded : ∀ i, .installed i ∈ Occurrence.acked w sw :: history →
      i.recordedNext = i.matchVersion := fun i hi =>
    h.recorded i ((List.mem_cons.mp hi).resolve_left (by simp))
  rcases receiveAck_eq_some hs with ⟨path, hpath, -, -, rfl⟩ | ⟨-, u, info, message, hu, -, rfl⟩
  · have hmem : w ∈ v.ackWaitingPaths := by
      rw [Std.TreeMap.mem_iff_isSome_getElem?, hpath]
      rfl
    refine ⟨⟨h.unique, ?_, ?_, h.ingress, hrecorded⟩, h.tagging⟩
    · intro x
      refine Iff.trans ?_ (h.waiting_iff x)
      rw [mem_insert]
      refine ⟨?_, .inr⟩
      rintro (rfl | hx)
      · exact hmem
      · exact hx
    · intro x hx sid hp
      obtain ⟨path', hun, hpath'⟩ := h.waiting_path x hx sid hp
      simp only [unacknowledged, getElem?_insert]
      rcases eq_or_ne x w with rfl | hne
      · obtain rfl := Option.some.inj (hpath.symm.trans hpath')
        exact ⟨path.filter (· != sw), by simp [hun]⟩
      · exact ⟨path', by simp [hne, hne.symm, hun, hpath']⟩
  · -- the last acknowledgement: the version is activated, and nothing waits for it any more
    have huses : ∀ {sid x}, x ≠ 0 → u.Uses sid x → v.Uses sid x := fun hx => uses_activate hu hx
    have hpending : ∀ {sid x}, x ≠ 0 → (u.Pending sid x ↔ x ≠ w ∧ v.Pending sid x) := fun hx =>
      pending_activate (fun hw => h.unique w hw) hu hx
    obtain ⟨hform, -, -⟩ := activateMatchVersion_eq_some hu
    refine ⟨⟨?_, ?_, ?_, ?_, hrecorded⟩, ?_⟩
    · intro x hx sid sid' hs hs'
      exact h.unique x hx sid sid' (huses hx hs) (huses hx hs')
    · intro x
      rw [mem_erase, h.waiting_iff]
      constructor
      · rintro ⟨hne, hx, sid, hp⟩
        exact ⟨hx, sid, (hpending hx).mpr ⟨hne, hp⟩⟩
      · rintro ⟨hx, sid, hp⟩
        obtain ⟨hne, hp⟩ := (hpending hx).mp hp
        exact ⟨hne, hx, sid, hp⟩
    · intro x hx sid hp
      obtain ⟨hne, hp⟩ := (hpending hx).mp hp
      obtain ⟨path, hun, hpath⟩ := h.waiting_path x hx sid hp
      refine ⟨path, ?_, ?_⟩
      · rw [unacknowledged, if_neg hne.symm, hun]
      · rw [getElem?_erase, if_neg hne, hpath]
    · intro x hx sid hp
      obtain ⟨hne, hp⟩ := (hpending hx).mp hp
      obtain ⟨i, k, node, hi, hk, hnode, hingress⟩ := h.ingress x hx sid hp
      refine ⟨i, k, node, hi, hk, hnode, ?_⟩
      rw [hform, getElem?_insertIfNew_of_ne hne, hingress]
    · rw [hform]
      exact h.tagging

/-! ## Whole runs -/

variable {c : ControllerTables}

theorem kept_start (idleTimeout hardTimeout priority : Int) :
    Kept c (ConfigurationEngine.start true idleTimeout hardTimeout priority).versions [] := by
  refine ⟨⟨?_, ?_, ?_, ?_, ?_⟩, rfl⟩ <;>
    simp [ConfigurationEngine.start, VersionTables.start, VersionTables.Uses,
      VersionTables.Pending]

theorem kept_step {s s' : EngineState} {ev : EngineEvent}
    (h : Kept c s.engine.versions s.history) (hok : EventOk s ev)
    (hs : engineStep c s ev = some s') : Kept c s'.engine.versions s'.history := by
  cases ev with
  | saveTalker st =>
    obtain rfl := Option.some.inj hs
    exact h
  | configureDataPlane memory demandid sid assignments =>
    obtain ⟨r, hr, hs⟩ := Option.bind_eq_some_iff.mp hs
    obtain rfl := Option.some.inj hs
    obtain ⟨hchain, htargets, -⟩ := configureDataPlane_eq_some hr
    refine kept_chain hchain h ?_
    have hsids : r.installs.map Install.streamId =
        (callTargets s.engine demandid sid assignments).map Prod.fst := by
      rw [← htargets, List.map_map]
      rfl
    rw [hsids]
    exact hok
  | ack memory w sw =>
    obtain ⟨⟨v, messages⟩, hv, hs⟩ := Option.bind_eq_some_iff.mp hs
    obtain rfl := Option.some.inj hs
    exact kept_ack h hv

/-- In every run whose calls meet the condition the bookkeeping is right in every state. -/
theorem bookkeeping_of_reachableUnder {s : EngineState}
    (h : (engineRuns c).ReachableUnder EventOk s) :
    Bookkeeping c s.engine.versions s.history := by
  have hkept : Kept c s.engine.versions s.history := by
    refine h.invariant (P := fun s => Kept c s.engine.versions s.history) ?_ ?_
    · rintro _ ⟨idleTimeout, hardTimeout, priority, rfl⟩
      exact kept_start idleTimeout hardTimeout priority
    · intro s e s' _ hP hok hs
      exact kept_step hP hok hs
  exact hkept.toBookkeeping

/-- Three switches in a triangle (module ids 10, 11 and 12), a talker at the first and a
listener at the second. -/
def sampleTables : ControllerTables where
  topology :=
    let node := fun (moduleId : Int) (remote : List Int) =>
      Node.mk moduleId (remote.map (Link.mk false)) (remote.map (Link.mk false))
    [node 10 [11, 12, 13], node 11 [10, 12, 14], node 12 [10, 11], node 13 [10], node 14 [11]]
  switchInfoTable := [(10, ⟨0⟩), (11, ⟨1⟩), (12, ⟨2⟩)]
  hostProfileTable := [⟨1, 0, 3⟩, ⟨2, 1, 4⟩]

def sampleTalker (sid : UInt64) : Stream := ⟨sid, 5, ⟨0⟩, 1, 2⟩

def sampleStart : EngineState := ⟨.start true 0 0 0, []⟩

/-- Stream 7 is admitted, and the first switch acknowledges its rule. -/
def admissionRun : List EngineEvent :=
  [.saveTalker (sampleTalker 7), .configureDataPlane .zero 0 7 [⟨0, 1, [0, 1], 0⟩], .ack 0 1 0]

theorem bookkeeping_of_reachableUnder_sample : ∃ s,
    (engineRuns sampleTables).runFrom sampleStart admissionRun = some s ∧
      Bookkeeping sampleTables s.engine.versions s.history := by
  have hsome : ((engineRuns sampleTables).runFrom sampleStart admissionRun).isSome := by decide
  obtain ⟨s, hs⟩ := Option.isSome_iff_exists.mp hsome
  obtain ⟨s₁, hs₁, h⟩ := Option.bind_eq_some_iff.mp hs
  obtain ⟨s₂, hs₂, h⟩ := Option.bind_eq_some_iff.mp h
  obtain ⟨s₃, hs₃, h⟩ := Option.bind_eq_some_iff.mp h
  obtain rfl := Option.some.inj h
  have hr₁ : (engineRuns sampleTables).ReachableUnder EventOk s₁ := by
    refine .step (.init ⟨0, 0, 0, rfl⟩) ?_ hs₁
    trivial
  have hok : CallOk s₁.engine.versions
      ((callTargets s₁.engine 0 7 [⟨0, 1, [0, 1], 0⟩]).map Prod.fst) := by
    obtain rfl := Option.some.inj hs₁
    refine ⟨by decide, ?_, by decide, by decide, ?_⟩ <;>
      simp [sampleStart, ConfigurationEngine.start, VersionTables.start, VersionTables.Pending,
        VersionTables.Uses]
  have hr₂ : (engineRuns sampleTables).ReachableUnder EventOk s₂ := by
    refine .step hr₁ ?_ hs₂
    exact hok
  refine ⟨s₃, hs, bookkeeping_of_reachableUnder (.step hr₂ ?_ hs₃)⟩
  trivial

/-- The path of stream 7 changes while its first version is pending. -/
def pathChangeRun : List EngineEvent :=
  [.saveTalker (sampleTalker 7), .configureDataPlane .zero 0 7 [⟨0, 1, [0, 1], 0⟩],
    .configureDataPlane .zero (-1) 0 [⟨0, 1, [0, 2, 1], 1⟩]]

/-- The rules of the second path carry version 2, the stream goes on waiting for version 1. -/
theorem pathChangeRun_not_bookkeeping : ∃ s, (engineRuns sampleTables).Reachable s ∧
    (∃ i, .installed i ∈ s.history ∧ i.matchVersion = 2 ∧ i.recordedNext = 1) ∧
    ¬ Bookkeeping sampleTables s.engine.versions s.history := by
  let versions := fun (o : Occurrence) => match o with
    | .installed i => some (i.matchVersion, i.recordedNext)
    | .acked _ _ => none
  have hrun : ((engineRuns sampleTables).runFrom sampleStart pathChangeRun).map
      (fun s => s.history.map versions) = some [some (2, 1), some (1, 1)] := by
    decide
  obtain ⟨s, hs, hhistory⟩ := Option.map_eq_some_iff.mp hrun
  have hmem : some (2, 1) ∈ s.history.map versions := by simp [hhistory]
  obtain ⟨o, ho, hversions⟩ := List.mem_map.mp hmem
  cases o with
  | acked w sw => cases hversions
  | installed i =>
    obtain ⟨hmatch, hnext⟩ := Prod.mk.inj (Option.some.inj hversions)
    have hreach : (engineRuns sampleTables).Reachable s :=
      System.reachable_of_runFrom ⟨0, 0, 0, rfl⟩ hs
    refine ⟨s, hreach, ⟨i, ho, hmatch, hnext⟩, fun h => ?_⟩
    have := h.recorded i ho
    rw [hmatch, hnext] at this
    cases this

end TsnReconfig.Controller
