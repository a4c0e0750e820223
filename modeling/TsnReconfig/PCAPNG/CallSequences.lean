import TsnReconfig.Lib.System
import TsnReconfig.PCAPNG.WellFormed

/-!
# Sequences of calls

A user initializes the reader and then calls `getNextSimTime` and `getNextEthernetIIFrame` in any
order, also after an exception.
-/

namespace TsnReconfig.PCAPNG
open Lib OpenFlow

inductive Call
  | initializeReader
  | getNextSimTime
  | getNextEthernetIIFrame
  deriving DecidableEq, Repr

/-- The reader, the frames it has returned, and whether it has returned a null pointer. -/
structure Usage where
  reader : Reader := {}
  initialized : Bool := false
  returned : List EthernetIIFrame := []
  ended : Bool := false

namespace Usage

def afterInitialize (s : Usage) (result : Except Thrown Unit) (r : Reader) : Usage :=
  { s with reader := r, initialized := result.toBool }

def afterFrame (s : Usage) (result : Except Thrown (Option EthernetIIFrame)) (r : Reader) : Usage :=
  match result with
  | .ok (some frame) => { s with reader := r, returned := s.returned ++ [frame] }
  | .ok none => { s with reader := r, ended := true }
  | .error _ => { s with reader := r }

/-- A call, `none` if it is not its turn, or if it does not end with so many passes. -/
def call (env : Environment) (s : Usage) (c : Call) (fuel : ℕ) : Option Usage :=
  if s.initialized = decide (c = .initializeReader) then none
  else
    match c with
    | .initializeReader =>
      ((initializeReader env fuel).run s.reader).map fun p => s.afterInitialize p.1 p.2
    | .getNextSimTime =>
      ((getNextSimTime env fuel).run s.reader).map fun p => { s with reader := p.2 }
    | .getNextEthernetIIFrame =>
      ((getNextEthernetIIFrame env fuel).run s.reader).map fun p => s.afterFrame p.1 p.2

/-- It is the turn of the call. -/
def Enabled (s : Usage) (c : Call) : Prop := s.initialized ≠ decide (c = .initializeReader)

/-- The blocks that the call reads fit, and it does not come to the end of a well-formed file with
frames that have not been returned. -/
def Ok (env : Environment) (s : Usage) : Call → Prop
  | .initializeReader => 12 ≤ (env.blockHeaderAt 0).totalLength.toNat
  | .getNextSimTime => s.reader.endReached = true ∨
    ∃ next, Ahead env s.reader.layout next ∧
      (next = .fileEnd → (∃ packets, WellFormed env packets) → s.reader.etherFrames = [])
  | .getNextEthernetIIFrame => s.reader.endReached = true ∨ s.reader.etherFrames ≠ [] ∨
    ∃ next, Ahead env s.reader.layout next

/-- The call ends with this state if enough passes are allowed. -/
def EndsIn (env : Environment) (s : Usage) (c : Call) (s' : Usage) : Prop :=
  ∃ n, ∀ fuel, n ≤ fuel → s.call env c fuel = some s'

/-- The call returns or throws. -/
def Returns (env : Environment) (s : Usage) (c : Call) : Prop := ∃ s', s.EndsIn env c s'

/-- No subtraction of lengths has wrapped around, no byte behind a packet has been read, and of a
well-formed file each packet is returned once, in order, and all of them before the null pointer. -/
structure Sound (env : Environment) (s : Usage) : Prop where
  notWrapped : s.reader.wrapped = false
  notOutside : s.reader.outside = false
  inOrder : ∀ packets, WellFormed env packets → s.returned <+: frames env packets
  complete : ∀ packets, WellFormed env packets → s.ended = true → s.returned = frames env packets

end Usage

/-- The sequences of calls. -/
def reading (env : Environment) : System Usage (Call × ℕ) where
  init s := s = {}
  step s e := s.call env e.1 e.2

/-- The file starts with a section header in the byte order of the machine. -/
structure StartsWithSection (env : Environment) : Prop where
  whole : 12 ≤ env.file.length
  blockType : (env.blockHeaderAt 0).blockType = btShb
  magic : env.magicAt 8 = byteOrderMagic

variable {env : Environment} {r r' : Reader} {s s' : Usage} {c : Call} {fuel : ℕ}

/-! ## How the calls end -/

theorem ends_initializeReader (hfile : StartsWithSection env)
    (hlength : 12 ≤ (env.blockHeaderAt 0).totalLength.toNat) :
    ∃ r', Ends (initializeReader env) {} (.ok ()) r' ∧
      r'.layout = Layout.afterSection env ({} : Reader).layout ∧ Kept {} r' := by
  have hwhole := hfile.whole
  obtain ⟨r', ⟨n, hn⟩, hlayout, hkept⟩ := ends_sectionHeader (r := {})
    ⟨by change 0 + 8 ≤ _; omega, hlength⟩ hfile.blockType (by change 0 + 12 ≤ _; omega) hfile.magic
  refine ⟨r', ⟨n, fun fuel hfuel => ?_⟩, hlayout, hkept⟩
  rw [initializeReader, Throwing.bind_of_ok (hn fuel hfuel), if_neg (by simp), Throwing.run_pure]

theorem run_takeFrame {frame : EthernetIIFrame} {etherFrames : List EthernetIIFrame}
    (h : r.etherFrames = frame :: etherFrames) :
    takeFrame.run r = some (.ok (some frame), { r with etherFrames := etherFrames }) := by
  rw [takeFrame, Throwing.run_get_bind, h]
  rfl

theorem ends_frame_of_endReached (hend : r.endReached = true) :
    Ends (getNextEthernetIIFrame env) r (.ok none) r := by
  refine ⟨0, fun fuel _ => ?_⟩
  rw [getNextEthernetIIFrame, Throwing.run_get_bind, Throwing.run_get_bind,
    if_neg (by simp [hend]), Throwing.run_get_bind, if_pos hend, Throwing.run_pure]

section
variable (hend : r.endReached = false)
include hend

theorem ends_frame_of_cons {frame : EthernetIIFrame} {etherFrames : List EthernetIIFrame}
    (h : r.etherFrames = frame :: etherFrames) :
    Ends (getNextEthernetIIFrame env) r (.ok (some frame))
      { r with etherFrames := etherFrames } := by
  refine ⟨0, fun fuel _ => ?_⟩
  rw [getNextEthernetIIFrame, Throwing.run_get_bind, Throwing.run_get_bind,
    if_neg (by simp [h]), Throwing.run_get_bind, if_neg (by simp [hend]), run_takeFrame h]

section
variable (hempty : r.etherFrames = [])
include hempty

theorem ends_frame_of_false (h : Ends (getNextPacketBlock env) r (.ok false) r') :
    Ends (getNextEthernetIIFrame env) r (.ok none) r' := by
  obtain ⟨n, hn⟩ := h
  refine ⟨n, fun fuel hfuel => ?_⟩
  rw [getNextEthernetIIFrame, Throwing.run_get_bind, Throwing.run_get_bind,
    if_pos (by simp [hempty, hend]), Throwing.bind_of_ok (hn fuel hfuel), if_pos (by simp),
    Throwing.run_pure]

theorem ends_frame_of_true {frame : EthernetIIFrame} {etherFrames : List EthernetIIFrame}
    (h : Ends (getNextPacketBlock env) r (.ok true) r')
    (hframes : r'.etherFrames = frame :: etherFrames) :
    Ends (getNextEthernetIIFrame env) r (.ok (some frame))
      { r' with etherFrames := etherFrames } := by
  obtain ⟨n, hn⟩ := h
  refine ⟨n, fun fuel hfuel => ?_⟩
  rw [getNextEthernetIIFrame, Throwing.run_get_bind, Throwing.run_get_bind,
    if_pos (by simp [hempty, hend]), Throwing.bind_of_ok (hn fuel hfuel), if_neg (by simp),
    run_takeFrame hframes]

theorem ends_frame_of_error {e : Thrown}
    (h : Ends (getNextPacketBlock env) r (.error e) r') :
    Ends (getNextEthernetIIFrame env) r (.error e) r' := by
  obtain ⟨n, hn⟩ := h
  refine ⟨n, fun fuel hfuel => ?_⟩
  rw [getNextEthernetIIFrame, Throwing.run_get_bind, Throwing.run_get_bind,
    if_pos (by simp [hempty, hend]), Throwing.bind_of_error (hn fuel hfuel)]

end

theorem ends_time_of_false (h : Ends (getNextPacketBlock env) r (.ok false) r') :
    Ends (getNextSimTime env) r (.ok 0) r' := by
  obtain ⟨n, hn⟩ := h
  refine ⟨n, fun fuel hfuel => ?_⟩
  rw [getNextSimTime, Throwing.run_get_bind, if_pos (by simp [hend]),
    Throwing.bind_of_ok (hn fuel hfuel), if_neg (by simp), Throwing.run_pure]

theorem ends_time_of_error {e : Thrown} (h : Ends (getNextPacketBlock env) r (.error e) r') :
    Ends (getNextSimTime env) r (.error e) r' := by
  obtain ⟨n, hn⟩ := h
  refine ⟨n, fun fuel hfuel => ?_⟩
  rw [getNextSimTime, Throwing.run_get_bind, if_pos (by simp [hend]),
    Throwing.bind_of_error (hn fuel hfuel)]

/-- The time is calculated, or its calculation throws. -/
theorem ends_time_of_true (h : Ends (getNextPacketBlock env) r (.ok true) r') :
    ∃ result resolution nano, Ends (getNextSimTime env) r result { r' with
      timeResolutions := Function.update r'.timeResolutions r'.currentPacketHeader.interfaceId
        (some resolution)
      initialTimestampNano := nano } := by
  obtain ⟨n, hn⟩ := h
  obtain ⟨resolution, hresolution⟩ : ∃ resolution, resolution =
    (r'.timeResolutions r'.currentPacketHeader.interfaceId).getD 0 := ⟨_, rfl⟩
  obtain ⟨result, nano, htime⟩ := exists_calculateSimTime env { r' with
    timeResolutions := Function.update r'.timeResolutions r'.currentPacketHeader.interfaceId
      (some resolution) } (timestamp r'.currentPacketHeader) resolution
  refine ⟨result, resolution, nano, n, fun fuel hfuel => ?_⟩
  rw [getNextSimTime, Throwing.run_get_bind, if_pos (by simp [hend]),
    Throwing.bind_of_ok (hn fuel hfuel), if_pos rfl, packetSimTime, Throwing.run_get_bind]
  dsimp only
  rw [Throwing.run_get_bind, ← hresolution, Throwing.run_modify_bind]
  exact htime

end

theorem ends_time_of_endReached (hend : r.endReached = true) :
    Ends (getNextSimTime env) r (.ok 0) r := by
  refine ⟨0, fun fuel _ => ?_⟩
  rw [getNextSimTime, Throwing.run_get_bind, if_neg (by simp [hend]), Throwing.run_pure]

/-! ## Calls with more passes -/

theorem initializeReader_mono {n m : ℕ} (h : n ≤ m) :
    Throwing.Le (initializeReader env n) (initializeReader env m) :=
  .bind (readNextBlock_mono h) fun _ => .refl _

theorem getNextEthernetIIFrame_mono {n m : ℕ} (h : n ≤ m) :
    Throwing.Le (getNextEthernetIIFrame env n) (getNextEthernetIIFrame env m) :=
  .bind (.refl _) fun _ => .bind (.refl _) fun _ =>
    .ite (.bind (getNextPacketBlock_mono h) fun _ => .refl _) (.refl _)

theorem getNextSimTime_mono {n m : ℕ} (h : n ≤ m) :
    Throwing.Le (getNextSimTime env n) (getNextSimTime env m) :=
  .bind (.refl _) fun _ => .ite (.bind (getNextPacketBlock_mono h) fun _ => .refl _) (.refl _)

namespace Usage

theorem call_mono {n m : ℕ} (h : n ≤ m) (hs : s.call env c n = some s') :
    s.call env c m = some s' := by
  unfold call at hs ⊢
  split_ifs at hs ⊢ with henabled
  cases c with
  | initializeReader =>
    obtain ⟨p, hp, rfl⟩ := Option.map_eq_some_iff.mp hs
    exact Option.map_eq_some_iff.mpr ⟨p, initializeReader_mono h _ _ hp, rfl⟩
  | getNextSimTime =>
    obtain ⟨p, hp, rfl⟩ := Option.map_eq_some_iff.mp hs
    exact Option.map_eq_some_iff.mpr ⟨p, getNextSimTime_mono h _ _ hp, rfl⟩
  | getNextEthernetIIFrame =>
    obtain ⟨p, hp, rfl⟩ := Option.map_eq_some_iff.mp hs
    exact Option.map_eq_some_iff.mpr ⟨p, getNextEthernetIIFrame_mono h _ _ hp, rfl⟩

theorem EndsIn.eq (h : s.EndsIn env c s') {s₁ : Usage} (hs : s.call env c fuel = some s₁) :
    s₁ = s' := by
  obtain ⟨n, hn⟩ := h
  have hmax := call_mono (Nat.le_max_left fuel n) hs
  rw [hn _ (Nat.le_max_right fuel n)] at hmax
  exact (Option.some.inj hmax).symm

theorem endsIn_time {result : Except Thrown SimTime} (hs : s.initialized = true)
    (h : Ends (getNextSimTime env) s.reader result r') :
    s.EndsIn env .getNextSimTime { s with reader := r' } := by
  obtain ⟨n, hn⟩ := h
  refine ⟨n, fun fuel hfuel => ?_⟩
  rw [call, if_neg (by simp [hs]), hn fuel hfuel, Option.map_some]

theorem endsIn_frame {result : Except Thrown (Option EthernetIIFrame)} (hs : s.initialized = true)
    (h : Ends (getNextEthernetIIFrame env) s.reader result r') :
    s.EndsIn env .getNextEthernetIIFrame (s.afterFrame result r') := by
  obtain ⟨n, hn⟩ := h
  refine ⟨n, fun fuel hfuel => ?_⟩
  rw [call, if_neg (by simp [hs]), hn fuel hfuel, Option.map_some]

end Usage

end TsnReconfig.PCAPNG
