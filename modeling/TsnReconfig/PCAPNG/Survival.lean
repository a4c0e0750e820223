import TsnReconfig.PCAPNG.CallSequences

/-!
# The reader survives

In sequences of calls that read blocks that fit every call ends, nothing wraps around, and the frames
of a well-formed file come in order. Else a call may not end, a length may wrap around, bytes behind
a packet may be read, and frames may get lost.
-/

namespace TsnReconfig.PCAPNG
open Lib OpenFlow

variable {env : Environment} {r r' : Reader} {s s' : Usage} {c : Call} {fuel : ℕ}

namespace Usage

/-! ## The frames of a well-formed file -/

/-- So many packets have been read, and the reader is at a block. -/
structure Tracks (env : Environment) (s : Usage) (read rest : List ℕ) : Prop where
  frames_eq : s.returned ++ s.reader.etherFrames = frames env read
  number : s.reader.currentPackeBlockNo = .ofNat read.length
  done : s.reader.endReached = true → rest = []
  ahead : s.reader.endReached = false →
    ∃ n, WellFormedFrom env s.reader.pos n rest ∧ Agrees s.reader.layout n

/-- What holds between the calls. -/
structure Inv (env : Environment) (s : Usage) : Prop where
  notWrapped : s.reader.wrapped = false
  notOutside : s.reader.outside = false
  endReached : s.reader.endReached = true → (∃ packets, WellFormed env packets) →
    s.reader.etherFrames = []
  ended : s.ended = true → s.reader.endReached = true
  fresh : s.initialized = false → s = {}
  tracks : s.initialized = true → ∀ packets, WellFormed env packets →
    ∃ read rest, packets = read ++ rest ∧ s.Tracks env read rest

theorem frames_concat {read : List ℕ} {pos : ℕ} :
    frames env (read ++ [pos]) = frames env read ++ [frameAt env (.ofNat (read.length + 1)) pos] :=
  List.mapIdx_concat

theorem frames_isPrefix {read rest : List ℕ} : frames env read <+: frames env (read ++ rest) := by
  rw [frames, frames, List.mapIdx_append]
  exact List.prefix_append ..

theorem Inv.sound (h : s.Inv env) : s.Sound env where
  notWrapped := h.notWrapped
  notOutside := h.notOutside
  inOrder packets hfile := by
    cases hs : s.initialized with
    | false =>
      rw [h.fresh hs]
      exact List.nil_prefix
    | true =>
      obtain ⟨read, rest, rfl, htracks⟩ := h.tracks hs packets hfile
      refine List.IsPrefix.trans ?_ frames_isPrefix
      rw [← htracks.frames_eq]
      exact List.prefix_append ..
  complete packets hfile hended := by
    have hend := h.ended hended
    cases hs : s.initialized with
    | false =>
      rw [h.fresh hs] at hended
      cases hended
    | true =>
      obtain ⟨read, rest, rfl, htracks⟩ := h.tracks hs packets hfile
      rw [htracks.done hend, List.append_nil, ← htracks.frames_eq,
        h.endReached hend ⟨_, hfile⟩, List.append_nil]

/-! ## What the calls keep -/

section
variable {next : Next} {result : Except Thrown Bool}

/-- What is read of a well-formed file is its next packet. -/
theorem Tracks.read {read rest : List ℕ} (h : s.Tracks env read rest)
    (hend : s.reader.endReached = false) (hahead : Ahead env s.reader.layout next)
    (hspec : next.Spec env s.reader result r') :
    ∃ read' rest', read ++ rest = read' ++ rest' ∧
      Tracks env { s with reader := r' } read' rest' := by
  obtain ⟨n, hfile, hagrees⟩ := h.ahead hend
  rcases hahead.of_wellFormed hfile hagrees with ⟨rfl, rfl⟩ |
    ⟨l, n', rest', rfl, rfl, hagrees', hrest, hwhole, hlength⟩
  · -- the end of the file
    obtain ⟨-, hend', hframes, hnumber, -⟩ := hspec
    refine ⟨read, [], rfl, ?_, hnumber.trans h.number, fun _ => rfl, fun hnot => ?_⟩
    · dsimp only
      rw [hframes, h.frames_eq]
    · dsimp only at hnot
      rw [hend'] at hnot
      cases hnot
  · -- a packet, whose frame is the next of the file
    obtain ⟨-, hread⟩ := hspec
    obtain ⟨frame, hframes, hframe⟩ := hread.etherFrames
    have hnumber : s.reader.currentPackeBlockNo + 1 = .ofNat (read.length + 1) := by
      rw [h.number]
      exact (UInt64.ofNat_add _ 1).symm
    refine ⟨read ++ [l.pos], rest', by rw [List.append_assoc]; rfl, ?_, ?_, ?_, ?_⟩
    · dsimp only
      rw [hframes, ← List.append_assoc, h.frames_eq, frames_concat,
        hframe (le_trans (by omega) hwhole), hnumber]
    · dsimp only
      rw [hread.currentPackeBlockNo, hnumber, List.length_append, List.length_singleton]
    · intro hend'
      dsimp only at hend'
      rw [hread.endReached, hend] at hend'
      cases hend'
    · intro _
      refine ⟨n', ?_, hread.correctEndianess, ?_, fun i hi => hread.known i (hagrees'.known i hi)⟩
      · dsimp only
        rw [hread.pos hwhole]
        exact hrest
      · exact hread.interfaceCount.trans hagrees'.interfaceCount

/-- Reading on keeps the invariant, unless it comes to the end with frames left. -/
theorem Inv.read (h : s.Inv env) (hs : s.initialized = true) (hend : s.reader.endReached = false)
    (hahead : Ahead env s.reader.layout next) (hspec : next.Spec env s.reader result r')
    (hempty : next = .fileEnd → (∃ packets, WellFormed env packets) → s.reader.etherFrames = []) :
    Inv env { s with reader := r' } := by
  have hkept : r'.wrapped = s.reader.wrapped ∧ r'.outside = s.reader.outside ∧
      (r'.endReached = true → (∃ packets, WellFormed env packets) → r'.etherFrames = []) := by
    cases next with
    | packet l =>
      refine ⟨hspec.2.wrapped, hspec.2.outside, fun hend' => ?_⟩
      rw [hspec.2.endReached, hend] at hend'
      cases hend'
    | fileEnd =>
      obtain ⟨-, -, hframes, -, hwrapped, houtside⟩ := hspec
      exact ⟨hwrapped, houtside, fun _ hfile => hframes.trans (hempty rfl hfile)⟩
    | thrown =>
      refine ⟨hspec.2.wrapped, hspec.2.outside, fun hend' => ?_⟩
      rw [hspec.2.endReached, hend] at hend'
      cases hend'
  refine ⟨hkept.1.trans h.notWrapped, hkept.2.1.trans h.notOutside, hkept.2.2, fun hended => ?_,
    fun hfresh => ?_, fun _ packets hfile => ?_⟩
  · have hended' := h.ended hended
    rw [hend] at hended'
    cases hended'
  · rw [hs] at hfresh
    cases hfresh
  · obtain ⟨read, rest, rfl, htracks⟩ := h.tracks hs packets hfile
    exact htracks.read hend hahead hspec

end

section
variable (h : s.Inv env) (hs : s.initialized = true)
include h hs

theorem Inv.time {resolution : Int8} {nano : UInt64} :
    Inv env { s with reader := { s.reader with
      timeResolutions := Function.update s.reader.timeResolutions
        s.reader.currentPacketHeader.interfaceId (some resolution)
      initialTimestampNano := nano } } := by
  refine ⟨h.notWrapped, h.notOutside, h.endReached, h.ended, fun hfresh => ?_,
    fun _ packets hfile => ?_⟩
  · rw [hs] at hfresh
    cases hfresh
  · obtain ⟨read, rest, heq, htracks⟩ := h.tracks hs packets hfile
    refine ⟨read, rest, heq, htracks.frames_eq, htracks.number, htracks.done, fun hend => ?_⟩
    obtain ⟨n, hfile, hagrees⟩ := htracks.ahead hend
    refine ⟨n, hfile, hagrees.correctEndianess, hagrees.interfaceCount, fun i hi => ?_⟩
    -- an interface that is known stays so
    change (Function.update s.reader.timeResolutions s.reader.currentPacketHeader.interfaceId
      (some resolution) i).isSome = true
    by_cases heq : i = s.reader.currentPacketHeader.interfaceId
    · rw [heq, Function.update_self, Option.isSome_some]
    · rw [Function.update_of_ne heq]
      exact hagrees.known i hi

theorem Inv.takeFrame {frame : EthernetIIFrame} {etherFrames : List EthernetIIFrame}
    (hend : s.reader.endReached = false) (hframes : s.reader.etherFrames = frame :: etherFrames) :
    Inv env { s with
      reader := { s.reader with etherFrames := etherFrames }
      returned := s.returned ++ [frame] } := by
  refine ⟨h.notWrapped, h.notOutside, fun hend' => ?_, h.ended, fun hfresh => ?_,
    fun _ packets hfile => ?_⟩
  · dsimp only at hend'
    rw [hend] at hend'
    cases hend'
  · rw [hs] at hfresh
    cases hfresh
  · obtain ⟨read, rest, heq, htracks⟩ := h.tracks hs packets hfile
    refine ⟨read, rest, heq, ?_, htracks.number, htracks.done, htracks.ahead⟩
    dsimp only
    rw [List.append_assoc, List.singleton_append, ← hframes, htracks.frames_eq]

theorem Inv.nullPointer (hend : s.reader.endReached = true) : Inv env { s with ended := true } := by
  refine ⟨h.notWrapped, h.notOutside, h.endReached, fun _ => hend, fun hfresh => ?_, fun _ => ?_⟩
  · rw [hs] at hfresh
    cases hfresh
  · intro packets hfile
    obtain ⟨read, rest, heq, htracks⟩ := h.tracks hs packets hfile
    exact ⟨read, rest, heq, htracks.frames_eq, htracks.number, htracks.done, htracks.ahead⟩

/-- **The next time.** -/
theorem Inv.getNextSimTime (hok : s.Ok env .getNextSimTime) :
    ∃ s', s.EndsIn env .getNextSimTime s' ∧ s'.Inv env := by
  cases hend : s.reader.endReached with
  | true => exact ⟨s, endsIn_time hs (ends_time_of_endReached hend), h⟩
  | false =>
    obtain ⟨next, hahead, hempty⟩ := hok.resolve_left (by simp [hend])
    obtain ⟨result, r', hends, hspec⟩ := getNextPacketBlock_of_ahead hahead rfl hend
    have hinv := h.read hs hend hahead hspec hempty
    cases next with
    | packet l =>
      obtain ⟨rfl, -⟩ := hspec
      obtain ⟨result, resolution, nano, htime⟩ := ends_time_of_true hend hends
      exact ⟨_, endsIn_time hs htime, hinv.time hs⟩
    | fileEnd =>
      obtain ⟨rfl, -⟩ := hspec
      exact ⟨_, endsIn_time hs (ends_time_of_false hend hends), hinv⟩
    | thrown =>
      obtain ⟨⟨e, rfl⟩, -⟩ := hspec
      exact ⟨_, endsIn_time hs (ends_time_of_error hend hends), hinv⟩

/-- **The next frame.** -/
theorem Inv.getNextEthernetIIFrame (hok : s.Ok env .getNextEthernetIIFrame) :
    ∃ s', s.EndsIn env .getNextEthernetIIFrame s' ∧ s'.Inv env := by
  cases hend : s.reader.endReached with
  | true =>
    exact ⟨_, endsIn_frame hs (ends_frame_of_endReached hend), h.nullPointer hs hend⟩
  | false =>
    cases hframes : s.reader.etherFrames with
    | cons frame etherFrames =>
      exact ⟨_, endsIn_frame hs (ends_frame_of_cons hend hframes), h.takeFrame hs hend hframes⟩
    | nil =>
      obtain ⟨next, hahead⟩ :=
        (hok.resolve_left (by simp [hend])).resolve_left (fun hne => hne hframes)
      obtain ⟨result, r', hends, hspec⟩ := getNextPacketBlock_of_ahead hahead rfl hend
      have hinv := h.read hs hend hahead hspec fun _ _ => hframes
      cases next with
      | packet l =>
        obtain ⟨rfl, hread⟩ := hspec
        obtain ⟨frame, hframe, -⟩ := hread.etherFrames
        rw [hframes, List.nil_append] at hframe
        exact ⟨_, endsIn_frame hs (ends_frame_of_true hend hframes hends hframe),
          hinv.takeFrame hs (hread.endReached.trans hend) hframe⟩
      | fileEnd =>
        obtain ⟨rfl, hend', -⟩ := hspec
        exact ⟨_, endsIn_frame hs (ends_frame_of_false hend hframes hends),
          hinv.nullPointer hs hend'⟩
      | thrown =>
        obtain ⟨⟨e, rfl⟩, -⟩ := hspec
        exact ⟨_, endsIn_frame hs (ends_frame_of_error hend hframes hends), hinv⟩

end

/-- **The first section header.** -/
theorem Inv.initializeReader (h : s.Inv env) (hs : s.initialized = false)
    (hfile : StartsWithSection env) (hok : s.Ok env .initializeReader) :
    ∃ s', s.EndsIn env .initializeReader s' ∧ s'.Inv env := by
  obtain rfl := h.fresh hs
  obtain ⟨r', ⟨n, hn⟩, hlayout, hkept⟩ := ends_initializeReader hfile hok
  refine ⟨{ reader := r', initialized := true }, ⟨n, fun fuel hfuel => ?_⟩,
    hkept.wrapped, hkept.outside, fun hend => ?_, fun hended => ?_, fun hfresh => ?_,
    fun _ packets hwellFormed => ?_⟩
  · rw [call, if_neg (by simp), hn fuel hfuel, Option.map_some]
    rfl
  · dsimp only at hend
    rw [hkept.endReached] at hend
    cases hend
  · cases hended
  · cases hfresh
  · -- what follows the first section is well formed if the file is
    have hwhole := hfile.whole
    have hfits : HeaderFits env 0 := ⟨by omega, hok⟩
    obtain ⟨htotal, hlength, -, hrest⟩ := hwellFormed.of_sectionHeader hfits hfile.blockType
    refine ⟨[], packets, rfl, hkept.etherFrames, hkept.currentPackeBlockNo, fun hend => ?_,
      fun _ => ⟨0, ?_, ?_⟩⟩
    · dsimp only at hend
      rw [hkept.endReached] at hend
      cases hend
    · have hpos : r'.pos = 0 + (env.blockHeaderAt 0).totalLength.toNat := by
        have hnext := congrArg Layout.pos hlayout
        change r'.pos = env.advance (0 + 8) 16 + ((env.blockHeaderAt 0).totalLength.toNat - 28) + 4
          at hnext
        rw [Environment.advance_of_le (by omega)] at hnext
        omega
      rw [hpos]
      exact hrest
    · rw [hlayout]
      exact ⟨rfl, rfl, fun i hi => (Nat.not_lt_zero _ hi).elim⟩

theorem Inv.step (h : s.Inv env) (hfile : StartsWithSection env) (hturn : s.Enabled c)
    (hok : s.Ok env c) : ∃ s', s.EndsIn env c s' ∧ s'.Inv env := by
  cases c with
  | initializeReader => exact h.initializeReader (by simpa [Enabled] using hturn) hfile hok
  | getNextSimTime => exact h.getNextSimTime (by simpa [Enabled] using hturn) hok
  | getNextEthernetIIFrame => exact h.getNextEthernetIIFrame (by simpa [Enabled] using hturn) hok

theorem inv_init : Inv env {} := by
  refine ⟨rfl, rfl, fun hend => ?_, fun hended => ?_, fun _ => rfl, fun hinit => ?_⟩
  · cases hend
  · cases hended
  · cases hinit

theorem inv_of_reachable (hfile : StartsWithSection env)
    (h : (reading env).ReachableUnder (fun s e => s.Ok env e.1) s) : s.Inv env := by
  refine h.invariant ?_ fun s e s' _ hinv hok hs => ?_
  · rintro _ rfl
    exact inv_init
  · have hturn : s.Enabled e.1 := by
      intro heq
      change s.call env e.1 e.2 = some s' at hs
      unfold call at hs
      rw [if_pos heq] at hs
      cases hs
    obtain ⟨s'', hends, hinv'⟩ := hinv.step hfile hturn hok
    rw [hends.eq hs]
    exact hinv'

end Usage

/-- **The reader survives**: in every sequence of calls that meet the condition, nothing wraps
around and no byte behind a packet is read, the frames come in order, and the next such call ends. -/
theorem survives_of_ok (hfile : StartsWithSection env)
    (h : (reading env).ReachableUnder (fun s e => s.Ok env e.1) s) :
    s.Sound env ∧ ∀ c, s.Enabled c → s.Ok env c → s.Returns env c := by
  have hinv := Usage.inv_of_reachable hfile h
  refine ⟨hinv.sound, fun c hturn hok => ?_⟩
  obtain ⟨s', hends, -⟩ := hinv.step hfile hturn hok
  exact ⟨s', hends⟩

/-! ## Files -/

/-- A machine with empty memory that tells the time in the unit of the timestamps. -/
def machine (file : List UInt8) : Environment where
  file
  memory _ _ := 0
  bigEndian := false
  toNano timestamp _ _ := timestamp
  simTime timestamp _ _ initial := some (timestamp.toNat - initial.toNat)
  simTime_first _ _ _ := Option.some_ne_none _

/-- A section header. -/
def sectionHeader : List UInt8 :=
  [0x0A, 0x0D, 0x0D, 0x0A, 28, 0, 0, 0, 0x4D, 0x3C, 0x2B, 0x1A, 1, 0, 0, 0] ++
    List.replicate 8 255 ++ [28, 0, 0, 0]

/-- An interface without options. -/
def interface : List UInt8 :=
  [1, 0, 0, 0, 20, 0, 0, 0, 1, 0, 0, 0, 0, 0, 0, 0, 20, 0, 0, 0]

/-- A packet of 14 bytes at the time 5. -/
def packet : List UInt8 :=
  [6, 0, 0, 0, 48, 0, 0, 0, 0, 0, 0, 0, 0, 0, 0, 0, 5, 0, 0, 0, 14, 0, 0, 0, 14, 0, 0, 0] ++
    List.replicate 16 7 ++ [48, 0, 0, 0]

/-- A packet without bytes. -/
def emptyPacket : List UInt8 :=
  [6, 0, 0, 0, 32, 0, 0, 0, 0, 0, 0, 0, 0, 0, 0, 0, 5, 0, 0, 0, 0, 0, 0, 0, 0, 0, 0, 0, 32, 0, 0, 0]

/-- An interface with one byte of options. -/
def oddInterface : List UInt8 :=
  [1, 0, 0, 0, 21, 0, 0, 0, 1, 0, 0, 0, 0, 0, 0, 0, 0, 21, 0, 0, 0]

def onePacket : Environment := machine (sectionHeader ++ interface ++ packet)

theorem startsWithSection_onePacket : StartsWithSection onePacket :=
  ⟨by decide, by decide, by decide⟩

/-- The packet is at position 48. -/
theorem wellFormed_onePacket : WellFormed onePacket [48] := by
  refine .sectionHeader ⟨by decide, by decide⟩ (by decide) (by decide) (by decide) (by decide) ?_
  refine .interface ⟨by decide, by decide⟩ (by decide) (by decide) (by decide) .nil ?_
  refine .packet ⟨by decide, by decide⟩ (by decide) (by decide) (by decide) (by decide) ?_
  exact .fileEnd

theorem ahead_onePacket {l : Layout} (hpos : l.pos = 28) (hcorrect : l.correctEndianess = true)
    (hcount : l.interfaceCount = 0) : ∃ next, Ahead onePacket l next := by
  obtain ⟨pos, correctEndianess, interfaceCount, known, timed⟩ := l
  obtain rfl : pos = 28 := hpos
  obtain rfl : interfaceCount = 0 := hcount
  have htype : (onePacket.blockHeaderAt 28).blockType = btIdb := by decide
  have hlength : 20 ≤ (onePacket.blockHeaderAt 28).totalLength.toNat := by decide
  have hpacket : (onePacket.blockHeaderAt 48).blockType = btEpb := by decide
  have hcaplen : 14 ≤ (packetBlockAt onePacket 48).caplen.toNat := by decide
  have hfits : 32 + (packetBlockAt onePacket 48).caplen.toNat +
      paddingBytes (packetBlockAt onePacket 48).caplen.toNat ≤
        (onePacket.blockHeaderAt 48).totalLength.toNat := by decide
  have hinterface : (packetBlockAt onePacket 48).interfaceId = 0 := by decide
  have hfirst : HeaderFits onePacket 28 := ⟨by decide, by decide⟩
  have hsecond : HeaderFits onePacket 48 := ⟨by decide, by decide⟩
  have hwhole : 48 + 24 ≤ onePacket.file.length := by decide
  refine ⟨_, @Ahead.interface onePacket _ _ 44 hfirst htype hcorrect hlength .nil
    (.packet hsecond hpacket hcorrect hwhole (.inr ?_) hcaplen hfits)⟩
  change Function.update known 0 true (packetBlockAt onePacket 48).interfaceId = true
  rw [hinterface, Function.update_self]

/-- The frame of the packet is returned, and the next call gives the null pointer. -/
theorem survives_of_ok_onePacket : ∃ s : Usage, s.returned = frames onePacket [48] ∧
    s.Sound onePacket ∧ s.Returns onePacket .getNextEthernetIIFrame := by
  have hrun : ((reading onePacket).step {} (.initializeReader, 9)).any (fun s₁ =>
      s₁.reader.pos = 28 ∧ s₁.reader.correctEndianess = true ∧ s₁.reader.interfaceCount = 0 ∧
      ((reading onePacket).step s₁ (.getNextEthernetIIFrame, 9)).any (fun s₂ =>
        s₂.reader.pos = 96 ∧ s₂.initialized = true ∧ s₂.returned = frames onePacket [48])) =
      true := by decide +kernel
  obtain ⟨s₁, hs₁, h₁⟩ := (Option.any_eq_true _ _).mp hrun
  obtain ⟨hpos, hcorrect, hcount, hrest⟩ := of_decide_eq_true h₁
  obtain ⟨s₂, hs₂, h₂⟩ := (Option.any_eq_true _ _).mp hrest
  obtain ⟨hpos₂, hinit, hreturned⟩ := of_decide_eq_true h₂
  have hlength : 12 ≤ (onePacket.blockHeaderAt 0).totalLength.toNat := by decide
  have hok₁ : Usage.Ok onePacket {} .initializeReader := hlength
  have hok₂ : s₁.Ok onePacket .getNextEthernetIIFrame :=
    Or.inr (Or.inr (ahead_onePacket hpos hcorrect hcount))
  have hfirst : (reading onePacket).ReachableUnder (fun s e => s.Ok onePacket e.1) s₁ :=
    .step (.init rfl) hok₁ hs₁
  have hsecond : (reading onePacket).ReachableUnder (fun s e => s.Ok onePacket e.1) s₂ :=
    .step hfirst hok₂ hs₂
  obtain ⟨hsound, hreturns⟩ := survives_of_ok startsWithSection_onePacket hsecond
  refine ⟨s₂, hreturned, hsound,
    hreturns .getNextEthernetIIFrame (by simp [Usage.Enabled, hinit]) ?_⟩
  have hend : onePacket.file.length ≤ 96 := by decide
  rw [← hpos₂] at hend
  exact Or.inr (Or.inr ⟨.fileEnd, .fileEnd hend⟩)

theorem getNextPacketBlock_oddInterface {r : Reader} (hpos : r.pos = 28)
    (hcorrect : r.correctEndianess = true) (hend : r.endReached = false) (fuel : ℕ) :
    (getNextPacketBlock (machine (sectionHeader ++ oddInterface)) fuel).run r = none := by
  have hheader : (machine (sectionHeader ++ oddInterface)).blockHeaderAt r.pos = ⟨btIdb, 21⟩ := by
    rw [hpos]
    decide
  have htotal : r.layout.total (machine (sectionHeader ++ oddInterface)) = 21 :=
    congrArg (·.totalLength.toNat) hheader
  refine getNextPacketBlock_eq_none ⟨?_, ?_⟩ ?_ hcorrect hend ?_ ?_
  · rw [hpos]
    decide
  · rw [hheader]
    decide
  · rw [hheader]
  · rw [htotal]
    decide
  · rw [htotal]
    decide

/-- With one byte of options the next time does not come. A packet without bytes is read behind its
end, and its length wraps around. A frame is lost if the time is asked for at the end. -/
theorem not_survives :
    (StartsWithSection (machine (sectionHeader ++ oddInterface)) ∧
      ∃ s, (reading (machine (sectionHeader ++ oddInterface))).Reachable s ∧
        s.Enabled .getNextSimTime ∧
        ¬s.Returns (machine (sectionHeader ++ oddInterface)) .getNextSimTime) ∧
    (StartsWithSection (machine (sectionHeader ++ interface ++ emptyPacket)) ∧
      ∃ s, (reading (machine (sectionHeader ++ interface ++ emptyPacket))).Reachable s ∧
        s.reader.wrapped = true ∧ s.reader.outside = true) ∧
    (StartsWithSection onePacket ∧ WellFormed onePacket [48] ∧
      ∃ s, (reading onePacket).Reachable s ∧ s.ended = true ∧ s.returned = [] ∧
        ¬s.Sound onePacket) := by
  refine ⟨⟨⟨by decide, by decide, by decide⟩, ?_⟩, ⟨⟨by decide, by decide, by decide⟩, ?_⟩,
    startsWithSection_onePacket, wellFormed_onePacket, ?_⟩
  · have hrun : ((reading (machine (sectionHeader ++ oddInterface))).runFrom {}
        [(.initializeReader, 9)]).any (fun s => s.reader.pos = 28 ∧
          s.reader.correctEndianess = true ∧ s.reader.endReached = false ∧
          s.initialized = true) = true := by decide +kernel
    obtain ⟨s, hs, h⟩ := (Option.any_eq_true _ _).mp hrun
    obtain ⟨hpos, hcorrect, hend, hinit⟩ := of_decide_eq_true h
    refine ⟨s, System.reachable_of_runFrom rfl hs, by simp [Usage.Enabled, hinit], ?_⟩
    rintro ⟨s', n, hn⟩
    have hcall := hn n le_rfl
    have htime : (getNextSimTime (machine (sectionHeader ++ oddInterface)) n).run s.reader =
        none := by
      rw [getNextSimTime, Throwing.run_get_bind, if_pos (by simp [hend])]
      exact Throwing.bind_of_none (getNextPacketBlock_oddInterface hpos hcorrect hend n)
    rw [Usage.call, if_neg (by simp [hinit]), htime] at hcall
    cases hcall
  · have hrun : ((reading (machine (sectionHeader ++ interface ++ emptyPacket))).runFrom {}
        [(.initializeReader, 9), (.getNextSimTime, 9)]).any (fun s =>
          s.reader.wrapped = true ∧ s.reader.outside = true) = true := by decide +kernel
    obtain ⟨s, hs, h⟩ := (Option.any_eq_true _ _).mp hrun
    exact ⟨s, System.reachable_of_runFrom rfl hs, of_decide_eq_true h⟩
  · have hrun : ((reading onePacket).runFrom {} [(.initializeReader, 9), (.getNextSimTime, 9),
        (.getNextSimTime, 9), (.getNextEthernetIIFrame, 9)]).any (fun s =>
          s.ended = true ∧ s.returned = []) = true := by decide +kernel
    obtain ⟨s, hs, h⟩ := (Option.any_eq_true _ _).mp hrun
    obtain ⟨hended, hreturned⟩ := of_decide_eq_true h
    refine ⟨s, System.reachable_of_runFrom rfl hs, hended, hreturned, fun hsound => ?_⟩
    have hall := hsound.complete _ wellFormed_onePacket hended
    rw [hreturned] at hall
    exact absurd (congrArg List.length hall) (by decide)

end TsnReconfig.PCAPNG
