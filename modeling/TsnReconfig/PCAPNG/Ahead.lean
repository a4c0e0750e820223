import TsnReconfig.PCAPNG.Blocks

/-!
# The blocks ahead

A call reads blocks up to the next packet, the end of the file or an exception. If these blocks fit,
which only the bytes of the file tell, it ends with what comes first, and nothing goes wrong.
-/

namespace TsnReconfig.PCAPNG
open Lib OpenFlow

/-- What decides how the next blocks are read. -/
structure Layout where
  pos : ℕ
  correctEndianess : Bool
  interfaceCount : UInt32
  known : UInt32 → Bool
  timed : Bool

def Reader.layout (r : Reader) : Layout where
  pos := r.pos
  correctEndianess := r.correctEndianess
  interfaceCount := r.interfaceCount
  known i := (r.timeResolutions i).isSome
  timed := decide (r.initialTimestampNano ≠ 0)

namespace Layout
variable (env : Environment) (l : Layout)

def header : BlockHeader := env.blockHeaderAt l.pos

/-- The total length of the block. -/
def total : ℕ := (l.header env).totalLength.toNat

/-- The packet header, if the block is an enhanced packet block. -/
def packetHeader : EnhancedPacketBlock := env.packetHeaderAt (l.pos + 8)

def caplen : ℕ := (l.packetHeader env).caplen.toNat

/-- A section header is read as a whole even if its length is less. -/
def afterSection : Layout where
  pos := env.advance (l.pos + 8) 16 + (l.total env - 28) + 4
  correctEndianess := true
  interfaceCount := 0
  known _ := false
  timed := l.timed

def afterInterface (pos' : ℕ) : Layout := { l with
  pos := pos' + 4
  interfaceCount := l.interfaceCount + 1
  known := Function.update l.known l.interfaceCount true }

def afterOther : Layout := { l with pos := l.pos + l.total env }

end Layout

/-- What comes first. -/
inductive Next
  | packet (l : Layout)
  | fileEnd
  | thrown

/-- The blocks up to what comes first fit. -/
inductive Ahead (env : Environment) : Layout → Next → Prop
  | fileEnd {l : Layout} (end_le : env.file.length ≤ l.pos) : Ahead env l .fileEnd
  | sectionHeader {l : Layout} {next : Next} (fits : HeaderFits env l.pos)
    (blockType : (l.header env).blockType = btShb) (whole : l.pos + 12 ≤ env.file.length)
    (magic : env.magicAt (l.pos + 8) = byteOrderMagic) (rest : Ahead env (l.afterSection env) next) :
    Ahead env l next
  | otherEndianess {l : Layout} (fits : HeaderFits env l.pos)
    (blockType : (l.header env).blockType = btShb) (whole : l.pos + 12 ≤ env.file.length)
    (magic : env.magicAt (l.pos + 8) ≠ byteOrderMagic) : Ahead env l .thrown
  | refused {l : Layout} (fits : HeaderFits env l.pos)
    (blockType : (l.header env).blockType ≠ btShb) (endianess : l.correctEndianess = false) :
    Ahead env l .thrown
  | interface {l : Layout} {next : Next} {pos' : ℕ} (fits : HeaderFits env l.pos)
    (blockType : (l.header env).blockType = btIdb) (endianess : l.correctEndianess = true)
    (length : 20 ≤ l.total env)
    (options : OptionsFit env (env.advance (l.pos + 8) 8) (l.total env - 20) pos')
    (rest : Ahead env (l.afterInterface pos') next) : Ahead env l next
  | packet {l : Layout} (fits : HeaderFits env l.pos)
    (blockType : (l.header env).blockType = btEpb) (endianess : l.correctEndianess = true)
    (whole : l.pos + 24 ≤ env.file.length)
    (time : l.timed = true ∨ l.known (l.packetHeader env).interfaceId = true)
    (caplen : 14 ≤ l.caplen env)
    (length : 32 + l.caplen env + paddingBytes (l.caplen env) ≤ l.total env) :
    Ahead env l (.packet l)
  | unknown {l : Layout} (fits : HeaderFits env l.pos)
    (blockType : (l.header env).blockType = btEpb) (endianess : l.correctEndianess = true)
    (whole : l.pos + 12 ≤ env.file.length) (timed : l.timed = false)
    (interface : l.known (l.packetHeader env).interfaceId = false) : Ahead env l .thrown
  | other {l : Layout} {next : Next} (fits : HeaderFits env l.pos)
    (notSection : (l.header env).blockType ≠ btShb)
    (notInterface : (l.header env).blockType ≠ btIdb)
    (notPacket : (l.header env).blockType ≠ btEpb) (endianess : l.correctEndianess = true)
    (rest : Ahead env (l.afterOther env) next) : Ahead env l next

variable {env : Environment} {l : Layout} {next : Next} {r r₁ r' : Reader} {n m fuel : ℕ}
  {blockType : UInt32} {result : Except Thrown Bool}

/-- What the blocks before it leave as it is. -/
structure Kept (r r' : Reader) : Prop where
  etherFrames : r'.etherFrames = r.etherFrames
  currentPackeBlockNo : r'.currentPackeBlockNo = r.currentPackeBlockNo
  endReached : r'.endReached = r.endReached
  wrapped : r'.wrapped = r.wrapped
  outside : r'.outside = r.outside

/-- The frame of the packet block at a position of the file. -/
def frameAt (env : Environment) (packetBlockNo : UInt64) (pos : ℕ) : EthernetIIFrame :=
  let caplen := (env.packetHeaderAt (pos + 8)).caplen.toNat
  frameOf packetBlockNo caplen (env.next (pos + 28) caplen)

/-- What a packet block does. -/
structure PacketRead (env : Environment) (l : Layout) (r r' : Reader) : Prop where
  etherFrames : ∃ frame, r'.etherFrames = r.etherFrames ++ [frame] ∧
    (l.pos + 28 + l.caplen env ≤ env.file.length →
      frame = frameAt env (r.currentPackeBlockNo + 1) l.pos)
  currentPackeBlockNo : r'.currentPackeBlockNo = r.currentPackeBlockNo + 1
  endReached : r'.endReached = r.endReached
  wrapped : r'.wrapped = r.wrapped
  outside : r'.outside = r.outside
  pos : l.pos + l.total env ≤ env.file.length → r'.pos = l.pos + l.total env
  correctEndianess : r'.correctEndianess = true
  interfaceCount : r'.interfaceCount = l.interfaceCount
  known : ∀ i, l.known i = true → (r'.timeResolutions i).isSome = true

/-- How `getNextPacketBlock` ends with what comes first. -/
def Next.Spec (env : Environment) (r : Reader) :
    Next → Except Thrown Bool → Reader → Prop
  | .packet l, result, r' => result = .ok true ∧ PacketRead env l r r'
  | .fileEnd, result, r' => result = .ok false ∧ r'.endReached = true ∧
    r'.etherFrames = r.etherFrames ∧ r'.currentPackeBlockNo = r.currentPackeBlockNo ∧
    r'.wrapped = r.wrapped ∧ r'.outside = r.outside
  | .thrown, result, r' => (∃ e, result = .error e) ∧ Kept r r'

theorem Next.Spec.of_kept (hkept : Kept r r₁) (h : next.Spec env r₁ result r') :
    next.Spec env r result r' := by
  cases next with
  | packet l =>
    obtain ⟨hresult, hread⟩ := h
    refine ⟨hresult, ?_, ?_, ?_, ?_, ?_, hread.pos, hread.correctEndianess, hread.interfaceCount,
      hread.known⟩
    · rw [← hkept.etherFrames, ← hkept.currentPackeBlockNo]
      exact hread.etherFrames
    · rw [← hkept.currentPackeBlockNo, hread.currentPackeBlockNo]
    · rw [← hkept.endReached, hread.endReached]
    · rw [← hkept.wrapped, hread.wrapped]
    · rw [← hkept.outside, hread.outside]
  | fileEnd =>
    obtain ⟨hresult, hend, hframes, hnumber, hwrapped, houtside⟩ := h
    exact ⟨hresult, hend, hframes.trans hkept.etherFrames,
      hnumber.trans hkept.currentPackeBlockNo, hwrapped.trans hkept.wrapped,
      houtside.trans hkept.outside⟩
  | thrown =>
    obtain ⟨hresult, hrest⟩ := h
    exact ⟨hresult, hrest.etherFrames.trans hkept.etherFrames,
      hrest.currentPackeBlockNo.trans hkept.currentPackeBlockNo,
      hrest.endReached.trans hkept.endReached, hrest.wrapped.trans hkept.wrapped,
      hrest.outside.trans hkept.outside⟩

/-! ## The loop over the blocks -/

/-- A call ends in this way if enough passes are allowed. -/
def Ends {α : Type} (x : ℕ → ReaderM α) (r : Reader) (result : Except Thrown α) (r' : Reader) :
    Prop :=
  ∃ n, ∀ fuel, n ≤ fuel → (x fuel).run r = some (result, r')

theorem ends_of_block (hend : r.endReached = false)
    (hblock : Ends (readNextBlock env) r (.ok blockType) r₁) (htype : blockType ≠ btEpb)
    (hrest : Ends (getNextPacketBlock env) r₁ result r') :
    Ends (getNextPacketBlock env) r result r' := by
  obtain ⟨n, hn⟩ := hblock
  obtain ⟨m, hm⟩ := hrest
  refine ⟨max n m + 1, fun fuel hfuel => ?_⟩
  obtain ⟨k, rfl⟩ : ∃ k, fuel = k + 1 := ⟨fuel - 1, by omega⟩
  rw [getNextPacketBlock, Throwing.run_get_bind, if_neg (by simp [hend]),
    Throwing.bind_of_ok (hn k (by omega)), if_neg htype]
  exact hm k (by omega)

theorem ends_of_packet (hend : r.endReached = false)
    (hblock : Ends (readNextBlock env) r (.ok btEpb) r') :
    Ends (getNextPacketBlock env) r (.ok true) r' := by
  obtain ⟨n, hn⟩ := hblock
  refine ⟨n + 1, fun fuel hfuel => ?_⟩
  obtain ⟨k, rfl⟩ : ∃ k, fuel = k + 1 := ⟨fuel - 1, by omega⟩
  rw [getNextPacketBlock, Throwing.run_get_bind, if_neg (by simp [hend]),
    Throwing.bind_of_ok (hn k (by omega)), if_pos rfl, Throwing.run_pure]

theorem ends_of_error {e : Thrown} (hend : r.endReached = false)
    (hblock : Ends (readNextBlock env) r (.error e) r') :
    Ends (getNextPacketBlock env) r (.error e) r' := by
  obtain ⟨n, hn⟩ := hblock
  refine ⟨n + 1, fun fuel hfuel => ?_⟩
  obtain ⟨k, rfl⟩ : ∃ k, fuel = k + 1 := ⟨fuel - 1, by omega⟩
  rw [getNextPacketBlock, Throwing.run_get_bind, if_neg (by simp [hend])]
  exact Throwing.bind_of_error (hn k (by omega))

theorem ends_of_end (hend : r.endReached = false) (h : env.file.length ≤ r.pos) :
    Ends (getNextPacketBlock env) r (.ok false) { r with endReached := true } := by
  refine ⟨2, fun fuel hfuel => ?_⟩
  obtain ⟨k, rfl⟩ : ∃ k, fuel = k + 2 := ⟨fuel - 2, by omega⟩
  have hblock : (readNextBlock env (k + 1)).run r = some (.ok 0, { r with endReached := true }) := by
    rw [readNextBlock, Throwing.run_get_bind, if_pos h, Throwing.run_modify_bind, Throwing.run_pure]
  rw [getNextPacketBlock, Throwing.run_get_bind, if_neg (by simp [hend]),
    Throwing.bind_of_ok hblock, if_neg (by decide), getNextPacketBlock, Throwing.run_get_bind,
    if_pos rfl, Throwing.run_pure]

/-! ## The kinds of blocks -/

section
variable (fits : HeaderFits env r.pos)
include fits

theorem ends_readNextBlock_of_ok
    (h : Ends (readSpecificBlock env (env.blockHeaderAt r.pos).blockType) (r.afterHeader env)
      (.ok ()) r') :
    Ends (readNextBlock env) r (.ok (env.blockHeaderAt r.pos).blockType)
      { r' with pos := r'.pos + 4 } := by
  obtain ⟨n, hn⟩ := h
  exact ⟨n, fun fuel hfuel => readNextBlock_of_ok fits (hn fuel hfuel)⟩

theorem ends_readNextBlock_of_error {e : Thrown}
    (h : Ends (readSpecificBlock env (env.blockHeaderAt r.pos).blockType) (r.afterHeader env)
      (.error e) r') :
    Ends (readNextBlock env) r (.error e) r' := by
  obtain ⟨n, hn⟩ := h
  exact ⟨n, fun fuel hfuel => readNextBlock_of_error fits (hn fuel hfuel)⟩

theorem ends_sectionHeader (hblock : (env.blockHeaderAt r.pos).blockType = btShb)
    (whole : r.pos + 12 ≤ env.file.length)
    (magic : env.magicAt (r.pos + 8) = byteOrderMagic) :
    ∃ r₁, Ends (readNextBlock env) r (.ok btShb) r₁ ∧ r₁.layout = r.layout.afterSection env ∧
      Kept r r₁ := by
  have hsection := readSectionHeaderBlock_of_magic (r := r.afterHeader env) (by exact whole) magic
  have hends := ends_readNextBlock_of_ok fits ⟨0, fun fuel _ => by
    rw [hblock, readSpecificBlock, if_pos rfl]
    exact hsection⟩
  rw [hblock] at hends
  refine ⟨_, hends, ?_, ⟨rfl, rfl, rfl, rfl, rfl⟩⟩
  rw [currentBlockSize_afterHeader, Nat.sub_sub]
  rfl

theorem ends_otherEndianess (hblock : (env.blockHeaderAt r.pos).blockType = btShb)
    (whole : r.pos + 12 ≤ env.file.length)
    (magic : env.magicAt (r.pos + 8) ≠ byteOrderMagic) :
    ∃ e r₁, Ends (readNextBlock env) r (.error e) r₁ ∧ Kept r r₁ := by
  obtain ⟨e, hsection⟩ :=
    readSectionHeaderBlock_of_ne (r := r.afterHeader env) (by exact whole) magic
  have hends := ends_readNextBlock_of_error fits ⟨0, fun fuel _ => by
    rw [hblock, readSpecificBlock, if_pos rfl]
    exact hsection⟩
  exact ⟨e, _, hends, rfl, rfl, rfl, rfl, rfl⟩

theorem ends_refused (hblock : (env.blockHeaderAt r.pos).blockType ≠ btShb)
    (hcorrect : r.correctEndianess = false) :
    ∃ e r₁, Ends (readNextBlock env) r (.error e) r₁ ∧ Kept r r₁ := by
  have hafter : (r.afterHeader env).correctEndianess = false := hcorrect
  have hends := ends_readNextBlock_of_error fits
    ⟨0, fun fuel _ => readSpecificBlock_of_endianess hafter hblock⟩
  exact ⟨_, _, hends, rfl, rfl, rfl, rfl, rfl⟩

theorem ends_interface {pos' : ℕ} (hblock : (env.blockHeaderAt r.pos).blockType = btIdb)
    (hcorrect : r.correctEndianess = true) (length : 20 ≤ r.layout.total env)
    (options : OptionsFit env (env.advance (r.pos + 8) 8) (r.layout.total env - 20) pos') :
    ∃ r₁, Ends (readNextBlock env) r (.ok btIdb) r₁ ∧ r₁.layout = r.layout.afterInterface pos' ∧
      Kept r r₁ := by
  have hsize : (r.afterHeader env).currentBlockSize.toNat = r.layout.total env - 12 :=
    currentBlockSize_afterHeader
  have hoptions : OptionsFit env (env.advance (r.afterHeader env).pos 8)
      ((r.afterHeader env).currentBlockSize.toNat - 8) pos' := by
    rw [hsize, Nat.sub_sub]
    exact options
  obtain ⟨n, resolution, objects, hinterface⟩ := readInterfaceDescriptionBlock_of_fit
    (r := r.afterHeader env) hcorrect (by omega) hoptions
  have hafter : (r.afterHeader env).correctEndianess = true := hcorrect
  have hends := ends_readNextBlock_of_ok fits ⟨n, fun fuel hfuel => by
    rw [hblock, run_readSpecificBlock hafter (by decide), if_pos rfl]
    exact hinterface fuel hfuel⟩
  rw [hblock] at hends
  refine ⟨_, hends, ?_, ⟨rfl, rfl, rfl, rfl, rfl⟩⟩
  have hknown : ∀ i,
      (Function.update r.timeResolutions r.interfaceCount (some resolution) i).isSome =
        Function.update (fun i => (r.timeResolutions i).isSome) r.interfaceCount true i := by
    intro i
    by_cases hi : i = r.interfaceCount
    · rw [hi, Function.update_self, Function.update_self, Option.isSome_some]
    · rw [Function.update_of_ne hi, Function.update_of_ne hi]
  exact congrArg (fun known => { r.layout.afterInterface pos' with known }) (funext hknown)

theorem ends_other (notSection : (env.blockHeaderAt r.pos).blockType ≠ btShb)
    (notInterface : (env.blockHeaderAt r.pos).blockType ≠ btIdb)
    (notPacket : (env.blockHeaderAt r.pos).blockType ≠ btEpb)
    (hcorrect : r.correctEndianess = true) :
    ∃ r₁, Ends (readNextBlock env) r (.ok (env.blockHeaderAt r.pos).blockType) r₁ ∧
      r₁.layout = r.layout.afterOther env ∧ Kept r r₁ := by
  have hafter : (r.afterHeader env).correctEndianess = true := hcorrect
  have hends := ends_readNextBlock_of_ok fits ⟨0, fun fuel _ => by
    rw [run_readSpecificBlock hafter notSection, if_neg notInterface, if_neg notPacket]
    exact run_fseek⟩
  refine ⟨_, hends, ?_, ⟨rfl, rfl, rfl, rfl, rfl⟩⟩
  have hlength := fits.length
  have hpos : r.pos + 8 + ((env.blockHeaderAt r.pos).totalLength.toNat - 12) + 4 =
      r.pos + (env.blockHeaderAt r.pos).totalLength.toNat := by omega
  rw [currentBlockSize_afterHeader]
  exact congrArg (fun pos => { r.layout.afterOther env with pos }) hpos

theorem ends_packet (hblock : (env.blockHeaderAt r.pos).blockType = btEpb)
    (hcorrect : r.correctEndianess = true) (whole : r.pos + 24 ≤ env.file.length)
    (time : r.layout.timed = true ∨
      r.layout.known (r.layout.packetHeader env).interfaceId = true)
    (caplen : 14 ≤ r.layout.caplen env)
    (length : 32 + r.layout.caplen env + paddingBytes (r.layout.caplen env) ≤
      r.layout.total env) :
    ∃ r₁, Ends (readNextBlock env) r (.ok btEpb) r₁ ∧ PacketRead env r.layout r r₁ := by
  have hafter : (r.afterHeader env).correctEndianess = true := hcorrect
  have hsize : (r.afterHeader env).currentBlockSize.toNat = r.layout.total env - 12 :=
    currentBlockSize_afterHeader
  have htime : (r.afterHeader env).initialTimestampNano ≠ 0 ∨ ((r.afterHeader env).timeResolutions
      (env.packetHeaderAt (r.afterHeader env).pos).interfaceId).isSome :=
    time.imp_left of_decide_eq_true
  have hfits : 20 + r.layout.caplen env + paddingBytes (r.layout.caplen env) ≤
      (r.afterHeader env).currentBlockSize.toNat := by omega
  obtain ⟨frame, header, nano, objects, hpacket, hframe⟩ := readPacketBlock_of_fit
    env (r := r.afterHeader env) hafter (by exact whole) htime caplen hfits
  have hends := ends_readNextBlock_of_ok fits ⟨0, fun fuel _ => by
    rw [hblock, run_readSpecificBlock hafter (by decide), if_neg (by decide), if_pos rfl]
    exact hpacket⟩
  rw [hblock] at hends
  refine ⟨_, hends, ⟨frame, rfl, hframe⟩, rfl, rfl, rfl, rfl, fun hend => ?_, hafter, rfl,
    fun i hi => hi⟩
  dsimp only
  rw [hsize]
  -- the trailer ends where the header says
  change env.advance (env.advance (r.pos + 8) 20) (r.layout.caplen env) +
    paddingBytes (r.layout.caplen env) + (r.layout.total env - 12 -
      (20 + r.layout.caplen env + paddingBytes (r.layout.caplen env))) + 4 = _
  change r.pos + r.layout.total env ≤ _ at hend
  rw [Environment.advance_of_le (n := 20) (by omega), Environment.advance_of_le (by omega)]
  change _ = r.pos + r.layout.total env
  omega

theorem ends_unknown (hblock : (env.blockHeaderAt r.pos).blockType = btEpb)
    (hcorrect : r.correctEndianess = true) (whole : r.pos + 12 ≤ env.file.length)
    (timed : r.layout.timed = false)
    (interface : r.layout.known (r.layout.packetHeader env).interfaceId = false) :
    ∃ e r₁, Ends (readNextBlock env) r (.error e) r₁ ∧ Kept r r₁ := by
  have hafter : (r.afterHeader env).correctEndianess = true := hcorrect
  have hfirst : (r.afterHeader env).initialTimestampNano = 0 :=
    not_not.mp (of_decide_eq_false timed)
  have hnone : (r.afterHeader env).timeResolutions
      (env.packetHeaderAt (r.afterHeader env).pos).interfaceId = none :=
    Option.isSome_eq_false_iff.mp interface |> Option.isNone_iff_eq_none.mp
  obtain ⟨header, hpacket⟩ := readPacketBlock_of_unknown (r := r.afterHeader env) hafter
    (by exact whole) hfirst hnone
  have hends := ends_readNextBlock_of_error fits ⟨0, fun fuel _ => by
    rw [hblock, run_readSpecificBlock hafter (by decide), if_neg (by decide), if_pos rfl]
    exact hpacket⟩
  exact ⟨_, _, hends, rfl, rfl, rfl, rfl, rfl⟩

end

/-- An interface whose options do not fill a multiple of four bytes is never left. -/
theorem getNextPacketBlock_eq_none (fits : HeaderFits env r.pos)
    (hblock : (env.blockHeaderAt r.pos).blockType = btIdb) (hcorrect : r.correctEndianess = true)
    (hend : r.endReached = false) (length : 20 ≤ r.layout.total env)
    (hoptions : r.layout.total env % 4 ≠ 0) : (getNextPacketBlock env fuel).run r = none := by
  have hafter : (r.afterHeader env).correctEndianess = true := hcorrect
  have hsize : (r.afterHeader env).currentBlockSize.toNat = r.layout.total env - 12 :=
    currentBlockSize_afterHeader
  cases fuel with
  | zero => rfl
  | succ fuel =>
    have hinterface : (readInterfaceDescriptionBlock env fuel).run (r.afterHeader env) = none := by
      obtain ⟨rest, -, hread⟩ := env.exists_fread (r := r.afterHeader env) (n := 8)
      rw [readInterfaceDescriptionBlock, Throwing.bind_of_ok hread, Throwing.run_get_bind,
        if_neg (by simp [hafter])]
      dsimp only
      rw [Throwing.run_get_bind, Throwing.bind_of_ok (subtract_of_le (by rw [hsize]; omega))]
      refine Throwing.bind_of_none (readOptions_eq_none ?_)
      have hlt := (r.layout.header env).totalLength.toNat_lt
      change r.layout.total env < _ at hlt
      dsimp only
      rw [hsize, toNat_ofNat_of_lt (by omega)]
      omega
    rw [getNextPacketBlock, Throwing.run_get_bind, if_neg (by simp [hend])]
    refine Throwing.bind_of_none ?_
    rw [run_readNextBlock fits, hblock]
    refine Throwing.bind_of_none ?_
    rw [run_readSpecificBlock hafter (by decide), if_pos rfl]
    exact hinterface

/-- **What comes first ends the call**, and nothing goes wrong before. -/
theorem getNextPacketBlock_of_ahead (h : Ahead env l next) (hl : r.layout = l)
    (hend : r.endReached = false) :
    ∃ result r', Ends (getNextPacketBlock env) r result r' ∧ next.Spec env r result r' := by
  induction h generalizing r with
  | fileEnd end_le =>
    subst hl
    exact ⟨_, _, ends_of_end hend end_le, rfl, rfl, rfl, rfl, rfl, rfl⟩
  | sectionHeader fits blockType whole magic rest ih =>
    subst hl
    obtain ⟨r₁, hblock, hlayout, hkept⟩ := ends_sectionHeader fits blockType whole magic
    obtain ⟨result, r', hends, hspec⟩ := ih hlayout (hkept.endReached.trans hend)
    exact ⟨result, r', ends_of_block hend hblock (by decide) hends, hspec.of_kept hkept⟩
  | otherEndianess fits blockType whole magic =>
    subst hl
    obtain ⟨e, r₁, hblock, hkept⟩ := ends_otherEndianess fits blockType whole magic
    exact ⟨_, r₁, ends_of_error hend hblock, ⟨e, rfl⟩, hkept⟩
  | refused fits blockType endianess =>
    subst hl
    obtain ⟨e, r₁, hblock, hkept⟩ := ends_refused fits blockType endianess
    exact ⟨_, r₁, ends_of_error hend hblock, ⟨e, rfl⟩, hkept⟩
  | interface fits blockType endianess length options rest ih =>
    subst hl
    obtain ⟨r₁, hblock, hlayout, hkept⟩ := ends_interface fits blockType endianess length options
    obtain ⟨result, r', hends, hspec⟩ := ih hlayout (hkept.endReached.trans hend)
    exact ⟨result, r', ends_of_block hend hblock (by decide) hends, hspec.of_kept hkept⟩
  | packet fits blockType endianess whole time caplen length =>
    subst hl
    obtain ⟨r₁, hblock, hread⟩ :=
      ends_packet fits blockType endianess whole time caplen length
    exact ⟨_, r₁, ends_of_packet hend hblock, rfl, hread⟩
  | unknown fits blockType endianess whole timed interface =>
    subst hl
    obtain ⟨e, r₁, hblock, hkept⟩ := ends_unknown fits blockType endianess whole timed interface
    exact ⟨_, r₁, ends_of_error hend hblock, ⟨e, rfl⟩, hkept⟩
  | other fits notSection notInterface notPacket endianess rest ih =>
    subst hl
    obtain ⟨r₁, hblock, hlayout, hkept⟩ :=
      ends_other fits notSection notInterface notPacket endianess
    obtain ⟨result, r', hends, hspec⟩ := ih hlayout (hkept.endReached.trans hend)
    exact ⟨result, r', ends_of_block hend hblock notPacket hends, hspec.of_kept hkept⟩

end TsnReconfig.PCAPNG
