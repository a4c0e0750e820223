import TsnReconfig.PCAPNG.PCAPNGReader

/-!
# Blocks that fit

What the functions do at a block whose lengths fit: they return or throw, nothing wraps around, and
no byte behind the captured ones is read.
-/

namespace TsnReconfig.PCAPNG
open Lib OpenFlow

variable {env : Environment} {r r' : Reader} {pos n m i fuel : ℕ}

namespace Environment
variable (env : Environment)

/-- The headers in the file. -/
def blockHeaderAt (pos : ℕ) : BlockHeader := env.blockHeader (env.file.drop pos)

def optionHeaderAt (pos : ℕ) : OptionHeader := env.optionHeader (env.file.drop pos)

def packetHeaderAt (pos : ℕ) : EnhancedPacketBlock := env.enhancedPacketBlock (env.file.drop pos)

/-- The `byte_order_magic` of a section header. -/
def magicAt (pos : ℕ) : UInt32 := env.u32 (env.file.drop pos) 0

/-- The position after so many bytes or what there is of them. -/
def advance (pos n : ℕ) : ℕ := pos + (env.next pos n).length

variable {env}

theorem length_next : (env.next pos n).length = min n (env.file.length - pos) := by
  rw [next, List.length_take, List.length_drop]

theorem advance_of_le (h : pos + n ≤ env.file.length) : env.advance pos n = pos + n := by
  rw [advance, length_next, Nat.min_eq_left (by omega)]

/-- What `fread` gives of what is in the file. -/
theorem take_drop_next {rest : List UInt8} {k : ℕ} (hpos : pos + i + k ≤ env.file.length)
    (hk : i + k ≤ n) :
    ((env.next pos n ++ rest).drop i).take k = ((env.file.drop pos).drop i).take k := by
  have hlength : i + k ≤ (env.next pos n).length := by
    rw [length_next]
    omega
  rw [List.drop_append_of_le_length (by omega),
    List.take_append_of_le_length (by rw [List.length_drop]; omega), next, List.drop_take,
    List.take_take, Nat.min_eq_left (by omega)]

theorem u32_next {rest : List UInt8} (hpos : pos + i + 4 ≤ env.file.length) (hn : i + 4 ≤ n) :
    env.u32 (env.next pos n ++ rest) i = env.u32 (env.file.drop pos) i := by
  rw [u32, take_drop_next hpos hn, u32]

theorem blockHeader_next {rest : List UInt8} (h : pos + 8 ≤ env.file.length) :
    env.blockHeader (env.next pos 8 ++ rest) = env.blockHeaderAt pos := by
  rw [blockHeader, u32_next (by omega) (by omega), u32_next (by omega) (by omega)]
  rfl

theorem optionHeader_next {rest : List UInt8} (h : pos + 4 ≤ env.file.length) :
    env.optionHeader (env.next pos 4 ++ rest) = env.optionHeaderAt pos := by
  rw [optionHeader, u16, u16, take_drop_next (by omega) (by omega),
    take_drop_next (by omega) (by omega)]
  rfl

theorem exists_fread : ∃ rest, (env.next r.pos n ++ rest).length = n ∧
    (env.fread n).run r = some (.ok (env.next r.pos n ++ rest),
      { r with pos := env.advance r.pos n, objects := r.objects + 1 }) := by
  refine ⟨_, ?_, rfl⟩
  rw [List.length_append, List.length_map, List.length_range, length_next]
  omega

theorem freadByte_of_le (h : (env.next r.pos n).length ≤ 1) :
    (env.freadByte n).run r = some (.ok ((env.next r.pos n).headD (env.memory r.objects 0)),
      { r with pos := env.advance r.pos n, objects := r.objects + 1 }) := by
  dsimp only [freadByte]
  rw [if_neg (Nat.not_lt_of_le h)]
  rfl

theorem packetBytes_of_le {packetBlock : List UInt8} (h : i + n ≤ packetBlock.length) :
    (env.packetBytes packetBlock i n).run r =
      some (.ok ((packetBlock.drop i).take n), { r with objects := r.objects + 1 }) := by
  have hlength : ((packetBlock.drop i).take n).length = n := by
    rw [List.length_take, List.length_drop, Nat.min_eq_left (by omega)]
  dsimp only [packetBytes]
  rw [hlength, Nat.sub_self, List.range_zero, List.map_nil, List.append_nil,
    decide_eq_false (Nat.not_lt_of_le h), Bool.or_false]

end Environment

@[simp] theorem run_fseek : (fseek n).run r = some (.ok (), { r with pos := r.pos + n }) := rfl

@[simp] theorem run_fseek_bind {f : Unit → ReaderM α} :
    (fseek n >>= f).run r = (f ()).run { r with pos := r.pos + n } := rfl

theorem subtract_of_le {a : UInt32} (h : n ≤ a.toNat) :
    (subtract a n).run r = some (.ok (.ofNat (a.toNat - n)), r) := by
  have ha := a.toNat_lt
  have hn : (UInt32.ofNat n).toNat = n := by
    rw [UInt32.toNat_ofNat']
    omega
  have hvalue : a - UInt32.ofNat n = UInt32.ofNat (a.toNat - n) := by
    apply UInt32.toNat_inj.mp
    rw [UInt32.toNat_sub_of_le a _ (UInt32.le_iff_toNat_le.mpr (hn.symm ▸ h)), hn,
      UInt32.toNat_ofNat']
    omega
  dsimp only [subtract]
  rw [hvalue, decide_eq_false (Nat.not_lt_of_le h), Bool.or_false]

/-! ## Options -/

/-- The bytes of an option with its header and padding. -/
def OptionHeader.size (option : OptionHeader) : ℕ :=
  4 + option.optionLength.toNat + paddingBytes option.optionLength.toNat

/-- The options from one position to another fill so many bytes, and the resolution is one byte,
unless the file ends before. -/
inductive OptionsFit (env : Environment) : ℕ → ℕ → ℕ → Prop
  | nil {pos : ℕ} : OptionsFit env pos 0 pos
  | skip {pos remaining pos' : ℕ} (header : pos + 4 ≤ env.file.length)
    (code : (env.optionHeaderAt pos).optionCode ≠ ifTsresol)
    (fits : (env.optionHeaderAt pos).size ≤ remaining)
    (rest : OptionsFit env (pos + (env.optionHeaderAt pos).size)
      (remaining - (env.optionHeaderAt pos).size) pos') :
    OptionsFit env pos remaining pos'
  | resolution {pos remaining pos' : ℕ} (header : pos + 4 ≤ env.file.length)
    (code : (env.optionHeaderAt pos).optionCode = ifTsresol)
    (fits : (env.optionHeaderAt pos).size ≤ remaining)
    (one : (env.next (pos + 4) (env.optionHeaderAt pos).optionLength.toNat).length ≤ 1)
    (rest : OptionsFit env (env.advance (pos + 4) (env.optionHeaderAt pos).optionLength.toNat +
        paddingBytes (env.optionHeaderAt pos).optionLength.toNat)
      (remaining - (env.optionHeaderAt pos).size) pos') :
    OptionsFit env pos remaining pos'

theorem toNat_ofNat_of_lt (h : n < 4294967296) : (UInt32.ofNat n).toNat = n := by
  rw [UInt32.toNat_ofNat']
  omega

theorem ofNat_ne_zero {option : OptionHeader} (h : option.size ≤ n) (hlt : n < 4294967296) :
    UInt32.ofNat n ≠ 0 := by
  intro heq
  have hzero := congrArg UInt32.toNat heq
  rw [toNat_ofNat_of_lt hlt, UInt32.toNat_zero] at hzero
  rw [OptionHeader.size] at h
  omega

theorem readOptions_of_fit {remaining pos' : ℕ} (h : OptionsFit env pos remaining pos')
    (hpos : r.pos = pos) (hlt : remaining < 4294967296) (resolution : Int8) :
    ∃ n resolution' objects, ∀ fuel, n ≤ fuel →
      (readOptions env fuel (.ofNat remaining) resolution).run r =
        some (.ok resolution', { r with pos := pos', objects := objects }) := by
  induction h generalizing r resolution with
  | nil =>
    subst hpos
    refine ⟨1, resolution, r.objects, fun fuel hfuel => ?_⟩
    obtain ⟨k, rfl⟩ : ∃ k, fuel = k + 1 := ⟨fuel - 1, by omega⟩
    rw [readOptions, if_pos (show UInt32.ofNat 0 = 0 from rfl), Throwing.run_pure]
  | @skip pos remaining pos' header code fits rest ih =>
    subst hpos
    obtain ⟨n, resolution', objects, hrest⟩ := ih (r := { r with
      pos := r.pos + (env.optionHeaderAt r.pos).size, objects := r.objects + 1 }) rfl (by omega)
      resolution
    refine ⟨n + 1, resolution', objects, fun fuel hfuel => ?_⟩
    obtain ⟨k, rfl⟩ : ∃ k, fuel = k + 1 := ⟨fuel - 1, by omega⟩
    obtain ⟨bytes, -, hread⟩ := env.exists_fread (r := r) (n := 4)
    rw [readOptions, if_neg (ofNat_ne_zero fits hlt), Throwing.bind_of_ok hread,
      Environment.optionHeader_next header, Environment.advance_of_le header]
    dsimp only
    rw [if_neg code, run_fseek_bind, run_fseek_bind,
      Throwing.bind_of_ok (subtract_of_le (by rw [toNat_ofNat_of_lt hlt]; exact fits)),
      toNat_ofNat_of_lt hlt]
    have hsize : r.pos + 4 + (env.optionHeaderAt r.pos).optionLength.toNat +
        paddingBytes (env.optionHeaderAt r.pos).optionLength.toNat =
          r.pos + (env.optionHeaderAt r.pos).size := by
      rw [OptionHeader.size]
      omega
    dsimp only
    rw [hsize]
    exact hrest k (by omega)
  | @resolution pos remaining pos' header code fits one rest ih =>
    subst hpos
    obtain ⟨n, resolution', objects, hrest⟩ := ih (r := { r with
      pos := env.advance (r.pos + 4) (env.optionHeaderAt r.pos).optionLength.toNat +
        paddingBytes (env.optionHeaderAt r.pos).optionLength.toNat
      objects := r.objects + 2 }) rfl (by omega)
      ((env.next (r.pos + 4) (env.optionHeaderAt r.pos).optionLength.toNat).headD
        (env.memory (r.objects + 1) 0)).toInt8
    refine ⟨n + 1, resolution', objects, fun fuel hfuel => ?_⟩
    obtain ⟨k, rfl⟩ : ∃ k, fuel = k + 1 := ⟨fuel - 1, by omega⟩
    obtain ⟨bytes, -, hread⟩ := env.exists_fread (r := r) (n := 4)
    rw [readOptions, if_neg (ofNat_ne_zero fits hlt), Throwing.bind_of_ok hread,
      Environment.optionHeader_next header, Environment.advance_of_le header]
    dsimp only
    rw [if_pos code, Throwing.bind_of_ok (Environment.freadByte_of_le one), run_fseek_bind,
      Throwing.bind_of_ok (subtract_of_le (by rw [toNat_ofNat_of_lt hlt]; exact fits)),
      toNat_ofNat_of_lt hlt]
    exact hrest k (by omega)

/-- The loop ends only on exactly zero, and every pass takes a multiple of four. -/
theorem readOptions_eq_none {remaining : UInt32} {resolution : Int8}
    (h : remaining.toNat % 4 ≠ 0) : (readOptions env fuel remaining resolution).run r = none := by
  induction fuel generalizing r remaining resolution with
  | zero => rfl
  | succ fuel ih =>
    have hne : remaining ≠ 0 := by
      rintro rfl
      exact h rfl
    obtain ⟨bytes, -, hread⟩ := env.exists_fread (r := r) (n := 4)
    rw [readOptions, if_neg hne, Throwing.bind_of_ok hread]
    obtain ⟨length, hlength⟩ : ∃ length,
      length = (env.optionHeader (env.next r.pos 4 ++ bytes)).optionLength.toNat := ⟨_, rfl⟩
    dsimp only
    rw [← hlength]
    -- an option and its padding take a multiple of four, and 2 ^ 32 is one too
    have hrest : (remaining - .ofNat (4 + length + paddingBytes length)).toNat % 4 ≠ 0 := by
      have hremaining := remaining.toNat_lt
      rw [UInt32.toNat_sub, UInt32.toNat_ofNat', paddingBytes]
      omega
    split_ifs
    · rw [Throwing.run_bind]
      cases hbyte : (env.freadByte length).run { r with
          pos := env.advance r.pos 4, objects := r.objects + 1 } with
      | none => rfl
      | some p =>
        obtain ⟨result, r'⟩ := p
        cases result with
        | error e =>
          dsimp only [Environment.freadByte] at hbyte
          split_ifs at hbyte
          cases hbyte
        | ok tResol => exact ih hrest
    · exact ih hrest

/-! ## Section headers and interfaces -/

theorem magic_next {rest : List UInt8} (h : pos + 4 ≤ env.file.length) :
    env.u32 (env.next pos 16 ++ rest) 0 = env.magicAt pos :=
  Environment.u32_next (by omega) (by omega)

theorem readSectionHeaderBlock_of_magic (h : r.pos + 4 ≤ env.file.length)
    (hmagic : env.magicAt r.pos = byteOrderMagic) :
    (readSectionHeaderBlock env).run r = some (.ok (), { r with
      pos := env.advance r.pos 16 + (r.currentBlockSize.toNat - 16)
      objects := r.objects + 1
      correctEndianess := true
      timeResolutions := fun _ => none
      interfaceCount := 0 }) := by
  obtain ⟨rest, -, hread⟩ := env.exists_fread (r := r) (n := 16)
  rw [readSectionHeaderBlock, Throwing.bind_of_ok hread, magic_next h, if_pos hmagic,
    Throwing.run_modify_bind, Throwing.run_modify_bind, Throwing.run_get_bind]
  dsimp only
  split_ifs with hsize
  · rw [Throwing.run_get_bind, run_fseek]
  · rw [Nat.sub_eq_zero_of_le (Nat.le_of_not_lt hsize)]
    rfl

theorem readSectionHeaderBlock_of_ne (h : r.pos + 4 ≤ env.file.length)
    (hmagic : env.magicAt r.pos ≠ byteOrderMagic) :
    ∃ e, (readSectionHeaderBlock env).run r = some (.error e, { r with
      pos := env.advance r.pos 16
      objects := r.objects + 1
      correctEndianess := false }) := by
  obtain ⟨rest, -, hread⟩ := env.exists_fread (r := r) (n := 16)
  rw [readSectionHeaderBlock, Throwing.bind_of_ok hread, magic_next h, if_neg hmagic,
    Throwing.run_modify_bind]
  exact ⟨_, rfl⟩

theorem readInterfaceDescriptionBlock_of_fit {pos' : ℕ} (hcorrect : r.correctEndianess = true)
    (hsize : 8 ≤ r.currentBlockSize.toNat)
    (hoptions : OptionsFit env (env.advance r.pos 8) (r.currentBlockSize.toNat - 8) pos') :
    ∃ n resolution objects, ∀ fuel, n ≤ fuel →
      (readInterfaceDescriptionBlock env fuel).run r = some (.ok (), { r with
        pos := pos'
        objects := objects
        timeResolutions := Function.update r.timeResolutions r.interfaceCount (some resolution)
        interfaceCount := r.interfaceCount + 1 }) := by
  have hlt := r.currentBlockSize.toNat_lt
  obtain ⟨n, resolution, objects, hrun⟩ := readOptions_of_fit (r := { r with
    pos := env.advance r.pos 8, objects := r.objects + 1 }) hoptions rfl (by omega) 6
  refine ⟨n, resolution, objects, fun fuel hfuel => ?_⟩
  obtain ⟨rest, -, hread⟩ := env.exists_fread (r := r) (n := 8)
  rw [readInterfaceDescriptionBlock, Throwing.bind_of_ok hread, Throwing.run_get_bind,
    if_neg (by simp [hcorrect])]
  dsimp only
  rw [Throwing.run_get_bind, Throwing.bind_of_ok (subtract_of_le hsize),
    Throwing.bind_of_ok (hrun fuel hfuel), Throwing.run_modify]

/-! ## Packets -/

/-- The frame of a packet with at least the bytes of an Ethernet header. -/
def frameOf (packetBlockNo : UInt64) (caplen : ℕ) (packetBlock : List UInt8) : EthernetIIFrame where
  packetBlockNo
  dest := packetBlock.take 6
  src := (packetBlock.drop 6).take 6
  etherType := (packetBlock.getD 12 0).toUInt16 <<< 8 + (packetBlock.getD 13 0).toUInt16
  payloadLength := caplen - 14
  byteLength := max (18 + (caplen - 14)) 64

theorem createEthernetIIFrame_of_le {packetBlockNo : UInt64} {packetBlock : List UInt8}
    (hlength : packetBlock.length = r.currentPacketHeader.caplen.toNat)
    (h : 14 ≤ packetBlock.length) :
    (createEthernetIIFrame env packetBlockNo packetBlock).run r = some (.ok (), { r with
      objects := r.objects + 3
      etherFrames := r.etherFrames ++ [frameOf packetBlockNo packetBlock.length packetBlock] }) := by
  have hcaplen := r.currentPacketHeader.caplen.toNat_lt
  rw [createEthernetIIFrame, Throwing.bind_of_ok (Environment.packetBytes_of_le (by omega)),
    Throwing.bind_of_ok (Environment.packetBytes_of_le (by omega)),
    Throwing.bind_of_ok (Environment.packetBytes_of_le (by omega)), Throwing.run_get_bind,
    Throwing.bind_of_ok (subtract_of_le (by rw [← hlength]; exact h)), Throwing.run_modify]
  dsimp only
  rw [toNat_ofNat_of_lt (by omega), frameOf, hlength]
  simp [List.getD_eq_getElem?_getD, List.getElem?_drop]

/-- The time of a packet that is the first one is zero. -/
theorem calculateSimTime_of_first (env : Environment) (timestamp : UInt64) (resolution : Int8)
    (h : r.initialTimestampNano = 0) : ∃ time nano,
      (calculateSimTime env timestamp resolution).run r =
        some (.ok time, { r with initialTimestampNano := nano }) := by
  obtain ⟨base, hbase⟩ : ∃ base, base = if resolution < 0 then 2 else 10 := ⟨_, rfl⟩
  obtain ⟨resolution', hresolution⟩ : ∃ resolution',
    resolution' = if resolution < 0 then resolution &&& 0x49 else resolution := ⟨_, rfl⟩
  have hfirst := env.simTime_first timestamp base resolution'
  obtain ⟨time, htime⟩ := Option.ne_none_iff_exists'.mp hfirst
  refine ⟨time, env.toNano timestamp base resolution', ?_⟩
  rw [calculateSimTime]
  dsimp only
  rw [← hbase, ← hresolution, Throwing.run_get_bind, if_pos h, Throwing.run_modify_bind,
    Throwing.run_get_bind]
  dsimp only
  rw [htime]
  rfl

/-- What `calculateSimTime` leaves as it is. -/
theorem calculateSimTime_of_ne (env : Environment) (timestamp : UInt64) (resolution : Int8)
    (h : r.initialTimestampNano ≠ 0) :
    ∃ result, (calculateSimTime env timestamp resolution).run r = some (result, r) := by
  rw [calculateSimTime]
  dsimp only
  rw [Throwing.run_get_bind, if_neg h, Throwing.run_get_bind]
  split
  · exact ⟨_, rfl⟩
  · exact ⟨_, rfl⟩

theorem exists_calculateSimTime (env : Environment) (r : Reader) (timestamp : UInt64)
    (resolution : Int8) : ∃ result nano, (calculateSimTime env timestamp resolution).run r =
      some (result, { r with initialTimestampNano := nano }) := by
  by_cases h : r.initialTimestampNano = 0
  · obtain ⟨time, nano, htime⟩ := calculateSimTime_of_first env timestamp resolution h
    exact ⟨.ok time, nano, htime⟩
  · obtain ⟨result, htime⟩ := calculateSimTime_of_ne env timestamp resolution h
    exact ⟨result, r.initialTimestampNano, htime⟩

theorem setInitialTime_of_ok (env : Environment) {header : EnhancedPacketBlock}
    (h : r.initialTimestampNano ≠ 0 ∨ (r.timeResolutions header.interfaceId).isSome) :
    ∃ nano, (setInitialTime env header).run r =
      some (.ok (), { r with initialTimestampNano := nano }) := by
  rw [setInitialTime, Throwing.run_get_bind]
  split_ifs with hfirst
  · obtain ⟨resolution, hresolution⟩ := Option.isSome_iff_exists.mp (h.resolve_left (· hfirst))
    obtain ⟨time, nano, htime⟩ :=
      calculateSimTime_of_first env (timestamp header) resolution hfirst
    refine ⟨nano, ?_⟩
    rw [Throwing.run_get_bind, hresolution]
    exact Throwing.bind_of_ok htime
  · exact ⟨r.initialTimestampNano, rfl⟩

theorem setInitialTime_of_unknown {header : EnhancedPacketBlock}
    (hfirst : r.initialTimestampNano = 0) (h : r.timeResolutions header.interfaceId = none) :
    (setInitialTime env header).run r = some (.error .outOfRange, r) := by
  rw [setInitialTime, Throwing.run_get_bind, if_pos hfirst, Throwing.run_get_bind, h,
    Throwing.run_raise]

theorem readPacketBlock_of_fit (env : Environment) (hcorrect : r.correctEndianess = true)
    (hwhole : r.pos + 16 ≤ env.file.length)
    (htime : r.initialTimestampNano ≠ 0 ∨
      (r.timeResolutions (env.packetHeaderAt r.pos).interfaceId).isSome)
    (hcaplen : 14 ≤ (env.packetHeaderAt r.pos).caplen.toNat)
    (hfits : 20 + (env.packetHeaderAt r.pos).caplen.toNat +
      paddingBytes (env.packetHeaderAt r.pos).caplen.toNat ≤ r.currentBlockSize.toNat) :
    ∃ frame header nano objects, (readPacketBlock env).run r = some (.ok (), { r with
        pos := env.advance (env.advance r.pos 20) (env.packetHeaderAt r.pos).caplen.toNat +
          paddingBytes (env.packetHeaderAt r.pos).caplen.toNat +
          (r.currentBlockSize.toNat - (20 + (env.packetHeaderAt r.pos).caplen.toNat +
            paddingBytes (env.packetHeaderAt r.pos).caplen.toNat))
        currentPacketHeader := header
        initialTimestampNano := nano
        currentPackeBlockNo := r.currentPackeBlockNo + 1
        etherFrames := r.etherFrames ++ [frame]
        objects := objects }) ∧
      (r.pos + 20 + (env.packetHeaderAt r.pos).caplen.toNat ≤ env.file.length →
        frame = frameOf (r.currentPackeBlockNo + 1) (env.packetHeaderAt r.pos).caplen.toNat
          (env.next (r.pos + 20) (env.packetHeaderAt r.pos).caplen.toNat)) := by
  obtain ⟨rest, -, hread⟩ := env.exists_fread (r := r) (n := 20)
  obtain ⟨header, hheader⟩ : ∃ header,
      header = env.enhancedPacketBlock (env.next r.pos 20 ++ rest) := ⟨_, rfl⟩
  -- the fields that are read before the end of the file are its own
  have hinterface : header.interfaceId = (env.packetHeaderAt r.pos).interfaceId := by
    rw [hheader]
    exact Environment.u32_next (by omega) (by omega)
  have hlen : header.caplen = (env.packetHeaderAt r.pos).caplen := by
    rw [hheader]
    exact Environment.u32_next (by omega) (by omega)
  rw [← hinterface] at htime
  rw [← hlen] at hcaplen hfits ⊢
  obtain ⟨nano, hinitial⟩ := setInitialTime_of_ok env (r := { r with
    pos := env.advance r.pos 20, objects := r.objects + 1, currentPacketHeader := header }) htime
  obtain ⟨rest', hlength, hpacket⟩ := env.exists_fread (n := header.caplen.toNat) (r := { r with
    pos := env.advance r.pos 20, objects := r.objects + 1, currentPacketHeader := header
    initialTimestampNano := nano })
  refine ⟨frameOf (r.currentPackeBlockNo + 1) header.caplen.toNat
    (env.next (env.advance r.pos 20) header.caplen.toNat ++ rest'), header, nano,
    r.objects + 5, ?_, fun hend => ?_⟩
  · rw [readPacketBlock, Throwing.bind_of_ok hread, Throwing.run_get_bind,
      if_neg (by simp [hcorrect])]
    dsimp only
    rw [← hheader, Throwing.run_modify_bind, Throwing.bind_of_ok hinitial,
      Throwing.bind_of_ok hpacket, Throwing.run_modify_bind, Throwing.run_get_bind,
      Throwing.bind_of_ok (createEthernetIIFrame_of_le hlength (by rw [hlength]; exact hcaplen)),
      run_fseek_bind, Throwing.run_get_bind, Throwing.bind_of_ok (subtract_of_le hfits), run_fseek,
      hlength]
    dsimp only
    rw [toNat_ofNat_of_lt (Nat.lt_of_le_of_lt (Nat.sub_le _ _) r.currentBlockSize.toNat_lt)]
  · -- nothing comes from memory if the file has all bytes of the packet
    have hrest : rest' = [] := by
      dsimp only at hlength
      rw [Environment.advance_of_le (by omega), List.length_append, Environment.length_next,
        Nat.min_eq_left (by omega)] at hlength
      exact List.eq_nil_of_length_eq_zero (by omega)
    rw [hrest, List.append_nil, Environment.advance_of_le (by omega)]

theorem readPacketBlock_of_unknown (hcorrect : r.correctEndianess = true)
    (hwhole : r.pos + 4 ≤ env.file.length) (hfirst : r.initialTimestampNano = 0)
    (h : r.timeResolutions (env.packetHeaderAt r.pos).interfaceId = none) :
    ∃ header, (readPacketBlock env).run r = some (.error .outOfRange, { r with
      pos := env.advance r.pos 20
      objects := r.objects + 1
      currentPacketHeader := header }) := by
  obtain ⟨rest, -, hread⟩ := env.exists_fread (r := r) (n := 20)
  have hinterface : (env.enhancedPacketBlock (env.next r.pos 20 ++ rest)).interfaceId =
      (env.packetHeaderAt r.pos).interfaceId :=
    Environment.u32_next (by omega) (by omega)
  refine ⟨env.enhancedPacketBlock (env.next r.pos 20 ++ rest), ?_⟩
  rw [readPacketBlock, Throwing.bind_of_ok hread, Throwing.run_get_bind,
    if_neg (by simp [hcorrect])]
  dsimp only
  rw [Throwing.run_modify_bind]
  exact Throwing.bind_of_error (setInitialTime_of_unknown hfirst (by rw [hinterface]; exact h))

/-! ## One block -/

/-- The reader when it has read a block header. -/
def Reader.afterHeader (env : Environment) (r : Reader) : Reader := { r with
  pos := r.pos + 8
  objects := r.objects + 1
  currentBlockSize := .ofNat ((env.blockHeaderAt r.pos).totalLength.toNat - 12) }

/-- A header that is in the file, and the length of a block with header and trailer. -/
structure HeaderFits (env : Environment) (pos : ℕ) : Prop where
  header : pos + 8 ≤ env.file.length
  length : 12 ≤ (env.blockHeaderAt pos).totalLength.toNat

theorem currentBlockSize_afterHeader : (r.afterHeader env).currentBlockSize.toNat =
    (env.blockHeaderAt r.pos).totalLength.toNat - 12 :=
  toNat_ofNat_of_lt (Nat.lt_of_le_of_lt (Nat.sub_le _ _)
    (env.blockHeaderAt r.pos).totalLength.toNat_lt)

section
variable (h : HeaderFits env r.pos)
include h

theorem run_readNextBlock : (readNextBlock env fuel).run r =
    (do
      readSpecificBlock env (env.blockHeaderAt r.pos).blockType fuel
      fseek 4
      return (env.blockHeaderAt r.pos).blockType : ReaderM UInt32).run (r.afterHeader env) := by
  have hheader := h.header
  obtain ⟨rest, -, hread⟩ := env.exists_fread (r := r) (n := 8)
  rw [readNextBlock, Throwing.run_get_bind, if_neg (by omega), Throwing.bind_of_ok hread,
    Environment.blockHeader_next hheader]
  dsimp only
  rw [Throwing.bind_of_ok (subtract_of_le h.length), Throwing.run_modify_bind,
    Environment.advance_of_le hheader]
  rfl

theorem readNextBlock_of_ok
    (hbody : (readSpecificBlock env (env.blockHeaderAt r.pos).blockType fuel).run
      (r.afterHeader env) = some (.ok (), r')) :
    (readNextBlock env fuel).run r =
      some (.ok (env.blockHeaderAt r.pos).blockType, { r' with pos := r'.pos + 4 }) := by
  rw [run_readNextBlock h, Throwing.bind_of_ok hbody, run_fseek_bind, Throwing.run_pure]

theorem readNextBlock_of_error {e : Thrown}
    (hbody : (readSpecificBlock env (env.blockHeaderAt r.pos).blockType fuel).run
      (r.afterHeader env) = some (.error e, r')) :
    (readNextBlock env fuel).run r = some (.error e, r') := by
  rw [run_readNextBlock h, Throwing.bind_of_error hbody]

end

theorem readSpecificBlock_of_endianess {blockType : UInt32} (hcorrect : r.correctEndianess = false)
    (hne : blockType ≠ btShb) : (readSpecificBlock env blockType fuel).run r =
      some (.error (.invalidArgument
        "endianess of the section doesn't match endianess of the operating system."), r) := by
  rw [readSpecificBlock, if_neg hne, Throwing.run_get_bind, if_pos (by simp [hcorrect])]
  rfl

theorem run_readSpecificBlock {blockType : UInt32} (hcorrect : r.correctEndianess = true)
    (hne : blockType ≠ btShb) : (readSpecificBlock env blockType fuel).run r =
      (if blockType = btIdb then readInterfaceDescriptionBlock env fuel
        else if blockType = btEpb then readPacketBlock env
        else fseek r.currentBlockSize.toNat).run r := by
  rw [readSpecificBlock, if_neg hne, Throwing.run_get_bind, if_neg (by simp [hcorrect])]
  dsimp only
  split_ifs
  · rfl
  · rfl
  · rw [Throwing.run_get_bind]

/-! ## More passes -/

theorem readOptions_mono (h : n ≤ m) (remaining : UInt32) (resolution : Int8) :
    Throwing.Le (readOptions env n remaining resolution)
      (readOptions env m remaining resolution) := by
  induction n generalizing m remaining resolution with
  | zero => exact .stuck _
  | succ n ih =>
    obtain ⟨m, rfl⟩ : ∃ k, m = k + 1 := ⟨m - 1, by omega⟩
    have hle := Nat.le_of_succ_le_succ h
    refine .ite (.refl _) (.bind (.refl _) fun bytes => .ite ?_ ?_)
    · exact .bind (.refl _) fun _ => .bind (.refl _) fun _ => .bind (.refl _) fun _ => ih hle _ _
    · exact .bind (.refl _) fun _ => .bind (.refl _) fun _ => .bind (.refl _) fun _ => ih hle _ _

theorem readSpecificBlock_mono (h : n ≤ m) (blockType : UInt32) :
    Throwing.Le (readSpecificBlock env blockType n) (readSpecificBlock env blockType m) := by
  have hinterface : Throwing.Le (readInterfaceDescriptionBlock env n)
      (readInterfaceDescriptionBlock env m) := by
    refine .bind (.refl _) fun _ => .bind (.refl _) fun r => .ite ?_ ?_
    · exact .bind (.refl _) fun _ => .bind (.refl _) fun _ => .bind (.refl _) fun _ =>
        .bind (readOptions_mono h _ _) fun _ => .refl _
    · exact .bind (.refl _) fun _ => .bind (.refl _) fun _ =>
        .bind (readOptions_mono h _ _) fun _ => .refl _
  refine .ite (.refl _) (.bind (.refl _) fun r => .ite ?_ ?_)
  · exact .bind (.refl _) fun _ => .ite hinterface (.refl _)
  · exact .ite hinterface (.refl _)

theorem readNextBlock_mono (h : n ≤ m) :
    Throwing.Le (readNextBlock env n) (readNextBlock env m) :=
  .bind (.refl _) fun _ => .ite (.refl _) (.bind (.refl _) fun _ => .bind (.refl _) fun _ =>
    .bind (.refl _) fun _ => .bind (readSpecificBlock_mono h _) fun _ => .refl _)

theorem getNextPacketBlock_mono (h : n ≤ m) :
    Throwing.Le (getNextPacketBlock env n) (getNextPacketBlock env m) := by
  induction n generalizing m with
  | zero => exact .stuck _
  | succ n ih =>
    obtain ⟨m, rfl⟩ : ∃ k, m = k + 1 := ⟨m - 1, by omega⟩
    have hle := Nat.le_of_succ_le_succ h
    exact .bind (.refl _) fun _ => .ite (.refl _)
      (.bind (readNextBlock_mono hle) fun _ => .ite (.refl _) (ih hle))

end TsnReconfig.PCAPNG
