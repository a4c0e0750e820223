import Mathlib.Logic.Function.Basic
import TsnReconfig.Lib.Throwing
import TsnReconfig.OpenFlow.FlowTable

/-!
# The reader of pcapng files

`PCAPNGReader` reads blocks from a file and turns the enhanced packet blocks into frames. The member
functions change the reader, return or throw. Loops end after a number of passes at most.
-/

namespace TsnReconfig.PCAPNG
open Lib OpenFlow

/-- `BT_SHB`. -/
def btShb : UInt32 := 0x0A0D0D0A

/-- `BT_IDB`. -/
def btIdb : UInt32 := 1

/-- `BT_EPB`. -/
def btEpb : UInt32 := 6

/-- `BYTE_ORDER_MAGIC`. -/
def byteOrderMagic : UInt32 := 0x1A2B3C4D

/-- `IF_TSRESOL`. -/
def ifTsresol : UInt16 := 9

/-- The file, and what the machine does. `memory n i` is byte `i` of the `n`-th object before
anything is read into it. `toNano` and `simTime` stand for the arithmetic with floating-point
numbers and for `SimTime`, which may throw, but not for the time from a packet to itself. -/
structure Environment where
  file : List UInt8
  memory : ℕ → ℕ → UInt8
  bigEndian : Bool
  toNano : UInt64 → ℕ → Int8 → UInt64
  simTime : UInt64 → ℕ → Int8 → UInt64 → Option SimTime
  simTime_first : ∀ timestamp base resolution,
    simTime timestamp base resolution (toNano timestamp base resolution) ≠ none

/-- `block_header`. -/
structure BlockHeader where
  blockType : UInt32
  totalLength : UInt32
  deriving DecidableEq, Repr

/-- `option_header`. -/
structure OptionHeader where
  optionCode : UInt16
  optionLength : UInt16
  deriving DecidableEq, Repr

/-- `enhanced_packet_block`. -/
structure EnhancedPacketBlock where
  interfaceId : UInt32
  timestampHigh : UInt32
  timestampLow : UInt32
  caplen : UInt32
  len : UInt32
  deriving DecidableEq, Repr

/-- `EthernetIIFrame`, with the number that is part of its name. -/
structure EthernetIIFrame where
  packetBlockNo : UInt64
  dest : List UInt8
  src : List UInt8
  etherType : UInt16
  payloadLength : ℕ
  byteLength : ℕ
  deriving DecidableEq, Repr

/-- What the functions throw. -/
inductive Thrown
  | invalidArgument (what : String)
  | outOfRange
  | simTime
  deriving DecidableEq, Repr

/-- The members of `PCAPNGReader`. `pos` is the position in the file and `objects` counts the
objects that were made. `wrapped` tells that a subtraction of lengths has wrapped around, `outside`
that a byte behind the captured ones has been read. -/
structure Reader where
  pos : ℕ := 0
  endReached : Bool := false
  correctEndianess : Bool := false
  initialTimestampNano : UInt64 := 0
  currentBlockSize : UInt32 := 0
  interfaceCount : UInt32 := 0
  currentPackeBlockNo : UInt64 := 0
  timeResolutions : UInt32 → Option Int8 := fun _ => none
  currentPacketHeader : EnhancedPacketBlock := ⟨0, 0, 0, 0, 0⟩
  etherFrames : List EthernetIIFrame := []
  objects : ℕ := 0
  wrapped : Bool := false
  outside : Bool := false

abbrev ReaderM (α : Type) := Throwing Reader Thrown α

/-! ## Bytes -/

namespace Environment
variable (env : Environment)

/-- The number that the bytes stand for in the memory. -/
def decode (bytes : List UInt8) : ℕ :=
  (if env.bigEndian then bytes else bytes.reverse).foldl (fun n b => n * 256 + b.toNat) 0

def u16 (bytes : List UInt8) (i : ℕ) : UInt16 := .ofNat (env.decode ((bytes.drop i).take 2))

def u32 (bytes : List UInt8) (i : ℕ) : UInt32 := .ofNat (env.decode ((bytes.drop i).take 4))

def blockHeader (bytes : List UInt8) : BlockHeader := ⟨env.u32 bytes 0, env.u32 bytes 4⟩

def optionHeader (bytes : List UInt8) : OptionHeader := ⟨env.u16 bytes 0, env.u16 bytes 2⟩

def enhancedPacketBlock (bytes : List UInt8) : EnhancedPacketBlock :=
  ⟨env.u32 bytes 0, env.u32 bytes 4, env.u32 bytes 8, env.u32 bytes 12, env.u32 bytes 16⟩

/-- The next bytes of the file, at most so many. -/
def next (pos n : ℕ) : List UInt8 := (env.file.drop pos).take n

/-- `fread` into a new object of so many bytes, which keeps those that are not read. -/
def fread (n : ℕ) : ReaderM (List UInt8) where
  run r :=
    let bytes := env.next r.pos n
    let rest := (List.range (n - bytes.length)).map fun i => env.memory r.objects (bytes.length + i)
    some (.ok (bytes ++ rest), { r with pos := r.pos + bytes.length, objects := r.objects + 1 })

/-- `fread` into a new byte. It writes behind it if it reads more. -/
def freadByte (n : ℕ) : ReaderM UInt8 where
  run r :=
    let bytes := env.next r.pos n
    if 1 < bytes.length then none
    else some (.ok (bytes.headD (env.memory r.objects 0)),
      { r with pos := r.pos + bytes.length, objects := r.objects + 1 })

/-- Bytes of the packet, with what is behind it in the memory. -/
def packetBytes (packetBlock : List UInt8) (i n : ℕ) : ReaderM (List UInt8) where
  run r :=
    let bytes := (packetBlock.drop i).take n
    let rest := (List.range (n - bytes.length)).map fun j => env.memory r.objects (bytes.length + j)
    some (.ok (bytes ++ rest), { r with
      objects := r.objects + 1
      outside := r.outside || decide (packetBlock.length < i + n) })

end Environment

/-- `fseek` from the current position, which may get behind the end of the file. -/
def fseek (n : ℕ) : ReaderM Unit := modify fun r => { r with pos := r.pos + n }

/-- A subtraction of lengths. -/
def subtract (a : UInt32) (n : ℕ) : ReaderM UInt32 where
  run r := some (.ok (a - .ofNat n), { r with wrapped := r.wrapped || decide (a.toNat < n) })

def paddingBytes (length : ℕ) : ℕ := (4 - length % 4) % 4

def convertEndianess : ReaderM Unit :=
  .raise (.invalidArgument
    "endianess of the section doesn't match endianess of the operating system.")

/-! ## The member functions -/

section
variable (env : Environment)

def calculateSimTime (timestamp : UInt64) (timeResolution : Int8) : ReaderM SimTime := do
  let base := if timeResolution < 0 then 2 else 10
  let timeResolution := if timeResolution < 0 then timeResolution &&& 0x49 else timeResolution
  let timestampNano := env.toNano timestamp base timeResolution
  if (← get).initialTimestampNano = 0 then
    modify fun r => { r with initialTimestampNano := timestampNano }
  match env.simTime timestamp base timeResolution (← get).initialTimestampNano with
  | some simulationTime => return simulationTime
  | none => .raise .simTime

def timestamp (header : EnhancedPacketBlock) : UInt64 :=
  header.timestampHigh.toUInt64 <<< 32 + header.timestampLow.toUInt64

def createEthernetIIFrame (packetBlockNo : UInt64) (packetBlock : List UInt8) : ReaderM Unit := do
  let etherType ← env.packetBytes packetBlock 12 2
  let dest ← env.packetBytes packetBlock 0 6
  let src ← env.packetBytes packetBlock 6 6
  let payloadLength ← subtract (← get).currentPacketHeader.caplen 14
  let frame : EthernetIIFrame := {
    packetBlockNo
    dest
    src
    etherType := (etherType.getD 0 0).toUInt16 <<< 8 + (etherType.getD 1 0).toUInt16
    payloadLength := payloadLength.toNat
    byteLength := max (18 + payloadLength.toNat) 64 }
  modify fun r => { r with etherFrames := r.etherFrames ++ [frame] }

/-- What `readPacketBlock` does for the first packet. -/
def setInitialTime (header : EnhancedPacketBlock) : ReaderM Unit := do
  if (← get).initialTimestampNano = 0 then
    match (← get).timeResolutions header.interfaceId with
    | none => .raise .outOfRange
    | some resolution => discard <| calculateSimTime env (timestamp header) resolution

def readPacketBlock : ReaderM Unit := do
  let bytes ← env.fread 20
  if !(← get).correctEndianess then convertEndianess
  let header := env.enhancedPacketBlock bytes
  modify fun r => { r with currentPacketHeader := header }
  setInitialTime env header
  let packetBlock ← env.fread header.caplen.toNat
  modify fun r => { r with currentPackeBlockNo := r.currentPackeBlockNo + 1 }
  createEthernetIIFrame env (← get).currentPackeBlockNo packetBlock
  let padding := paddingBytes header.caplen.toNat
  fseek padding
  let remainingBytes ← subtract (← get).currentBlockSize (20 + header.caplen.toNat + padding)
  fseek remainingBytes.toNat

/-- The loop over the options of an interface. It gives the resolution. -/
def readOptions : ℕ → UInt32 → Int8 → ReaderM Int8
  | 0, _, _ => .stuck
  | fuel + 1, remainingOptionsSize, resolution => do
    if remainingOptionsSize = 0 then return resolution
    else
      let option := env.optionHeader (← env.fread 4)
      let length := option.optionLength.toNat
      if option.optionCode = ifTsresol then
        let tResol ← env.freadByte length
        fseek (paddingBytes length)
        let rest ← subtract remainingOptionsSize (4 + length + paddingBytes length)
        readOptions fuel rest tResol.toInt8
      else
        fseek length
        fseek (paddingBytes length)
        let rest ← subtract remainingOptionsSize (4 + length + paddingBytes length)
        readOptions fuel rest resolution

def readInterfaceDescriptionBlock (fuel : ℕ) : ReaderM Unit := do
  let _ ← env.fread 8
  if !(← get).correctEndianess then convertEndianess
  let remainingOptionsSize ← subtract (← get).currentBlockSize 8
  let resolution ← readOptions env fuel remainingOptionsSize 6
  modify fun r => { r with
    timeResolutions := Function.update r.timeResolutions r.interfaceCount (some resolution)
    interfaceCount := r.interfaceCount + 1 }

def readSectionHeaderBlock : ReaderM Unit := do
  let bytes ← env.fread 16
  if env.u32 bytes 0 = byteOrderMagic then
    modify fun r => { r with correctEndianess := true }
  else
    modify fun r => { r with correctEndianess := false }
    convertEndianess
  modify fun r => { r with timeResolutions := fun _ => none, interfaceCount := 0 }
  if 16 < (← get).currentBlockSize.toNat then
    fseek ((← get).currentBlockSize.toNat - 16)

/-- What is read of a block after its header. -/
def readSpecificBlock (blockType : UInt32) (fuel : ℕ) : ReaderM Unit := do
  if blockType = btShb then readSectionHeaderBlock env
  else
    if !(← get).correctEndianess then convertEndianess
    if blockType = btIdb then readInterfaceDescriptionBlock env fuel
    else if blockType = btEpb then readPacketBlock env
    else fseek (← get).currentBlockSize.toNat

def readNextBlock (fuel : ℕ) : ReaderM UInt32 := do
  if env.file.length ≤ (← get).pos then
    modify fun r => { r with endReached := true }
    return 0
  else
    let header := env.blockHeader (← env.fread 8)
    let currentBlockSize ← subtract header.totalLength 12
    modify fun r => { r with currentBlockSize := currentBlockSize }
    readSpecificBlock env header.blockType fuel
    fseek 4
    return header.blockType

def getNextPacketBlock : ℕ → ReaderM Bool
  | 0 => .stuck
  | fuel + 1 => do
    if (← get).endReached then return false
    else
      let blockType ← readNextBlock env fuel
      if blockType = btEpb then return true
      else getNextPacketBlock fuel

/-- `initialize`, of a file that could be opened. -/
def initializeReader (fuel : ℕ) : ReaderM Unit := do
  let blockType ← readNextBlock env fuel
  if blockType ≠ btShb then
    .raise (.invalidArgument "file doesn't begin with a section header.")

/-- `front` and `pop_front`. -/
def takeFrame : ReaderM (Option EthernetIIFrame) := do
  match (← get).etherFrames with
  | [] => .stuck
  | frame :: etherFrames =>
    modify fun r => { r with etherFrames := etherFrames }
    return some frame

/-- `none` for the null pointer. -/
def getNextEthernetIIFrame (fuel : ℕ) : ReaderM (Option EthernetIIFrame) := do
  if (← get).etherFrames = [] ∧ !(← get).endReached then
    if !(← getNextPacketBlock env fuel) then return none
    else takeFrame
  else if (← get).endReached then return none
  else takeFrame

/-- The time of the packet that has been read. The operator of the map makes an entry if there is
none. -/
def packetSimTime : ReaderM SimTime := do
  let header := (← get).currentPacketHeader
  let resolution := ((← get).timeResolutions header.interfaceId).getD 0
  modify fun r => { r with
    timeResolutions := Function.update r.timeResolutions header.interfaceId (some resolution) }
  calculateSimTime env (timestamp header) resolution

def getNextSimTime (fuel : ℕ) : ReaderM SimTime := do
  if !(← get).endReached then
    if ← getNextPacketBlock env fuel then packetSimTime env
    else return 0
  else return 0

end

end TsnReconfig.PCAPNG
