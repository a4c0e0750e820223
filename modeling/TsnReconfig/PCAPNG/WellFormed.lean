import TsnReconfig.PCAPNG.Ahead

/-!
# Well-formed files

In a well-formed file every block ends where its total length says, and what is in it fits. The
reader gets from one block to the next, so that what comes first is the next packet of the file.
-/

namespace TsnReconfig.PCAPNG
open Lib OpenFlow

variable {env : Environment} {l : Layout} {next : Next} {pos n remaining pos' : ℕ}
  {packets : List ℕ}

/-- The header of the packet block at the position. -/
def packetBlockAt (env : Environment) (pos : ℕ) : EnhancedPacketBlock := env.packetHeaderAt (pos + 8)

/-- From the position on, blocks of the format follow to the end of the file. There are so many
interfaces, and the packet blocks are at the positions of the list. -/
inductive WellFormedFrom (env : Environment) : ℕ → ℕ → List ℕ → Prop
  | fileEnd {n : ℕ} : WellFormedFrom env env.file.length n []
  | sectionHeader {pos n : ℕ} {packets : List ℕ} (fits : HeaderFits env pos)
    (whole : pos + (env.blockHeaderAt pos).totalLength.toNat ≤ env.file.length)
    (blockType : (env.blockHeaderAt pos).blockType = btShb)
    (length : 28 ≤ (env.blockHeaderAt pos).totalLength.toNat)
    (magic : env.magicAt (pos + 8) = byteOrderMagic)
    (rest : WellFormedFrom env (pos + (env.blockHeaderAt pos).totalLength.toNat) 0 packets) :
    WellFormedFrom env pos n packets
  | interface {pos n pos' : ℕ} {packets : List ℕ} (fits : HeaderFits env pos)
    (whole : pos + (env.blockHeaderAt pos).totalLength.toNat ≤ env.file.length)
    (blockType : (env.blockHeaderAt pos).blockType = btIdb)
    (length : 20 ≤ (env.blockHeaderAt pos).totalLength.toNat)
    (options : OptionsFit env (pos + 16) ((env.blockHeaderAt pos).totalLength.toNat - 20) pos')
    (rest : WellFormedFrom env (pos + (env.blockHeaderAt pos).totalLength.toNat) (n + 1) packets) :
    WellFormedFrom env pos n packets
  | packet {pos n : ℕ} {packets : List ℕ} (fits : HeaderFits env pos)
    (whole : pos + (env.blockHeaderAt pos).totalLength.toNat ≤ env.file.length)
    (blockType : (env.blockHeaderAt pos).blockType = btEpb)
    (length : 32 + (packetBlockAt env pos).caplen.toNat +
      paddingBytes (packetBlockAt env pos).caplen.toNat ≤
        (env.blockHeaderAt pos).totalLength.toNat)
    (interface : (packetBlockAt env pos).interfaceId.toNat < n)
    (rest : WellFormedFrom env (pos + (env.blockHeaderAt pos).totalLength.toNat) n packets) :
    WellFormedFrom env pos n (pos :: packets)
  | other {pos n : ℕ} {packets : List ℕ} (fits : HeaderFits env pos)
    (whole : pos + (env.blockHeaderAt pos).totalLength.toNat ≤ env.file.length)
    (notSection : (env.blockHeaderAt pos).blockType ≠ btShb)
    (notInterface : (env.blockHeaderAt pos).blockType ≠ btIdb)
    (notPacket : (env.blockHeaderAt pos).blockType ≠ btEpb)
    (rest : WellFormedFrom env (pos + (env.blockHeaderAt pos).totalLength.toNat) n packets) :
    WellFormedFrom env pos n packets

/-- A well-formed file with its packet blocks. -/
def WellFormed (env : Environment) (packets : List ℕ) : Prop := WellFormedFrom env 0 0 packets

/-- The frames of the packet blocks, in the order of the file. -/
def frames (env : Environment) (packets : List ℕ) : List EthernetIIFrame :=
  packets.mapIdx fun k pos => frameAt env (.ofNat (k + 1)) pos

/-! ## One block -/

section
variable (h : WellFormedFrom env pos n packets)
include h

theorem WellFormedFrom.of_fileEnd (hend : env.file.length ≤ pos) : packets = [] := by
  cases h with
  | fileEnd => rfl
  | sectionHeader fits | interface fits | packet fits | other fits =>
    exact absurd fits.header (by omega)

variable (fits : HeaderFits env pos)
include fits

theorem WellFormedFrom.of_sectionHeader (htype : (env.blockHeaderAt pos).blockType = btShb) :
    pos + (env.blockHeaderAt pos).totalLength.toNat ≤ env.file.length ∧
      28 ≤ (env.blockHeaderAt pos).totalLength.toNat ∧
      env.magicAt (pos + 8) = byteOrderMagic ∧
      WellFormedFrom env (pos + (env.blockHeaderAt pos).totalLength.toNat) 0 packets := by
  cases h with
  | fileEnd => exact absurd fits.header (by omega)
  | sectionHeader _ whole _ length magic rest => exact ⟨whole, length, magic, rest⟩
  | interface _ _ hother | packet _ _ hother => exact absurd (htype.symm.trans hother) (by decide)
  | other _ _ notSection => exact (notSection htype).elim

theorem WellFormedFrom.of_interface (htype : (env.blockHeaderAt pos).blockType = btIdb) :
    pos + (env.blockHeaderAt pos).totalLength.toNat ≤ env.file.length ∧
      WellFormedFrom env (pos + (env.blockHeaderAt pos).totalLength.toNat) (n + 1) packets := by
  cases h with
  | fileEnd => exact absurd fits.header (by omega)
  | interface _ whole _ _ _ rest => exact ⟨whole, rest⟩
  | sectionHeader _ _ hother | packet _ _ hother =>
    exact absurd (htype.symm.trans hother) (by decide)
  | other _ _ _ notInterface => exact (notInterface htype).elim

theorem WellFormedFrom.of_packet (htype : (env.blockHeaderAt pos).blockType = btEpb) :
    ∃ rest, packets = pos :: rest ∧
      pos + (env.blockHeaderAt pos).totalLength.toNat ≤ env.file.length ∧
      32 + (packetBlockAt env pos).caplen.toNat +
        paddingBytes (packetBlockAt env pos).caplen.toNat ≤
          (env.blockHeaderAt pos).totalLength.toNat ∧
      (packetBlockAt env pos).interfaceId.toNat < n ∧
      WellFormedFrom env (pos + (env.blockHeaderAt pos).totalLength.toNat) n rest := by
  cases h with
  | fileEnd => exact absurd fits.header (by omega)
  | packet _ whole _ length interface rest => exact ⟨_, rfl, whole, length, interface, rest⟩
  | sectionHeader _ _ hother | interface _ _ hother =>
    exact absurd (htype.symm.trans hother) (by decide)
  | other _ _ _ _ notPacket => exact (notPacket htype).elim

theorem WellFormedFrom.of_other (notSection : (env.blockHeaderAt pos).blockType ≠ btShb)
    (notInterface : (env.blockHeaderAt pos).blockType ≠ btIdb)
    (notPacket : (env.blockHeaderAt pos).blockType ≠ btEpb) :
    WellFormedFrom env (pos + (env.blockHeaderAt pos).totalLength.toNat) n packets := by
  cases h with
  | fileEnd => exact absurd fits.header (by omega)
  | other _ _ _ _ _ rest => exact rest
  | sectionHeader _ _ htype => exact (notSection htype).elim
  | interface _ _ htype => exact (notInterface htype).elim
  | packet _ _ htype => exact (notPacket htype).elim

end

/-- Options that are in the file end where their sizes say. -/
theorem OptionsFit.pos_eq (h : OptionsFit env pos remaining pos')
    (whole : pos + remaining ≤ env.file.length) : pos' = pos + remaining := by
  induction h with
  | nil => rfl
  | skip header code fits rest ih =>
    have heq := ih (by omega)
    omega
  | @resolution pos remaining pos' header code fits one rest ih =>
    have hsize : (env.optionHeaderAt pos).size = 4 + (env.optionHeaderAt pos).optionLength.toNat +
        paddingBytes (env.optionHeaderAt pos).optionLength.toNat := rfl
    have hadvance : env.advance (pos + 4) (env.optionHeaderAt pos).optionLength.toNat =
        pos + 4 + (env.optionHeaderAt pos).optionLength.toNat :=
      Environment.advance_of_le (by omega)
    rw [hadvance] at ih
    have heq := ih (by omega)
    omega

/-! ## The next packet -/

/-- The reader knows the interfaces of the section. -/
structure Agrees (l : Layout) (n : ℕ) : Prop where
  correctEndianess : l.correctEndianess = true
  interfaceCount : l.interfaceCount = .ofNat n
  known : ∀ i : UInt32, i.toNat < n → l.known i = true

theorem Agrees.afterInterface (h : Agrees l n) : Agrees (l.afterInterface pos') (n + 1) where
  correctEndianess := h.correctEndianess
  interfaceCount := by
    rw [Layout.afterInterface, h.interfaceCount]
    apply UInt32.toNat_inj.mp
    rw [UInt32.toNat_add, UInt32.toNat_ofNat', UInt32.toNat_ofNat', UInt32.toNat_one]
    omega
  known i hi := by
    change Function.update l.known l.interfaceCount true i = true
    by_cases heq : i = l.interfaceCount
    · rw [heq, Function.update_self]
    · rw [Function.update_of_ne heq]
      refine h.known i (Nat.lt_of_le_of_ne (Nat.le_of_lt_succ hi) fun hn => heq ?_)
      rw [h.interfaceCount, ← hn, UInt32.ofNat_toNat]

/-- **What comes first in a well-formed file** is its next packet, or its end. -/
theorem Ahead.of_wellFormed (h : Ahead env l next) (hfile : WellFormedFrom env l.pos n packets)
    (hagrees : Agrees l n) : (next = .fileEnd ∧ packets = []) ∨
      ∃ l' n' rest, next = .packet l' ∧ packets = l'.pos :: rest ∧ Agrees l' n' ∧
        WellFormedFrom env (l'.pos + l'.total env) n' rest ∧
        l'.pos + l'.total env ≤ env.file.length ∧ 32 + l'.caplen env ≤ l'.total env := by
  induction h generalizing n packets with
  | fileEnd end_le => exact .inl ⟨rfl, hfile.of_fileEnd end_le⟩
  | @sectionHeader l next fits blockType whole magic rest ih =>
    obtain ⟨hwhole, hlength, -, hrest⟩ := hfile.of_sectionHeader fits blockType
    refine ih (n := 0) ?_ ⟨rfl, rfl, fun i hi => (Nat.not_lt_zero _ hi).elim⟩
    have hpos : env.advance (l.pos + 8) 16 + (l.total env - 28) + 4 = l.pos + l.total env := by
      change 28 ≤ l.total env at hlength
      change l.pos + l.total env ≤ _ at hwhole
      rw [Environment.advance_of_le (by omega)]
      omega
    rw [Layout.afterSection, hpos]
    exact hrest
  | otherEndianess fits blockType whole magic =>
    exact (magic (hfile.of_sectionHeader fits blockType).2.2.1).elim
  | refused fits blockType endianess =>
    -- in a well-formed file every header is of the right endianness
    rw [hagrees.correctEndianess] at endianess
    cases endianess
  | @interface l next pos' fits blockType endianess length options rest ih =>
    obtain ⟨hwhole, hrest⟩ := hfile.of_interface fits blockType
    refine ih ?_ hagrees.afterInterface
    change l.pos + l.total env ≤ _ at hwhole
    rw [Environment.advance_of_le (by omega)] at options
    have hpos := options.pos_eq (by omega)
    rw [Layout.afterInterface, show pos' + 4 = l.pos + l.total env by omega]
    exact hrest
  | @packet l fits blockType endianess whole time caplen length =>
    obtain ⟨rest, rfl, hwhole, hlength, -, hrest⟩ := hfile.of_packet fits blockType
    exact .inr ⟨l, n, rest, rfl, rfl, hagrees, hrest, hwhole, by omega⟩
  | @unknown l fits blockType endianess whole timed interface =>
    obtain ⟨rest, -, -, -, hinterface, -⟩ := hfile.of_packet fits blockType
    -- every packet names an interface of its section
    have hknown := hagrees.known _ hinterface
    change l.known (packetBlockAt env l.pos).interfaceId = false at interface
    rw [hknown] at interface
    cases interface
  | other fits notSection notInterface notPacket endianess rest ih =>
    exact ih (hfile.of_other fits notSection notInterface notPacket)
      ⟨hagrees.correctEndianess, hagrees.interfaceCount, hagrees.known⟩

end TsnReconfig.PCAPNG
