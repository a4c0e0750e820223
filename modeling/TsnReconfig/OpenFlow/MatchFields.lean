import Mathlib.Data.Nat.Bitwise
import Mathlib.Tactic.Tauto
import TsnReconfig.OpenFlow.FlowTable

/-!
# The fields of a match

When an entry matches by the meaning of the wildcard bits, field by field, against what `tryMatch`
compares: it reads neither the ToS nor the tag, compares the source ports twice, and takes a
wildcard count below 32 for an exact match of the address.
-/

namespace TsnReconfig.OpenFlow

def ofpfwNwSrcShift : UInt32 := 8
def ofpfwNwDstShift : UInt32 := 14

/-- The mask of the bit counts before their shift, `(1 << OFPFW_NW_SRC_BITS) - 1`. -/
def ofpfwNwBits : UInt32 := .ofNat ((1 <<< 6) - 1)

def ofpfwTag : UInt32 := .ofNat (1 <<< 22)

/-- The number of low bits of an address that are wildcarded. 32 and higher wildcard all of it. -/
def wildcardCount (wildcards shift : UInt32) : ℕ := ((wildcards >>> shift) &&& ofpfwNwBits).toNat

/-- The addresses have the same bits above the `count` low ones. -/
def SamePrefix (count : ℕ) (a b : IPv4Address) : Prop := a.toNat >>> count = b.toNat >>> count

/-- The fields that `tryMatch` compares as the wildcards tell, each wildcarded or the same. -/
structure ComparedFieldsAgree (wildcards : UInt32) (m p : OxmBasicMatch) : Prop where
  inPort : wildcarded wildcards ofpfwInPort ∨ m.ofbInPort = p.ofbInPort
  ethType : wildcarded wildcards ofpfwDlType ∨ m.ofbEthType = p.ofbEthType
  ethSrc : wildcarded wildcards ofpfwDlSrc ∨ m.ofbEthSrc = p.ofbEthSrc
  ethDst : wildcarded wildcards ofpfwDlDst ∨ m.ofbEthDst = p.ofbEthDst
  vlanVid : wildcarded wildcards ofpfwDlVlan ∨ m.ofbVlanVid = p.ofbVlanVid
  vlanPcp : wildcarded wildcards ofpfwDlVlanPcp ∨ m.ofbVlanPcp = p.ofbVlanPcp
  ipProto : wildcarded wildcards ofpfwNwProto ∨ m.ofbIpProto = p.ofbIpProto
  tpSrc : wildcarded wildcards ofpfwTpSrc ∨ m.ofbTpSrc = p.ofbTpSrc

/-- The fields that it does not read. -/
structure UnreadFieldsAgree (wildcards : UInt32) (m p : OxmBasicMatch) : Prop where
  ipDscp : wildcarded wildcards ofpfwNwTos ∨ m.ofbIpDscp = p.ofbIpDscp
  tpDst : wildcarded wildcards ofpfwTpDst ∨ m.ofbTpDst = p.ofbTpDst
  tag : wildcarded wildcards ofpfwTag ∨ m.ofbTag = p.ofbTag

structure AddressesAgree (wildcards : UInt32) (m p : OxmBasicMatch) : Prop where
  ipv4Src : SamePrefix (wildcardCount wildcards ofpfwNwSrcShift) m.ofbIpv4Src p.ofbIpv4Src
  ipv4Dst : SamePrefix (wildcardCount wildcards ofpfwNwDstShift) m.ofbIpv4Dst p.ofbIpv4Dst

/-- Every field of the match is wildcarded or the same. -/
structure FieldsAgree (wildcards : UInt32) (m p : OxmBasicMatch) : Prop where
  compared : ComparedFieldsAgree wildcards m p
  unread : UnreadFieldsAgree wildcards m p
  addresses : AddressesAgree wildcards m p

/-- The addresses are wildcarded as a whole or the same, and the source ports are the same where
the destination port is not wildcarded. -/
structure StrictlyAgree (wildcards : UInt32) (m p : OxmBasicMatch) : Prop where
  ipv4Src : 32 ≤ wildcardCount wildcards ofpfwNwSrcShift ∨ m.ofbIpv4Src = p.ofbIpv4Src
  ipv4Dst : 32 ≤ wildcardCount wildcards ofpfwNwDstShift ∨ m.ofbIpv4Dst = p.ofbIpv4Dst
  tpSrc : wildcarded wildcards ofpfwTpDst ∨ m.ofbTpSrc = p.ofbTpSrc

variable {wildcards : UInt32} {m p : OxmBasicMatch} {e : FlowTableEntry}

theorem wildcarded_iff_testBit {bits : UInt32} {i : ℕ} (h : bits.toNat = 1 <<< i) :
    wildcarded wildcards bits ↔ wildcards.toNat.testBit i := by
  have hand : (wildcards &&& bits).toNat = (wildcards.toNat.testBit i).toNat * 2 ^ i := by
    rw [UInt32.toNat_and, h, Nat.one_shiftLeft, Nat.and_two_pow]
  rw [wildcarded, bne_iff_ne, ne_eq, ← UInt32.toNat_inj, hand]
  cases wildcards.toNat.testBit i
  · simp
  · simp

theorem wildcardCount_eq (wildcards shift : UInt32) :
    wildcardCount wildcards shift = (wildcards.toNat >>> (shift.toNat % 32)) % 64 := by
  rw [wildcardCount, UInt32.toNat_and, UInt32.toNat_shiftRight]
  exact Nat.and_two_pow_sub_one_eq_mod _ 6

/-- The bit that `tryMatch` reads is set for a count from 32 on. -/
theorem wildcarded_nwSrcAll : wildcarded wildcards ofpfwNwSrcAll ↔
    32 ≤ wildcardCount wildcards ofpfwNwSrcShift := by
  have hbits : ofpfwNwSrcAll.toNat = 1 <<< 13 := rfl
  rw [wildcarded_iff_testBit hbits, wildcardCount_eq, Nat.testBit_eq_decide_div_mod_eq,
    decide_eq_true_iff]
  change wildcards.toNat / 8192 % 2 = 1 ↔ 32 ≤ wildcards.toNat >>> 8 % 64
  rw [Nat.shiftRight_eq_div_pow]
  omega

theorem wildcarded_nwDstAll : wildcarded wildcards ofpfwNwDstAll ↔
    32 ≤ wildcardCount wildcards ofpfwNwDstShift := by
  have hbits : ofpfwNwDstAll.toNat = 1 <<< 19 := rfl
  rw [wildcarded_iff_testBit hbits, wildcardCount_eq, Nat.testBit_eq_decide_div_mod_eq,
    decide_eq_true_iff]
  change wildcards.toNat / 524288 % 2 = 1 ↔ 32 ≤ wildcards.toNat >>> 14 % 64
  rw [Nat.shiftRight_eq_div_pow]
  omega

theorem samePrefix_of_eq_or {count : ℕ} {a b : IPv4Address} (h : 32 ≤ count ∨ a = b) :
    SamePrefix count a b := by
  rcases h with hcount | rfl
  · have hzero : ∀ c : IPv4Address, c.toNat >>> count = 0 := by
      intro c
      rw [Nat.shiftRight_eq_div_pow]
      exact Nat.div_eq_of_lt (lt_of_lt_of_le c.toNat_lt (Nat.pow_le_pow_right (by decide) hcount))
    rw [SamePrefix, hzero, hzero]
  · rfl

theorem StrictlyAgree.addressesAgree (h : StrictlyAgree wildcards m p) :
    AddressesAgree wildcards m p :=
  ⟨samePrefix_of_eq_or h.ipv4Src, samePrefix_of_eq_or h.ipv4Dst⟩

/-- What `tryMatch` compares. -/
theorem tryMatchWith_iff : e.tryMatchWith p wildcards ↔
    ComparedFieldsAgree wildcards e.oxmMatch p ∧ StrictlyAgree wildcards e.oxmMatch p := by
  simp only [FlowTableEntry.tryMatchWith, Bool.and_eq_true, Bool.or_eq_true, beq_iff_eq,
    MACAddress.compareTo_eq_zero, wildcarded_nwSrcAll, wildcarded_nwDstAll]
  constructor
  · rintro ⟨⟨⟨⟨⟨⟨⟨⟨⟨⟨h₁, h₂⟩, h₃⟩, h₄⟩, h₅⟩, h₆⟩, h₇⟩, h₈⟩, h₉⟩, h₁₀⟩, h₁₁⟩
    exact ⟨⟨h₁, h₂, h₃, h₄, h₅, h₆, h₇, h₁₀⟩, h₈, h₉, h₁₁⟩
  · rintro ⟨⟨h₁, h₂, h₃, h₄, h₅, h₆, h₇, h₁₀⟩, h₈, h₉, h₁₁⟩
    exact ⟨⟨⟨⟨⟨⟨⟨⟨⟨⟨h₁, h₂⟩, h₃⟩, h₄⟩, h₅⟩, h₆⟩, h₇⟩, h₈⟩, h₉⟩, h₁₀⟩, h₁₁⟩

theorem wildcarded_ofpfwAll :
    wildcarded ofpfwAll ofpfwInPort = true ∧ wildcarded ofpfwAll ofpfwDlType = true ∧
    wildcarded ofpfwAll ofpfwDlSrc = true ∧ wildcarded ofpfwAll ofpfwDlDst = true ∧
    wildcarded ofpfwAll ofpfwDlVlan = true ∧ wildcarded ofpfwAll ofpfwDlVlanPcp = true ∧
    wildcarded ofpfwAll ofpfwNwProto = true ∧ wildcarded ofpfwAll ofpfwNwSrcAll = true ∧
    wildcarded ofpfwAll ofpfwNwDstAll = true ∧ wildcarded ofpfwAll ofpfwTpSrc = true ∧
    wildcarded ofpfwAll ofpfwTpDst = true := by
  decide

/-- Everything matches under the match-all mask. -/
theorem tryMatchWith_ofpfwAll : e.tryMatchWith p ofpfwAll := by
  obtain ⟨h₁, h₂, h₃, h₄, h₅, h₆, h₇, h₈, h₉, h₁₀, h₁₁⟩ := wildcarded_ofpfwAll
  simp only [FlowTableEntry.tryMatchWith, h₁, h₂, h₃, h₄, h₅, h₆, h₇, h₈, h₉, h₁₀, h₁₁,
    Bool.true_or, Bool.and_self]

/-- An entry matches exactly when all fields that are not wildcarded agree, if the fields that are
not read agree whenever the others do, and the strict comparison finds no difference where the
fields agree. The match-all mask matches everything. -/
theorem tryMatchWith_iff_fieldsAgree (e : FlowTableEntry) (p : OxmBasicMatch) (wildcards : UInt32) :
    ((e.tryMatchWith p wildcards ↔ FieldsAgree wildcards e.oxmMatch p) ∧ e.tryMatchWith p ofpfwAll) ↔
      (ComparedFieldsAgree wildcards e.oxmMatch p → StrictlyAgree wildcards e.oxmMatch p →
        UnreadFieldsAgree wildcards e.oxmMatch p) ∧
      (ComparedFieldsAgree wildcards e.oxmMatch p → UnreadFieldsAgree wildcards e.oxmMatch p →
        AddressesAgree wildcards e.oxmMatch p → StrictlyAgree wildcards e.oxmMatch p) := by
  have hfields : FieldsAgree wildcards e.oxmMatch p ↔ ComparedFieldsAgree wildcards e.oxmMatch p ∧
      UnreadFieldsAgree wildcards e.oxmMatch p ∧ AddressesAgree wildcards e.oxmMatch p :=
    ⟨fun h => ⟨h.compared, h.unread, h.addresses⟩, fun h => ⟨h.1, h.2.1, h.2.2⟩⟩
  have haddresses : StrictlyAgree wildcards e.oxmMatch p → AddressesAgree wildcards e.oxmMatch p :=
    StrictlyAgree.addressesAgree
  have hall : e.tryMatchWith p ofpfwAll = true := tryMatchWith_ofpfwAll
  rw [tryMatchWith_iff, hfields, and_iff_left hall]
  tauto

/-- A packet for another destination port. -/
theorem not_tryMatchWith_iff_fieldsAgree : ¬∀ (e : FlowTableEntry) (p : OxmBasicMatch)
    (wildcards : UInt32), (e.tryMatchWith p wildcards ↔ FieldsAgree wildcards e.oxmMatch p) ∧
      e.tryMatchWith p ofpfwAll := by
  intro h
  have hiff := (h ⟨1, 0, 0, 0, 0, 0, 0, 0, .zero, []⟩ { OxmBasicMatch.zero with ofbTpDst := 80 } 0).1
  have hagree := hiff.mp (by decide)
  have htpDst := hagree.unread.tpDst
  revert htpDst
  decide

end TsnReconfig.OpenFlow
