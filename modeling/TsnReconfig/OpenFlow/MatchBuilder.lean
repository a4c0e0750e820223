import TsnReconfig.OpenFlow.MatchFields

/-!
# The match builder

What sequences of `setField` leave in the match of a new builder. The tag clears the bits of its
field number, which belong to the Ethernet source and the IP protocol. Its own bit is not in
`OFPFW_ALL`, and of the bit count of an address only the highest bit is cleared.
-/

namespace TsnReconfig.OpenFlow

/-- The fields of a match that have wildcard bits. -/
inductive MatchField
  | inPort | ethSrc | ethDst | ethType | vlanVid | vlanPcp | ipDscp | ipProto
  | ipv4Src | ipv4Dst | tpSrc | tpDst | tag
  deriving DecidableEq, Repr

def ofpfwNwSrcMask : UInt32 := .ofNat (((1 <<< 6) - 1) <<< 8)
def ofpfwNwDstMask : UInt32 := .ofNat (((1 <<< 6) - 1) <<< 14)

/-- The bits of a field in the wildcards. -/
def MatchField.wildcardBits : MatchField → UInt32
  | inPort => ofpfwInPort
  | ethSrc => ofpfwDlSrc
  | ethDst => ofpfwDlDst
  | ethType => ofpfwDlType
  | vlanVid => ofpfwDlVlan
  | vlanPcp => ofpfwDlVlanPcp
  | ipDscp => ofpfwNwTos
  | ipProto => ofpfwNwProto
  | ipv4Src => ofpfwNwSrcMask
  | ipv4Dst => ofpfwNwDstMask
  | tpSrc => ofpfwTpSrc
  | tpDst => ofpfwTpDst
  | tag => ofpfwTag

/-- The matches have the same value in a field. -/
def MatchField.SameAt (m m' : OxmBasicMatch) : MatchField → Prop
  | inPort => m.ofbInPort = m'.ofbInPort
  | ethSrc => m.ofbEthSrc = m'.ofbEthSrc
  | ethDst => m.ofbEthDst = m'.ofbEthDst
  | ethType => m.ofbEthType = m'.ofbEthType
  | vlanVid => m.ofbVlanVid = m'.ofbVlanVid
  | vlanPcp => m.ofbVlanPcp = m'.ofbVlanPcp
  | ipDscp => m.ofbIpDscp = m'.ofbIpDscp
  | ipProto => m.ofbIpProto = m'.ofbIpProto
  | ipv4Src => m.ofbIpv4Src = m'.ofbIpv4Src
  | ipv4Dst => m.ofbIpv4Dst = m'.ofbIpv4Dst
  | tpSrc => m.ofbTpSrc = m'.ofbTpSrc
  | tpDst => m.ofbTpDst = m'.ofbTpDst
  | tag => m.ofbTag = m'.ofbTag

namespace OxmField

/-- The field that a call of `setField` is for. The ports of TCP and UDP are those of the transport
layer, and the fields of ARP have no wildcard bits. -/
def field : OxmField → Option MatchField
  | inPort _ => some .inPort
  | ethSrc _ => some .ethSrc
  | ethDst _ => some .ethDst
  | vlanVid _ => some .vlanVid
  | vlanPcp _ => some .vlanPcp
  | ethType _ => some .ethType
  | ipDscp _ => some .ipDscp
  | ipProto _ => some .ipProto
  | ipv4Src _ => some .ipv4Src
  | ipv4Dst _ => some .ipv4Dst
  | tcpSrc _ => some .tpSrc
  | tcpDst _ => some .tpDst
  | udpSrc _ => some .tpSrc
  | udpDst _ => some .tpDst
  | arpOp _ => none
  | arpSpa _ => none
  | arpTpa _ => none
  | arpSha _ => none
  | arpTha _ => none
  | tag _ => some .tag
  | unsupported _ => none

/-- The match holds the value of a call in its field. -/
def HeldBy (m : OxmBasicMatch) : OxmField → Prop
  | inPort v => m.ofbInPort = v
  | ethSrc v => m.ofbEthSrc = v
  | ethDst v => m.ofbEthDst = v
  | vlanVid v => m.ofbVlanVid = v
  | vlanPcp v => m.ofbVlanPcp = v
  | ethType v => m.ofbEthType = v
  | ipDscp v => m.ofbIpDscp = v
  | ipProto v => m.ofbIpProto = v
  | ipv4Src v => m.ofbIpv4Src = v
  | ipv4Dst v => m.ofbIpv4Dst = v
  | tcpSrc v => m.ofbTpSrc = v
  | tcpDst v => m.ofbTpDst = v
  | udpSrc v => m.ofbTpSrc = v
  | udpDst v => m.ofbTpDst = v
  | arpOp v => m.ofbArpOp = v
  | arpSpa v => m.ofbArpSpa = v
  | arpTpa v => m.ofbArpTpa = v
  | arpSha v => m.ofbArpSha = v
  | arpTha v => m.ofbArpTha = v
  | tag v => m.ofbTag = v
  | unsupported _ => False

end OxmField

/-- A match in which calls of `setField` have set what they were told and nothing else: each field
holds the last value set for it, or what it held before, and the bits of exactly the fields that
were set are cleared. -/
structure SetsFields (memory : OxmBasicMatch) (calls : List OxmField) (m : OxmBasicMatch) :
    Prop where
  holdsLast : ∀ before c after, calls = before ++ c :: after →
    (∀ c' ∈ after, c'.field ≠ c.field) → c.HeldBy m
  keepsOthers : ∀ f : MatchField, (∀ c ∈ calls, c.field ≠ some f) → f.SameAt m memory
  cleared : ∀ f : MatchField,
    wildcarded m.wildcards f.wildcardBits = false ↔ ∃ c ∈ calls, c.field = some f

/-- The calls set what they are told, and calls on different fields may be exchanged. -/
structure SetsWhatItIsTold (memory : OxmBasicMatch) (calls : List OxmField) : Prop where
  sets : ∃ m, setFields (newMatchBuilder memory) calls = some m ∧ SetsFields memory calls m
  commute : ∀ before c c' after, calls = before ++ c :: c' :: after → c.field ≠ c'.field →
    setFields (newMatchBuilder memory) (before ++ c' :: c :: after) =
      setFields (newMatchBuilder memory) calls

/-! ## One call -/

variable {m m' memory : OxmBasicMatch} {c c' : OxmField} {calls : List OxmField} {f g : MatchField}

/-- The bits that the call for a field clears. -/
def MatchField.clearedBits : MatchField → UInt32
  | ipv4Src => ofpfwNwSrcAll
  | ipv4Dst => ofpfwNwDstAll
  | tag => ofpxmtOfbTag
  | f => f.wildcardBits

/-- The fields of ARP are the same. -/
def SameArp (m m' : OxmBasicMatch) : Prop :=
  m.ofbArpOp = m'.ofbArpOp ∧ m.ofbArpSpa = m'.ofbArpSpa ∧ m.ofbArpTpa = m'.ofbArpTpa ∧
    m.ofbArpSha = m'.ofbArpSha ∧ m.ofbArpTha = m'.ofbArpTha

/-- What a call on a field leaves: its value, the other fields as they were, its bits cleared. -/
structure SetTo (m : OxmBasicMatch) (c : OxmField) (f : MatchField) (m' : OxmBasicMatch) :
    Prop where
  heldBy : c.HeldBy m'
  others : ∀ g ≠ f, g.SameAt m' m
  arp : SameArp m' m
  wildcards : m'.wildcards = m.wildcards &&& ~~~f.clearedBits

theorem exists_setField (h : c.field = some f) (m : OxmBasicMatch) :
    ∃ m', setField m c = some m' ∧ SetTo m c f m' := by
  cases c
  all_goals
    cases h
  all_goals
    refine ⟨_, rfl, rfl, fun g hg => ?_, ⟨rfl, rfl, rfl, rfl, rfl⟩, rfl⟩
    cases g
  all_goals
    first
    | rfl
    | exact absurd rfl hg

theorem MatchField.SameAt.trans {m'' : OxmBasicMatch} (h : f.SameAt m m') (h' : f.SameAt m' m'') :
    f.SameAt m m'' := by
  cases f <;> exact Eq.trans h h'

theorem MatchField.SameAt.symm (h : f.SameAt m m') : f.SameAt m' m := by
  cases f <;> exact Eq.symm h

theorem MatchField.SameAt.heldBy (h : f.SameAt m m') (hf : c.field = some f) (hc : c.HeldBy m') :
    c.HeldBy m := by
  cases c <;> cases hf <;> exact Eq.trans h hc

theorem sameAt_of_heldBy (hf : c.field = some f) (h : c.HeldBy m) (h' : c.HeldBy m') :
    f.SameAt m m' := by
  cases c <;> cases hf <;> exact Eq.trans h h'.symm

theorem eq_of_sameAt (h : ∀ f : MatchField, f.SameAt m m') (harp : SameArp m m')
    (hwildcards : m.wildcards = m'.wildcards) : m = m' := by
  have h₁ : m.ofbInPort = m'.ofbInPort := h .inPort
  have h₂ : m.ofbEthSrc = m'.ofbEthSrc := h .ethSrc
  have h₃ : m.ofbEthDst = m'.ofbEthDst := h .ethDst
  have h₄ : m.ofbVlanVid = m'.ofbVlanVid := h .vlanVid
  have h₅ : m.ofbVlanPcp = m'.ofbVlanPcp := h .vlanPcp
  have h₆ : m.ofbEthType = m'.ofbEthType := h .ethType
  have h₇ : m.ofbIpDscp = m'.ofbIpDscp := h .ipDscp
  have h₈ : m.ofbIpProto = m'.ofbIpProto := h .ipProto
  have h₉ : m.ofbIpv4Src = m'.ofbIpv4Src := h .ipv4Src
  have h₁₀ : m.ofbIpv4Dst = m'.ofbIpv4Dst := h .ipv4Dst
  have h₁₁ : m.ofbTpSrc = m'.ofbTpSrc := h .tpSrc
  have h₁₂ : m.ofbTpDst = m'.ofbTpDst := h .tpDst
  have h₁₃ : m.ofbTag = m'.ofbTag := h .tag
  obtain ⟨harp₁, harp₂, harp₃, harp₄, harp₅⟩ := harp
  cases m
  cases m'
  simp only [OxmBasicMatch.mk.injEq]
  exact ⟨h₁, h₂, h₃, h₄, h₅, h₆, h₇, h₈, h₉, h₁₀, h₁₁, h₁₂, harp₁, harp₂, harp₃, harp₄, harp₅,
    h₁₃, hwildcards⟩

/-- Calls on different fields may be exchanged. -/
theorem setField_comm (hf : c.field = some f) (hg : c'.field = some g) (hne : f ≠ g)
    (m : OxmBasicMatch) :
    (setField m c).bind (setField · c') = (setField m c').bind (setField · c) := by
  obtain ⟨m₁, hm₁, h₁⟩ := exists_setField hf m
  obtain ⟨m₂, hm₂, h₂⟩ := exists_setField hg m
  obtain ⟨m₁₂, hm₁₂, h₁₂⟩ := exists_setField hg m₁
  obtain ⟨m₂₁, hm₂₁, h₂₁⟩ := exists_setField hf m₂
  rw [hm₁, hm₂, Option.bind_some, Option.bind_some, hm₁₂, hm₂₁]
  congr 1
  apply eq_of_sameAt
  · intro k
    by_cases hkf : k = f
    · -- the first order sets it before, the second after the other field
      rw [hkf]
      have hheld : c.HeldBy m₁₂ := (h₁₂.others f hne).heldBy hf h₁.heldBy
      exact sameAt_of_heldBy hf hheld h₂₁.heldBy
    · by_cases hkg : k = g
      · rw [hkg]
        have hheld : c'.HeldBy m₂₁ := (h₂₁.others g hne.symm).heldBy hg h₂.heldBy
        exact sameAt_of_heldBy hg h₁₂.heldBy hheld
      · have hold : k.SameAt m₁₂ m := (h₁₂.others k hkg).trans (h₁.others k hkf)
        exact hold.trans ((h₂₁.others k hkf).trans (h₂.others k hkg)).symm
  · obtain ⟨a₁, b₁, d₁, e₁, s₁⟩ := h₁.arp
    obtain ⟨a₂, b₂, d₂, e₂, s₂⟩ := h₂.arp
    obtain ⟨a₁₂, b₁₂, d₁₂, e₁₂, s₁₂⟩ := h₁₂.arp
    obtain ⟨a₂₁, b₂₁, d₂₁, e₂₁, s₂₁⟩ := h₂₁.arp
    exact ⟨(a₁₂.trans a₁).trans (a₂₁.trans a₂).symm, (b₁₂.trans b₁).trans (b₂₁.trans b₂).symm,
      (d₁₂.trans d₁).trans (d₂₁.trans d₂).symm, (e₁₂.trans e₁).trans (e₂₁.trans e₂).symm,
      (s₁₂.trans s₁).trans (s₂₁.trans s₂).symm⟩
  · rw [h₁₂.wildcards, h₁.wildcards, h₂₁.wildcards, h₂.wildcards, UInt32.and_assoc,
      UInt32.and_assoc, UInt32.and_comm (~~~f.clearedBits)]

/-! ## The wildcard bits -/

/-- The lowest bit of a field in the wildcards. -/
def MatchField.bit : MatchField → ℕ
  | inPort => 0
  | vlanVid => 1
  | ethSrc => 2
  | ethDst => 3
  | ethType => 4
  | ipProto => 5
  | tpSrc => 6
  | tpDst => 7
  | ipv4Src => 8
  | ipv4Dst => 14
  | vlanPcp => 20
  | ipDscp => 21
  | tag => 22

theorem MatchField.bit_lt (f : MatchField) : f.bit < 32 := by
  cases f <;> decide

/-- All fields but the addresses have one bit. -/
theorem wildcarded_iff_bit {wildcards : UInt32} (hsrc : f ≠ .ipv4Src) (hdst : f ≠ .ipv4Dst) :
    wildcarded wildcards f.wildcardBits ↔ wildcards.toNat.testBit f.bit := by
  cases f
  case ipv4Src => exact absurd rfl hsrc
  case ipv4Dst => exact absurd rfl hdst
  all_goals exact wildcarded_iff_testBit rfl

theorem wildcarded_of_bit {wildcards : UInt32} (h : wildcards.toNat.testBit f.bit) :
    wildcarded wildcards f.wildcardBits := by
  rw [wildcarded, bne_iff_ne]
  intro hzero
  have hand : (wildcards &&& f.wildcardBits).toNat.testBit f.bit = true := by
    rw [UInt32.toNat_and, Nat.testBit_and, h]
    cases f <;> rfl
  rw [hzero] at hand
  cases f <;> cases hand

/-- Which calls clear the lowest bit of a field. -/
theorem testBit_clearedBits (f g : MatchField) : g.clearedBits.toNat.testBit f.bit ↔
    (g = f ∧ f ≠ .ipv4Src ∧ f ≠ .ipv4Dst ∧ f ≠ .tag) ∨
      (g = .tag ∧ (f = .ethSrc ∨ f = .ipProto)) := by
  cases f <;> cases g <;> decide

theorem testBit_and_not {a b : UInt32} {i : ℕ} (h : i < 32) :
    (a &&& ~~~b).toNat.testBit i = (a.toNat.testBit i && !b.toNat.testBit i) := by
  have hnot : (~~~b).toBitVec.getLsbD i = !b.toBitVec.getLsbD i := by
    rw [UInt32.toBitVec_not, BitVec.getLsbD_not, decide_eq_true h, Bool.true_and]
  rw [UInt32.toNat_and, Nat.testBit_and]
  exact congrArg (a.toNat.testBit i && ·) hnot

/-! ## Sequences of calls -/

/-- A call of the sequence is for the field. -/
def Sets (calls : List OxmField) (f : MatchField) : Prop := ∃ c ∈ calls, c.field = some f

/-- The bit of a field is what it was, unless a call clears it. -/
def KeepsBits (calls : List OxmField) (m m' : OxmBasicMatch) : Prop :=
  ∀ f : MatchField, m'.wildcards.toNat.testBit f.bit ↔ m.wildcards.toNat.testBit f.bit ∧
    ∀ c ∈ calls, ∀ g, c.field = some g → ¬g.clearedBits.toNat.testBit f.bit

theorem SetTo.keepsBits (h : SetTo m c f m') (hf : c.field = some f) : KeepsBits [c] m m' := by
  intro k
  rw [h.wildcards, testBit_and_not k.bit_lt, Bool.and_eq_true, Bool.not_eq_true',
    ← Bool.not_eq_true]
  apply and_congr_right
  intro _
  constructor
  · intro hclear c' hc' g hg
    rw [List.mem_singleton.mp hc', hf] at hg
    cases hg
    exact hclear
  · exact fun hall => hall c (List.mem_singleton_self c) f hf

theorem KeepsBits.cons {m₁ : OxmBasicMatch} (h : KeepsBits [c] m m₁) (h' : KeepsBits calls m₁ m') :
    KeepsBits (c :: calls) m m' := by
  intro f
  rw [h' f, h f, List.forall_mem_singleton, List.forall_mem_cons, and_assoc]

/-- What a sequence of calls leaves. -/
theorem exists_setFields (h : ∀ c ∈ calls, c.field.isSome) (m : OxmBasicMatch) :
    ∃ m', setFields m calls = some m' ∧
      (∀ before c after, calls = before ++ c :: after →
        (∀ c' ∈ after, c'.field ≠ c.field) → c.HeldBy m') ∧
      (∀ f : MatchField, (∀ c ∈ calls, c.field ≠ some f) → f.SameAt m' m) ∧
      KeepsBits calls m m' := by
  induction calls generalizing m with
  | nil =>
    refine ⟨m, rfl, fun before c after heq => ?_, fun f _ => ?_, fun f => ?_⟩
    · cases before <;> cases heq
    · cases f <;> rfl
    · exact (and_iff_left fun c hc => absurd hc List.not_mem_nil).symm
  | cons c calls ih =>
    obtain ⟨hc, hcalls⟩ := List.forall_mem_cons.mp h
    obtain ⟨f, hf⟩ := Option.isSome_iff_exists.mp hc
    obtain ⟨m₁, hm₁, hset⟩ := exists_setField hf m
    obtain ⟨m', hm', hlast, hothers, hbits⟩ := ih hcalls m₁
    refine ⟨m', ?_, fun before c' after heq hafter => ?_, fun g hg => ?_,
      (hset.keepsBits hf).cons hbits⟩
    · rw [setFields, List.foldlM_cons, hm₁]
      exact hm'
    · cases before with
      | nil =>
        -- no later call is for the field of the first one
        obtain ⟨rfl, rfl⟩ := List.cons.inj heq
        have hsame : f.SameAt m' m₁ := hothers f fun c' hc' => hf ▸ hafter c' hc'
        exact hsame.heldBy hf hset.heldBy
      | cons b before => exact hlast before c' after (List.cons.inj heq).2 hafter
    · obtain ⟨hcg, hcallsg⟩ := List.forall_mem_cons.mp hg
      have hne : g ≠ f := fun heq => hcg (heq ▸ hf)
      exact (hothers g hcallsg).trans (hset.others g hne)

/-- The fields whose bits are cleared in the match of a new builder: those that were set, but not
the addresses, the tag in any case, and the Ethernet source and the IP protocol with it. -/
theorem cleared_iff (h : KeepsBits calls (newMatchBuilder memory) m) (f : MatchField) :
    wildcarded m.wildcards f.wildcardBits = false ↔
      f = .tag ∨ (f ≠ .ipv4Src ∧ f ≠ .ipv4Dst ∧
        (Sets calls f ∨ Sets calls .tag ∧ (f = .ethSrc ∨ f = .ipProto))) := by
  have hall : (newMatchBuilder memory).wildcards.toNat.testBit f.bit ↔ f ≠ .tag := by
    change ofpfwAll.toNat.testBit f.bit ↔ _
    cases f <;> decide
  have hbit := h f
  rw [hall] at hbit
  by_cases haddress : f = .ipv4Src ∨ f = .ipv4Dst
  · -- no call clears the lowest bit of an address
    have hset : m.wildcards.toNat.testBit f.bit := by
      refine hbit.mpr ⟨?_, fun c _ g _ hclear => ?_⟩
      · rcases haddress with rfl | rfl <;> decide
      · rcases (testBit_clearedBits f g).mp hclear with ⟨-, hsrc, hdst, -⟩ | ⟨-, hbelongs⟩
        · exact haddress.elim hsrc hdst
        · rcases haddress with rfl | rfl <;> rcases hbelongs with hbelongs | hbelongs <;>
            cases hbelongs
    rw [wildcarded_of_bit hset]
    rcases haddress with rfl | rfl <;> simp
  · obtain ⟨hsrc, hdst⟩ := not_or.mp haddress
    rw [← Bool.not_eq_true, wildcarded_iff_bit hsrc hdst, hbit]
    by_cases htag : f = .tag
    · simp [htag]
    · simp only [htag, hsrc, hdst, ne_eq, not_false_eq_true, true_and, false_or, not_forall,
        not_not, testBit_clearedBits, and_true, exists_prop]
      constructor
      · rintro ⟨c, hc, g, hg, rfl | ⟨rfl, hbelongs⟩⟩
        · exact .inl ⟨c, hc, hg⟩
        · exact .inr ⟨⟨c, hc, hg⟩, hbelongs⟩
      · rintro (⟨c, hc, hg⟩ | ⟨⟨c, hc, hg⟩, hbelongs⟩)
        · exact ⟨c, hc, f, hg, .inl rfl⟩
        · exact ⟨c, hc, .tag, hg, .inr ⟨rfl, hbelongs⟩⟩

theorem setFields_exchange (hf : c.field = some f) (hg : c'.field = some g) (hne : f ≠ g)
    (m : OxmBasicMatch) (before after : List OxmField) :
    setFields m (before ++ c' :: c :: after) = setFields m (before ++ c :: c' :: after) := by
  simp only [setFields, List.foldlM_append, List.foldlM_cons]
  congr 1
  funext m₁
  have hcomm := setField_comm hf hg hne m₁
  have hassoc (c c' : OxmField) : ((setField m₁ c).bind fun m₂ => (setField m₂ c').bind fun m₃ =>
      after.foldlM setField m₃) = ((setField m₁ c).bind (setField · c')).bind fun m₃ =>
        after.foldlM setField m₃ := (Option.bind_assoc ..).symm
  change ((setField m₁ c').bind fun m₂ => (setField m₂ c).bind fun m₃ =>
      after.foldlM setField m₃) = (setField m₁ c).bind fun m₂ => (setField m₂ c').bind fun m₃ =>
        after.foldlM setField m₃
  rw [hassoc c' c, hassoc c c', hcomm]

/-- A builder sets what it is told and nothing else exactly when it is told to set the tag, the
Ethernet source and the IP protocol, and no IP address. -/
theorem setsWhatItIsTold_iff (h : ∀ c ∈ calls, c.field.isSome) :
    SetsWhatItIsTold memory calls ↔ Sets calls .tag ∧ Sets calls .ethSrc ∧ Sets calls .ipProto ∧
      ¬Sets calls .ipv4Src ∧ ¬Sets calls .ipv4Dst := by
  obtain ⟨m, hm, hlast, hothers, hbits⟩ := exists_setFields h (newMatchBuilder memory)
  have hcleared := cleared_iff hbits
  constructor
  · rintro ⟨⟨m', hm', hsets⟩, -⟩
    obtain rfl := Option.some.inj (hm.symm.trans hm')
    have hiff (f : MatchField) := (hsets.cleared f).symm.trans (hcleared f)
    -- the bit of the tag is never set, so the tag counts as set
    have htag : Sets calls .tag := (hiff .tag).mpr (.inl rfl)
    refine ⟨htag, (hiff .ethSrc).mpr ?_, (hiff .ipProto).mpr ?_, fun hsrc => ?_, fun hdst => ?_⟩
    · exact .inr ⟨by decide, by decide, .inr ⟨htag, .inl rfl⟩⟩
    · exact .inr ⟨by decide, by decide, .inr ⟨htag, .inr rfl⟩⟩
    · rcases (hiff .ipv4Src).mp hsrc with htag | ⟨hne, -⟩
      · cases htag
      · exact hne rfl
    · rcases (hiff .ipv4Dst).mp hdst with htag | ⟨-, hne, -⟩
      · cases htag
      · exact hne rfl
  · rintro ⟨htag, hethSrc, hipProto, hsrc, hdst⟩
    refine ⟨⟨m, hm, hlast, fun f hf => ?_, fun f => ?_⟩, fun before c c' after heq hne => ?_⟩
    · have hmemory : f.SameAt (newMatchBuilder memory) memory := by cases f <;> rfl
      exact (hothers f hf).trans hmemory
    · rw [hcleared f]
      change _ ↔ Sets calls f
      constructor
      · rintro (rfl | ⟨-, -, hset | ⟨-, rfl | rfl⟩⟩)
        · exact htag
        · exact hset
        · exact hethSrc
        · exact hipProto
      · intro hset
        exact .inr ⟨fun heq => hsrc (heq ▸ hset), fun heq => hdst (heq ▸ hset), .inl hset⟩
    · subst heq
      have hmem : c ∈ before ++ c :: c' :: after ∧ c' ∈ before ++ c :: c' :: after := by simp
      obtain ⟨f, hf⟩ := Option.isSome_iff_exists.mp (h c hmem.1)
      obtain ⟨g, hg⟩ := Option.isSome_iff_exists.mp (h c' hmem.2)
      have hfg : f ≠ g := fun heq => hne (by rw [hf, hg, heq])
      exact setFields_exchange hf hg hfg _ before after

theorem setsWhatItIsTold_iff_tag : SetsWhatItIsTold .zero [.ethSrc 1, .ipProto 17, .tag 5] ↔
    Sets [.ethSrc 1, .ipProto 17, .tag 5] .tag ∧ Sets [.ethSrc 1, .ipProto 17, .tag 5] .ethSrc ∧
      Sets [.ethSrc 1, .ipProto 17, .tag 5] .ipProto ∧
      ¬Sets [.ethSrc 1, .ipProto 17, .tag 5] .ipv4Src ∧
      ¬Sets [.ethSrc 1, .ipProto 17, .tag 5] .ipv4Dst := by
  apply setsWhatItIsTold_iff
  simp [OxmField.field]

/-- The tag alone clears the bits of the Ethernet source. -/
theorem not_setsWhatItIsTold : ¬∀ (memory : OxmBasicMatch) (calls : List OxmField),
    (∀ c ∈ calls, c.field.isSome) → SetsWhatItIsTold memory calls := by
  intro h
  obtain ⟨⟨m, hm, hsets⟩, -⟩ := h .zero [.tag 5] (by simp [OxmField.field])
  have hcleared : wildcarded m.wildcards MatchField.ethSrc.wildcardBits = false := by
    cases hm
    rfl
  obtain ⟨c, hc, hfield⟩ := (hsets.cleared .ethSrc).mp hcleared
  rw [List.mem_singleton.mp hc] at hfield
  cases hfield

end TsnReconfig.OpenFlow
