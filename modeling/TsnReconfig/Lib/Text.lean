import Mathlib.Data.Int.Order.Basic
import Mathlib.Data.List.TakeWhile

/-!
# Numbers as texts

Decimal numbers read with `strtol` and `atoi` of the C library, and bytes with two hexadecimal
digits.
-/

namespace TsnReconfig.Lib

/-! ## Decimal numbers -/

/-- `LONG_MAX`. -/
def longMax : ℤ := 9223372036854775807

/-- `isspace`. -/
def isSpace (c : Char) : Bool := c.isWhitespace || c.toNat == 11 || c.toNat == 12

/-- The sign of a number and the text behind it. -/
def readSign : List Char → Bool × List Char
  | '-' :: text => (true, text)
  | '+' :: text => (false, text)
  | text => (false, text)

/-- `strtol` for the base 10, which stops at `LONG_MIN` and `LONG_MAX`. -/
def strtol (text : String) : ℤ :=
  let signed := readSign (text.toList.dropWhile isSpace)
  let n : ℤ := Nat.ofDigitChars 10 (signed.2.takeWhile Char.isDigit) 0
  max (-longMax - 1) (min longMax (if signed.1 then -n else n))

/-- `atoi`, the lower 32 bits of what `strtol` returns. -/
def atoi (text : String) : ℤ := (strtol text).bmod 4294967296

theorem isDigit_toDigits {n : ℕ} : ∀ c ∈ Nat.toDigits 10 n, c.isDigit :=
  fun _ hc => Nat.isDigit_of_mem_toDigits (by decide) (by decide) hc

theorem isSpace_of_isDigit {c : Char} (h : c.isDigit) : isSpace c = false := by
  have hdigit : 48 ≤ c.toNat ∧ c.toNat ≤ 57 := by
    simpa [Char.isDigit, UInt32.le_iff_toNat_le] using h
  have hne : ∀ d : Char, d.toNat < 48 → c ≠ d := by
    intro d hd hcd
    rw [hcd] at hdigit
    omega
  have hspace : c.isWhitespace = false := by
    simp [Char.isWhitespace, hne]
  rw [isSpace, hspace, Bool.false_or, Bool.or_eq_false_iff, beq_eq_false_iff_ne,
    beq_eq_false_iff_ne]
  omega

/-- A text that begins with a digit has no sign. -/
theorem readSign_of_isDigit {c : Char} {text : List Char} (h : c.isDigit) :
    readSign (c :: text) = (false, c :: text) := by
  unfold readSign
  split
  · rename_i heq
    cases heq
    cases h
  · rename_i heq
    cases heq
    cases h
  · rfl

theorem strtol_ofNat (n : ℕ) : strtol (toString (n : ℤ)) = min longMax n := by
  have htext : (toString (n : ℤ)).toList = Nat.toDigits 10 n := by
    show (n.repr).toList = _
    exact Nat.toList_repr
  have hread : readSign ((toString (n : ℤ)).toList.dropWhile isSpace) =
      (false, Nat.toDigits 10 n) := by
    rw [htext]
    cases hd : Nat.toDigits 10 n with
    | nil => exact absurd hd Nat.toDigits_ne_nil
    | cons c text =>
      have hc : c.isDigit := @isDigit_toDigits n c (by simp [hd])
      rw [List.dropWhile_cons_of_neg (by simp [isSpace_of_isDigit hc]), readSign_of_isDigit hc]
  simp only [strtol, hread, List.takeWhile_eq_self_iff.mpr isDigit_toDigits,
    Nat.ofDigitChars_ten_toDigits, Bool.false_eq_true, if_false]
  have : longMax = 9223372036854775807 := rfl
  omega

theorem strtol_negSucc (n : ℕ) :
    strtol (toString (Int.negSucc n)) = max (-longMax - 1) (Int.negSucc n) := by
  have htext : (toString (Int.negSucc n)).toList = '-' :: Nat.toDigits 10 (n + 1) := by
    show ("-" ++ (n + 1).repr).toList = _
    simp
  have hread : readSign ((toString (Int.negSucc n)).toList.dropWhile isSpace) =
      (true, Nat.toDigits 10 (n + 1)) := by
    rw [htext]
    rfl
  simp only [strtol, hread, List.takeWhile_eq_self_iff.mpr isDigit_toDigits,
    Nat.ofDigitChars_ten_toDigits]
  have : longMax = 9223372036854775807 := rfl
  simp only [if_true, Int.negSucc_eq]
  omega

/-- The decimal of a number that fits into 64 bits is read right, but for its upper bits. -/
theorem atoi_toString {n : ℤ} (hmin : -longMax - 1 ≤ n) (hmax : n ≤ longMax) :
    atoi (toString n) = n.bmod 4294967296 := by
  unfold atoi
  cases n with
  | ofNat n =>
    have hmin : min longMax (n : ℤ) = n := min_eq_right hmax
    rw [show Int.ofNat n = (n : ℤ) from rfl, strtol_ofNat, hmin]
  | negSucc n => rw [strtol_negSucc, max_eq_right hmin]

/-- The decimal of a number that fits into 32 bits is read right. -/
theorem atoi_toString_of_lt {n : ℤ} (hmin : -2147483648 ≤ n) (hmax : n < 2147483648) :
    atoi (toString n) = n := by
  have hlong : longMax = 9223372036854775807 := rfl
  rw [atoi_toString (by omega) (by omega), Int.bmod_eq_of_le] <;> omega

/-- A number of 64 bits that is written out and read with `atoi`. -/
def readWithAtoi (x : UInt64) : UInt64 := .ofInt (atoi (toString (x.toNat : ℤ)))

theorem readWithAtoi_eq (x : UInt64) :
    readWithAtoi x = .ofInt ((min longMax (x.toNat : ℤ)).bmod 4294967296) := by
  rw [readWithAtoi, atoi, strtol_ofNat]

/-- The numbers that `atoi` reads as they were written: those of an `int`, and the greatest one. -/
def ReadsBack (x : UInt64) : Prop := x.toNat < 2147483648 ∨ x.toNat = 18446744073709551615

instance : DecidablePred ReadsBack := fun x =>
  inferInstanceAs (Decidable (x.toNat < 2147483648 ∨ x.toNat = 18446744073709551615))

/-- What is read has the sign of the lower 32 bits, or is the lower half of `LONG_MAX`. -/
theorem toNat_readWithAtoi (x : UInt64) :
    (readWithAtoi x).toNat =
      if 9223372036854775807 ≤ x.toNat then 18446744073709551615
      else if x.toNat % 4294967296 < 2147483648 then x.toNat % 4294967296
      else 18446744069414584320 + x.toNat % 4294967296 := by
  have hlt := x.toNat_lt
  have hlong : longMax = 9223372036854775807 := rfl
  have hmax : longMax.bmod 4294967296 = -1 := by decide
  rw [readWithAtoi_eq, UInt64.ofInt, UInt64.toNat_ofNat']
  simp only [Nat.reducePow, Int.reducePow] at *
  rcases le_total longMax (x.toNat : ℤ) with h | h
  · rw [min_eq_left h, hmax]
    split_ifs <;> omega
  · rw [min_eq_right h, Int.bmod_def]
    split_ifs <;> omega

theorem readWithAtoi_eq_self_iff (x : UInt64) : readWithAtoi x = x ↔ ReadsBack x := by
  have hlt := x.toNat_lt
  rw [← UInt64.toNat_inj, toNat_readWithAtoi, ReadsBack]
  split_ifs <;> omega

/-- After two times the number does not change any more. -/
theorem readsBack_readWithAtoi (x : UInt64) : ReadsBack (readWithAtoi (readWithAtoi x)) := by
  rw [ReadsBack, toNat_readWithAtoi, toNat_readWithAtoi]
  split_ifs <;> omega

/-! ## Hexadecimal digits -/

/-- A digit as `%X` writes it. -/
def hexDigit (d : ℕ) : Char := (Nat.digitChar d).toUpper

/-- A byte as `%2.2X` writes it. -/
def hexByte (b : ℕ) : List Char := [hexDigit (b / 16), hexDigit (b % 16)]

/-- `isxdigit`. -/
def isHexDigit (c : Char) : Bool :=
  c.isDigit || (97 ≤ c.toNat && c.toNat ≤ 102) || (65 ≤ c.toNat && c.toNat ≤ 70)

def hexValue (c : Char) : ℕ :=
  if c.isDigit then c.toNat - 48 else if c.isLower then c.toNat - 87 else c.toNat - 55

theorem hexDigit_spec : ∀ d < 16, isHexDigit (hexDigit d) ∧ hexValue (hexDigit d) = d := by
  decide

theorem isHexDigit_hexByte {b : ℕ} (hb : b < 256) : ∀ c ∈ hexByte b, isHexDigit c := by
  intro c hc
  rcases List.mem_cons.mp hc with rfl | hc
  · exact (hexDigit_spec _ (by omega)).1
  · obtain rfl := List.mem_singleton.mp hc
    exact (hexDigit_spec _ (by omega)).1

/-- The value of hexadecimal digits. -/
def ofHexDigits (digits : List Char) : ℕ := digits.foldl (fun n c => 16 * n + hexValue c) 0

theorem foldl_hexByte {b : ℕ} (hb : b < 256) (n : ℕ) :
    (hexByte b).foldl (fun n c => 16 * n + hexValue c) n = 256 * n + b := by
  have hhigh := (hexDigit_spec (b / 16) (by omega)).2
  have hlow := (hexDigit_spec (b % 16) (by omega)).2
  simp only [hexByte, List.foldl_cons, List.foldl_nil, hhigh, hlow]
  omega

end TsnReconfig.Lib
